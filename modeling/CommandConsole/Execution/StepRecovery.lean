import CommandConsole.Execution.Footprint
import CommandConsole.Execution.TerminalReconciliation

/-! # Recovery of the current step

The running branch weighs the attempts, the ledger and the persisted step. The
ledger never reaches it: the validation payload has none, so what only the
ledger tells about a step is not heeded.
-/
namespace CommandConsole.Execution
open Library
set_option autoImplicit false

section Evidence

variable {plan : CheckpointPlan} {executionId : String} {checkpoint : Checkpoint} {db : Db}

/-- The evidence that the running branch gathers in `db`. -/
def currentEvidence (plan : CheckpointPlan) (executionId : String) (checkpoint : Checkpoint) (db : Db) :
    StepEvidence :=
  gatherEvidence plan ⟨none, none, listExecutionAttempts db plan.id, []⟩ executionId checkpoint db

namespace StepEvidence

def runsLive (evidence : StepEvidence) (now : Int) : Bool :=
  evidence.latestAttempt.any fun attempt => attempt.status = .running && now < attempt.leaseExpiresAt

/-- The step row was started or paused and has not failed. -/
def persistedOpen (evidence : StepEvidence) : Bool :=
  (evidence.persistedStep.started || evidence.persistedStep.pausedForReview) && !evidence.persistedStep.failed

/-- A failed latest attempt calls for a review by the operator. -/
def failedForReview (evidence : StepEvidence) : Bool :=
  (decideRecoveryAction evidence.step evidence.failedAttempt).1 = .operatorRecovery

/-- What the running branch decides while the ledger is silent. -/
def decision (evidence : StepEvidence) (now : Int) (cancellationRequested : Bool) : ReconcileAction :=
  if evidence.stats.overdue now then .operatorRecovery
  else if maxExecutionAttempts ≤ evidence.stats.totalAttempts then .abandon
  else if evidence.persistedStep.completed && !evidence.latestIs .completed then .operatorRecovery
  else if evidence.latestIs .completed then .continue
  else if evidence.latestIs .failed then (decideRecoveryAction evidence.step evidence.failedAttempt).1.action
  else if evidence.runsLive now then if cancellationRequested then .cancelPending else .noop
  else if cancellationRequested then .cancelled
  else if evidence.latestAttempt.isSome || evidence.persistedOpen then .operatorRecovery
  else .resume

end StepEvidence

theorem currentEvidence_silent : (currentEvidence plan executionId checkpoint db).attemptLedger.started = false ∧
    (currentEvidence plan executionId checkpoint db).attemptLedger.completed = false ∧
    (currentEvidence plan executionId checkpoint db).attemptLedger.failed = false ∧
    (currentEvidence plan executionId checkpoint db).attemptLedger.cancelled = false := ⟨rfl, rfl, rfl, rfl⟩

end Evidence

section Transitions

variable {planId executionId : String} {db : Db} {row : LockRow} {checkpoint : Checkpoint}

/-- The result is what a branch asks for, unless the branch fails. -/
def Yields (result : Result Reconciliation) (action : ReconcileAction) : Prop :=
  ∀ reconciliation, result = .ok reconciliation → reconciliation.action = action

theorem transition_of_held (hRow : db.lockOf planId = some row) (hExecution : row.executionId = executionId)
    (options : TransitionOptions) (hCheckpoint : readCheckpointRow db planId = some checkpoint)
    (hRelease : options.releaseLock = true) (action : ReconcileAction) (fallback : Option Checkpoint)
    (clock : Nat → Env) (n : Nat) :
    ∃ reconciliation, (transition planId executionId options action fallback clock n db).1 = .ok reconciliation ∧
      reconciliation.action = action := by
  have hRun := transact_of_ok (finalizeExecutionTransition_of_held hRow hExecution
    (.inl (by rw [hCheckpoint]; exact Option.some_ne_none checkpoint)) hRelease (clock n))
  rw [transition, transaction_bind, hRun]
  exact ⟨_, rfl, rfl⟩

theorem queueRecoveryReview_yields (planId executionId : String) (checkpoint : Checkpoint) (stepId : Option String)
    (reason : String) (clock : Nat → Env) (n : Nat) (db : Db) :
    Yields (queueRecoveryReview planId executionId checkpoint stepId reason clock n db).1 .operatorRecovery := by
  intro reconciliation hOk
  change (transact (queueRecoveryReviewTx planId executionId checkpoint stepId reason) (clock n) db).1 = _ at hOk
  cases hRun : queueRecoveryReviewTx planId executionId checkpoint stepId reason (clock n) db with
  | error err =>
    rw [transact_of_throw hRun] at hOk
    cases hOk
  | ok result =>
    obtain ⟨outcome, db'⟩ := result
    rw [transact_of_ok hRun] at hOk
    dsimp only at hOk
    subst hOk
    obtain ⟨_, _, -, hRest⟩ := Tx.bind_eq_ok.mp hRun
    obtain ⟨_, _, -, hRest⟩ := Tx.bind_eq_ok.mp hRest
    cases hRest
    rfl

theorem yields_of_ok {result : Result Reconciliation} {action : ReconcileAction}
    (h : ∃ reconciliation, result = .ok reconciliation ∧ reconciliation.action = action) : Yields result action := by
  obtain ⟨reconciliation, rfl, hAction⟩ := h
  rintro other ⟨⟩
  exact hAction

end Transitions

section Decision

variable {plan : CheckpointPlan} {lock : LockRow} {checkpoint : Checkpoint} {evidence : StepEvidence} {db : Db}
  {clock : Nat → Env} {n : Nat}

theorem reconcileCancellation_yields (hRow : db.lockOf plan.id = some lock)
    (hCheckpoint : readCheckpointRow db plan.id = some checkpoint) :
    Yields (reconcileCancellation plan lock checkpoint evidence clock n db).1 .cancelled := by
  have hCancel (n : Nat) (db : Db) (hRow : db.lockOf plan.id = some lock)
      (hCheckpoint : readCheckpointRow db plan.id = some checkpoint) :=
    yields_of_ok (transition_of_held hRow rfl {
      status := some .cancelled, overrides := { currentStep := some checkpoint.currentStep }
      eventType := some .executionCancelled, stepId := evidence.stepId } hCheckpoint rfl .cancelled
      (some checkpoint) clock n)
  unfold reconcileCancellation
  cases hAttempt : evidence.latestAttempt.filter fun attempt => attempt.status = .running with
  | none => exact hCancel n db hRow hCheckpoint
  | some attempt =>
    dsimp only
    rw [transaction_bind]
    have hKept {τ : Type} (view : Db → τ) (hAttempts : IgnoresAttempts view) (hExecutions : IgnoresExecutions view)
        (hEvent : IgnoresEvent view (.attempt .cancelled)) :
        view (transact (cancelExecutionAttempt plan.id lock.executionId attempt.stepId attempt.attemptNumber)
          (clock n) db).2 = view db :=
      transact_respects (R := fun db db' => view db' = view db)
        (keeps_finalizeAttempt hAttempts hExecutions hEvent _ _ _ _) (clock n) db
    cases hRun : (transact (cancelExecutionAttempt plan.id lock.executionId attempt.stepId attempt.attemptNumber)
        (clock n) db).1 with
    | error err =>
      rintro reconciliation ⟨⟩
    | ok data =>
      refine hCancel (n + 1) _ ?_ ?_
      · have hLock := hKept (fun db => db.lockOf plan.id) (fun _ _ => rfl) (fun _ _ => rfl)
          fun _ _ _ => rfl
        exact hLock.trans hRow
      · have hRead := hKept (fun db => readCheckpointRow db plan.id) (fun _ _ => rfl) (fun _ _ => rfl)
          fun _ _ _ => rfl
        exact hRead.trans hCheckpoint

theorem ensureIdentity_of_blank_execution (planId : String) {executionId : String} (h : isBlank executionId = true) :
    ∃ err, ensureIdentity planId executionId = some err := by
  unfold ensureIdentity
  split
  · exact ⟨_, rfl⟩
  · exact ⟨_, rfl⟩

theorem finalizeAttempt_of_found {planId executionId stepId : String} {attemptNumber : Int}
    (status : AttemptStatus) {attempt : AttemptRow} (hId : ensureIdentity planId executionId = none)
    (hFind : db.executionAttempts.find? (planId, executionId, stepId, attemptNumber) = some attempt) (env : Env) :
    ∃ data db', finalizeAttempt planId executionId stepId attemptNumber status env db = .ok (.ok data, db') := by
  rw [finalizeAttempt, identified_of_valid hId, Tx.ask_bind, Tx.get_bind, hFind]
  dsimp only
  rw [Tx.modify_bind]
  cases finalizedMetrics status env.nowMs (db.executions.find? executionId) with
  | none => exact ⟨_, _, rfl⟩
  | some updates => exact ⟨_, _, rfl⟩

/-- A cancellation succeeds unless it has an attempt to close under a blank execution id. -/
theorem reconcileCancellation_ok (hRow : db.lockOf plan.id = some lock)
    (hCheckpoint : readCheckpointRow db plan.id = some checkpoint) (hBlank : isBlank plan.id = false)
    (hLatest : ∀ attempt, evidence.latestAttempt = some attempt → db.executionAttempts.find?
      (plan.id, lock.executionId, attempt.stepId, attempt.attemptNumber) = some attempt) :
    (∃ reconciliation, (reconcileCancellation plan lock checkpoint evidence clock n db).1 = .ok reconciliation) ↔
      ¬(evidence.latestIs .running = true ∧ isBlank lock.executionId = true) := by
  have hCancel (n : Nat) (db : Db) (hRow : db.lockOf plan.id = some lock)
      (hCheckpoint : readCheckpointRow db plan.id = some checkpoint) :=
    transition_of_held hRow rfl {
      status := some .cancelled, overrides := { currentStep := some checkpoint.currentStep }
      eventType := some .executionCancelled, stepId := evidence.stepId } hCheckpoint rfl .cancelled
      (some checkpoint) clock n
  unfold reconcileCancellation StepEvidence.latestIs
  cases hAttempt : evidence.latestAttempt.filter fun attempt => attempt.status = .running with
  | none =>
    obtain ⟨reconciliation, hOk, -⟩ := hCancel n db hRow hCheckpoint
    refine iff_of_true ⟨reconciliation, hOk⟩ ?_
    rintro ⟨hRunning, -⟩
    rw [Option.filter_eq_none_iff] at hAttempt
    obtain ⟨attempt, hSome, hIs⟩ := (Option.any_eq_true _ _).mp hRunning
    exact hAttempt attempt hSome hIs
  | some attempt =>
    rw [Option.filter_eq_some_iff] at hAttempt
    have hRunning : evidence.latestAttempt.any (fun attempt => attempt.status = .running) = true := by
      rw [hAttempt.1]
      exact hAttempt.2
    dsimp only
    rw [transaction_bind]
    cases hId : ensureIdentity plan.id lock.executionId with
    | some err =>
      have hRefused : cancelExecutionAttempt plan.id lock.executionId attempt.stepId attempt.attemptNumber
          (clock n) db = .ok (.error err, db) := by
        rw [cancelExecutionAttempt, finalizeAttempt, identified_of_invalid hId, Tx.pure_apply]
      rw [transact_of_ok hRefused]
      refine iff_of_false ?_ (not_not.mpr ⟨hRunning, ?_⟩)
      · rintro ⟨reconciliation, ⟨⟩⟩
      · by_contra hValid
        simp [ensureIdentity, hBlank, hValid] at hId
    | none =>
      obtain ⟨data, db', hDone⟩ := finalizeAttempt_of_found .cancelled hId
        (hLatest attempt hAttempt.1) (clock n)
      have hView {τ : Type} (view : Db → τ) (hAttempts : IgnoresAttempts view)
          (hExecutions : IgnoresExecutions view) (hEvent : IgnoresEvent view (.attempt .cancelled)) :
          view db' = view db :=
        keeps_finalizeAttempt hAttempts hExecutions hEvent plan.id lock.executionId attempt.stepId
          attempt.attemptNumber (clock n) db _ db' hDone
      have hLock : db'.lockOf plan.id = db.lockOf plan.id :=
        hView (fun db => db.lockOf plan.id) (fun _ _ => rfl) (fun _ _ => rfl) fun _ _ _ => rfl
      have hRead : readCheckpointRow db' plan.id = readCheckpointRow db plan.id :=
        hView (fun db => readCheckpointRow db plan.id) (fun _ _ => rfl) (fun _ _ => rfl) fun _ _ _ => rfl
      have hDone' : cancelExecutionAttempt plan.id lock.executionId attempt.stepId attempt.attemptNumber
          (clock n) db = .ok (.ok data, db') := hDone
      rw [transact_of_ok hDone']
      obtain ⟨reconciliation, hOk, -⟩ := hCancel (n + 1) db' (hLock.trans hRow) (hRead.trans hCheckpoint)
      refine iff_of_true ⟨reconciliation, hOk⟩ ?_
      rintro ⟨-, hExecution⟩
      obtain ⟨err, hErr⟩ := ensureIdentity_of_blank_execution plan.id hExecution
      rw [hId] at hErr
      cases hErr

end Decision

/-- An action that needs no review is also taken, unless it is a cancellation that is refused. -/
structure Follows (result : Result Reconciliation) (action : ReconcileAction) (refused : Prop) : Prop where
  yields : Yields result action
  taken : action ≠ .operatorRecovery →
    ((∃ reconciliation, result = .ok reconciliation) ↔ ¬(action = .cancelled ∧ refused))

section Follow

variable {result : Result Reconciliation} {action : ReconcileAction} {refused : Prop}

theorem follows_of_ok (hAction : action ≠ .cancelled)
    (h : ∃ reconciliation, result = .ok reconciliation ∧ reconciliation.action = action) :
    Follows result action refused := by
  refine ⟨yields_of_ok h, fun _ => ?_⟩
  obtain ⟨reconciliation, hOk, -⟩ := h
  exact iff_of_true ⟨reconciliation, hOk⟩ fun hRefused => hAction hRefused.1

theorem follows_ite {c d : Prop} [Decidable c] [Decidable d] {taken other : Op (Result Reconciliation)}
    {action' : ReconcileAction} {clock : Nat → Env} {n : Nat} {db : Db} (hIff : c ↔ d)
    (hTaken : d → Follows (taken clock n db).1 action refused)
    (hOther : ¬d → Follows (other clock n db).1 action' refused) :
    Follows ((if c then taken else other : Op (Result Reconciliation)) clock n db).1
      (if d then action else action') refused := by
  by_cases h : d
  · rw [if_pos h, if_pos (hIff.mpr h)]
    exact hTaken h
  · rw [if_neg h, if_neg (mt hIff.mp h)]
    exact hOther h

theorem follows_review (h : Yields result .operatorRecovery) : Follows result .operatorRecovery refused :=
  ⟨h, fun hAction => absurd rfl hAction⟩

end Follow

/-- A cancellation with an attempt to close under a blank execution id. -/
def refusesCancellation (lock : LockRow) (evidence : StepEvidence) : Prop :=
  evidence.latestIs .running = true ∧ isBlank lock.executionId = true

section Step

variable {plan : CheckpointPlan} {lock : LockRow} {checkpoint : Checkpoint} {evidence : StepEvidence} {db : Db}
  {clock : Nat → Env} {n : Nat}

theorem reconcileFailedAttempt_follows (refused : Prop) :
    Follows (reconcileFailedAttempt plan lock checkpoint evidence clock n db).1
      (decideRecoveryAction evidence.step evidence.failedAttempt).1.action refused := by
  unfold reconcileFailedAttempt
  by_cases hReview : (decideRecoveryAction evidence.step evidence.failedAttempt).1 = .operatorRecovery
  · rw [if_pos hReview, hReview]
    exact follows_review (queueRecoveryReview_yields _ _ _ _ _ _ _ _)
  · rw [if_neg hReview]
    refine follows_of_ok ?_ ⟨_, rfl, rfl⟩
    cases (decideRecoveryAction evidence.step evidence.failedAttempt).1 <;> rintro ⟨⟩

/-- While the ledger is silent the running branch follows the decision. -/
theorem reconcileStep_follows (hRow : db.lockOf plan.id = some lock)
    (hCheckpoint : readCheckpointRow db plan.id = some checkpoint) (hBlank : isBlank plan.id = false)
    (hLatest : ∀ attempt, evidence.latestAttempt = some attempt → db.executionAttempts.find?
      (plan.id, lock.executionId, attempt.stepId, attempt.attemptNumber) = some attempt)
    (hSilent : evidence.attemptLedger.started = false ∧ evidence.attemptLedger.completed = false ∧
      evidence.attemptLedger.failed = false ∧ evidence.attemptLedger.cancelled = false)
    (now : Int) :
    Follows (reconcileStep plan lock checkpoint evidence now clock n db).1
      (evidence.decision now checkpoint.cancellationRequested) (refusesCancellation lock evidence) := by
  obtain ⟨hStarted, hCompleted, hFailed, hCancelled⟩ := hSilent
  have hReview (reason : String) : Follows (queueRecoveryReview plan.id lock.executionId checkpoint
      evidence.stepId reason clock n db).1 .operatorRecovery (refusesCancellation lock evidence) :=
    follows_review (queueRecoveryReview_yields _ _ _ _ _ _ _ _)
  refine follows_ite Iff.rfl (fun _ => hReview _) fun _ => ?_
  refine follows_ite Iff.rfl (fun _ => follows_of_ok (by rintro ⟨⟩)
    (transition_of_held hRow rfl _ hCheckpoint rfl _ _ clock n)) fun _ => ?_
  refine follows_ite (by simp [hCompleted]) (fun _ => hReview _) fun hMatched => ?_
  refine follows_ite (by simp [hCompleted]) (fun _ => ?_) fun hOpen => ?_
  · rw [transaction_bind]
    cases (transact (checkpointAfterStep plan.id checkpoint.currentStep plan.steps.length) (clock n) db).1 with
    | error err => exact follows_of_ok (by rintro ⟨⟩) ⟨_, rfl, rfl⟩
    | ok advanced => exact follows_of_ok (by rintro ⟨⟩) ⟨_, rfl, rfl⟩
  refine follows_ite (by simp [hFailed]) (fun _ => reconcileFailedAttempt_follows _) fun _ => ?_
  refine follows_ite Iff.rfl (fun _ => ?_) fun _ => ?_
  · refine follows_of_ok ?_ ⟨_, rfl, rfl⟩
    cases checkpoint.cancellationRequested <;> rintro ⟨⟩
  refine follows_ite Iff.rfl (fun _ => ?_) fun _ => ?_
  · refine ⟨reconcileCancellation_yields hRow hCheckpoint, fun _ => ?_⟩
    rw [reconcileCancellation_ok hRow hCheckpoint hBlank hLatest, refusesCancellation]
    simp only [true_and]
  have hUnmarked : evidence.persistedStep.completed = false := by
    simpa [hOpen] using hMatched
  have hAmbiguous : (evidence.hasStepStartedEvidence && !evidence.hasStepTerminalEvidence ||
      (evidence.attemptLedger.started || evidence.latestAttempt.isSome)) =
      (evidence.latestAttempt.isSome || evidence.persistedOpen) := by
    unfold StepEvidence.hasStepStartedEvidence StepEvidence.hasStepTerminalEvidence StepEvidence.persistedOpen
    rw [hStarted, hCompleted, hFailed, hCancelled, hUnmarked]
    cases evidence.latestAttempt.isSome <;> cases evidence.persistedStep.failed <;> simp
  by_cases hFirst : (evidence.hasStepStartedEvidence && !evidence.hasStepTerminalEvidence) = true
  · rw [if_pos hFirst, if_pos (by rw [← hAmbiguous, hFirst, Bool.true_or])]
    exact hReview _
  · rw [if_neg hFirst]
    refine follows_ite ?_ (fun _ => hReview _) fun _ => follows_of_ok (by rintro ⟨⟩) ⟨_, rfl, rfl⟩
    rw [← hAmbiguous, Bool.not_eq_true _ |>.mp hFirst, Bool.false_or]

end Step

section Path

variable {plan : CheckpointPlan} {clock : Nat → Env} {n : Nat} {db : Db} {lock : LockRow}
  {checkpoint : Checkpoint} {validation : Validation}

/-- The payload for a plan that passes at `now`. -/
def passedValidation (planId : String) (now : Int) (db : Db) : Validation :=
  ⟨readCheckpointRow db planId, (activeLocks db planId).head?, listExecutionAttempts db planId,
    listRecoveryQueue (expiredDb planId now db) planId⟩

/-- A plan that passes is left as it was, its expired recovery items apart. -/
theorem validateExecutionIntegrity_of_ok {planId : String} {planIds : Option (List String)}
    (h : (validateExecutionIntegrity planId planIds clock n db).1 = .ok validation) :
    isBlank planId = false ∧ validateExecutionIntegrity planId planIds clock n db =
      (.ok (passedValidation planId (clock n).nowMs db), n + 1, expiredDb planId (clock n).nowMs db) := by
  unfold validateExecutionIntegrity at h ⊢
  cases hBlank : isBlank planId with
  | true =>
    rw [hBlank, if_pos rfl] at h
    cases h
  | false =>
    rw [hBlank, if_neg Bool.false_ne_true, transaction_bind,
      transact_of_ok (expireOperatorRecoveryItems_apply _ _ _), Session.read_bind] at h
    rw [if_neg Bool.false_ne_true, transaction_bind, transact_of_ok (expireOperatorRecoveryItems_apply _ _ _),
      Session.read_bind]
    simp only [id_eq] at h ⊢
    by_cases hIssues : collectIntegrityIssues (expiredDb planId (clock n).nowMs db) planId
        (planIds.map renormalizedIds) = []
    · rw [if_neg (not_not.mpr hIssues)]
      exact ⟨trivial, rfl⟩
    · rw [if_pos hIssues] at h
      split at h <;> cases h

theorem expiredDb_of_none {planId : String} {now : Int} (h : expiredRows planId now db = []) :
    expiredDb planId now db = db := by
  have hQueue : (db.executionRecoveryQueue.map fun row =>
      if row.expired planId now then { row with resolvedAt := some now } else row) =
      db.executionRecoveryQueue := by
    conv_rhs => rw [← List.map_id db.executionRecoveryQueue]
    refine List.map_congr_left fun row hRow => ?_
    rw [if_neg (List.filter_eq_nil_iff.mp h row hRow)]
    rfl
  rw [expiredDb, hQueue, h, List.map_nil, List.append_nil]

/-- The recovery items that stay open when the checker has expired what it can. -/
def openRecoveryItems (planId : String) (now : Int) (db : Db) : List RecoveryRow :=
  (passedValidation planId now db).recovery.filter fun row => row.resolvedAt = none

theorem reconcileCheckpoint_of_running (validation : Validation) (hRunning : checkpoint.status = .running)
    (hSettled : (validation.recovery.filter fun row => row.resolvedAt = none) = []) :
    reconcileCheckpoint plan validation lock checkpoint = reconcileRunning plan validation lock checkpoint := by
  unfold reconcileCheckpoint
  rw [hSettled, hRunning]
  rfl

theorem reconcileCheckpoint_of_pending (validation : Validation)
    (hOpen : (validation.recovery.filter fun row => row.resolvedAt = none) ≠ []) :
    reconcileCheckpoint plan validation lock checkpoint = pauseForExistingRecoveryQueue plan.id lock.executionId
      checkpoint (validation.recovery.filter fun row => row.resolvedAt = none) := if_pos hOpen

/-- A validated running plan without recovery items comes to the running branch. -/
theorem reconcileExecutionState_running (hRow : db.lockOf plan.id = some lock)
    (hReleased : lock.lockReleasedAt = none) (hCheckpoint : readCheckpointRow db plan.id = some checkpoint)
    (hRunning : checkpoint.status = .running)
    (hValid : (validateExecutionIntegrity plan.id (some plan.stepIds) clock 1 db).1 = .ok validation)
    (hFresh : expiredRows plan.id (clock 0).nowMs db = [])
    (hSettled : openRecoveryItems plan.id (clock 1).nowMs db = []) :
    reconcileExecutionState plan clock 0 db =
      reconcileStep plan lock checkpoint (currentEvidence plan lock.executionId checkpoint db) (clock 2).nowMs
        clock 3 (expiredDb plan.id (clock 1).nowMs db) := by
  obtain ⟨hBlank, hChecked⟩ := validateExecutionIntegrity_of_ok hValid
  have hId : plan.id ≠ "" := fun h => by simp [h, isBlank] at hBlank
  rw [reconcileExecutionState_of_unexpired hId hRow hReleased hFresh, expiredDb_of_none hFresh,
    reconcileValidated, Session.bind_apply, hChecked]
  dsimp only
  rw [show (passedValidation plan.id (clock 1).nowMs db).checkpoint = some checkpoint from hCheckpoint]
  dsimp only
  rw [reconcileCheckpoint_of_running (passedValidation plan.id (clock 1).nowMs db) hRunning hSettled, reconcileRunning, Session.read_bind]
  rfl

/-- An open recovery item pauses the plan again. -/
theorem reconcileExecutionState_pending (hRow : db.lockOf plan.id = some lock)
    (hReleased : lock.lockReleasedAt = none) (hCheckpoint : readCheckpointRow db plan.id = some checkpoint)
    (hValid : (validateExecutionIntegrity plan.id (some plan.stepIds) clock 1 db).1 = .ok validation)
    (hFresh : expiredRows plan.id (clock 0).nowMs db = [])
    (hOpen : openRecoveryItems plan.id (clock 1).nowMs db ≠ []) :
    Yields (reconcileExecutionState plan clock 0 db).1 .operatorRecovery := by
  obtain ⟨hBlank, hChecked⟩ := validateExecutionIntegrity_of_ok hValid
  have hId : plan.id ≠ "" := fun h => by simp [h, isBlank] at hBlank
  rw [reconcileExecutionState_of_unexpired hId hRow hReleased hFresh, expiredDb_of_none hFresh,
    reconcileValidated, Session.bind_apply, hChecked]
  dsimp only
  rw [show (passedValidation plan.id (clock 1).nowMs db).checkpoint = some checkpoint from hCheckpoint]
  dsimp only
  rw [reconcileCheckpoint_of_pending (passedValidation plan.id (clock 1).nowMs db) hOpen]
  have hHeld : (expiredDb plan.id (clock 1).nowMs db).lockOf plan.id = some lock := hRow
  have hRead : readCheckpointRow (expiredDb plan.id (clock 1).nowMs db) plan.id = some checkpoint := hCheckpoint
  unfold pauseForExistingRecoveryQueue
  exact yields_of_ok (transition_of_held hHeld rfl _ hRead rfl _ _ clock 2)

end Path

section Evidence

variable {plan : CheckpointPlan} {executionId : String} {checkpoint : Checkpoint} {db : Db}
  {step : CheckpointStep}

/-- The attempts of one step of one execution. -/
def AttemptRow.ofStep (attempt : AttemptRow) (planId executionId stepId : String) : Prop :=
  attempt.planId = planId ∧ attempt.executionId = executionId ∧ attempt.stepId = stepId

theorem latestAttempt_mem {attempt : AttemptRow}
    (h : (currentEvidence plan executionId checkpoint db).latestAttempt = some attempt) :
    attempt ∈ db.executionAttempts.rows ∧ attempt.planId = plan.id ∧ attempt.executionId = executionId := by
  have hMem := List.mem_of_mem_head? h
  rw [List.mem_insertionSort, List.mem_filter, listExecutionAttempts, List.mem_insertionSort,
    List.mem_filter] at hMem
  simp only [decide_eq_true_eq, Bool.and_eq_true] at hMem
  exact ⟨hMem.1.1, hMem.1.2, hMem.2.1⟩

theorem latestAttempt_eq_none (hStep : atIndex plan.steps checkpoint.currentStep = some step) :
    (currentEvidence plan executionId checkpoint db).latestAttempt = none ↔
      ∀ attempt ∈ db.executionAttempts.rows, ¬attempt.ofStep plan.id executionId step.id := by
  have hHead : (currentEvidence plan executionId checkpoint db).latestAttempt = none ↔
      ((listExecutionAttempts db plan.id).filter fun attempt =>
        attempt.executionId = executionId && some attempt.stepId = some step.id) = [] := by
    change (((listExecutionAttempts db plan.id).filter fun attempt => attempt.executionId = executionId &&
      some attempt.stepId = (atIndex plan.steps checkpoint.currentStep).map CheckpointStep.id).insertionSort
        fun left right => right.attemptNumber ≤ left.attemptNumber).head? = none ↔ _
    rw [hStep, List.head?_eq_none_iff, ← List.length_eq_zero_iff, List.length_insertionSort,
      List.length_eq_zero_iff]
    rfl
  rw [hHead, List.filter_eq_nil_iff]
  constructor
  · rintro hNone attempt hRow ⟨hPlan, hExecution, hId⟩
    refine hNone attempt ?_ (by simp [hExecution, hId])
    rw [listExecutionAttempts, List.mem_insertionSort, List.mem_filter]
    exact ⟨hRow, by simp [hPlan]⟩
  · intro hNone attempt hListed hMatch
    rw [listExecutionAttempts, List.mem_insertionSort, List.mem_filter] at hListed
    simp only [decide_eq_true_eq, Bool.and_eq_true, Option.some.injEq] at hListed hMatch
    exact hNone attempt hListed.1 ⟨hListed.2, hMatch⟩

end Evidence

namespace StepEvidence

variable {evidence : StepEvidence} {now : Int} {cancellationRequested : Bool} {lock : LockRow}

/-- Nothing that the branch looks at speaks against a first run of the step. -/
structure Quiet (evidence : StepEvidence) (now : Int) (cancellationRequested : Bool) : Prop where
  inTime : evidence.stats.overdue now = false
  attemptsLeft : evidence.stats.totalAttempts < maxExecutionAttempts
  unattempted : evidence.latestAttempt = none
  incomplete : evidence.persistedStep.completed = false
  unopened : evidence.persistedOpen = false
  wanted : cancellationRequested = false

/-- What the branch looks at keeps a completed step from running again. -/
def SettlesCompleted (evidence : StepEvidence) (now : Int) (cancellationRequested : Bool) (lock : LockRow) :
    Prop :=
  evidence.stats.overdue now = true ∨ evidence.stats.totalAttempts < maxExecutionAttempts ∧
    (evidence.persistedStep.completed = true ∨ evidence.latestIs .completed = true ∨
      evidence.latestIs .failed = true ∧ evidence.failedForReview = true ∨
      evidence.latestIs .failed = false ∧ evidence.runsLive now = false ∧
        if cancellationRequested then refusesCancellation lock evidence
        else (evidence.latestAttempt.isSome || evidence.persistedOpen) = true)

theorem not_latestIs_of_none (hNone : evidence.latestAttempt = none) (status : AttemptStatus) :
    evidence.latestIs status = false := by
  rw [StepEvidence.latestIs, hNone]
  rfl

theorem decision_of_quiet (h : evidence.Quiet now cancellationRequested) :
    evidence.decision now cancellationRequested = .resume := by
  have hLive : evidence.runsLive now = false := by
    rw [runsLive, h.unattempted]
    rfl
  unfold decision
  rw [h.inTime, h.incomplete, h.unattempted, h.unopened, h.wanted, not_latestIs_of_none h.unattempted,
    not_latestIs_of_none h.unattempted, hLive, if_neg (not_le.mpr h.attemptsLeft)]
  rfl

theorem quiet_of_decision (h : evidence.decision now cancellationRequested = .resume) :
    evidence.Quiet now cancellationRequested := by
  unfold decision at h
  split at h
  · cases h
  split at h
  · cases h
  split at h
  · cases h
  split at h
  · cases h
  split at h
  · cases hDecision : (decideRecoveryAction evidence.step evidence.failedAttempt).1 <;> rw [hDecision] at h <;> cases h
  split at h
  · split at h <;> cases h
  split at h
  · cases h
  split at h
  · cases h
  rename_i hOverdue hAttempts hCompleted hLatest _ _ hCancelled hOpen
  simp only [Bool.not_eq_true, Bool.or_eq_false_iff, Bool.and_eq_false_iff, Bool.not_eq_false'] at *
  have hIncomplete : evidence.persistedStep.completed = false := by
    refine hCompleted.resolve_right ?_
    rw [hLatest]
    exact Bool.false_ne_true
  exact ⟨hOverdue, not_le.mp hAttempts, Option.isSome_eq_false_iff.mp hOpen.1 |> Option.isNone_iff_eq_none.mp,
    hIncomplete, hOpen.2, hCancelled⟩

theorem decision_settles_iff :
    evidence.decision now cancellationRequested ∈ [.continue, .operatorRecovery] ∨
        evidence.decision now cancellationRequested = .cancelled ∧ refusesCancellation lock evidence ↔
      evidence.SettlesCompleted now cancellationRequested lock := by
  unfold decision SettlesCompleted
  by_cases hOverdue : evidence.stats.overdue now = true
  · simp [hOverdue]
  by_cases hAttempts : maxExecutionAttempts ≤ evidence.stats.totalAttempts
  · simp [hOverdue, hAttempts]
  by_cases hLatest : evidence.latestIs .completed = true
  · simp [hOverdue, hAttempts, hLatest, not_le.mp hAttempts]
  by_cases hCompleted : evidence.persistedStep.completed = true
  · simp [hOverdue, hAttempts, hLatest, hCompleted, not_le.mp hAttempts]
  have hLeft := not_le.mp hAttempts
  simp only [Bool.not_eq_true] at hOverdue hLatest hCompleted
  by_cases hFailed : evidence.latestIs .failed = true
  · have hDecision : ((decideRecoveryAction evidence.step evidence.failedAttempt).1.action ∈
        [ReconcileAction.continue, .operatorRecovery] ∨
          (decideRecoveryAction evidence.step evidence.failedAttempt).1.action = .cancelled ∧
            refusesCancellation lock evidence) ↔ evidence.failedForReview = true := by
      unfold failedForReview
      cases (decideRecoveryAction evidence.step evidence.failedAttempt).1 <;> simp [RecoveryDecision.action]
    simpa [hOverdue, hAttempts, hLeft, hLatest, hCompleted, hFailed] using hDecision
  simp only [Bool.not_eq_true] at hFailed
  by_cases hLive : evidence.runsLive now = true
  · cases cancellationRequested <;> simp [hOverdue, hAttempts, hLatest, hCompleted, hFailed, hLive]
  simp only [Bool.not_eq_true] at hLive
  cases cancellationRequested with
  | true => simp [hOverdue, hAttempts, hLeft, hLatest, hCompleted, hFailed, hLive]
  | false =>
    by_cases hOpen : (evidence.latestAttempt.isSome || evidence.persistedOpen) = true
    · simp [hOverdue, hAttempts, hLeft, hLatest, hCompleted, hFailed, hLive, hOpen]
    · simp [hOverdue, hAttempts, hLatest, hCompleted, hFailed, hLive, hOpen]

end StepEvidence

section Ledger

variable (db : Db) (planId executionId stepId : String)

/-- The ledger holds such an event of the step. -/
def ledgerShows (test : EventType → Bool) : Prop :=
  ∃ event ∈ listLedgerEvents db planId,
    event.executionId = some executionId ∧ event.stepId = some stepId ∧ test event.eventType = true

/-- No source of evidence shows that the step was started. -/
structure StepUntouched : Prop where
  attempts : ∀ attempt ∈ db.executionAttempts.rows, ¬attempt.ofStep planId executionId stepId
  events : ¬ledgerShows db planId executionId stepId EventType.ofAttempt
  started : (getPersistedStepRecoveryState db executionId (some stepId)).started = false
  completed : (getPersistedStepRecoveryState db executionId (some stepId)).completed = false
  failed : (getPersistedStepRecoveryState db executionId (some stepId)).failed = false
  paused : (getPersistedStepRecoveryState db executionId (some stepId)).pausedForReview = false

/-- A step with any trace is not resumed, and a completed one is not run again. -/
structure NoSilentRerun (result : Result Reconciliation) : Prop where
  resumed : ∀ reconciliation, result = .ok reconciliation → reconciliation.action = .resume →
    StepUntouched db planId executionId stepId
  completed : ledgerShows db planId executionId stepId (· = .attempt .completed) →
    ∀ reconciliation, result = .ok reconciliation →
      reconciliation.action ∈ [ReconcileAction.continue, .operatorRecovery]

end Ledger

/-- The other sources make up for what the ledger would tell. -/
structure LedgerHeeded (plan : CheckpointPlan) (lock : LockRow) (checkpoint : Checkpoint) (clock : Nat → Env)
    (db : Db) (stepId : String) : Prop where
  untouched : expiredRows plan.id (clock 0).nowMs db = [] → openRecoveryItems plan.id (clock 1).nowMs db = [] →
    (currentEvidence plan lock.executionId checkpoint db).Quiet (clock 2).nowMs checkpoint.cancellationRequested →
      (currentEvidence plan lock.executionId checkpoint db).persistedStep.failed = false ∧
        ¬ledgerShows db plan.id lock.executionId stepId EventType.ofAttempt
  completed : ledgerShows db plan.id lock.executionId stepId (· = .attempt .completed) →
    expiredRows plan.id (clock 0).nowMs db = [] ∧ (openRecoveryItems plan.id (clock 1).nowMs db ≠ [] ∨
      (currentEvidence plan lock.executionId checkpoint db).SettlesCompleted (clock 2).nowMs
        checkpoint.cancellationRequested lock)

section Recovery

variable {plan : CheckpointPlan} {clock : Nat → Env} {db : Db} {lock : LockRow} {checkpoint : Checkpoint}
  {validation : Validation} {step : CheckpointStep}

theorem currentEvidence_persistedStep {executionId : String}
    (hStep : atIndex plan.steps checkpoint.currentStep = some step) :
    (currentEvidence plan executionId checkpoint db).persistedStep =
      getPersistedStepRecoveryState db executionId (some step.id) := by
  change getPersistedStepRecoveryState db executionId
    ((atIndex plan.steps checkpoint.currentStep).map CheckpointStep.id) = _
  rw [hStep]
  rfl

theorem noSilentRerun_of_yields {executionId stepId : String} {result : Result Reconciliation}
    (h : Yields result .operatorRecovery) : NoSilentRerun db plan.id executionId stepId result := by
  refine ⟨fun reconciliation hOk hResume => ?_, fun _ reconciliation hOk => ?_⟩
  · rw [h reconciliation hOk] at hResume
    cases hResume
  · rw [h reconciliation hOk]
    decide

theorem stepUntouched_of_quiet {executionId : String} {now : Int} {cancellationRequested : Bool}
    (hStep : atIndex plan.steps checkpoint.currentStep = some step)
    (hQuiet : (currentEvidence plan executionId checkpoint db).Quiet now cancellationRequested)
    (hFailed : (currentEvidence plan executionId checkpoint db).persistedStep.failed = false)
    (hEvents : ¬ledgerShows db plan.id executionId step.id EventType.ofAttempt) :
    StepUntouched db plan.id executionId step.id := by
  have hOpen := hQuiet.unopened
  have hCompleted := hQuiet.incomplete
  unfold StepEvidence.persistedOpen at hOpen
  rw [hFailed, Bool.not_false, Bool.and_true, Bool.or_eq_false_iff, currentEvidence_persistedStep hStep] at hOpen
  rw [currentEvidence_persistedStep hStep] at hFailed hCompleted
  exact ⟨(latestAttempt_eq_none hStep).mp hQuiet.unattempted, hEvents, hOpen.1, hCompleted, hFailed, hOpen.2⟩

/-- What the running branch returns for a validated plan. -/
theorem reconcileExecutionState_follows (hRow : db.lockOf plan.id = some lock)
    (hReleased : lock.lockReleasedAt = none) (hCheckpoint : readCheckpointRow db plan.id = some checkpoint)
    (hRunning : checkpoint.status = .running)
    (hValid : (validateExecutionIntegrity plan.id (some plan.stepIds) clock 1 db).1 = .ok validation)
    (hFresh : expiredRows plan.id (clock 0).nowMs db = [])
    (hSettled : openRecoveryItems plan.id (clock 1).nowMs db = []) :
    Follows (reconcileExecutionState plan clock 0 db).1
      ((currentEvidence plan lock.executionId checkpoint db).decision (clock 2).nowMs
        checkpoint.cancellationRequested)
      (refusesCancellation lock (currentEvidence plan lock.executionId checkpoint db)) := by
  rw [reconcileExecutionState_running hRow hReleased hCheckpoint hRunning hValid hFresh hSettled]
  have hHeld : (expiredDb plan.id (clock 1).nowMs db).lockOf plan.id = some lock := hRow
  have hRead : readCheckpointRow (expiredDb plan.id (clock 1).nowMs db) plan.id = some checkpoint := hCheckpoint
  refine reconcileStep_follows hHeld hRead (validateExecutionIntegrity_of_ok hValid).1 ?_
    currentEvidence_silent _
  intro attempt hAttempt
  obtain ⟨hMem, hPlan, hExecution⟩ := latestAttempt_mem hAttempt
  refine (db.executionAttempts.find?_eq_some _ attempt).mpr ⟨hMem, ?_⟩
  rw [AttemptRow.key, hPlan, hExecution]

theorem noSilentRerun_iff_of_follows {now : Int} {result : Result Reconciliation}
    (hStep : atIndex plan.steps checkpoint.currentStep = some step)
    (h : Follows result ((currentEvidence plan lock.executionId checkpoint db).decision now
        checkpoint.cancellationRequested)
      (refusesCancellation lock (currentEvidence plan lock.executionId checkpoint db))) :
    NoSilentRerun db plan.id lock.executionId step.id result ↔
      ((currentEvidence plan lock.executionId checkpoint db).Quiet now checkpoint.cancellationRequested →
          (currentEvidence plan lock.executionId checkpoint db).persistedStep.failed = false ∧
            ¬ledgerShows db plan.id lock.executionId step.id EventType.ofAttempt) ∧
        (ledgerShows db plan.id lock.executionId step.id (· = .attempt .completed) →
          (currentEvidence plan lock.executionId checkpoint db).SettlesCompleted now
            checkpoint.cancellationRequested lock) := by
  constructor
  · rintro ⟨hResumed, hCompleted⟩
    constructor
    · intro hQuiet
      have hDecision := StepEvidence.decision_of_quiet hQuiet
      obtain ⟨reconciliation, hOk⟩ := (h.taken (by rw [hDecision]; decide)).mpr
        (by rw [hDecision]; rintro ⟨⟨⟩, -⟩)
      have hUntouched := hResumed reconciliation hOk ((h.yields reconciliation hOk).trans hDecision)
      refine ⟨?_, hUntouched.events⟩
      rw [currentEvidence_persistedStep hStep]
      exact hUntouched.failed
    · intro hEvent
      rw [← StepEvidence.decision_settles_iff]
      by_contra hBad
      rw [not_or] at hBad
      obtain ⟨reconciliation, hOk⟩ := (h.taken fun hReview => hBad.1 (by rw [hReview]; decide)).mpr hBad.2
      refine hBad.1 ?_
      rw [← h.yields reconciliation hOk]
      exact hCompleted hEvent reconciliation hOk
  · rintro ⟨hUntouched, hSettles⟩
    refine ⟨fun reconciliation hOk hResume => ?_, fun hEvent reconciliation hOk => ?_⟩
    · have hQuiet := StepEvidence.quiet_of_decision ((h.yields reconciliation hOk).symm.trans hResume)
      obtain ⟨hFailed, hEvents⟩ := hUntouched hQuiet
      exact stepUntouched_of_quiet hStep hQuiet hFailed hEvents
    · rw [h.yields reconciliation hOk]
      obtain hListed | hRefused := StepEvidence.decision_settles_iff.mpr (hSettles hEvent)
      · exact hListed
      · have hReview : (currentEvidence plan lock.executionId checkpoint db).decision now
            checkpoint.cancellationRequested ≠ .operatorRecovery := by
          rw [hRefused.1]
          decide
        exact absurd hRefused ((h.taken hReview).mp ⟨reconciliation, hOk⟩)

end Recovery

/-- A validated running plan is never silently run again exactly when the other sources make up for the ledger:
a step that would be resumed has no failed row and no attempt event, and one that the ledger calls completed is
held back by its attempts, by its row or by a recovery item. -/
theorem reconcileExecutionState_noSilentRerun_iff (plan : CheckpointPlan) (clock : Nat → Env) (db : Db)
    (lock : LockRow) (checkpoint : Checkpoint) (validation : Validation)
    (hRow : db.lockOf plan.id = some lock) (hReleased : lock.lockReleasedAt = none)
    (hCheckpoint : readCheckpointRow db plan.id = some checkpoint) (hRunning : checkpoint.status = .running)
    (hValid : (validateExecutionIntegrity plan.id (some plan.stepIds) clock 1 db).1 = .ok validation) :
    (∀ step, atIndex plan.steps checkpoint.currentStep = some step →
        NoSilentRerun db plan.id lock.executionId step.id
          (Session.run (reconcileExecutionState plan) clock db).1) ↔
      ∀ step, atIndex plan.steps checkpoint.currentStep = some step →
        LedgerHeeded plan lock checkpoint clock db step.id := by
  refine forall_congr' fun step => forall_congr' fun hStep => ?_
  have hBlank : isBlank plan.id = false := (validateExecutionIntegrity_of_ok hValid).1
  have hId : plan.id ≠ "" := fun h => by simp [h, isBlank] at hBlank
  by_cases hFresh : expiredRows plan.id (clock 0).nowMs db = []
  · by_cases hSettled : openRecoveryItems plan.id (clock 1).nowMs db = []
    · have hFollows := reconcileExecutionState_follows hRow hReleased hCheckpoint hRunning hValid hFresh hSettled
      rw [show (Session.run (reconcileExecutionState plan) clock db).1 =
        (reconcileExecutionState plan clock 0 db).1 from rfl, noSilentRerun_iff_of_follows hStep hFollows]
      constructor
      · rintro ⟨hUntouched, hSettles⟩
        exact ⟨fun _ _ => hUntouched, fun hEvent => ⟨hFresh, .inr (hSettles hEvent)⟩⟩
      · rintro ⟨hUntouched, hSettles⟩
        exact ⟨hUntouched hFresh hSettled, fun hEvent => (hSettles hEvent).2.resolve_left (not_not.mpr hSettled)⟩
    · refine iff_of_true (noSilentRerun_of_yields ?_) ⟨fun _ hNone => absurd hNone hSettled, fun _ => ⟨hFresh, .inl hSettled⟩⟩
      exact reconcileExecutionState_pending hRow hReleased hCheckpoint hValid hFresh hSettled
  · rw [reconcileExecutionState_of_expired hId hRow hReleased hCheckpoint hFresh]
    constructor
    · rintro ⟨-, hCompleted⟩
      refine ⟨fun hNone => absurd hNone hFresh, fun hEvent => ?_⟩
      have hAbandon : ReconcileAction.abandon ∈ [ReconcileAction.continue, .operatorRecovery] :=
        hCompleted hEvent _ rfl
      exact absurd hAbandon (by decide)
    · rintro ⟨-, hCompleted⟩
      refine ⟨?_, fun hEvent => absurd (hCompleted hEvent).1 hFresh⟩
      rintro reconciliation ⟨⟩ ⟨⟩

section Interrupted

def interruptedLock : LockRow :=
  ⟨none, none, "plan_1", "exec_1", "worker_2", 0, some 0, some 60000, none, 0⟩

def interruptedCheckpoint : Checkpoint := ⟨"plan_1", none, 0, .running, -1, false, 0⟩

def stepEvent (eventType : EventType) : LedgerRow :=
  ⟨"plan_1", some "exec_1", some "step_a", some 1, eventType, none, 0⟩

/-- A plan interrupted in its only step, of which the ledger tells `events`. -/
def interruptedDb (events : List EventType) : Db :=
  { Db.empty with
    executionState := PlainTable.put .empty interruptedCheckpoint
    executionLocks := PlainTable.put .empty interruptedLock
    executionLedger := [finishedEvent .executionCreated, finishedEvent .executionStarted] ++ events.map stepEvent }

theorem untouched_step_resumed :
    NoSilentRerun (interruptedDb []) "plan_1" "exec_1" "step_a"
      (Session.run (reconcileExecutionState finishedPlan) (fun _ => ⟨1000, "worker_2"⟩) (interruptedDb [])).1 := by
  refine (reconcileExecutionState_noSilentRerun_iff finishedPlan (fun _ => ⟨1000, "worker_2"⟩) (interruptedDb [])
    interruptedLock interruptedCheckpoint _ rfl rfl rfl rfl rfl).mpr ?_ _ rfl
  have hUnlogged (test : EventType → Bool) : ¬ledgerShows (interruptedDb []) "plan_1" "exec_1" "step_a" test := by
    rintro ⟨event, hEvent, -, hStep, -⟩
    have hNone : ∀ event ∈ listLedgerEvents (interruptedDb []) "plan_1", event.stepId ≠ some "step_a" := by decide
    exact hNone event hEvent hStep
  rintro step ⟨⟩
  exact ⟨fun _ _ _ => ⟨rfl, hUnlogged _⟩, fun hEvent => absurd hEvent (hUnlogged _)⟩

/-- A step that only the ledger knows to be completed is resumed. -/
theorem completed_step_resumed :
    ¬∀ (plan : CheckpointPlan) (clock : Nat → Env) (db : Db) (lock : LockRow) (checkpoint : Checkpoint)
      (validation : Validation) (step : CheckpointStep),
      db.lockOf plan.id = some lock → lock.lockReleasedAt = none →
      readCheckpointRow db plan.id = some checkpoint → checkpoint.status = .running →
      (validateExecutionIntegrity plan.id (some plan.stepIds) clock 1 db).1 = .ok validation →
      atIndex plan.steps checkpoint.currentStep = some step →
      NoSilentRerun db plan.id lock.executionId step.id
        (Session.run (reconcileExecutionState plan) clock db).1 := by
  intro h
  have hRerun := h finishedPlan (fun _ => ⟨1000, "worker_2"⟩)
    (interruptedDb [.attemptStarted, .attempt .completed]) interruptedLock interruptedCheckpoint _ _
    rfl rfl rfl rfl rfl rfl
  have hResume : ReconcileAction.resume ∈ [ReconcileAction.continue, .operatorRecovery] :=
    hRerun.completed ⟨stepEvent (.attempt .completed), by decide, rfl, rfl, rfl⟩ _ rfl
  exact absurd hResume (by decide)

end Interrupted

end CommandConsole.Execution
