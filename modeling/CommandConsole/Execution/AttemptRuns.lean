import CommandConsole.Execution.AttemptChecks

/-! # Runs of attempt operations and reconciliations

A reconciliation alone with the database is an orderly run of its transactions.
So a run may take whole reconciliations or interleave their transactions with
everything else.
-/
namespace CommandConsole.Execution
open Library
set_option autoImplicit false

/-- One database reaches another by orderly transactions. -/
def OrderlyReach : Db → Db → Prop :=
  Reaches (fun (op : Env × AttemptTransaction) db => op.2.after op.1 db) fun op db => op.2.Orderly db

instance : Std.Refl OrderlyReach := ⟨fun _ => .refl⟩

instance : IsTrans Db OrderlyReach := ⟨fun _ _ _ h h' => Reaches.trans h h'⟩

section Reconciliation

theorem orderlyReach_step (transaction : AttemptTransaction) {db : Db} (env : Env) (h : transaction.Orderly db) :
    OrderlyReach db (transaction.after env db) :=
  .step (env, transaction) .refl h

/-- What neither opens nor closes attempts is orderly anywhere. -/
theorem orderlyReach_silent (transaction : AttemptTransaction) (env : Env) (db : Db)
    (hOpens : ∀ step, ¬transaction.opens db step)
    (hCloses : ∀ step number status, ¬transaction.closes db step number status) :
    OrderlyReach db (transaction.after env db) :=
  orderlyReach_step transaction env
    ⟨fun step h => absurd h (hOpens step), fun step number status h => absurd h (hCloses step number status)⟩

theorem reaches_transition (planId executionId : String) {options : TransitionOptions}
    (hEvent : options.eventType ∈ reconcileEvents) (action : ReconcileAction) (fallback : Option Checkpoint) :
    Session.Respects OrderlyReach (transition planId executionId options action fallback) := by
  refine .bind (fun clock n db => ?_) fun result => ?_
  · exact orderlyReach_silent (.transition planId executionId options hEvent) (clock n) db (fun _ h => h)
      fun _ _ _ h => h
  · split
    · exact .pure _
    · exact .pure _

theorem reaches_queueRecoveryReview (planId executionId : String) (checkpoint : Checkpoint)
    (stepId : Option String) (reason : String) :
    Session.Respects OrderlyReach (queueRecoveryReview planId executionId checkpoint stepId reason) :=
  fun clock n db => orderlyReach_silent (.queueReview planId executionId checkpoint stepId reason) (clock n) db
    (fun _ h => h) fun _ _ _ h => h

theorem reaches_expire (planId : String) :
    Session.Respects OrderlyReach (transaction (expireOperatorRecoveryItems planId)) :=
  fun clock n db => orderlyReach_silent (.expire planId) (clock n) db (fun _ h => h) fun _ _ _ h => h

theorem reaches_abandonForAttempts (planId executionId : String) (checkpoint : Checkpoint)
    (stepId : Option String) :
    Session.Respects OrderlyReach (abandonForAttempts planId executionId checkpoint stepId) :=
  reaches_transition planId executionId (by simp [reconcileEvents]) _ _

theorem reaches_validateExecutionIntegrity (planId : String) (planIds : Option (List String)) :
    Session.Respects OrderlyReach (validateExecutionIntegrity planId planIds) := by
  refine .ite (.pure _) (.bind (reaches_expire planId) fun _ => .bind (.read _) fun db => .ite (.ite ?_ (.pure _)) (.pure _))
  refine .bind (fun clock n db => ?_) fun _ => .bind (fun clock n db => ?_) fun _ => .pure _
  · exact orderlyReach_silent (.markCorrupted planId) (clock n) db (fun _ h => h) fun _ _ _ h => h
  · exact orderlyReach_silent (.logCorrupted planId _) (clock n) db (fun _ h => h) fun _ _ _ h => h

/-- A validated plan comes with the attempts that the database holds then. -/
theorem validateExecutionIntegrity_attempts {planId : String} {planIds : Option (List String)}
    {clock : Nat → Env} {n : Nat} {db : Db} {validation : Validation}
    (h : (validateExecutionIntegrity planId planIds clock n db).1 = .ok validation) :
    validation.attempts = listExecutionAttempts (validateExecutionIntegrity planId planIds clock n db).2.2 planId := by
  unfold validateExecutionIntegrity at h ⊢
  by_cases hBlank : isBlank planId
  · rw [if_pos hBlank] at h
    cases h
  · rw [if_neg hBlank, transaction_bind, Session.read_bind] at h ⊢
    simp only [id_eq] at h ⊢
    by_cases hIssues : collectIntegrityIssues (transact (expireOperatorRecoveryItems planId) (clock n) db).2
        planId (planIds.map renormalizedIds) ≠ []
    · rw [if_pos hIssues] at h
      split at h <;> cases h
    · rw [if_neg hIssues] at h ⊢
      cases h
      rfl

theorem reaches_outcome (action : ReconcileAction) (checkpoint : Checkpoint) (executionId : String)
    (nextStepIndex : Option Int) :
    Session.Respects OrderlyReach (outcome action checkpoint executionId nextStepIndex) := .pure _

theorem reaches_reconcileHalted (plan : CheckpointPlan) (validation : Validation) (lock : LockRow)
    (checkpoint : Checkpoint) : Session.Respects OrderlyReach (reconcileHalted plan validation lock checkpoint) := by
  refine .ite (.bind (.bind .ask fun _ => .pure _) fun now => ?_) (reaches_outcome _ _ _ _)
  exact .ite (reaches_queueRecoveryReview _ _ _ _ _)
    (.ite (reaches_abandonForAttempts _ _ _ _) (reaches_outcome _ _ _ _))

theorem reaches_reconcileBoundary (plan : CheckpointPlan) (lock : LockRow) (checkpoint : Checkpoint) :
    Session.Respects OrderlyReach (reconcileBoundary plan lock checkpoint) :=
  .ite (reaches_transition _ _ (by simp [reconcileEvents]) _ _) (reaches_outcome _ _ _ _)

/-- The attempt that a cancellation closes was found running and is still the only one that could be. -/
theorem reaches_reconcileCancellation {plan : CheckpointPlan} {lock : LockRow} {checkpoint : Checkpoint}
    {evidence : StepEvidence} {db : Db}
    (hLatest : ∀ attempt, evidence.latestAttempt = some attempt →
      attempt ∈ db.executionAttempts.rows ∧ attempt.planId = plan.id ∧ attempt.executionId = lock.executionId) :
    Session.RespectsAt OrderlyReach db (reconcileCancellation plan lock checkpoint evidence) := by
  have hCancel : Session.Respects OrderlyReach (transition plan.id lock.executionId {
      status := some .cancelled, overrides := { currentStep := some checkpoint.currentStep }
      eventType := some .executionCancelled, stepId := evidence.stepId } .cancelled (some checkpoint)) :=
    reaches_transition _ _ (by simp [reconcileEvents]) _ _
  unfold reconcileCancellation
  dsimp only
  cases hAttempt : evidence.latestAttempt.filter fun attempt => attempt.status = .running with
  | none => exact hCancel.at db
  | some attempt =>
    rw [Option.filter_eq_some_iff, decide_eq_true_eq] at hAttempt
    obtain ⟨hMem, hPlan, hExecution⟩ := hLatest attempt hAttempt.1
    refine .bind (fun clock n => ?_) fun clock n => ?_
    · refine orderlyReach_step (.cancelAttempt plan.id lock.executionId attempt.stepId attempt.attemptNumber)
        (clock n) ⟨fun _ h => absurd h id, ?_⟩
      rintro step number status ⟨rfl, rfl, -⟩ old hOld
      have hStatus := attemptStatus_of_mem hMem
      rw [hPlan, hExecution, hAttempt.2, hOld, Option.some.injEq] at hStatus
      exact hStatus
    · split
      · exact (Session.Respects.pure _).at _
      · exact hCancel.at _

theorem reaches_reconcileRunning {plan : CheckpointPlan} {validation : Validation} {lock : LockRow}
    {checkpoint : Checkpoint} {db : Db}
    (hAttempts : validation.attempts = listExecutionAttempts db plan.id) :
    Session.RespectsAt OrderlyReach db (reconcileRunning plan validation lock checkpoint) := by
  refine .read_bind (.bind ((Session.Respects.ask.bind fun _ => .pure _).at db) fun clock n => ?_)
  change Session.RespectsAt OrderlyReach db _
  have hReview (reason : String) := (reaches_queueRecoveryReview plan.id lock.executionId checkpoint
    (gatherEvidence plan validation lock.executionId checkpoint db).stepId reason).at db
  refine .ite (hReview _) (.ite ((reaches_abandonForAttempts _ _ _ _).at db) (.ite (hReview _) (.ite ?_ (.ite ?_
    (.ite ((reaches_outcome _ _ _ _).at db) (.ite ?_ (.ite (hReview _) (.ite (hReview _)
      ((reaches_outcome _ _ _ _).at db)))))))))
  · refine .bind (fun clock n => ?_) fun clock n => ?_
    · exact orderlyReach_silent (.advance plan.id checkpoint.currentStep plan.steps.length) (clock n) db
        (fun _ h => h) fun _ _ _ h => h
    · split
      · exact (reaches_outcome _ _ _ _).at _
      · exact (reaches_outcome _ _ _ _).at _
  · unfold reconcileFailedAttempt
    exact .ite (hReview _) ((reaches_outcome _ _ _ _).at db)
  · refine reaches_reconcileCancellation fun attempt hAttempt => ?_
    have hMem := List.mem_of_mem_head? hAttempt
    rw [List.mem_insertionSort, List.mem_filter, hAttempts, listExecutionAttempts, List.mem_insertionSort,
      List.mem_filter] at hMem
    obtain ⟨⟨hRow, hPlan⟩, hStep⟩ := hMem
    rw [Bool.and_eq_true, decide_eq_true_eq] at hStep
    exact ⟨hRow, of_decide_eq_true hPlan, hStep.1⟩

theorem reaches_reconcileCheckpoint {plan : CheckpointPlan} {validation : Validation} {lock : LockRow}
    {checkpoint : Checkpoint} {db : Db}
    (hAttempts : validation.attempts = listExecutionAttempts db plan.id) :
    Session.RespectsAt OrderlyReach db (reconcileCheckpoint plan validation lock checkpoint) := by
  refine .ite ((reaches_transition _ _ (by simp [reconcileEvents]) _ _).at db) ?_
  cases checkpoint.status with
  | completed => exact (reaches_outcome _ _ _ _).at db
  | cancelled => exact (reaches_transition _ _ (by simp [reconcileEvents]) _ _).at db
  | failed => exact (reaches_reconcileHalted _ _ _ _).at db
  | corrupted => exact (reaches_reconcileHalted _ _ _ _).at db
  | executionAbandoned => exact (reaches_reconcileHalted _ _ _ _).at db
  | pauseForOperatorRecovery => exact (reaches_reconcileHalted _ _ _ _).at db
  | running => exact reaches_reconcileRunning hAttempts
  | paused => exact (reaches_reconcileBoundary _ _ _).at db
  | pending => exact (reaches_reconcileBoundary _ _ _).at db
  | awaitingReview => exact (reaches_reconcileBoundary _ _ _).at db
  | pausedForReview => exact (reaches_outcome _ _ _ _).at db

theorem reaches_reconcileValidated (plan : CheckpointPlan) (lock : LockRow) :
    Session.Respects OrderlyReach (reconcileValidated plan lock) := by
  intro clock n db
  refine Session.RespectsAt.bind ((reaches_validateExecutionIntegrity _ _).at db) (fun clock n => ?_) clock n
  cases hValid : (validateExecutionIntegrity plan.id (some plan.stepIds) clock n db).1 with
  | error err => exact (Session.Respects.pure _).at _
  | ok validation =>
    dsimp only
    cases validation.checkpoint with
    | none => exact (Session.Respects.pure _).at _
    | some checkpoint => exact reaches_reconcileCheckpoint (validateExecutionIntegrity_attempts hValid)

/-- A reconciliation is an orderly run of its transactions. -/
theorem reaches_reconcileExecutionState (plan : CheckpointPlan) :
    Session.Respects OrderlyReach (reconcileExecutionState plan) := by
  refine .ite (.pure _) (.bind (reaches_expire plan.id) fun result => ?_)
  split
  · exact .pure _
  · refine .bind (.read _) fun db => ?_
    split
    · exact .pure _
    · exact .ite (reaches_transition _ _ (by simp [reconcileEvents]) _ _) (reaches_reconcileValidated plan _)

end Reconciliation

inductive AttemptCall where
  | transaction (env : Env) (work : AttemptTransaction)
  | reconcile (plan : CheckpointPlan) (clock : Nat → Env)

def AttemptCall.next (call : AttemptCall) (db : Db) : Db :=
  match call with
  | transaction env work => work.after env db
  | reconcile plan clock => (Session.run (reconcileExecutionState plan) clock db).2

def AttemptCall.orderly (call : AttemptCall) (db : Db) : Prop :=
  match call with
  | transaction _ work => work.Orderly db
  | reconcile _ _ => True

def AttemptStatus.closed (status : AttemptStatus) : Bool := status ∈ [.completed, .failed, .cancelled]

structure AttemptDiscipline (db : Db) : Prop where
  numbered : ∀ planId executionId stepId, ∃ count : Nat, ∀ number : Int,
    (∃ row ∈ db.executionAttempts.rows, row.key = (planId, executionId, stepId, number)) ↔
      1 ≤ number ∧ number ≤ count
  single : ∀ row ∈ db.executionAttempts.rows, ∀ other ∈ db.executionAttempts.rows,
    row.planId = other.planId → row.executionId = other.executionId → row.stepId = other.stepId →
    row.status = .running → other.status = .running → row = other
  recorded : ∀ row ∈ db.executionAttempts.rows, row.status.closed →
    (db.executionLedger.countP fun event => event.eventType = .attempt row.status ∧ event.planId = row.planId ∧
      event.executionId = some row.executionId ∧ event.stepId = some row.stepId ∧
        event.attemptNumber = some row.attemptNumber) = 1
  checked : ∀ planId planIds, ∀ issue ∈ collectIntegrityIssues db planId planIds, ¬issue.aboutAttempts

theorem AttemptStatus.ne_running_of_closed {status : AttemptStatus} (h : status.closed) : status ≠ .running := by
  rintro rfl
  exact absurd h (by decide)

theorem AttemptsInOrder.discipline {db : Db} (h : AttemptsInOrder db) : AttemptDiscipline db where
  numbered := by
    intro planId executionId stepId
    obtain ⟨count, hCount⟩ := h.journal.contiguous (planId, executionId, stepId)
    exact ⟨count, fun number => attemptStatus_isSome.symm.trans (hCount number)⟩
  single := by
    intro row hRow other hOther hPlan hExecution hStep hRunning hOtherRunning
    have hStatus := attemptStatus_of_mem hRow
    have hOtherStatus := attemptStatus_of_mem hOther
    rw [← hPlan, ← hExecution, ← hStep, hOtherRunning] at hOtherStatus
    rw [hRunning] at hStatus
    refine db.executionAttempts.eq_of_key_eq hRow hOther ?_
    rw [AttemptRow.key, AttemptRow.key, hPlan, hExecution, hStep,
      h.journal.single _ _ _ hStatus hOtherStatus]
  recorded := by
    intro row hRow hClosed
    have hCount := h.journal.closing (row.planId, row.executionId, row.stepId) row.attemptNumber row.status
      (AttemptStatus.ne_running_of_closed hClosed)
    have hStatus : db.attemptJournal.status (row.planId, row.executionId, row.stepId) row.attemptNumber =
        some row.status := attemptStatus_of_mem hRow
    rw [if_pos hStatus, Db.attemptJournal, List.count_filterMap, Db.attemptEvents, List.countP_filter] at hCount
    rw [← hCount]
    refine List.countP_congr fun event _ => ?_
    simp only [Bool.and_eq_true, decide_eq_true_eq, beq_iff_eq, attemptEntry_eq_some]
    constructor
    · rintro ⟨hType, hIds⟩
      rw [hType]
      exact ⟨⟨rfl, hIds⟩, rfl⟩
    · rintro ⟨⟨hEnd, hIds⟩, -⟩
      exact ⟨attemptEnd_eq_some.mp hEnd, hIds⟩
  checked := h.collectIntegrityIssues_clear

theorem attemptsInOrder_of_empty {db : Db} (hRows : db.executionAttempts.rows = []) (hEvents : db.attemptEvents = []) :
    AttemptsInOrder db := by
  have hStatus (step : StepKey) (number : Int) : db.attemptStatus step number = none := by
    rw [← Option.not_isSome_iff_eq_none, attemptStatus_isSome, hRows]
    rintro ⟨row, hRow, -⟩
    cases hRow
  refine ⟨?_, ?_, fun step => .inr (hStatus step)⟩
  · have hEmpty : db.attemptJournal = Journal.empty := Journal.ext_parts hStatus (by
      rw [Db.attemptJournal, hEvents]
      rfl)
    rw [hEmpty]
    exact Journal.empty_disciplined AttemptStatus.running
  · rw [hEvents]
    intro row hRow
    cases hRow

/-- The journal keeps its closed attempts along an orderly run, and stays in order. -/
theorem AttemptsInOrder.run {db later : Db} (h : AttemptsInOrder db)
    (hRun : Reaches AttemptCall.next AttemptCall.orderly db later) :
    AttemptsInOrder later ∧ Journal.ClosedStay .running db.attemptJournal later.attemptJournal := by
  have hReach : OrderlyReach db later := by
    refine hRun.relates (R := OrderlyReach) fun call t hOrderly => ?_
    cases call with
    | transaction env work => exact orderlyReach_step work env hOrderly
    | reconcile plan clock => exact reaches_reconcileExecutionState plan clock 0 t
  refine Reaches.invariant (P := fun t => AttemptsInOrder t ∧
    Journal.ClosedStay .running db.attemptJournal t.attemptJournal) hReach ⟨h, fun _ _ _ _ hSame => hSame⟩ ?_
  rintro ⟨env, work⟩ t ⟨hOrder, hStay⟩ hOrderly
  obtain ⟨hNext, hStep⟩ := hOrder.step hOrderly
  exact ⟨hNext, fun group number status hNe hStatus =>
    hStep group number status hNe (hStay group number status hNe hStatus)⟩

/-- From a database without attempts, an orderly run keeps the discipline in every state, and a closed
attempt keeps its status. -/
theorem attempt_discipline_of_orderly (start db later : Db) (hRows : start.executionAttempts.rows = [])
    (hEvents : start.attemptEvents = []) (hRun : Reaches AttemptCall.next AttemptCall.orderly start db)
    (hLater : Reaches AttemptCall.next AttemptCall.orderly db later) :
    AttemptDiscipline db ∧ ∀ row ∈ db.executionAttempts.rows, row.status.closed →
      ∃ row' ∈ later.executionAttempts.rows, row'.key = row.key ∧ row'.status = row.status := by
  obtain ⟨hOrder, -⟩ := (attemptsInOrder_of_empty hRows hEvents).run hRun
  obtain ⟨-, hStay⟩ := hOrder.run hLater
  refine ⟨hOrder.discipline, fun row hRow hClosed => ?_⟩
  exact attemptStatus_eq_some.mp (hStay (row.planId, row.executionId, row.stepId) row.attemptNumber row.status
    (AttemptStatus.ne_running_of_closed hClosed) (attemptStatus_of_mem hRow))

section Restart

/-- A plan of one step whose execution has just started. -/
def startedDb : Db :=
  { Db.empty with
    executions := PlainTable.put .empty {
      id := "exec_1", planId := some "plan_1", status := .running, triggerSource := "system"
      requiresReview := false, createdAt := 0, startedAt := some 0, finishedAt := none, cancelledAt := none
      leaseOwner := none, leaseExpiresAt := none, totalAttempts := 0, consecutiveFailures := 0
      noProgressAttempts := 0, lastProgressAt := none, lastUpdatedAt := 0 }
    executionState := PlainTable.put .empty ⟨"plan_1", none, 0, .pending, -1, false, 0⟩
    executionSteps := ⟨[{
      id := "step_a", executionId := "exec_1", stageId := none, sequence := 1, status := .pending
      kind := "read", dependsOnStepIds := [], blocking := false, pauseReason := none, deferred := false
      blockReason := none, reviewAcknowledged := false, createdAt := 0, startedAt := none, finishedAt := none
      errorCode := none, errorMessage := none, errorType := none }], List.pairwise_singleton _ _⟩ }

def beginCall (nowMs : Int) (workerId : String) : AttemptCall :=
  .transaction ⟨nowMs, workerId⟩ (.begin "plan_1" "exec_1" "step_a" 0 .pureRead)

def completeCall (nowMs : Int) (workerId : String) : AttemptCall :=
  .transaction ⟨nowMs, workerId⟩ (.complete "plan_1" "exec_1" "step_a" 0 1 1)

def begunDb : Db := (beginCall 1 "worker_1").next startedDb

theorem begunDb_discipline :
    AttemptDiscipline begunDb ∧ ∀ row ∈ begunDb.executionAttempts.rows, row.status.closed →
      ∃ row' ∈ ((completeCall 2 "worker_1").next begunDb).executionAttempts.rows,
        row'.key = row.key ∧ row'.status = row.status := by
  have hNone (step : StepKey) (number : Int) : startedDb.attemptStatus step number = none := rfl
  refine attempt_discipline_of_orderly startedDb begunDb _ rfl rfl
    (.step (beginCall 1 "worker_1") .refl ⟨?_, ?_⟩) (.step (completeCall 2 "worker_1") .refl ⟨?_, ?_⟩)
  · rintro step -
    refine ⟨fun number => by rw [hNone]; decide, ?_⟩
    rintro ⟨other, number, -, -, -, hSome⟩
    rw [hNone] at hSome
    cases hSome
  · rintro step number status ⟨⟩
  · rintro step ⟨⟩
  · rintro step number status ⟨rfl, rfl, -, -⟩ old hOld
    have hRunning : begunDb.attemptStatus ("plan_1", "exec_1", "step_a") 1 = some .running := by decide
    exact Option.some.inj (hOld.symm.trans hRunning)

/-- A second worker that begins the step again leaves two running attempts. -/
theorem attempts_begun_twice :
    ¬∀ start db : Db, start.executionAttempts.rows = [] → start.attemptEvents = [] →
      Reaches AttemptCall.next (fun _ _ => True) start db → AttemptDiscipline db := by
  intro h
  have hTwice := h startedDb ((beginCall 40000 "worker_2").next begunDb) rfl rfl
    (.step (beginCall 40000 "worker_2") (.step (beginCall 1 "worker_1") .refl trivial) trivial)
  have hPair : ∃ row ∈ ((beginCall 40000 "worker_2").next begunDb).executionAttempts.rows,
      ∃ other ∈ ((beginCall 40000 "worker_2").next begunDb).executionAttempts.rows,
        (row.planId = other.planId ∧ row.executionId = other.executionId ∧ row.stepId = other.stepId ∧
          row.status = .running ∧ other.status = .running) ∧ row ≠ other := by decide +kernel
  obtain ⟨row, hRow, other, hOther, ⟨hPlan, hExecution, hStep, hRunning, hOtherRunning⟩, hNe⟩ := hPair
  exact hNe (hTwice.single row hRow other hOther hPlan hExecution hStep hRunning hOtherRunning)

end Restart

end CommandConsole.Execution
