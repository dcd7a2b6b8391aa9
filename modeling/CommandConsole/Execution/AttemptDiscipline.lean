import CommandConsole.Execution.AttemptJournal

/-! # Attempt discipline over runs

A run interleaves the attempt operations, the operator's actions and the
transactions of reconciliation, each at its own clock and by its own worker. It
is orderly when no attempt begins while another one of the step is running and
only running attempts are closed.
-/
namespace CommandConsole.Execution
open Library
set_option autoImplicit false

/-- The transitions that reconciliation asks for. -/
def reconcileEvents : List (Option EventType) :=
  [none, some .executionAbandoned, some .executionCancelled, some .recoveryPending]

/-- One transaction; from `expire` on those that make up a reconciliation. -/
inductive AttemptTransaction where
  | begin (planId executionId stepId : String) (stepIndex : Int) (sideEffectClass : SideEffectClass)
  | complete (planId executionId stepId : String) (stepIndex totalSteps attemptNumber : Int)
  | fail (planId executionId stepId : String) (stepIndex attemptNumber : Int)
  | pause (planId executionId stepId : String) (stepIndex attemptNumber : Int) (reason : String)
      (stageId : Option String) (runSnapshot : Option Run) (reviewExecutionId : Option String)
  | heartbeat (planId executionId stepId : String) (attemptNumber : Int)
  | operatorAction (planId executionId : String) (options : OperatorOptions)
  | expire (planId : String)
  | markCorrupted (planId : String)
  | logCorrupted (planId : String) (executionId : Option String)
  | transition (planId executionId : String) (options : TransitionOptions)
      (hEvent : options.eventType ∈ reconcileEvents)
  | queueReview (planId executionId : String) (checkpoint : Checkpoint) (stepId : Option String)
      (reason : String)
  | advance (planId : String) (stepIndex totalSteps : Int)
  | cancelAttempt (planId executionId stepId : String) (attemptNumber : Int)

namespace AttemptTransaction

def after (transaction : AttemptTransaction) (env : Env) (db : Db) : Db :=
  match transaction with
  | begin planId executionId stepId stepIndex sideEffectClass =>
    (transact (beginExecutionAttemptAtomic planId executionId stepId stepIndex sideEffectClass) env db).2
  | complete planId executionId stepId stepIndex totalSteps attemptNumber =>
    (transact (completeExecutionAttemptAtomic planId executionId stepId stepIndex totalSteps attemptNumber)
      env db).2
  | fail planId executionId stepId stepIndex attemptNumber =>
    (transact (failExecutionAttemptAtomic planId executionId stepId stepIndex attemptNumber) env db).2
  | pause planId executionId stepId stepIndex attemptNumber reason stageId runSnapshot reviewExecutionId =>
    (transact (pauseExecutionAttemptForReviewAtomic planId executionId stepId stepIndex attemptNumber reason
      stageId runSnapshot reviewExecutionId) env db).2
  | heartbeat planId executionId stepId attemptNumber =>
    (transact (heartbeatExecutionAttempt planId executionId stepId attemptNumber) env db).2
  | operatorAction planId executionId options =>
    (transact (applyOperatorRecoveryAction planId executionId options) env db).2
  | expire planId => (transact (expireOperatorRecoveryItems planId) env db).2
  | markCorrupted planId => (transact (setExecutionCheckpointStatus planId .corrupted {}) env db).2
  | logCorrupted planId executionId =>
    (transact (appendLedgerEvent { planId, executionId, eventType := .executionCorrupted }) env db).2
  | transition planId executionId options _ =>
    (transact (finalizeExecutionTransition planId executionId options) env db).2
  | queueReview planId executionId checkpoint stepId reason =>
    (transact (queueRecoveryReviewTx planId executionId checkpoint stepId reason) env db).2
  | advance planId stepIndex totalSteps => (transact (checkpointAfterStep planId stepIndex totalSteps) env db).2
  | cancelAttempt planId executionId stepId attemptNumber =>
    (transact (cancelExecutionAttempt planId executionId stepId attemptNumber) env db).2

/-- The transaction, when its guards let it through, begins an attempt of the step. -/
def opens (transaction : AttemptTransaction) (db : Db) (step : StepKey) : Prop :=
  match transaction with
  | begin planId executionId stepId _ _ =>
    step = (planId, executionId, stepId) ∧ (loadExecutionState db executionId).admits stepId = true
  | _ => False

/-- The transaction, when its guards let it through, closes the attempt. -/
def closes (transaction : AttemptTransaction) (db : Db) (step : StepKey) (number : Int)
    (status : AttemptStatus) : Prop :=
  match transaction with
  | complete planId executionId stepId _ _ attemptNumber =>
    step = (planId, executionId, stepId) ∧ number = attemptNumber ∧ status = .completed ∧
      (loadExecutionState db executionId).admits stepId = true
  | fail planId executionId stepId _ attemptNumber =>
    step = (planId, executionId, stepId) ∧ number = attemptNumber ∧ status = .failed ∧
      (loadExecutionState db executionId).admits stepId = true
  | pause planId executionId stepId _ attemptNumber _ _ _ _ =>
    step = (planId, executionId, stepId) ∧ number = attemptNumber ∧ status = .cancelled ∧
      (loadExecutionState db executionId).admits stepId = true
  | cancelAttempt planId executionId stepId attemptNumber =>
    step = (planId, executionId, stepId) ∧ number = attemptNumber ∧ status = .cancelled
  | _ => False

end AttemptTransaction

section AtomicEffects

variable {planId executionId stepId : String} {stepIndex : Int} {env : Env} {db : Db}

theorem nextAttempt_congr {db db' : Db} (h : db'.executionAttempts = db.executionAttempts) (step : StepKey) :
    nextAttempt db' step = nextAttempt db step := by
  unfold nextAttempt maxAttempt
  rw [h]

/-- A begun attempt is the next one of its step. -/
theorem beginExecutionAttemptAtomic_effect (sideEffectClass : SideEffectClass) :
    let db' := (transact (beginExecutionAttemptAtomic planId executionId stepId stepIndex sideEffectClass)
      env db).2
    db'.attemptView = db.attemptView ∨
      ((loadExecutionState db executionId).admits stepId = true ∧ Opened db db' (planId, executionId, stepId)) := by
  obtain ⟨err, hFail⟩ | ⟨data, db', -, hWork, hDone⟩ :=
    transact_atomically planId executionId stepId _ env db
  · left
    unfold beginExecutionAttemptAtomic
    rw [hFail]
  · right
    unfold beginExecutionAttemptAtomic
    rw [hDone]
    rw [Tx.ask_bind, Tx.get_bind] at hWork
    obtain ⟨execution, db₁, hGuard, hRest⟩ := Tx.bind_eq_ok.mp hWork
    obtain ⟨rfl, -, hAdmits⟩ := getExecutionAndStep_eq_ok hGuard
    obtain ⟨checkpoint, db₂, hCheckpoint, hRest⟩ := Tx.bind_eq_ok.mp hRest
    obtain ⟨attempt, db₃, hCreate, hRest⟩ := Tx.bind_eq_ok.mp hRest
    obtain ⟨reloaded, db₄, hReload, hRest⟩ := Tx.bind_eq_ok.mp hRest
    obtain ⟨row, db₅, hPersist, hRest⟩ := Tx.bind_eq_ok.mp hRest
    cases hRest
    have hAttempts : db₂.executionAttempts = db₁.executionAttempts :=
      keeps_changeCheckpoint (fun _ _ => rfl) planId _ env db₁ _ db₂ (orThrow_eq_ok.mp hCheckpoint)
    have hFirst : db₂.attemptView = db₁.attemptView :=
      keeps_changeCheckpoint ignoresCheckpoints_attemptView planId _ env db₁ _ db₂ (orThrow_eq_ok.mp hCheckpoint)
    have hReloaded : db₄.attemptView = db₃.attemptView :=
      keeps_reloadExecution executionId execution env db₃ reloaded db₄ hReload
    have hLast : db'.attemptView = db₄.attemptView :=
      keeps_persistExecutionSnapshot ignoresExecutions_attemptView ignoresSteps_attemptView
        ignoresStages_attemptView _ _ env db₄ row db' hPersist
    refine ⟨hAdmits, ?_⟩
    have hOpened := createExecutionAttempt_opened (orThrow_eq_ok.mp hCreate)
    unfold Opened at hOpened ⊢
    rw [nextAttempt_congr hAttempts] at hOpened
    exact hOpened.congr hFirst (hLast.trans hReloaded)

theorem finalizeExecutionAttemptAtomic_effect (attemptNumber : Int) (mode : AttemptEnd) :
    let db' := (transact (finalizeExecutionAttemptAtomic planId executionId stepId stepIndex attemptNumber mode)
      env db).2
    db'.attemptView = db.attemptView ∨ ((loadExecutionState db executionId).admits stepId = true ∧
      Closed db db' (planId, executionId, stepId) attemptNumber mode.attemptStatus) := by
  obtain ⟨err, hFail⟩ | ⟨data, db', -, hWork, hDone⟩ :=
    transact_atomically planId executionId stepId _ env db
  · left
    unfold finalizeExecutionAttemptAtomic
    rw [hFail]
  · right
    unfold finalizeExecutionAttemptAtomic
    rw [hDone]
    rw [Tx.ask_bind, Tx.get_bind] at hWork
    obtain ⟨execution, db₁, hGuard, hRest⟩ := Tx.bind_eq_ok.mp hWork
    obtain ⟨rfl, -, hAdmits⟩ := getExecutionAndStep_eq_ok hGuard
    obtain ⟨attempt, db₂, hFinalize, hRest⟩ := Tx.bind_eq_ok.mp hRest
    obtain ⟨checkpoint, db₃, hCheckpoint, hRest⟩ := Tx.bind_eq_ok.mp hRest
    obtain ⟨reloaded, db₄, hReload, hRest⟩ := Tx.bind_eq_ok.mp hRest
    obtain ⟨row, db₅, hPersist, hRest⟩ := Tx.bind_eq_ok.mp hRest
    cases hRest
    have hMiddle : db₃.attemptView = db₂.attemptView := by
      have hMode : Tx.Keeps Db.attemptView (mode.checkpoint planId stepIndex) := by
        cases mode with
        | completed totalSteps => exact keeps_changeCheckpoint ignoresCheckpoints_attemptView _ _
        | failed => exact keeps_changeCheckpoint ignoresCheckpoints_attemptView _ _
      exact hMode env db₂ _ db₃ (orThrow_eq_ok.mp hCheckpoint)
    have hReloaded : db₄.attemptView = db₃.attemptView :=
      keeps_reloadExecution executionId execution env db₃ reloaded db₄ hReload
    have hLast : db'.attemptView = db₄.attemptView :=
      keeps_persistExecutionSnapshot ignoresExecutions_attemptView ignoresSteps_attemptView
        ignoresStages_attemptView _ _ env db₄ row db' hPersist
    obtain ⟨hSome, hClosed⟩ := finalizeAttempt_closed (orThrow_eq_ok.mp hFinalize)
    exact ⟨hAdmits, hSome, hClosed.congr rfl (hLast.trans (hReloaded.trans hMiddle))⟩

theorem pauseExecutionAttemptForReviewAtomic_effect (attemptNumber : Int) (reason : String)
    (stageId : Option String) (runSnapshot : Option Run) (reviewExecutionId : Option String) :
    let db' := (transact (pauseExecutionAttemptForReviewAtomic planId executionId stepId stepIndex
      attemptNumber reason stageId runSnapshot reviewExecutionId) env db).2
    db'.attemptView = db.attemptView ∨ ((loadExecutionState db executionId).admits stepId = true ∧
      Closed db db' (planId, executionId, stepId) attemptNumber .cancelled) := by
  obtain ⟨err, hFail⟩ | ⟨data, db', -, hWork, hDone⟩ :=
    transact_atomically planId executionId stepId _ env db
  · left
    unfold pauseExecutionAttemptForReviewAtomic
    rw [hFail]
  · right
    unfold pauseExecutionAttemptForReviewAtomic
    rw [hDone]
    rw [Tx.ask_bind, Tx.get_bind] at hWork
    obtain ⟨execution, db₁, hGuard, hRest⟩ := Tx.bind_eq_ok.mp hWork
    obtain ⟨rfl, -, hAdmits⟩ := getExecutionAndStep_eq_ok hGuard
    obtain ⟨attempt, db₂, hCancel, hRest⟩ := Tx.bind_eq_ok.mp hRest
    obtain ⟨hSome, hClosed⟩ := finalizeAttempt_closed (orThrow_eq_ok.mp hCancel)
    have hPersist (run : Run) (options : PersistOptions) :
        Tx.Keeps Db.attemptView (persistExecutionSnapshot run options) :=
      keeps_persistExecutionSnapshot ignoresExecutions_attemptView ignoresSteps_attemptView
        ignoresStages_attemptView run options
    have hRelease : Tx.Keeps Db.attemptView (releaseIfHeld planId executionId) :=
      keeps_releaseIfHeld ignoresLocks_attemptView ignoresExecutions_attemptView planId executionId
        (ignoresEvent_attemptView rfl)
    refine ⟨hAdmits, hSome, hClosed.congr rfl ?_⟩
    refine Tx.Respects.bind (keeps_orThrow (keeps_changeCheckpoint ignoresCheckpoints_attemptView _ _))
      (fun checkpoint => ?_) env db₂ data db' hRest
    dsimp only
    split
    · exact .bind (hPersist _ _) fun _ => .bind (keeps_pauseEvents (ignoresEvent_attemptView rfl)
        (ignoresEvent_attemptView rfl) (ignoresEvent_attemptView rfl) _ _ _ _) fun _ =>
          .bind hRelease fun _ => .pure _
    · exact .bind (hPersist _ _) fun _ => .bind hRelease fun _ => .pure _

end AtomicEffects

theorem attemptView_expiredDb (planId : String) (now : Int) (db : Db) :
    (expiredDb planId now db).attemptView = db.attemptView := by
  refine Prod.ext rfl ?_
  change Db.attemptEvents _ = Db.attemptEvents db
  rw [Db.attemptEvents, Db.attemptEvents, expiredDb_executionLedger, List.filter_append,
    List.append_right_eq_self, List.filter_eq_nil_iff]
  intro row hRow
  obtain ⟨item, -, rfl⟩ := List.mem_map.mp hRow
  exact Bool.false_ne_true

theorem reconcileEvents_ignored {eventType : EventType} (h : some eventType ∈ reconcileEvents) :
    IgnoresEvent Db.attemptView eventType := by
  simp only [reconcileEvents, List.mem_cons, reduceCtorEq, Option.some.injEq, List.not_mem_nil, or_false,
    false_or] at h
  obtain rfl | rfl | rfl := h <;> exact ignoresEvent_attemptView rfl

/-- A transaction keeps the journal, opens what it may open or closes what it may close. -/
theorem AttemptTransaction.effect (transaction : AttemptTransaction) (env : Env) (db : Db) :
    (transaction.after env db).attemptView = db.attemptView ∨
      (∃ step, transaction.opens db step ∧ Opened db (transaction.after env db) step) ∨
      ∃ step number status, transaction.closes db step number status ∧ status ≠ .running ∧
        Closed db (transaction.after env db) step number status := by
  have hKept {α : Type} {work : Tx (Result α)} (h : Tx.Keeps Db.attemptView work) :
      (transact work env db).2.attemptView = db.attemptView :=
    transact_respects (R := fun db db' => db'.attemptView = db.attemptView) h env db
  cases transaction with
  | begin planId executionId stepId stepIndex sideEffectClass =>
    obtain h | ⟨hAdmits, h⟩ := beginExecutionAttemptAtomic_effect sideEffectClass
    · exact .inl h
    · exact .inr (.inl ⟨_, ⟨rfl, hAdmits⟩, h⟩)
  | complete planId executionId stepId stepIndex totalSteps attemptNumber =>
    obtain h | ⟨hAdmits, h⟩ := finalizeExecutionAttemptAtomic_effect attemptNumber (.completed totalSteps)
    · exact .inl h
    · exact .inr (.inr ⟨_, _, _, ⟨rfl, rfl, rfl, hAdmits⟩, by decide, h⟩)
  | fail planId executionId stepId stepIndex attemptNumber =>
    obtain h | ⟨hAdmits, h⟩ := finalizeExecutionAttemptAtomic_effect attemptNumber .failed
    · exact .inl h
    · exact .inr (.inr ⟨_, _, _, ⟨rfl, rfl, rfl, hAdmits⟩, by decide, h⟩)
  | pause planId executionId stepId stepIndex attemptNumber reason stageId runSnapshot reviewExecutionId =>
    obtain h | ⟨hAdmits, h⟩ := pauseExecutionAttemptForReviewAtomic_effect attemptNumber reason stageId
      runSnapshot reviewExecutionId
    · exact .inl h
    · exact .inr (.inr ⟨_, _, _, ⟨rfl, rfl, rfl, hAdmits⟩, by decide, h⟩)
  | heartbeat planId executionId stepId attemptNumber => exact .inl (hKept keeps_heartbeatExecutionAttempt)
  | operatorAction planId executionId options =>
    exact .inl (hKept (keeps_applyOperatorRecoveryAction ignoresCheckpoints_attemptView ignoresLocks_attemptView
      ignoresExecutions_attemptView ignoresSteps_attemptView ignoresStages_attemptView
      (ignoresEvent_attemptView rfl) (ignoresEvent_attemptView rfl) (ignoresEvent_attemptView rfl) _ _ _))
  | expire planId =>
    exact .inl (hKept (keeps_expireOperatorRecoveryItems fun now db => attemptView_expiredDb planId now db))
  | markCorrupted planId => exact .inl (hKept (keeps_changeCheckpoint ignoresCheckpoints_attemptView _ _))
  | logCorrupted planId executionId =>
    exact .inl (hKept (keeps_appendLedgerEvent (ignoresEvent_attemptView rfl)))
  | transition planId executionId options hEvent =>
    exact .inl (hKept (keeps_finalizeExecutionTransition ignoresCheckpoints_attemptView ignoresLocks_attemptView
      ignoresExecutions_attemptView (ignoresEvent_attemptView rfl) _ _ _
      fun eventType hType => reconcileEvents_ignored (hType ▸ hEvent)))
  | queueReview planId executionId checkpoint stepId reason =>
    exact .inl (hKept (keeps_queueRecoveryReviewTx ignoresCheckpoints_attemptView ignoresLocks_attemptView
      ignoresExecutions_attemptView ignoresQueue_attemptView (ignoresEvent_attemptView rfl)
      (ignoresEvent_attemptView rfl) (ignoresEvent_attemptView rfl) _ _ _ _ _))
  | advance planId stepIndex totalSteps =>
    exact .inl (hKept (keeps_changeCheckpoint ignoresCheckpoints_attemptView _ _))
  | cancelAttempt planId executionId stepId attemptNumber =>
    cases hRun : cancelExecutionAttempt planId executionId stepId attemptNumber env db with
    | error err =>
      left
      unfold AttemptTransaction.after
      dsimp only
      rw [transact_of_throw hRun]
    | ok outcome =>
      obtain ⟨result, db'⟩ := outcome
      cases result with
      | error err =>
        left
        unfold AttemptTransaction.after
        dsimp only
        rw [transact_of_ok hRun, finalizeAttempt_refused hRun]
      | ok attempt =>
        refine .inr (.inr ⟨_, attemptNumber, .cancelled, ⟨rfl, rfl, rfl⟩, by decide, ?_⟩)
        unfold AttemptTransaction.after
        dsimp only
        rw [transact_of_ok hRun]
        exact finalizeAttempt_closed hRun

/-- How the checker names the attempts of a step. -/
def stepText (step : StepKey) : String := s!"{step.2.1}:{step.2.2}"

/-- An attempt of another step of the plan goes by the same name. -/
def Db.nameTaken (db : Db) (step : StepKey) : Prop :=
  ∃ other number, other.1 = step.1 ∧ other ≠ step ∧ stepText other = stepText step ∧
    (db.attemptStatus other number).isSome

/-- Nothing runs where the transaction begins an attempt, and what it closes is running. -/
structure AttemptTransaction.Orderly (transaction : AttemptTransaction) (db : Db) : Prop where
  opens : ∀ step, transaction.opens db step →
    (∀ number, db.attemptStatus step number ≠ some .running) ∧ ¬db.nameTaken step
  closes : ∀ step number status, transaction.closes db step number status →
    ∀ old, db.attemptStatus step number = some old → old = .running

structure AttemptsInOrder (db : Db) : Prop where
  journal : Journal.Disciplined .running db.attemptJournal
  complete : ∀ row ∈ db.attemptEvents, row.attemptEntry.isSome
  apart : ∀ step, ¬db.nameTaken step ∨ ∀ number, db.attemptStatus step number = none

theorem attemptStatus_of_record {db db' : Db} {entry : Entry StepKey AttemptStatus} {status : AttemptStatus}
    (h : Journaled db db' entry status) (step : StepKey) (number : Int) :
    db'.attemptStatus step number =
      if step = entry.group ∧ number = entry.number then some status else db.attemptStatus step number :=
  congrFun (congrFun (congrArg Journal.status h.journal) step) number

theorem complete_of_journaled {db db' : Db} {entry : Entry StepKey AttemptStatus} {status : AttemptStatus}
    (h : Journaled db db' entry status) (hComplete : ∀ row ∈ db.attemptEvents, row.attemptEntry.isSome) :
    ∀ row ∈ db'.attemptEvents, row.attemptEntry.isSome := by
  obtain ⟨event, hEntry, hEvents⟩ := h.event
  intro row hRow
  rw [hEvents, List.mem_append, List.mem_singleton] at hRow
  obtain hRow | rfl := hRow
  · exact hComplete row hRow
  · rw [hEntry]
    rfl

/-- The number that a new attempt gets closes up to the numbers in use. -/
theorem nextAttempt_spec {db : Db} {step : StepKey} {count : Nat}
    (h : ∀ number, (db.attemptStatus step number).isSome ↔ 1 ≤ number ∧ number ≤ count) :
    nextAttempt db step = count + 1 := by
  obtain ⟨planId, executionId, stepId⟩ := step
  have hMem (number : Int) : number ∈ ((db.executionAttempts.rows.filter fun row =>
      row.planId = planId ∧ row.executionId = executionId ∧ row.stepId = stepId).map
        AttemptRow.attemptNumber) ↔ 1 ≤ number ∧ number ≤ count := by
    rw [← h number, attemptStatus_isSome, List.mem_map]
    simp only [List.mem_filter, decide_eq_true_eq, AttemptRow.key, Prod.mk.injEq, and_assoc]
  unfold nextAttempt maxAttempt
  cases hCount : count with
  | zero =>
    have hNil : ((db.executionAttempts.rows.filter fun row =>
        row.planId = planId ∧ row.executionId = executionId ∧ row.stepId = stepId).map
          AttemptRow.attemptNumber) = [] := by
      rw [List.eq_nil_iff_forall_not_mem]
      intro number hNumber
      have hRange := (hMem number).mp hNumber
      omega
    rw [hNil]
    rfl
  | succ previous =>
    have hMax : ((db.executionAttempts.rows.filter fun row =>
        row.planId = planId ∧ row.executionId = executionId ∧ row.stepId = stepId).map
          AttemptRow.attemptNumber).max? = some (count : Int) := by
      rw [List.max?_eq_some_iff]
      refine ⟨(hMem count).mpr ⟨by omega, le_refl _⟩, fun number hNumber => ((hMem number).mp hNumber).2⟩
    rw [hMax, Option.getD_some, hCount]

section Steps

variable {transaction : AttemptTransaction} {env : Env} {db : Db}

theorem AttemptsInOrder.congr {db' : Db} (h : AttemptsInOrder db) (hView : db'.attemptView = db.attemptView) :
    AttemptsInOrder db' := by
  have hStatus : db'.attemptStatus = db.attemptStatus := congrArg Prod.fst hView
  have hEvents : db'.attemptEvents = db.attemptEvents := congrArg Prod.snd hView
  refine ⟨attemptJournal_congr hView ▸ h.journal, hEvents ▸ h.complete, ?_⟩
  unfold Db.nameTaken
  rw [hStatus]
  exact h.apart

/-- An orderly transaction keeps the attempts in order. -/
theorem AttemptsInOrder.step (h : AttemptsInOrder db) (hOrderly : transaction.Orderly db) :
    AttemptsInOrder (transaction.after env db) ∧
      Journal.ClosedStay .running db.attemptJournal (transaction.after env db).attemptJournal := by
  obtain hView | ⟨step, hOpens, hOpened⟩ | ⟨step, number, status, hCloses, hStatus, hSome, hClosed⟩ :=
    transaction.effect env db
  · refine ⟨h.congr hView, ?_⟩
    rw [attemptJournal_congr hView]
    exact fun _ _ _ _ hSame => hSame
  · obtain ⟨hFree, hName⟩ := hOrderly.opens step hOpens
    obtain ⟨count, hCount⟩ := h.journal.contiguous step
    have hNext : nextAttempt db step = count + 1 := nextAttempt_spec hCount
    have hNone : db.attemptStatus step (nextAttempt db step) = none := by
      have hNot := (hCount (nextAttempt db step)).not.mpr (by omega)
      exact Option.not_isSome_iff_eq_none.mp hNot
    unfold Opened at hOpened
    refine ⟨⟨?_, complete_of_journaled hOpened h.complete, ?_⟩, ?_⟩
    · rw [hOpened.journal]
      refine h.journal.open (fun other => ?_) (by omega) hFree
      rw [hCount other, hNext]
      omega
    · intro other
      by_cases hOther : other = step
      · subst hOther
        left
        rintro ⟨taken, number, hPlan, hNe, hText, hSome⟩
        rw [attemptStatus_of_record hOpened, if_neg (fun h => hNe h.1)] at hSome
        exact hName ⟨taken, number, hPlan, hNe, hText, hSome⟩
      · by_cases hUsed : ∀ number, db.attemptStatus other number = none
        · right
          intro number
          rw [attemptStatus_of_record hOpened, if_neg (fun h => hOther h.1)]
          exact hUsed number
        · left
          rintro ⟨taken, number, hPlan, hNe, hText, hSome⟩
          rw [not_forall] at hUsed
          obtain ⟨used, hUsed⟩ := hUsed
          by_cases hTaken : taken = step
          · subst hTaken
            exact hName ⟨other, used, hPlan.symm, hOther, hText.symm, Option.isSome_iff_ne_none.mpr hUsed⟩
          · rw [attemptStatus_of_record hOpened, if_neg (fun h => hTaken h.1)] at hSome
            obtain hFree | hUnused := h.apart other
            · exact hFree ⟨taken, number, hPlan, hNe, hText, hSome⟩
            · exact hUsed (hUnused used)
    · rw [hOpened.journal]
      refine Journal.closedStay_record fun s _ hClosed => ?_
      change db.attemptStatus step (nextAttempt db step) = some s at hClosed
      rw [hNone] at hClosed
      cases hClosed
  · obtain ⟨old, hOld⟩ := Option.isSome_iff_exists.mp hSome
    have hRunning : db.attemptStatus step number = some .running := by
      rw [hOld, hOrderly.closes step number status hCloses old hOld]
    have hSame (other : StepKey) (n : Int) : ((transaction.after env db).attemptStatus other n).isSome =
        (db.attemptStatus other n).isSome := by
      rw [attemptStatus_of_record hClosed]
      split
      · rename_i hAt
        rw [hAt.1, hAt.2, hRunning]
        rfl
      · rfl
    refine ⟨⟨?_, complete_of_journaled hClosed h.complete, ?_⟩, ?_⟩
    · rw [hClosed.journal]
      exact h.journal.close hRunning hStatus
    · intro other
      simp only [← Option.not_isSome_iff_eq_none, Db.nameTaken, hSame]
      have hApart := h.apart other
      simp only [← Option.not_isSome_iff_eq_none, Db.nameTaken] at hApart
      exact hApart
    · rw [hClosed.journal]
      refine Journal.closedStay_record fun s hs hStill => ?_
      change db.attemptStatus step number = some s at hStill
      rw [hRunning, Option.some.injEq] at hStill
      exact hs hStill.symm

end Steps

end CommandConsole.Execution
