import CommandConsole.Execution.CheckpointRecovery
import CommandConsole.Execution.AttemptRuns

/-! # What an operator's action leaves to recovery

A retry and a cancellation store a checkpoint, and recovery goes on from it whichever it was.
-/
namespace CommandConsole.Execution
open Library
set_option autoImplicit false

variable {planId executionId : String} {env : Env} {db db' : Db} {before checkpoint : Checkpoint}

def Checkpoint.cancelled (before : Checkpoint) (nowMs : Int) : Checkpoint :=
  { before with status := .cancelled, cancellationRequested := true, updatedAt := nowMs }

def Checkpoint.retried (before : Checkpoint) (target : StepRow) (nowMs : Int) : Checkpoint :=
  { before with
    status := .paused
    cancellationRequested := false
    currentStep := max 0 (target.sequence - 1)
    lastCompletedStepIndex := min before.lastCompletedStepIndex (max 0 (target.sequence - 1) - 1)
    updatedAt := nowMs }

/-- The checkpoint that the action stores in place of the one before. -/
inductive OperatorCheckpoint (db : Db) (executionId : String) (options : OperatorOptions) (nowMs : Int)
    (before : Checkpoint) : Checkpoint → Prop where
  | cancelled (hAction : options.action = .cancelExecution) :
    OperatorCheckpoint db executionId options nowMs before (before.cancelled nowMs)
  | retried (hAction : options.action = .retryStep) (target : StepRow)
    (hTarget : retryTarget (stepsOf db executionId) before options.stepId = some target) :
    OperatorCheckpoint db executionId options nowMs before (before.retried target nowMs)

/-- The last statements of an action return the checkpoint and leave the stored ones. -/
theorem returned_checkpoint {α : Type} {work : Tx α} {next : Checkpoint} (hWork : Tx.Keeps Db.executionState work)
    (h : (do requireExecution executionId; let _ ← work; success next : Tx (Result Checkpoint)) env db =
      .ok (.ok checkpoint, db')) : checkpoint = next ∧ db'.executionState = db.executionState := by
  obtain ⟨_, middle, hFirst, h⟩ := Tx.bind_eq_ok.mp h
  obtain ⟨_, last, hSecond, h⟩ := Tx.bind_eq_ok.mp h
  cases h
  exact ⟨rfl, (hWork _ _ _ _ hSecond).trans (keeps_requireExecution executionId _ _ _ _ hFirst)⟩

theorem retryStepAction_stores {stepId : Option String}
    (h : retryStepAction planId executionId before stepId env db = .ok (.ok checkpoint, db')) :
    ∃ target, retryTarget (stepsOf db executionId) before stepId = some target ∧
      checkpoint = before.retried target env.nowMs ∧
      db'.executionState = (db.putCheckpoint checkpoint).executionState := by
  rw [retryStepAction, Tx.ask_bind, Tx.get_bind] at h
  cases hTarget : retryTarget (stepsOf db executionId) before stepId with
  | none =>
    rw [hTarget] at h
    cases h
  | some target =>
    simp only [hTarget, writeCheckpointRow, Tx.modify_bind] at h
    cases hStage : target.stageId
    all_goals
      simp only [hStage, Tx.modify_bind] at h
      obtain ⟨rfl, hState⟩ := returned_checkpoint (keeps_appendLedgerEventTx fun _ _ _ => rfl) h
      exact ⟨target, rfl, rfl, hState⟩

theorem cancelExecutionAction_stores {reason : String}
    (h : cancelExecutionAction planId executionId before reason env db = .ok (.ok checkpoint, db')) :
    checkpoint = before.cancelled env.nowMs ∧ db'.executionState = (db.putCheckpoint checkpoint).executionState := by
  simp only [cancelExecutionAction, writeCheckpointRow, Tx.ask_bind, Tx.modify_bind] at h
  have hRelease : Tx.Keeps Db.executionState (do
      let _ ← appendLedgerEventTx { planId, executionId := some executionId, eventType := .executionCancelled }
      orThrow (releaseExecutionLockTx planId executionId .none)) :=
    .bind (keeps_appendLedgerEventTx fun _ _ _ => rfl) fun _ =>
      keeps_orThrow (keeps_releaseExecutionLockTx (fun _ _ => rfl) (fun _ _ => rfl) planId executionId _ fun _ _ _ => rfl)
  obtain ⟨rfl, hState⟩ := returned_checkpoint hRelease h
  exact ⟨rfl, hState⟩

theorem operatorAction_stores {options : OperatorOptions}
    (h : applyOperatorRecoveryAction planId executionId options env db = .ok (.ok checkpoint, db')) :
    planId ≠ "" ∧ db'.executionState = (db.putCheckpoint checkpoint).executionState ∧
      ∃ before, readCheckpointRow db planId = some before ∧
        OperatorCheckpoint db executionId options env.nowMs before checkpoint := by
  rw [applyOperatorRecoveryAction] at h
  split at h
  · cases h
  next hPlan =>
  have hNamed : planId ≠ "" := by
    rintro rfl
    exact hPlan rfl
  iterate 3
    split at h
    · cases h
  rw [Tx.mapThrow_eq_ok, Tx.get_bind] at h
  cases hRow : readCheckpointRow db planId with
  | none =>
    rw [hRow] at h
    cases h
  | some before =>
    cases hExecution : (db.executions.find? executionId).filter fun row => row.planId = some planId with
    | none =>
      simp only [hRow, hExecution] at h
      cases h
    | some execution =>
      simp only [hRow, hExecution] at h
      iterate 2
        split at h
        · cases h
      cases hAction : options.action
      case cancelExecution =>
        rw [hAction] at h
        obtain ⟨rfl, hState⟩ := cancelExecutionAction_stores h
        exact ⟨hNamed, hState, before, rfl, .cancelled hAction⟩
      case retryStep =>
        rw [hAction] at h
        obtain ⟨target, hTarget, rfl, hState⟩ := retryStepAction_stores h
        exact ⟨hNamed, hState, before, rfl, .retried hAction target hTarget⟩
      all_goals
        rw [hAction] at h
        cases h

/-- What an action that succeeds stores, and that recovery goes on from it. -/
theorem operator_action_recovered {options : OperatorOptions}
    (h : applyOperatorRecoveryAction planId executionId options env db = .ok (.ok checkpoint, db')) :
    (∃ before, readCheckpointRow db planId = some before ∧
        OperatorCheckpoint db executionId options env.nowMs before checkpoint) ∧
      ∀ (plan : CheckpointPlan) (later : Env), plan.id = planId →
        (atIndex plan.steps (checkpoint.lastCompletedStepIndex + 1)).isSome = true →
          recoverExecutionState plan later db' =
            .ok (.ok ⟨checkpoint, checkpoint.lastCompletedStepIndex + 1, true, false, false⟩, db') := by
  obtain ⟨hNamed, hState, before, hBefore, hStored⟩ := operatorAction_stores h
  refine ⟨⟨before, hBefore, hStored⟩, ?_⟩
  rintro plan later rfl hNext
  have hKept : readCheckpointRow db' plan.id =
      some { checkpoint with status := normalizeCheckpointStatus checkpoint.status } := by
    have hPlan : checkpoint.planId = plan.id := by
      rw [← readCheckpointRow_planId hBefore]
      cases hStored <;> rfl
    rw [readCheckpointRow_congr hState, ← hPlan]
    exact readCheckpointRow_putCheckpoint db checkpoint
  cases hStored with
  | cancelled => exact recoverExecutionState_resumes later hNamed hKept hNext (show Status.cancelled ∉ _ by decide)
  | retried => exact recoverExecutionState_resumes later hNamed hKept hNext (show Status.paused ∉ _ by decide)

def reviewedDb : Db := startedDb.putCheckpoint ⟨"plan_1", none, 0, .awaitingReview, -1, false, 0⟩

theorem retried_step_recovered : ∃ db',
    applyOperatorRecoveryAction "plan_1" "exec_1" ⟨.retryStep, "operator_1", "again", none⟩ ⟨5, "server_1"⟩ reviewedDb =
        .ok (.ok ⟨"plan_1", none, 0, .paused, -1, false, 5⟩, db') ∧
      recoverExecutionState guardedPlan ⟨6, "worker_1"⟩ db' =
        .ok (.ok ⟨⟨"plan_1", none, 0, .paused, -1, false, 5⟩, 0, true, false, false⟩, db') := by
  obtain ⟨db', hAction⟩ : ∃ db', applyOperatorRecoveryAction "plan_1" "exec_1"
      ⟨.retryStep, "operator_1", "again", none⟩ ⟨5, "server_1"⟩ reviewedDb =
        .ok (.ok ⟨"plan_1", none, 0, .paused, -1, false, 5⟩, db') := ⟨_, rfl⟩
  exact ⟨db', hAction, (operator_action_recovered hAction).2 guardedPlan ⟨6, "worker_1"⟩ rfl rfl⟩

end CommandConsole.Execution
