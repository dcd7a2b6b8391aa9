import CommandConsole.Execution.Snapshot

/-! # Checkpoints, terminal transitions and operator actions -/
namespace CommandConsole.Execution
open Library
set_option autoImplicit false

/-- `isTerminalCheckpointStatus`. -/
def Status.terminalCheckpoint (status : Status) : Bool :=
  status ∈ [.completed, .cancelled, .failed, .executionAbandoned, .corrupted]

/-- `isTerminalExecutionStatus`. -/
def Status.terminalExecution (status : Status) : Bool := status ∈ [.completed, .cancelled, .failed]

def Status.reviewCheckpoint (status : Status) : Bool :=
  status ∈ [.awaitingReview, .pauseForOperatorRecovery]

/-- `normalizeCheckpointStatus`: `paused_for_review` is not a checkpoint status. -/
def normalizeCheckpointStatus : Status → Status
  | .pausedForReview => .pending
  | status => status

/-- `readCheckpointRow`. -/
def readCheckpointRow (db : Db) (planId : String) : Option Checkpoint :=
  (db.executionState.find? planId).map fun row => { row with status := normalizeCheckpointStatus row.status }

theorem readCheckpointRow_congr {db db' : Db} (h : db'.executionState = db.executionState) (planId : String) :
    readCheckpointRow db' planId = readCheckpointRow db planId := by
  rw [readCheckpointRow, readCheckpointRow, h]

theorem readCheckpointRow_planId {planId : String} {db : Db} {checkpoint : Checkpoint}
    (h : readCheckpointRow db planId = some checkpoint) : checkpoint.planId = planId := by
  obtain ⟨row, hRow, rfl⟩ := Option.map_eq_some_iff.mp h
  have hKey : row.planId = planId := Table.find?_key hRow
  exact hKey

theorem readCheckpointRow_putCheckpoint (db : Db) (checkpoint : Checkpoint) :
    readCheckpointRow (db.putCheckpoint checkpoint) checkpoint.planId =
      some { checkpoint with status := normalizeCheckpointStatus checkpoint.status } := by
  rw [readCheckpointRow, Db.putCheckpoint_executionState, PlainTable.find?_put, if_pos rfl, Option.map_some]

theorem normalizeCheckpointStatus_idempotent (status : Status) :
    normalizeCheckpointStatus (normalizeCheckpointStatus status) = normalizeCheckpointStatus status := by
  cases status <;> rfl

def writeCheckpointRow (row : Checkpoint) : Tx Unit := Tx.modify fun db => db.putCheckpoint row

/-- Read the checkpoint of the plan, change it and write it back with the clock. -/
def changeCheckpoint (planId : String) (change : Checkpoint → Checkpoint) : Tx (Result Checkpoint) := do
  let env ← Tx.ask
  let db ← Tx.get
  match readCheckpointRow db planId with
  | none => failure "NOT_FOUND" s!"Execution checkpoint {planId} was not found."
  | some checkpoint =>
    let nextRow := { change checkpoint with updatedAt := env.nowMs }
    writeCheckpointRow nextRow
    success nextRow

def startExecutionState (plan : CheckpointPlan) (version : Option String) : Tx (Result Checkpoint) :=
  if plan.id = "" then
    failure "INVALID_STATE" "Execution plan requires an id for checkpoint persistence."
  else do
    let env ← Tx.ask
    let db ← Tx.get
    match readCheckpointRow db plan.id with
    | some _ =>
      failure "EXECUTION_ALREADY_EXISTS" s!"Execution checkpoint already exists for plan {plan.id}."
    | none =>
      let row : Checkpoint := {
        planId := plan.id, planVersion := version, currentStep := 0, status := .pending
        lastCompletedStepIndex := -1, cancellationRequested := false, updatedAt := env.nowMs }
      writeCheckpointRow row
      success row

def checkpointBeforeStep (planId : String) (stepIndex : Int) : Tx (Result Checkpoint) :=
  changeCheckpoint planId fun checkpoint => { checkpoint with currentStep := stepIndex, status := .running }

def checkpointAfterStep (planId : String) (stepIndex totalSteps : Int) : Tx (Result Checkpoint) :=
  changeCheckpoint planId fun checkpoint =>
    { checkpoint with
      currentStep := stepIndex + 1
      lastCompletedStepIndex := stepIndex
      status := if totalSteps ≤ stepIndex + 1 then .completed else .running }

def failExecutionCheckpoint (planId : String) (stepIndex : Int) : Tx (Result Checkpoint) :=
  changeCheckpoint planId fun checkpoint => { checkpoint with currentStep := stepIndex, status := .failed }

def markAwaitingReview (planId : String) (stepIndex : Int) : Tx (Result Checkpoint) :=
  changeCheckpoint planId fun checkpoint =>
    { checkpoint with currentStep := stepIndex, status := .awaitingReview }

def requestExecutionCancellation (planId : String) : Tx (Result Checkpoint) :=
  changeCheckpoint planId fun checkpoint => { checkpoint with cancellationRequested := true }

/-- The `overrides` that the callers pass. -/
structure CheckpointOverrides where
  currentStep : Option Int := none
  lastCompletedStepIndex : Option Int := none

def CheckpointOverrides.apply (overrides : CheckpointOverrides) (status : Status)
    (checkpoint : Checkpoint) : Checkpoint :=
  { checkpoint with
    currentStep := overrides.currentStep.getD checkpoint.currentStep
    lastCompletedStepIndex := overrides.lastCompletedStepIndex.getD checkpoint.lastCompletedStepIndex
    status := normalizeCheckpointStatus status }

def setExecutionCheckpointStatus (planId : String) (status : Status) (overrides : CheckpointOverrides) :
    Tx (Result Checkpoint) := changeCheckpoint planId (overrides.apply status)

structure TransitionOptions where
  status : Option Status := none
  overrides : CheckpointOverrides := {}
  eventType : Option EventType := none
  stepId : Option String := none
  attemptNumber : Option Int := none
  releaseLock : Bool := true
  requireCheckpoint : Bool := true

/-- The checkpoint write of a transition; without a status the checkpoint stays. -/
def transitionCheckpoint (status : Option Status) (overrides : CheckpointOverrides)
    (checkpoint : Option Checkpoint) : Tx (Option Checkpoint) := do
  let env ← Tx.ask
  match status, checkpoint with
  | some next, some row =>
    let nextRow := { overrides.apply next row with updatedAt := env.nowMs }
    writeCheckpointRow nextRow
    pure (some nextRow)
  | _, _ => pure checkpoint

def transitionEvent (planId executionId : String) (options : TransitionOptions) : Tx Unit :=
  match options.eventType with
  | none => pure ()
  | some eventType => do
    let _ ← appendLedgerEventTx {
      planId, executionId := some executionId, stepId := options.stepId
      attemptNumber := options.attemptNumber, eventType }

/-- A failed release throws, so it takes the checkpoint and the event back. -/
def finalizeExecutionTransition (planId executionId : String) (options : TransitionOptions) :
    Tx (Result (Option Checkpoint)) := do
  let db ← Tx.get
  let checkpoint := readCheckpointRow db planId
  if checkpoint = none ∧ options.requireCheckpoint then
    failure "NOT_FOUND" s!"Execution checkpoint {planId} was not found."
  else do
    let nextCheckpoint ← transitionCheckpoint options.status options.overrides checkpoint
    transitionEvent planId executionId options
    if options.releaseLock then do
      let _ ← orThrow (releaseExecutionLockTx planId executionId .none)
      success nextCheckpoint
    else success nextCheckpoint

inductive OperatorAction where
  | cancelExecution
  | retryStep
  | rejectResume
  | modifyResume
  | other (text : String)
  deriving DecidableEq

def OperatorAction.text : OperatorAction → String
  | .cancelExecution => "cancel_execution"
  | .retryStep => "retry_step"
  | .rejectResume => "reject_resume"
  | .modifyResume => "modify_resume"
  | .other text => text

structure OperatorOptions where
  action : OperatorAction
  operatorId : String
  reason : String
  stepId : Option String
  deriving DecidableEq

def Status.closedRow (status : Status) : Bool := status ∈ [.completed, .failed, .cancelled]

def cancelledExecutionRow (now : Int) (row : ExecutionRow) : ExecutionRow :=
  { row with
    status := .cancelled
    requiresReview := false
    finishedAt := row.finishedAt <|> some now
    cancelledAt := some now
    lastUpdatedAt := now }

theorem cancelledExecutionRow_id (now : Int) (row : ExecutionRow) :
    (cancelledExecutionRow now row).id = row.id := rfl

def retriedExecutionRow (now : Int) (row : ExecutionRow) : ExecutionRow :=
  { row with
    status := .paused, requiresReview := false, finishedAt := none, cancelledAt := none
    lastUpdatedAt := now }

theorem retriedExecutionRow_id (now : Int) (row : ExecutionRow) : (retriedExecutionRow now row).id = row.id :=
  rfl

def cancelledStepRow (now : Int) (reason : String) (row : StepRow) : StepRow :=
  if row.status.closedRow then row
  else
    { row with
      status := .cancelled
      finishedAt := row.finishedAt <|> some now
      errorCode := some "operator_cancelled"
      errorMessage := some (if reason = "" then "Execution cancelled by operator." else reason) }

def cancelledStageRow (now : Int) (row : StageRow) : StageRow :=
  if row.status.closedRow then { row with lastUpdatedAt := now }
  else { row with status := .cancelled, finishedAt := row.finishedAt <|> some now, lastUpdatedAt := now }

theorem cancelledStepRow_key (now : Int) (reason : String) (row : StepRow) :
    (cancelledStepRow now reason row).key = row.key := by
  unfold cancelledStepRow
  split <;> simp only [StepRow.key]

theorem cancelledStepRow_position (now : Int) (reason : String) (row : StepRow) :
    (cancelledStepRow now reason row).position = row.position := by
  unfold cancelledStepRow
  split <;> simp only [StepRow.position]

theorem cancelledStageRow_key (now : Int) (row : StageRow) : (cancelledStageRow now row).key = row.key := by
  unfold cancelledStageRow
  split <;> simp only [StageRow.key]

theorem cancelledStageRow_position (now : Int) (row : StageRow) :
    (cancelledStageRow now row).position = row.position := by
  unfold cancelledStageRow
  split <;> simp only [StageRow.position]

def cancelExecutionAction (planId executionId : String) (checkpoint : Checkpoint) (reason : String) :
    Tx (Result Checkpoint) := do
  let env ← Tx.ask
  let nextCheckpoint := { checkpoint with
    status := .cancelled, cancellationRequested := true, updatedAt := env.nowMs }
  writeCheckpointRow nextCheckpoint
  Tx.modify fun db =>
    db.updateExecution executionId (cancelledExecutionRow env.nowMs) (cancelledExecutionRow_id env.nowMs)
  Tx.modify fun db =>
    { db with
      executionSteps := db.executionSteps.update (fun row => row.executionId = executionId)
        (cancelledStepRow env.nowMs reason) (cancelledStepRow_key _ _) (cancelledStepRow_position _ _)
      executionStages := db.executionStages.update (fun row => row.executionId = executionId)
        (cancelledStageRow env.nowMs) (cancelledStageRow_key _) (cancelledStageRow_position _) }
  requireExecution executionId
  let _ ← appendLedgerEventTx {
    planId, executionId := some executionId, eventType := .executionCancelled }
  let _ ← orThrow (releaseExecutionLockTx planId executionId .none)
  success nextCheckpoint

/-- The step a retry goes back to: the named one, else the first failed, then the first paused for
review, then the one the checkpoint points at. -/
def retryTarget (steps : List StepRow) (checkpoint : Checkpoint) (stepId : Option String) : Option StepRow :=
  match truthy stepId with
  | some id => steps.find? fun row => row.id = id
  | none =>
    steps.find? (fun row => row.status = .failed) <|>
      steps.find? (fun row => row.status = .pausedForReview) <|>
        steps.find? fun row => row.sequence = checkpoint.currentStep + 1

def retriedStepRow (target : StepRow) (row : StepRow) : StepRow :=
  let reset : Bool := target.sequence ≤ row.sequence ∧ row.status ≠ .completed
  { row with
    status :=
      if row.sequence = target.sequence then .pending
      else if target.sequence < row.sequence ∧ row.status ≠ .completed then .pending
      else row.status
    startedAt := if reset then none else row.startedAt
    finishedAt := if reset then none else row.finishedAt
    pauseReason := if reset then none else row.pauseReason
    blockReason := if reset then none else row.blockReason
    errorCode := if reset then none else row.errorCode
    errorMessage := if reset then none else row.errorMessage
    reviewAcknowledged := if row.id = target.id then true else row.reviewAcknowledged }

def retriedStageRow (sequence now : Int) (row : StageRow) : StageRow :=
  { row with
    status :=
      if row.sequence < sequence ∧ row.status = .completed then row.status
      else if sequence ≤ row.sequence then .pending
      else row.status
    pauseReason := if sequence ≤ row.sequence then none else row.pauseReason
    startedAt := if sequence ≤ row.sequence then none else row.startedAt
    finishedAt := if sequence ≤ row.sequence ∧ row.status ≠ .completed then none else row.finishedAt
    lastUpdatedAt := now }

theorem retriedStepRow_key (target row : StepRow) : (retriedStepRow target row).key = row.key := by
  simp only [StepRow.key, retriedStepRow]

theorem retriedStepRow_position (target row : StepRow) :
    (retriedStepRow target row).position = row.position := by
  simp only [StepRow.position, retriedStepRow]

theorem retriedStageRow_key (sequence now : Int) (row : StageRow) :
    (retriedStageRow sequence now row).key = row.key := by
  simp only [StageRow.key, retriedStageRow]

theorem retriedStageRow_position (sequence now : Int) (row : StageRow) :
    (retriedStageRow sequence now row).position = row.position := by
  simp only [StageRow.position, retriedStageRow]

def retryStepAction (planId executionId : String) (checkpoint : Checkpoint) (stepId : Option String) :
    Tx (Result Checkpoint) := do
  let env ← Tx.ask
  let db ← Tx.get
  match retryTarget (stepsOf db executionId) checkpoint stepId with
  | none => failure "STEP_NOT_FOUND" s!"Retry target step was not found for plan {planId}."
  | some target =>
    let targetStepIndex := max 0 (target.sequence - 1)
    let nextCheckpoint := { checkpoint with
      status := .paused
      cancellationRequested := false
      currentStep := targetStepIndex
      lastCompletedStepIndex := min checkpoint.lastCompletedStepIndex (targetStepIndex - 1)
      updatedAt := env.nowMs }
    writeCheckpointRow nextCheckpoint
    Tx.modify fun db =>
      db.updateExecution executionId (retriedExecutionRow env.nowMs) (retriedExecutionRow_id env.nowMs)
    Tx.modify fun db =>
      { db with
        executionSteps := db.executionSteps.update (fun row => row.executionId = executionId)
          (retriedStepRow target) (retriedStepRow_key target) (retriedStepRow_position target) }
    match target.stageId with
    | none => pure ()
    | some stageId =>
      let sequence := (((stagesOf db executionId).find? fun stage => stage.id = stageId).map
        StageRow.sequence).getD 0
      Tx.modify fun db =>
        { db with
          executionStages := db.executionStages.update (fun row => row.executionId = executionId)
            (retriedStageRow sequence env.nowMs) (retriedStageRow_key _ _) (retriedStageRow_position _ _) }
    requireExecution executionId
    let _ ← appendLedgerEventTx {
      planId, executionId := some executionId, stepId := some target.id
      eventType := .operatorRetryRequested }
    success nextCheckpoint

def applyOperatorRecoveryAction (planId executionId : String) (options : OperatorOptions) :
    Tx (Result Checkpoint) :=
  if isBlank planId then failure "EXECUTION_NOT_FOUND" "planId is required."
  else if isBlank executionId then failure "EXECUTION_NOT_FOUND" "executionId is required."
  else if options.operatorId = "" then failure "INVALID_TRANSITION" "operatorId is required."
  else if options.action ∈ [.retryStep, .cancelExecution, .rejectResume, .modifyResume] ∧
      options.reason = "" then
    failure "OPERATOR_REASON_REQUIRED" "Operator reason is required for this action."
  else Tx.mapThrow (fun err => ⟨"DB_WRITE_FAILED", err.message⟩) do
    let db ← Tx.get
    match readCheckpointRow db planId with
    | none => failure "EXECUTION_NOT_FOUND" s!"Execution checkpoint {planId} was not found."
    | some checkpoint =>
      match (db.executions.find? executionId).filter fun row => row.planId = some planId with
      | none => failure "EXECUTION_NOT_FOUND" s!"Execution {executionId} was not found for plan {planId}."
      | some execution =>
        let inReviewState := checkpoint.status.reviewCheckpoint || execution.status = .pausedForReview ||
          execution.requiresReview
        let allowFailedRetry := options.action = .retryStep &&
          (checkpoint.status = .failed || execution.status = .failed)
        let text := options.action.text
        if (checkpoint.status.terminalCheckpoint || execution.status.terminalExecution) &&
            !allowFailedRetry then
          failure "INVALID_TRANSITION" (s!"Operator action \"{text}\" is not allowed after " ++
            s!"execution {executionId} reached terminal state.")
        else if !inReviewState && !allowFailedRetry then
          failure "INVALID_TRANSITION" (s!"Operator action \"{text}\" is only allowed while " ++
            s!"execution {executionId} is paused for review.")
        else
          match options.action with
          | .cancelExecution => cancelExecutionAction planId executionId checkpoint options.reason
          | .retryStep => retryStepAction planId executionId checkpoint options.stepId
          | _ => failure "INVALID_TRANSITION" s!"Unsupported operator action \"{text}\"."

end CommandConsole.Execution
