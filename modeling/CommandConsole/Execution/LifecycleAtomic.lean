import CommandConsole.Execution.LifecycleAttemptAtomic

/-! # Ending or pausing an execution in one transaction

The checkpoint, the snapshot, the ledger and the lock move together. A failure
inside throws and is returned under its message, so nothing is left behind.
-/
namespace CommandConsole.Execution
open Library
set_option autoImplicit false

/-- `normalizeFailedTerminalStatus`. -/
def normalizeFailedTerminalStatus (status : Status) (fallback : String) : String :=
  if status ∈ [.completed, .failed, .cancelled, .pending] then status.text else fallback

/-- The two members of `FINAL_STATUSES`. -/
inductive FinalStatus where
  | completed
  | failed
  deriving DecidableEq

def FinalStatus.status : FinalStatus → Status
  | .completed => .completed
  | .failed => .failed

def FinalStatus.eventType : FinalStatus → EventType
  | .completed => .executionCompleted
  | .failed => .executionFailed

def terminalStage (finalStatus : FinalStatus) (nowIso : Int) (stage : StageRow) : RunStage :=
  let status := match finalStatus with
    | .completed => "completed"
    | .failed => normalizeFailedTerminalStatus stage.status "failed"
  { stage.toRunStage with
    status := status
    finishedAt :=
      if status ∈ ["completed", "failed", "cancelled"] then some (stage.finishedAt.getD nowIso) else none
    updatedAt := some nowIso }

def terminalStep (finalStatus : FinalStatus) (nowIso : Int) (step : StepRow) : RunStep :=
  let status := match finalStatus with
    | .completed => "completed"
    | .failed => normalizeFailedTerminalStatus step.status "failed"
  { step.toRunStep with
    status := status
    finishedAt :=
      if status ∈ ["completed", "failed", "cancelled"] then some (step.finishedAt.getD nowIso) else none
    updatedAt := some nowIso }

def buildTerminalRun (snapshot : Snapshot) (execution : ExecutionRow) (finalStatus : FinalStatus)
    (nowIso : Int) : Run :=
  { buildSnapshotBase execution nowIso with
    globalState := "idle"
    finishedAt := some nowIso
    stages := snapshot.stages.map (terminalStage finalStatus nowIso)
    steps := snapshot.steps.map (terminalStep finalStatus nowIso) }

/-- `mergeExecutionMetrics` of this file: it also ends the run. -/
def mergeFinalMetrics (run : Run) (execution : Option ExecutionRow) (nowIso : Int) : Run :=
  let merged := mergeExecutionMetrics run execution nowIso
  { merged with finishedAt := some (merged.finishedAt.getD nowIso) }

/-- `throw new Error(result.code || ..)`. -/
def orThrowCode {α : Type} (work : Tx (Result α)) : Tx α := do
  match ← work with
  | .ok data => pure data
  | .error err => Tx.throw ⟨err.code, err.code⟩

/-- `failure(message, message)`. -/
def underMessage {α : Type} (work : Tx α) : Tx (Result α) :=
  Tx.mapThrow (fun err => ⟨err.message, err.message⟩) do
    let data ← work
    success data

structure FinalOutcome where
  executionId : String
  planId : String
  finalStatus : FinalStatus
  checkpoint : Checkpoint
  lockReleasedAt : Option Int
  deriving DecidableEq

def finalizeExecution (executionId : String) (finalStatus : FinalStatus) (runSnapshot : Option Run) :
    Tx (Result FinalOutcome) :=
  if isBlank executionId then failure "EXECUTION_NOT_FOUND" "executionId is required."
  else underMessage do
    let env ← Tx.ask
    let db ← Tx.get
    let snapshot := loadExecutionState db executionId
    match snapshot.execution with
    | none => Tx.throw ⟨"EXECUTION_NOT_FOUND", "EXECUTION_NOT_FOUND"⟩
    | some execution =>
      let planId := execution.planId.getD ""
      if execution.status.terminalForAttempts && execution.status ≠ finalStatus.status then
        Tx.throw ⟨"ALREADY_TERMINAL", "ALREADY_TERMINAL"⟩
      else if isBlank planId then Tx.throw ⟨"PLAN_ID_REQUIRED", "PLAN_ID_REQUIRED"⟩
      else do
        let checkpoint ← orThrowCode (setExecutionCheckpointStatus planId finalStatus.status {})
        let terminalRun := match runSnapshot.filter fun run => run.identity.isSome with
          | some run => mergeFinalMetrics (run.identifiedAs planId executionId) (some execution) env.nowMs
          | none => buildTerminalRun snapshot execution finalStatus env.nowMs
        let _ ← persistExecutionSnapshot terminalRun { auditExecutionIds := [executionId] }
        let _ ← orThrowCode (appendLedgerEvent {
          planId, executionId := some executionId, eventType := finalStatus.eventType })
        let grant ← orThrowCode (releaseExecutionLock planId executionId .none)
        pure ⟨executionId, planId, finalStatus, checkpoint, grant.lockReleasedAt⟩

/-- `releaseIfHeld` with the code as the message. -/
def releaseIfHeldCode (planId executionId : String) : Tx (Option Int) := do
  match ← releaseExecutionLock planId executionId .none with
  | .ok grant => pure grant.lockReleasedAt
  | .error err =>
    if err.code ∈ ["NOT_FOUND", "LOCK_CONFLICT"] then pure none else Tx.throw ⟨err.code, err.code⟩

def pauseExecutionForReview (planId executionId : String) (runSnapshot : Run)
    (reviewExecutionId : Option String) : Tx (Result (Checkpoint × Option Int)) :=
  if isBlank planId then failure "INVALID_STATE" "planId is required."
  else if isBlank executionId then failure "INVALID_STATE" "executionId is required."
  else if runSnapshot.identity = none then failure "INVALID_STATE" "runSnapshot is required."
  else underMessage do
    let env ← Tx.ask
    let db ← Tx.get
    let checkpoint ← orThrowCode (setExecutionCheckpointStatus planId .awaitingReview {})
    let _ ← persistExecutionSnapshot
      (mergeFinalMetrics (runSnapshot.identifiedAs planId executionId) (loadExecutionState db executionId).execution
        env.nowMs)
      { reviewExecutionId, auditExecutionIds := [executionId, executionId] }
    let _ ← orThrowCode (appendLedgerEvent {
      planId, executionId := some executionId, eventType := .executionPaused })
    let _ ← orThrowCode (appendLedgerEvent {
      planId, executionId := some executionId, eventType := .reviewRequested })
    let lockReleasedAt ← releaseIfHeldCode planId executionId
    pure (checkpoint, lockReleasedAt)

end CommandConsole.Execution
