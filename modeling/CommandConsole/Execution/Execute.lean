import CommandConsole.Execution.DependencyResolver
import CommandConsole.Execution.Engine

/-! # Executing a reviewed plan

A call takes the lock of the plan, validates and starts its checkpoint, stages a
run, and then either refuses, pauses, simulates or goes through the stages.
-/
namespace CommandConsole.Execution
open Library
set_option autoImplicit false

structure ExecutionModes where
  executionMode : Option String
  controlApproved : Bool
  executedStepIds : Option (List String)
  resetExecutedSteps : Bool
  deriving DecidableEq

/-- What the orchestration state makes of a run: `detectAnomalies`, the safe mode, and the status that
`evaluateApprovalThrottle` returns. -/
structure Orchestration where
  anomalies : Run → List String
  safeMode : Bool
  throttle : Run → String

/-- The ids that are generated for a plan that brings none. -/
structure GeneratedIds where
  planId : String
  executionId : String
  deriving DecidableEq

section CheckpointPlan

def Plan.isContainer (plan : Plan) : Bool :=
  plan.steps.isSome || plan.stages.isSome || plan.type ∈ [some "multi", some "goal"]

def resolveCheckpointPlanId (plan : Plan) (generated : GeneratedIds) : String :=
  (truthy plan.planId <|> truthy plan.runId <|>
    (truthy plan.id).filter fun _ => plan.isContainer).getD generated.planId

def PlanStep.blank : PlanStep where
  id := none
  sequence := none
  status := none
  kind := none
  action := none
  actionClass := none
  tool := none
  dependsOn := none
  requiresPrerequisite := none
  idempotencyClass := none
  idempotencyKey := none
  isIdempotent := none
  permissions := []
  sideEffectClass := none
  effectClass := none
  sideEffects := none
  metadata := StepMetadata.empty
  blocking := false
  requiresReview := false
  rewritten := false
  deferred := false
  safeFallback := false
  reviewAcknowledged := false
  pauseReason := none
  blockReason := none
  rewriteReason := none
  deferReason := none

/-- `normalizeCheckpointStep` of the engine: an id, an action, and whether a repeat is safe. -/
def engineCheckpointStep (index : Nat) (step : PlanStep) : PlanStep :=
  let idempotent := step.metadata.idempotent = some true || wordIs (step.idempotencyClass.getD "") "safe_repeat"
  { PlanStep.blank with
    id := some (checkpointStepId step.id (index + 1))
    action := some ((truthy step.action <|> truthy step.actionClass <|> truthy step.tool).getD "step")
    metadata :=
      { StepMetadata.empty with
        idempotent := some idempotent
        retryStrategy :=
          if step.metadata.retryStrategy ∈ [some "safe", some "manual_only"] then step.metadata.retryStrategy
          else if idempotent then some "safe"
          else some "manual_only" } }

/-- The steps by stage when there are stages, else the flat ones, else a single plan as its own step. -/
def Plan.engineSteps (plan : Plan) : List PlanStep :=
  match plan.stages, plan.steps with
  | some stages, _ => stages.flatMap PlanStage.steps
  | none, some steps => steps
  | none, none => if plan.type = some "single" then [plan.self] else []

/-- `normalizeCheckpointPlan` of the engine. -/
def engineCheckpointPlan (plan : Plan) (generated : GeneratedIds) : Plan where
  planId := none
  runId := none
  id := some (resolveCheckpointPlanId plan generated)
  type := none
  planVersion := none
  version := plan.version <|> plan.planVersion <|> plan.plannerVersion
  requiresReview := false
  reviewStatus := none
  triggerSource := none
  steps := some (plan.engineSteps.mapIdx engineCheckpointStep)
  stages := none
  self := PlanStep.blank

/-- `startExecutionState` trims the id of the plan that it is given. -/
def startCheckpoint (plan : Plan) : Tx (Result Checkpoint) :=
  startExecutionState { plan.normalized with id := trimmed plan.normalized.id } (plan.planVersion <|> plan.version)

end CheckpointPlan

section Preflight

def validateReviewedPlanForRouting (plan : Plan) : Option String :=
  match plan.reviewStatus with
  | none => some "Routing blocked because the plan is missing a valid reviewStatus."
  | some status =>
    if status ∉ ["approved", "downgraded", "rewritten", "split", "blocked", "pending"] then
      some "Routing blocked because the plan is missing a valid reviewStatus."
    else if status ∈ ["pending", "blocked"] then some s!"Routing blocked because reviewStatus is {status}."
    else if plan.currentStageExecutable = some false then
      some "Routing blocked because the reviewed plan is not executable in the current stage."
    else none

def assignedMode (plan : Plan) (modes : ExecutionModes) : String :=
  normalizeExecutionMode ((firstTruthy [modes.executionMode, plan.finalMode, plan.proposedMode]).getD "blocked")

def countActiveExecutions (db : Db) : Nat :=
  db.executions.rows.countP fun row => row.status ∈ [.pending, .running]

/-- The step that `modes.executedStepIds` names, unless the executed steps are reset. -/
def executedStep (modes : ExecutionModes) (run : Run) : Option RunStep :=
  if modes.resetExecutedSteps then none
  else run.steps.find? fun step => step.id ∈ modes.executedStepIds.getD []

def getCurrentStage (run : Run) : Option RunStage :=
  run.stages.find? fun stage => stage.status ∈ ["running", "paused_for_review", "pending"]

def hasSafeAlternative (run : Run) : Bool := run.steps.any fun step => step.actionClass = some "read"

def anomalyBreach (anomalies : List String) : Bool :=
  anomalies.any fun anomaly =>
    anomaly ∈ ["execution_frequency_spike", "failure_rate_increase", "operator_disagreement_pattern"]

end Preflight

def refusedResult (error : String) (code : Option String) : EngineResult where
  ok := false
  error := some error
  code := code
  run := none

def heldResult (run : Run) (error : String) : EngineResult where
  ok := false
  error := some error
  run := some run
  requiresReview := true

/-- Marking a plan corrupted leaves the indices of its checkpoint, so the issue about them is still there. -/
def deriveIntegrityFailureCode (db : Db) (planId : String) (planIds : Option (List String)) (err : Failure) :
    String :=
  if (collectIntegrityIssues db planId planIds).any fun issue => issue.code = .checkpointInvalid then
    "CHECKPOINT_INVALID"
  else err.code

def shouldReleaseExecutionLock (result : EngineResult) : Bool :=
  !result.lockReleased && !(result.paused || result.requiresReview) &&
    !(result.run.any fun run => run.globalState ∈ ["paused", "safe_mode"]) &&
    !(result.run.any fun run => run.reviewStatus = some "pending")

/-- `finalizeResultWithReleasedLock` and `finalizeFailureWithReleasedLock` differ in nothing. -/
def withReleasedLock (planId executionId : String) (result : EngineResult) : Engine EngineResult := do
  match ← commit (releaseExecutionLock planId executionId .none) with
  | .ok _ => pure result
  | .error err => pure (refusedResult err.message (some err.code))

/-- `setStepStatus` over the steps as they were. -/
def setAllStatuses (status : RunStep → String) (extra : RunStep → RunStep → RunStep) :
    List RunStep → Run → Engine Run
  | [], run => pure run
  | step :: rest, run => do
    let run ← setStepStatus run step.id (status step) (extra step)
    setAllStatuses status extra rest run

section Execute

variable (context : EngineContext) (orchestration : Orchestration) (modes : ExecutionModes) (mode : String)
  (options : EngineOptions)

def failCurrentStage (run : Run) (reason : String) : Engine Run := do
  match getCurrentStage run with
  | none => pure run
  | some stage => do
    let finishedAt ← now
    let run ← setStageStatus run stage.id "failed" fun row =>
      { row with pauseReason := some reason, finishedAt := some finishedAt }
    emitLedgerEvent (stageEvent options .stageFailed stage)
    pure run

/-- The run that failed its checks is finalized; then it is committed once more. -/
def finalizeRejected (run : Run) (error : String) : Engine EngineResult := do
  let updatedAt ← now
  let run := { run with globalState := "error", updatedAt := some updatedAt }
  let result ← finalizeFailure options run error
  if result.lockReleased then do
    commitRuntimeSnapshot run run.runId
    pure result
  else pure result

/-- `getCurrentStage` is asked before the steps are blocked, which leaves the stages alone. -/
def rejectCycle (run : Run) : Engine EngineResult := do
  let run ← setAllStatuses (fun _ => "blocked")
    (fun _ row =>
      { row with
        errorType := some "dependency_cycle", error := some "dependency_cycle"
        blockReason := some "dependency_cycle" }) run.steps run
  let run ← failCurrentStage options run "dependency_cycle"
  finalizeRejected options run "dependency_cycle"

def rejectMissing (run : Run) (missing : RunStep) (dependencyId : String) : Engine EngineResult := do
  let run ← setAllStatuses (fun step => if step.id = missing.id then "blocked" else "deferred")
    (fun step row =>
      { row with
        errorType := some "dependency_failure", error := some s!"Missing dependency {dependencyId}."
        blockReason := if step.id = missing.id then some "dependency_failure" else none
        deferred := step.id ≠ missing.id }) run.steps run
  let run ← failCurrentStage options run "dependency_failure"
  finalizeRejected options run
    s!"Execution blocked because prerequisite {dependencyId} was not satisfied before {missing.id}."

/-- A pause before anything is routed. -/
def pauseWhole (run : Run) (globalState error : String) : Engine EngineResult := do
  let pausedRun := { run with globalState, reviewStatus := some "pending" }
  match ← commit (pauseExecutionForReview options.checkpointPlanId options.executionId pausedRun run.runId) with
  | .error err => pure (buildPersistenceFailureResult pausedRun none (some err.code))
  | .ok _ => do
    recordRun pausedRun
    pure (heldResult pausedRun error)

def confirmRequired (run : Run) : Engine EngineResult := do
  if hasSafeAlternative run then
    pauseWhole options run "paused" "Execution requires review; preview-first rewrite available."
  else do
    let run ← setAllStatuses (fun _ => "blocked")
      (fun _ row => { row with errorType := some "policy_block", error := some "confirm_required" }) run.steps run
    commitRuntimeSnapshot run run.runId
    pure (heldResult run "Execution requires review and no safe rewrite is available.")

/-- The approved run goes through its stages. -/
def runApproved (run : Run) : Engine EngineResult := do
  commitRuntimeSnapshot run run.runId
  let result ← continueExecution context options { run with reviewStatus := some "approved" }
  if shouldReleaseExecutionLock result then
    withReleasedLock options.checkpointPlanId options.executionId result
  else pure result

/-- The branches over the assigned mode; what is left is `safe_execute`. -/
def executeByMode (run : Run) : Engine EngineResult := do
  if mode = "blocked" then do
    commitRuntimeSnapshot run run.runId
    pure (stoppedResult run "Execution blocked by assigned mode.")
  else if mode = "simulate" then do
    commitRuntimeSnapshot run run.runId
    pure { ok := true, run := some run }
  else if mode = "confirm_required" then confirmRequired options run
  else if orchestration.safeMode then
    pauseWhole options run "safe_mode" "Execution held because safe_mode is active."
  else if !modes.controlApproved then pure (stoppedResult run s!"Execution engine blocked in {mode} mode.")
  else if orchestration.throttle run ≠ "approved" then
    pauseWhole options run "paused"
      (if orchestration.throttle run = "queued" then
        "Auto-approval rate limited; request queued for re-evaluation."
      else "Auto-approval unavailable; manual review required.")
  else runApproved context options run

/-- The checks of a staged run, and then its mode. -/
def executeStaged (run : Run) : Engine EngineResult := do
  if run.stages.isEmpty then pure (stoppedResult run "Execution plan has zero stages.")
  else
    match executedStep modes run with
    | some step =>
      pure (stoppedResult run s!"Execution blocked because step {step.id} already ran without reset.")
    | none =>
      match detectDependencyCycle run.steps with
      | some _ => rejectCycle options run
      | none =>
        match missingPrerequisite run.steps with
        | some (step, dependencyId) => rejectMissing options run step dependencyId
        | none =>
          if orchestration.anomalies run ≠ [] then
            if anomalyBreach (orchestration.anomalies run) then
              pauseWhole options run "safe_mode" "Anomaly threshold breach forced safe_mode."
            else pauseWhole options run "paused" "Anomaly detected; forced manual review."
          else executeByMode context orchestration modes mode options run

/-- The call once it has the lock. -/
def executeLocked (plan checkpointPlan : Plan) : Engine EngineResult := do
  let release := withReleasedLock options.checkpointPlanId options.executionId
  let stepIds := some checkpointPlan.normalized.stepIds
  match ← onDb (validateExecutionIntegrity options.checkpointPlanId stepIds) with
  | .error err => do
    let db ← Process.read World.db
    release (refusedResult err.message
      (some (deriveIntegrityFailureCode db options.checkpointPlanId stepIds err)))
  | .ok _ => do
    match ← onDb (reconcileExecutionState checkpointPlan.normalized) with
    | .error err => release (refusedResult err.message (some err.code))
    | .ok _ => do
      match ← commit (startCheckpoint checkpointPlan) with
      | .error err => release (refusedResult err.message (some err.code))
      | .ok _ => do
        let run ← createStagedRun plan options.executionId mode
        let fallback ← now
        let run := { run with
          planId := some options.checkpointPlanId, totalAttempts := 0, consecutiveFailures := 0
          noProgressAttempts := 0, lastProgressAt := some (run.createdAt.getD fallback) }
        emitLedgerEvent {
          planId := options.checkpointPlanId, executionId := some options.executionId
          eventType := .executionCreated }
        executeStaged context orchestration modes mode options run

end Execute

def executionOptions (plan : Plan) (generated : GeneratedIds) : EngineOptions where
  checkpointPlanId := resolveCheckpointPlanId plan generated
  executionId := (truthy plan.runId).getD generated.executionId
  resumed := false
  resumeStageId := none

/-- The rules are those that `validateRuntimeRules` accepted. -/
def execute (context : EngineContext) (orchestration : Orchestration) (modes : ExecutionModes) (plan : Plan)
    (generated : GeneratedIds) : Engine EngineResult := do
  match validateReviewedPlanForRouting plan with
  | some error => pure (refusedResult error none)
  | none => do
    let options := executionOptions plan generated
    let db ← Process.read World.db
    if context.rules.maxConcurrentExecutions ≤ countActiveExecutions db then
      pure (refusedResult "Execution rejected because the maximum concurrent execution limit is active."
        (some "LIMIT_EXCEEDED"))
    else do
      match ← commit (acquireExecutionLockTx options.checkpointPlanId options.executionId .none) with
      | .error err => pure (refusedResult err.message (some err.code))
      | .ok _ =>
        executeLocked context orchestration modes (assignedMode plan modes) options plan
          (engineCheckpointPlan plan generated)

end CommandConsole.Execution
