import CommandConsole.Execution.RoutedStep

/-! # The stage loop of the engine

Stages run by sequence and the steps of a stage by their place in it. A stage
begins with a test of the dependencies that lie outside it; each step then ends
the run or hands it on.
-/
namespace CommandConsole.Execution
open Library
set_option autoImplicit false

/-- What the engine returns; `persistenceFailure` marks the results of `buildPersistenceFailureResult`. -/
structure EngineResult where
  ok : Bool
  error : Option String := none
  code : Option String := none
  run : Option Run
  paused : Bool := false
  requiresReview : Bool := false
  lockReleased : Bool := false
  persistenceFailure : Bool := false
  deriving DecidableEq

def buildPersistenceFailureResult (run : Run) (error code : Option String) : EngineResult where
  ok := false
  error := some ((truthy error).getD "Execution persistence failed.")
  code := some ((truthy code).getD "DB_WRITE_FAILED")
  run := some { run with globalState := "error" }
  persistenceFailure := true

def buildPausedResponse (run : Run) (error : String) : EngineResult where
  ok := false
  error := some error
  run := some run
  paused := true
  requiresReview := true

def stoppedResult (run : Run) (error : String) : EngineResult where
  ok := false
  error := some error
  run := some run

/-- The run goes on, or the loop returns. -/
inductive Flow where
  | next (run : Run)
  | done (result : EngineResult)
  deriving DecidableEq

namespace Run

/-- `getCheckpointStepIndex` sorts the steps in place. -/
def sorted (run : Run) : Run :=
  { run with
    steps := run.steps.insertionSort fun left right => left.sequence.getD 0 ≤ right.sequence.getD 0 }

def stepIndex (run : Run) (stepId : String) : Int :=
  match run.steps.findIdx? fun step => step.id = stepId with
  | some index => index
  | none => -1

end Run

/-- `Number(stageSequence || sequence || 0)`. -/
def RunStep.place (step : RunStep) : Int :=
  ((step.stageSequence.filter fun place => place ≠ 0) <|> step.sequence).getD 0

def getStageSteps (run : Run) (stageId : String) : List RunStep :=
  run.steps.filter fun step => step.stageId = some stageId

def orderedStageSteps (run : Run) (stageId : String) : List RunStep :=
  (getStageSteps run stageId).insertionSort fun left right => left.place ≤ right.place

def RunStep.dependencies (step : RunStep) : List String := step.dependsOn.getD []

def Run.completes (run : Run) (stepId : String) : Bool :=
  run.steps.any fun step => step.id = stepId && step.status = "completed"

/-- The first step with a dependency outside the stage that is not completed. -/
def missingDependency (run : Run) (stageSteps : List RunStep) : Option RunStep :=
  stageSteps.find? fun step => step.dependencies.any fun dependencyId =>
    (stageSteps.all fun other => other.id ≠ dependencyId) && !run.completes dependencyId

section Loop

variable (context : EngineContext) (options : EngineOptions)

/-- `finalizeCheckpointedTerminalFailure`. -/
def finalizeFailure (run : Run) (error : String) : Engine EngineResult := do
  match ← commit (finalizeExecution options.executionId .failed (some run)) with
  | .error err => pure (buildPersistenceFailureResult run (some err.message) (some err.code))
  | .ok _ => pure { ok := false, error := some error, run := some run, lockReleased := true }

/-- The transaction of a pause before the step has an attempt. -/
def pauseBefore (run : Run) (stage : RunStage) (stepId : String) (stepIndex : Int) (error : String) :
    Engine EngineResult := do
  match ← commit (pauseBeforeExecutionForReviewAtomic options.checkpointPlanId options.executionId stepId
      (some stage.id) stepIndex run run.runId) with
  | .error err => pure (buildPersistenceFailureResult run (some err.message) (some err.code))
  | .ok _ => do
    recordRun run
    pure (buildPausedResponse run error)

/-- `pauseCheckpointedExecutionForReview`. -/
def pauseForBreach (run : Run) (stage : RunStage) (step : RunStep) (stepIndex : Int) (breach : Breach) :
    Engine EngineResult := do
  let updatedAt ← now
  let pausedRun := { run with globalState := "paused", reviewStatus := some "pending" }
  pauseBefore options
    ((pausedRun.changeStage stage.id fun row =>
        { row with
          status := "paused_for_review", pauseReason := some breach.type, updatedAt := some updatedAt }).changeStep
      step.id fun row => { row with pauseReason := some breach.type, updatedAt := some updatedAt })
    stage step.id stepIndex breach.message

def failForBreach (run : Run) (stage : RunStage) (step : RunStep) (breach : Breach) : Engine EngineResult := do
  let failedRun ← setStepStatus run step.id "failed" fun row =>
    { row with
      errorType := some "consecutive_failures_exceeded", error := some breach.message
      blockReason := some "consecutive_failures_exceeded" }
  let finishedAt ← now
  let failedRun ← setStageStatus failedRun stage.id "failed" fun row =>
    { row with pauseReason := some "consecutive_failures_exceeded", finishedAt := some finishedAt }
  let updatedAt ← now
  finalizeFailure options { failedRun with globalState := "error", updatedAt := some updatedAt } breach.message

/-- The step or its plan asks for a review before it runs. -/
def pausePrepared (run : Run) (stage : RunStage) (step : RunStep) (stepIndex : Int) (reason : String) :
    Engine EngineResult := do
  let pausedRun ← updateStep run step.id fun row =>
    { row with status := "paused_for_review", pauseReason := some reason }
  let updatedAt ← now
  let pausedRun := pausedRun.changeStage stage.id fun row =>
    { row with status := "paused_for_review", pauseReason := some reason, updatedAt := some updatedAt }
  let pausedRun :=
    { pausedRun with globalState := "paused", reviewStatus := some "pending", updatedAt := some updatedAt }
  if 0 ≤ stepIndex then pauseBefore options pausedRun stage step.id stepIndex reason
  else do
    recordRun pausedRun
    pure (buildPausedResponse pausedRun reason)

/-- The routed step asks for a review, before its attempt or out of it. -/
def pauseRouted (run : Run) (stage : RunStage) (step : RunStep) (stepIndex : Int) (result : StepResult) :
    Engine EngineResult := do
  let reason := (truthy result.reason).getD "step_requested_review"
  let pausedRun ← setStageStatus run stage.id "paused_for_review" fun row => { row with pauseReason := some reason }
  let pausedRun := { pausedRun with globalState := "paused", reviewStatus := some "pending" }
  if result.beforeStart then
    if 0 ≤ stepIndex then pauseBefore options pausedRun stage step.id stepIndex reason
    else do
      recordRun pausedRun
      pure (buildPausedResponse pausedRun reason)
  else do
    let attemptNumber := ((result.attemptNumber.filter fun number => number ≠ 0)).getD 1
    match ← commit (pauseExecutionAttemptForReviewAtomic options.checkpointPlanId options.executionId step.id
        stepIndex attemptNumber reason (some stage.id) (some pausedRun) pausedRun.runId) with
    | .error err => pure (buildPersistenceFailureResult pausedRun none (some err.code))
    | .ok _ => do
      recordRun pausedRun
      pure (buildPausedResponse pausedRun reason)

/-- A step that ended badly ends its stage and the run. -/
def failRouted (run : Run) (stage : RunStage) (step : RunStep) (stepIndex : Int) (result : StepResult) :
    Engine EngineResult := do
  if result.type = some "no_forward_progress" then
    pauseForBreach options run stage step stepIndex
      ⟨"no_forward_progress", "Execution paused because no forward progress was detected."⟩
  else if result.type = some "max_attempts_exceeded" then
    pauseForBreach options run stage step stepIndex
      ⟨"max_attempts_exceeded", "Execution paused because the maximum attempt limit was exceeded."⟩
  else if result.type = some "consecutive_failures_exceeded" then do
    let updatedAt ← now
    finalizeFailure options { run with globalState := "error", updatedAt := some updatedAt }
      "Execution failed after consecutive failure limit was exceeded."
  else do
    let finishedAt ← now
    let failedRun ← setStageStatus run stage.id "failed" fun row =>
      { row with
        pauseReason := some ((firstTruthy [step.error, step.blockReason, step.pauseReason]).getD "stage_failed")
        finishedAt := some finishedAt }
    emitLedgerEvent {
      planId := options.checkpointPlanId, executionId := some options.executionId
      eventType := .stageFailed, stageId := some stage.id }
    let updatedAt ← now
    finalizeFailure options { failedRun with globalState := "error", updatedAt := some updatedAt }
      ((truthy step.error).getD "One or more steps failed during stage execution.")

def settleRouted (run : Run) (stage : RunStage) (step : RunStep) (stepIndex : Int) (result : StepResult) :
    Engine Flow := do
  if result.status = some "paused_for_review" then do
    let paused ← pauseRouted options run stage step stepIndex result
    pure (.done paused)
  else if result.type = some "persistence_failure" then
    pure (.done (buildPersistenceFailureResult run result.error result.code))
  else if step.status ∈ ["failed", "timeout", "blocked"] then do
    let failed ← failRouted options run stage step stepIndex result
    pure (.done failed)
  else pure (.next run)

/-- The limits that are looked at before a step. -/
def checkLimits (run : Run) (stage : RunStage) (step : RunStep) (stepIndex : Int) :
    Engine (Option EngineResult) := do
  let nowMs ← now
  let db ← Process.read World.db
  match getExecutionTimingBreach db options.executionId context.rules nowMs with
  | some breach => do
    let paused ← pauseForBreach options run stage step stepIndex breach
    pure (some paused)
  | none =>
    match getExecutionContainmentBreach db options.executionId context.rules with
    | none => pure none
    | some breach =>
      if breach.type = "consecutive_failures_exceeded" then do
        let failed ← failForBreach options run stage step breach
        pure (some failed)
      else do
        let paused ← pauseForBreach options run stage step stepIndex breach
        pure (some paused)

def runStep (stage : RunStage) (rawStep : RunStep) (run : Run) : Engine Flow := do
  let currentStep := (run.step? rawStep.id).getD rawStep
  if currentStep.status ∈ ["completed", "failed", "blocked"] then pure (.next run)
  else do
    let run := run.sorted
    let stepIndex := run.stepIndex currentStep.id
    match ← checkLimits context options run stage currentStep stepIndex with
    | some result => pure (.done result)
    | none => do
      let (run, pauseSignal) ← prepareStepForReview run currentStep.id
      let currentStep := (run.step? currentStep.id).getD currentStep
      match pauseSignal with
      | some reason => do
        let paused ← pausePrepared options run stage currentStep stepIndex reason
        pure (.done paused)
      | none => do
        let (run, result) ← executeSingleRoutedStep context options currentStep run stepIndex
        settleRouted options run stage ((run.step? currentStep.id).getD currentStep) stepIndex result

def runSteps (stage : RunStage) : List RunStep → Run → Engine Flow
  | [], run => pure (.next run)
  | rawStep :: rest, run => do
    match ← runStep context options stage rawStep run with
    | .done result => pure (.done result)
    | .next run => runSteps stage rest run

def stageEvent (eventType : EventType) (stage : RunStage) : LedgerEvent where
  planId := options.checkpointPlanId
  executionId := some options.executionId
  eventType := eventType
  stageId := some stage.id

def failMissingDependency (run : Run) (stage : RunStage) (step : RunStep) (stageSteps : List RunStep) :
    Engine EngineResult := do
  let missing := step.dependencies.find? fun dependencyId => stageSteps.all fun other => other.id ≠ dependencyId
  let run ← setStepStatus run step.id "failed" fun row =>
    { row with
      errorType := some "dependency_failure", error := some s!"Missing dependency {missing.getD default}."
      blockReason := some "dependency_failure" }
  let finishedAt ← now
  let run ← setStageStatus run stage.id "failed" fun row =>
    { row with pauseReason := some "dependency_failure", finishedAt := some finishedAt }
  emitLedgerEvent (stageEvent options .stageFailed stage)
  let run ← appendExecutionLog { run with globalState := "error" }
  finalizeFailure options run "Stage dependency validation failed."

def completeStage (run : Run) (stage : RunStage) (startedAt : Option Int) : Engine Flow := do
  let finishedAt ← now
  let run ← setStageStatus run stage.id "completed" fun row =>
    { row with startedAt := startedAt <|> row.startedAt, finishedAt := some finishedAt }
  emitLedgerEvent (stageEvent options .stageCompleted stage)
  pure (.next run)

def runStage (stageId : String) (run : Run) : Engine Flow := do
  match run.stages.find? fun stage => stage.id = stageId with
  | none => pure (.next run)
  | some stage =>
    if stage.status = "completed" then pure (.next run)
    else if stage.status = "failed" then
      pure (.done (stoppedResult run "Stage failed before downstream stages could run."))
    else do
      let stageSteps := orderedStageSteps run stage.id
      let nowIso ← now
      let startedAt := stage.startedAt <|> some nowIso
      if stageSteps.isEmpty then completeStage options run stage startedAt
      else do
        let run ← setStageStatus run stage.id "running" fun row => { row with startedAt }
        emitLedgerEvent (stageEvent options
          (if options.resumed && options.resumeStageId = some stage.id then .stageResumed else .stageStarted) stage)
        match missingDependency run stageSteps with
        | some step => do
          let failed ← failMissingDependency options run stage step stageSteps
          pure (.done failed)
        | none => do
          match ← runSteps context options stage stageSteps run with
          | .done result => pure (.done result)
          | .next run => completeStage options run stage none

def runStages : List String → Run → Engine Flow
  | [], run => pure (.next run)
  | stageId :: rest, run => do
    match ← runStage context options stageId run with
    | .done result => pure (.done result)
    | .next run => runStages rest run

/-- The run is logged twice before its first stage, unless it is resumed. -/
def beginRun (run : Run) : Engine Run := do
  let run ← appendExecutionLog run
  let run ← appendExecutionLog { run with globalState := "running", reviewStatus := some "approved" }
  emitLedgerEvent {
    planId := options.checkpointPlanId, executionId := some options.executionId, eventType := .executionStarted }
  pure run

def completeRun (run : Run) : Engine EngineResult := do
  let updatedAt ← now
  let run := { run with globalState := "idle", reviewStatus := some "approved", updatedAt := some updatedAt }
  recordRun run
  match ← commit (finalizeExecution options.executionId .completed (some run)) with
  | .error err => pure (buildPersistenceFailureResult run (some err.message) (some err.code))
  | .ok _ => pure { ok := true, run := some run, lockReleased := true }

def orderedStageIds (run : Run) : List String :=
  (run.stages.insertionSort fun left right => left.sequence.getD 0 ≤ right.sequence.getD 0).map RunStage.id

def continueExecution (run : Run) : Engine EngineResult := do
  if run.stages.isEmpty then pure (stoppedResult run "Execution plan has zero stages.")
  else do
    let run ← if options.resumed then pure run else beginRun options run
    match ← runStages context options (orderedStageIds run) run with
    | .done result => pure result
    | .next run => completeRun options run

end Loop

end CommandConsole.Execution
