import CommandConsole.Execution.LifecycleAtomic
import CommandConsole.Execution.Reconciliation
import CommandConsole.Library.Process

/-! # Staged runs and their log

The engine carries a run in memory and writes it whole at every log entry. The
run it writes is the one it carries: what other transactions have put into the
execution row meanwhile is not read back.
-/
namespace CommandConsole.Execution
open Library
set_option autoImplicit false

/-- The database, the cached `runs` of the orchestration state, and the steps routed so far with the run that
each was routed in; no operation reads the latter. -/
structure World where
  db : Db
  runs : List Run
  routed : List (RunStep × Run)

/-- Engine code: it commits transactions and may throw between them. -/
abbrev Engine (α : Type) := Library.Process Env Failure World α

def onDb {α : Type} (x : Op α) : Engine α :=
  .ofSession (Process.zoom World.db (fun db world => { world with db }) x)

/-- `nowMs` and `nowIso`. -/
def now : Engine Int := do
  let env ← Process.ask
  pure env.nowMs

def commit {α : Type} (work : Tx (Result α)) : Engine (Result α) := onDb (transaction work)

/-- `persistExecutionSnapshot` as its own transaction; it throws what the transaction throws. -/
def persist (run : Run) (options : PersistOptions) : Engine Unit := do
  match ← onDb (Session.commit (persistExecutionSnapshot run options)) with
  | .ok _ => pure ()
  | .error err => throwThe Failure err

def emitLedgerEvent (event : LedgerEvent) : Engine Unit := do
  if isBlank event.planId || isBlank (event.executionId.getD "") then pure ()
  else do
    let _ ← commit (appendLedgerEvent event)
    pure ()

def recordedRuns (run : Run) (runs : List Run) : List Run :=
  (run :: runs.filter fun entry => entry.runId ≠ run.runId).take 100

def recordRun (run : Run) : Engine Unit :=
  Process.modify fun world => { world with runs := recordedRuns run world.runs }

/-- The audit events of a log entry all name the execution of the run. -/
def appendExecutionLog (run : Run) : Engine Run := do
  let updatedAt ← now
  let nextRun := { run with updatedAt := some updatedAt }
  recordRun nextRun
  persist nextRun { auditExecutionIds := nextRun.identity.toList }
  pure nextRun

def Run.changeStep (run : Run) (stepId : String) (change : RunStep → RunStep) : Run :=
  { run with steps := run.steps.map fun step => if step.id = stepId then change step else step }

def Run.changeStage (run : Run) (stageId : String) (change : RunStage → RunStage) : Run :=
  { run with stages := run.stages.map fun stage => if stage.id = stageId then change stage else stage }

def Run.step? (run : Run) (stepId : String) : Option RunStep := run.steps.find? fun step => step.id = stepId

def updateStep (run : Run) (stepId : String) (changes : RunStep → RunStep) : Engine Run := do
  let updatedAt ← now
  pure (run.changeStep stepId fun step => { changes step with updatedAt := some updatedAt })

def setStepStatus (run : Run) (stepId status : String) (extra : RunStep → RunStep) : Engine Run := do
  let updatedAt ← now
  appendExecutionLog (run.changeStep stepId fun step => extra { step with status, updatedAt := some updatedAt })

def setStageStatus (run : Run) (stageId status : String) (extra : RunStage → RunStage) : Engine Run := do
  let updatedAt ← now
  appendExecutionLog (run.changeStage stageId fun stage => extra { stage with status, updatedAt := some updatedAt })

def commitRuntimeSnapshot (run : Run) (reviewExecutionId : Option String) : Engine Unit := do
  recordRun run
  persist run { reviewExecutionId, auditExecutionIds := reviewExecutionId.toList }

/-- The review that `prepareStepForReview` calls for, with its reason. -/
def RunStep.needsReview (step : RunStep) : Bool :=
  (step.requiresReview || step.rewritten || step.deferred ||
      (truthy step.blockReason).isSome && !step.safeFallback) && !step.reviewAcknowledged

def preparedStep (step : RunStep) : RunStep :=
  { step with
    requiresReview := step.needsReview
    rewriteReason :=
      if step.rewritten then some ((truthy step.rewriteReason).getD "normalized_input_changed")
      else truthy step.rewriteReason
    pauseReason :=
      if (truthy step.blockReason).isSome then step.blockReason
      else if step.deferred then some ((truthy step.deferReason).getD "step_deferred")
      else if step.rewritten then some ((truthy step.rewriteReason).getD "normalized_input_changed")
      else truthy step.pauseReason }

/-- `rewritten` stands for the comparison of the two inputs. -/
def prepareStepForReview (run : Run) (stepId : String) : Engine (Run × Option String) := do
  match run.step? stepId with
  | none => pure (run, none)
  | some step => do
    let nextRun ← updateStep run stepId preparedStep
    if step.needsReview then
      pure (nextRun, some ((truthy ((nextRun.step? stepId).bind RunStep.pauseReason)).getD "review_required"))
    else pure (nextRun, none)

section Staging

def normalizeExecutionMode (mode : String) : String :=
  if mode = "auto_execute" then "safe_execute"
  else if mode ∈ ["simulate", "safe_execute", "confirm_required", "blocked"] then mode
  else "blocked"

def PlanStep.dependencies (step : PlanStep) : List String :=
  match step.dependsOn, truthy step.requiresPrerequisite with
  | some ids, _ => ids
  | none, some prerequisite => [prerequisite]
  | none, none => []

def normalizeStepForStage (step : PlanStep) (stageId : String) (globalSequence indexInStage : Nat) : RunStep where
  id := (truthy step.id).getD s!"step_{globalSequence}"
  stageId := some stageId
  stageSequence := some (indexInStage + 1)
  sequence := some (step.sequence.getD globalSequence)
  status := (truthy step.status).getD "pending"
  kind := step.kind
  actionClass := step.actionClass
  action := step.action
  tool := step.tool
  dependsOn := some step.dependencies
  depends_on_step_ids := none
  blocking := step.blocking
  requiresReview := step.requiresReview
  rewritten := step.rewritten
  deferred := step.deferred
  safeFallback := step.safeFallback
  reviewAcknowledged := step.reviewAcknowledged
  pauseReason := step.pauseReason
  blockReason := truthy step.blockReason
  rewriteReason :=
    if step.rewritten then some ((truthy step.rewriteReason).getD "normalized_input_changed") else none
  deferReason := step.deferReason
  error := none
  errorType := none
  createdAt := none
  updatedAt := none
  startedAt := none
  finishedAt := none
  source := some step

def Plan.derivedStages (plan : Plan) : List PlanStage :=
  plan.stages.getD [{
    id := some "stage_default", name := some "Default Stage", sequence := none, status := none
    requiresReview := plan.requiresReview, steps := plan.steps.getD [plan.self] }]

/-- The stages with their steps; the running number of a step goes through all of them. -/
def normalizeStagesFrom (stageIndex globalSequence : Nat) : List PlanStage → List (RunStage × List RunStep)
  | [] => []
  | stage :: rest =>
    let stageId := (truthy stage.id).getD s!"stage_{stageIndex + 1}"
    ({  id := stageId
        name := some ((truthy stage.name).getD s!"Stage {stageIndex + 1}")
        sequence := some (stage.sequence.getD (stageIndex + 1))
        status := (truthy stage.status).getD "pending"
        requiresReview := stage.requiresReview
        pauseReason := none, createdAt := none, updatedAt := none, startedAt := none, finishedAt := none },
      stage.steps.mapIdx fun index step => normalizeStepForStage step stageId (globalSequence + index) index) ::
        normalizeStagesFrom (stageIndex + 1) (globalSequence + stage.steps.length) rest

def normalizeExecutionStages (plan : Plan) : List (RunStage × List RunStep) :=
  normalizeStagesFrom 0 1 plan.derivedStages

def stagedStatus (status : String) : String :=
  if status ∈ ["staged", "pending", "running", "completed", "failed", "blocked", "deferred",
      "paused_for_review"] then status
  else "pending"

/-- The run before its first log entry. -/
def stagedRun (plan : Plan) (runId executionMode : String) (nowIso : Int) : Run where
  runId := some runId
  id := none
  planId := none
  triggerSource := some ((truthy plan.triggerSource).getD "system")
  globalState := if executionMode = "blocked" then "error" else "paused"
  reviewStatus := some ((truthy plan.reviewStatus).getD "pending")
  createdAt := some nowIso
  updatedAt := some nowIso
  startedAt := none
  finishedAt := none
  cancelledAt := none
  leaseOwner := none
  leaseExpiresAt := none
  totalAttempts := 0
  consecutiveFailures := 0
  noProgressAttempts := 0
  lastProgressAt := none
  stages := (normalizeExecutionStages plan).map fun (stage, _) =>
    { stage with createdAt := some nowIso, updatedAt := some nowIso }
  steps := ((normalizeExecutionStages plan).flatMap Prod.snd).map fun step =>
    { step with status := stagedStatus step.status, createdAt := some nowIso, updatedAt := some nowIso }

def createStagedRun (plan : Plan) (runId executionMode : String) : Engine Run := do
  let nowIso ← now
  let run := stagedRun plan runId executionMode nowIso
  recordRun run
  appendExecutionLog run

end Staging

end CommandConsole.Execution
