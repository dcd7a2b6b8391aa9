import CommandConsole.Execution.StepController

/-! # One routed step

A step that passes the capability and idempotency checks begins an attempt, runs
its tool and ends the attempt. While the tool runs two timers beat: one renews
the lease, the other writes the cached run again.
-/
namespace CommandConsole.Execution
open Library
set_option autoImplicit false

structure Rules where
  blockedCapabilities : List String
  maxConsecutiveFailures : Nat
  noProgressAttemptLimit : Nat
  maxExecutionAttempts : Nat
  maxExecutionDurationMs : Int
  maxStepDurationMs : Int
  maxConcurrentExecutions : Nat
  deriving DecidableEq

/-- What `toolRouter.route` comes to. -/
inductive ToolOutcome where
  | pausedForReview (reason : Option String) (beforeStart : Bool)
  | failed (error type : Option String)
  | returned (type : Option String)
  | threw (message : String)
  deriving DecidableEq

/-- A tick of one of the two timers. -/
inductive Beat where
  | log
  | lease
  deriving DecidableEq

structure ToolRun where
  beats : List Beat
  outcome : ToolOutcome
  deriving DecidableEq

/-- The rules, and what the tool makes of a step that is routed at the given instant. -/
structure EngineContext where
  rules : Rules
  tools : Nat → RunStep → ToolRun

structure EngineOptions where
  checkpointPlanId : String
  executionId : String
  resumed : Bool
  resumeStageId : Option String
  deriving DecidableEq

structure StepResult where
  status : Option String := none
  beforeStart : Bool := false
  error : Option String := none
  reason : Option String := none
  code : Option String := none
  type : Option String := none
  attemptNumber : Option Int := none
  deriving DecidableEq

section Checks

def firstTruthy (texts : List (Option String)) : Option String := texts.findSome? truthy

namespace RunStep

def metadata (step : RunStep) : StepMetadata := (step.source.map PlanStep.metadata).getD StepMetadata.empty

/-- The explicit classes of a step, in the order in which they are asked for. -/
def explicitClasses (step : RunStep) : List (Option String) :=
  [step.source.bind PlanStep.sideEffectClass, step.metadata.sideEffectClass, step.source.bind PlanStep.effectClass]

/-- `normalizeSideEffectClass` of the engine. -/
def sideEffectClass (step : RunStep) : SideEffectClass :=
  let explicit := (firstTruthy step.explicitClasses).getD ""
  if !isBlank explicit then .ofText explicit
  else
    let action := (firstTruthy [step.actionClass, step.action, step.kind]).getD ""
    if ["read", "read_file", "list", "inspect", "query", "fetch"].any (wordIs action) then .pureRead
    else if ["write", "write_file", "create", "update", "mutate", "edit"].any (wordIs action) then .localWrite
    else if ["delete", "remove", "destroy"].any (wordIs action) then .destructive
    else if ["network", "http", "api_call", "plugin"].any (wordIs action) then .networkCall
    else if ["execute", "shell", "run_command"].any (wordIs action) then .externalWrite
    else .unknown

/-- `normalizedSideEffectClass` of the idempotency check: one text, and any other word stays. -/
def checkedClass (step : RunStep) : SideEffectClass :=
  let word := (firstTruthy (step.explicitClasses ++ [step.actionClass, step.action, step.kind])).getD "unknown"
  if ["read", "read_file", "list", "inspect", "query", "fetch"].any (wordIs word) then .pureRead
  else if ["write", "write_file", "create", "update", "mutate", "edit"].any (wordIs word) then .localWrite
  else if ["delete", "remove", "destroy"].any (wordIs word) then .destructive
  else if ["network", "http", "api_call", "plugin"].any (wordIs word) then .networkCall
  else if ["execute", "shell", "run_command"].any (wordIs word) then .externalWrite
  else if isBlank word then .unknown
  else .ofText word

def declaredSideEffects (step : RunStep) : List String :=
  normalizedWords ((step.source.bind PlanStep.sideEffects <|> step.metadata.sideEffects).getD [])

def idempotencyEvidence (step : RunStep) : Bool :=
  (truthy (step.source.bind PlanStep.idempotencyKey)).isSome || (truthy step.metadata.idempotencyKey).isSome ||
    step.source.bind PlanStep.isIdempotent = some true || step.metadata.idempotent = some true ||
    wordIs ((step.source.bind PlanStep.idempotencyClass).getD "") "safe_repeat"

def explicitlyNonIdempotent (step : RunStep) : Bool :=
  step.source.bind PlanStep.isIdempotent = some false || step.metadata.idempotent = some false

end RunStep

inductive StepCheck where
  | allowed
  | refused (error : String)
  | review (error reason code : String)
  deriving DecidableEq

def enforceIdempotency (step : RunStep) : StepCheck :=
  if step.status ∈ ["running", "completed"] then
    .refused s!"Step {step.id} is not retry-safe because it already reached {step.status}."
  else if step.checkedClass = .unknown || "unknown" ∈ step.declaredSideEffects then
    .review s!"Step {step.id} requires operator review because its side effects are unknown."
      "unknown_side_effects" "REVIEW_REQUIRED"
  else if step.checkedClass ∈ [.destructive, .humanReview] then
    .review s!"Step {step.id} requires operator review before executing {step.checkedClass.text} work."
      "operator_approval_required" "REVIEW_REQUIRED"
  else if step.checkedClass ∈ [.localWrite, .networkCall, .externalWrite] then
    if step.reviewAcknowledged || step.metadata.reviewAcknowledged then .allowed
    else if step.declaredSideEffects.isEmpty then
      .review s!"Step {step.id} requires declared side effects before executing {step.checkedClass.text} work."
        "side_effects_required" "REVIEW_REQUIRED"
    else if step.explicitlyNonIdempotent || !step.idempotencyEvidence then
      .review (s!"Step {step.id} requires operator review because idempotency evidence is missing for " ++
        s!"{step.checkedClass.text} work.") "idempotency_key_required" "IDEMPOTENCY_KEY_REQUIRED"
    else .allowed
  else .allowed

/-- `enforceCapabilities`: the error when a permission of the step is blocked. -/
def enforceCapabilities (step : RunStep) (rules : Rules) : Option String :=
  (((step.source.map PlanStep.permissions).getD []).find? fun permission =>
    permission ∈ rules.blockedCapabilities).map fun blocked =>
      s!"Capability {blocked} is blocked by execution rules."

end Checks

section Limits

structure Breach where
  type : String
  message : String
  deriving DecidableEq

def getExecutionContainmentBreach (db : Db) (executionId : String) (rules : Rules) : Option Breach :=
  match (loadExecutionState db executionId).execution with
  | none => none
  | some execution =>
    if rules.maxConsecutiveFailures ≤ execution.consecutiveFailures then
      some ⟨"consecutive_failures_exceeded", "Execution failed after consecutive failure limit was exceeded."⟩
    else if rules.noProgressAttemptLimit ≤ execution.noProgressAttempts then
      some ⟨"no_forward_progress", "Execution paused because no forward progress was detected."⟩
    else if rules.maxExecutionAttempts ≤ execution.totalAttempts then
      some ⟨"max_attempts_exceeded", "Execution paused because the maximum attempt limit was exceeded."⟩
    else none

def elapsed (since : Option Int) (limit now : Int) : Bool :=
  since.any fun instant => 0 < limit && limit ≤ now - instant

def getExecutionTimingBreach (db : Db) (executionId : String) (rules : Rules) (now : Int) : Option Breach :=
  match (loadExecutionState db executionId).execution with
  | none => none
  | some execution =>
    if elapsed execution.startedAt rules.maxExecutionDurationMs now then
      some ⟨"execution_timeout", "Execution paused because the execution timeout was exceeded."⟩
    else if elapsed execution.lastProgressAt rules.maxStepDurationMs now then
      some ⟨"no_forward_progress", "Execution paused because no forward progress was detected."⟩
    else none

/-- `hasLiveExecutionLease`. -/
def hasLiveExecutionLease (execution : Option ExecutionRow) (now : Int) : Bool :=
  execution.any fun row => !isBlank (row.leaseOwner.getD "") && now < row.leaseExpiresAt.getD 0

def leaseLost (message : String) : Option Failure := some ⟨"LEASE_LOST", message⟩

def leaseChanged : String := "Execution lease ownership changed while work was in flight."

/-- `getLeaseLossSignal`; its reason is always `lease_lost`. -/
def getLeaseLossSignal (planId executionId : String) (lost : Option Failure) : Engine (Option Failure) := do
  let env ← Process.ask
  let db ← Process.read World.db
  if isBlank planId || isBlank executionId then pure none
  else
    match lost with
    | some err => pure (some err)
    | none =>
      match (activeLocks db planId).head? with
      | none => pure (leaseLost "Execution lease was released while work was in flight.")
      | some lock =>
        if lock.executionId ≠ executionId || lock.workerId ≠ env.workerId then pure (leaseLost leaseChanged)
        else
          match (loadExecutionState db executionId).execution with
          | none => pure none
          | some execution =>
            if !isBlank (execution.leaseOwner.getD "") && (execution.leaseOwner ≠ some env.workerId ||
                execution.leaseExpiresAt.getD 0 ≤ env.nowMs) then
              pure (leaseLost "Execution lease was no longer valid while work was in flight.")
            else pure none

end Limits

section Beats

/-- `startHeartbeat`; a tick that throws ends the process, so nothing that follows depends on it. -/
def logBeat (runId : Option String) : Engine Unit := do
  match (← Process.read World.runs).find? fun run => run.runId = runId with
  | none => pure ()
  | some run =>
    tryCatchThe Failure (do
      let _ ← appendExecutionLog run
      pure ()) fun _ => pure ()

/-- `startAttemptHeartbeat`; the state keeps the last refusal. -/
def leaseBeat (planId executionId stepId : String) (attemptNumber : Int) (lost : Option Failure) :
    Engine (Option Failure) := do
  match ← commit (heartbeatExecutionAttempt planId executionId stepId attemptNumber) with
  | .ok _ => pure lost
  | .error err => pure (some err)

def runBeats (runId : Option String) (planId executionId stepId : String) (attemptNumber : Int) :
    List Beat → Option Failure → Engine (Option Failure)
  | [], lost => pure lost
  | .log :: beats, lost => do
    logBeat runId
    runBeats runId planId executionId stepId attemptNumber beats lost
  | .lease :: beats, lost => do
    let lost ← leaseBeat planId executionId stepId attemptNumber lost
    runBeats runId planId executionId stepId attemptNumber beats lost

end Beats

section Attempt

variable (context : EngineContext) (options : EngineOptions) (step : RunStep) (stepIndex : Int)
  (attemptNumber : Int)

/-- `/timed out/i`. -/
def timedOut (message : String) : Bool :=
  (message.toList.map lowerChar).tails.any fun rest => "timed out".toList.isPrefixOf rest

def persistenceFailure (err : Failure) : StepResult where
  error := some err.message
  code := some err.code
  type := some "persistence_failure"

/-- A failure is recorded in the attempt before the run; then the limits are looked at. -/
def failRoutedStep (run : Run) (stepStatus message type : String) : Engine (Run × StepResult) := do
  match ← commit (failExecutionAttemptAtomic options.checkpointPlanId options.executionId step.id stepIndex
      attemptNumber) with
  | .error err => pure (run, persistenceFailure err)
  | .ok _ => do
    let failedRun ← setStepStatus run step.id stepStatus fun row =>
      { row with error := some message, errorType := some type }
    let db ← Process.read World.db
    match getExecutionContainmentBreach db options.executionId context.rules with
    | some breach => pure (failedRun, { error := some breach.message, type := some breach.type })
    | none => pure (failedRun, { error := some message, type := some type })

def loseLease (run : Run) (err : Failure) : Engine (Run × StepResult) := do
  let pausedRun ← setStepStatus run step.id "paused_for_review" fun row =>
    { row with pauseReason := some "lease_lost", error := some err.message, errorType := some err.code }
  pure (pausedRun, {
    status := some "paused_for_review", error := some err.message, reason := some "lease_lost"
    type := some err.code, attemptNumber := some attemptNumber })

def completeRoutedStep (run : Run) (type : Option String) : Engine (Run × StepResult) := do
  match ← commit (completeExecutionAttemptAtomic options.checkpointPlanId options.executionId step.id stepIndex
      run.steps.length attemptNumber) with
  | .error err => pure (run, persistenceFailure err)
  | .ok _ => do
    let completedRun ← setStepStatus run step.id "completed" id
    pure (completedRun, { type })

/-- What the tool came to, once the timers are stopped. -/
def settleTool (run : Run) : ToolOutcome → Engine (Run × StepResult)
  | .pausedForReview reason beforeStart => do
    let pausedRun ← setStepStatus run step.id "paused_for_review" fun row =>
      { row with pauseReason := some ((truthy reason).getD "step_requested_review") }
    pure (pausedRun, {
      status := some "paused_for_review", beforeStart, reason, attemptNumber := some attemptNumber })
  | .failed error type =>
    failRoutedStep context options step stepIndex attemptNumber run "failed"
      ((truthy error).getD "Step executor returned an error result.")
      ((truthy type).getD "execution_failure")
  | .returned type => completeRoutedStep options step stepIndex attemptNumber run type
  | .threw message => throwThe Failure ⟨"", message⟩

def routeTool (run : Run) : Engine (Run × StepResult) := do
  let n ← Process.index
  let toolRun := context.tools n step
  let lost ← runBeats run.runId options.checkpointPlanId options.executionId step.id attemptNumber
    toolRun.beats none
  match toolRun.outcome with
  | .threw message => throwThe Failure ⟨"", message⟩
  | outcome => do
    match ← getLeaseLossSignal options.checkpointPlanId options.executionId lost with
    | some err => loseLease step attemptNumber run err
    | none => settleTool context options step stepIndex attemptNumber run outcome

/-- The `catch` around the routed tool: it knows the run as it was when the step began. -/
def catchRouted (run : Run) (err : Failure) : Engine (Run × StepResult) :=
  failRoutedStep context options step stepIndex attemptNumber run
    (if timedOut err.message then "timeout" else "failed") err.message
    (if timedOut err.message then "timeout" else "execution_failure")

end Attempt

/-- The engine always has a checkpoint plan. -/
def executeSingleRoutedStep (context : EngineContext) (options : EngineOptions) (step : RunStep) (run : Run)
    (stepIndex : Int) : Engine (Run × StepResult) := do
  Process.modify fun world => { world with routed := world.routed ++ [(step, run)] }
  match enforceCapabilities step context.rules with
  | some error => do
    let blockedRun ← setStepStatus run step.id "blocked" fun row =>
      { row with error := some error, errorType := some "policy_block" }
    pure (blockedRun, { error := some error, type := some "policy_block" })
  | none =>
    match enforceIdempotency step with
    | .review error reason code => do
      let pausedRun ← setStepStatus run step.id "paused_for_review" fun row =>
        { row with pauseReason := some reason, error := some error, errorType := some code }
      pure (pausedRun, {
        status := some "paused_for_review", beforeStart := true, error := some error, reason := some reason
        type := some code })
    | .refused error => do
      let blockedRun ← setStepStatus run step.id "blocked" fun row =>
        { row with error := some error, errorType := some "rewrite_failure" }
      pure (blockedRun, { error := some error, type := some "rewrite_failure" })
    | .allowed => do
      match ← commit (beginExecutionAttemptAtomic options.checkpointPlanId options.executionId step.id stepIndex
          step.sideEffectClass) with
      | .error err => do
        let failedRun ← setStepStatus run step.id "failed" fun row =>
          { row with error := some err.message, errorType := some "integrity_failure" }
        pure (failedRun, { error := some err.message, type := some "integrity_failure" })
      | .ok begun => do
        let stepStartMs ← now
        let runningRun ← setStepStatus run step.id "running" fun row =>
          { row with startedAt := some stepStartMs }
        tryCatchThe Failure
          (routeTool context options step stepIndex begun.attempt.attemptNumber runningRun)
          (catchRouted context options step stepIndex begun.attempt.attemptNumber runningRun)

end CommandConsole.Execution
