import CommandConsole.Execution.Text

/-! # Plans and their checkpoint view

A plan lists its steps flat or by stage. Reconciliation reads it as an id and a
list of steps with the evidence that decides whether a step may run again.
-/
namespace CommandConsole.Execution
open Library
set_option autoImplicit false

structure StepMetadata where
  idempotent : Option Bool
  idempotencyKey : Option String
  retryStrategy : Option String
  sideEffectClass : Option String
  sideEffects : Option (List String)
  reviewAcknowledged : Bool
  deriving DecidableEq

def StepMetadata.empty : StepMetadata := ⟨none, none, none, none, none, false⟩

structure PlanStep where
  id : Option String
  sequence : Option Int
  status : Option String
  kind : Option String
  action : Option String
  actionClass : Option String
  tool : Option String
  dependsOn : Option (List String)
  requiresPrerequisite : Option String
  idempotencyClass : Option String
  idempotencyKey : Option String
  isIdempotent : Option Bool
  permissions : List String
  sideEffectClass : Option String
  effectClass : Option String
  sideEffects : Option (List String)
  metadata : StepMetadata
  blocking : Bool
  requiresReview : Bool
  rewritten : Bool
  deferred : Bool
  safeFallback : Bool
  reviewAcknowledged : Bool
  pauseReason : Option String
  blockReason : Option String
  rewriteReason : Option String
  deferReason : Option String
  deriving DecidableEq

structure PlanStage where
  id : Option String
  name : Option String
  sequence : Option Int
  status : Option String
  requiresReview : Bool
  steps : List PlanStep
  deriving DecidableEq

structure Plan where
  planId : Option String
  runId : Option String
  id : Option String
  type : Option String
  planVersion : Option String
  version : Option String
  requiresReview : Bool
  reviewStatus : Option String
  triggerSource : Option String
  steps : Option (List PlanStep)
  stages : Option (List PlanStage)
  /-- The plan read as its own only step. -/
  self : PlanStep
  plannerVersion : Option String := none
  finalMode : Option String := none
  proposedMode : Option String := none
  currentStageExecutable : Option Bool := none
  deriving DecidableEq

def SideEffectClass.text : SideEffectClass → String
  | .pureRead => "pure_read"
  | .localWrite => "local_write"
  | .externalWrite => "external_write"
  | .destructive => "destructive"
  | .networkCall => "network_call"
  | .humanReview => "human_review"
  | .unknown => "unknown"
  | .other text => text

def SideEffectClass.ofText (text : String) : SideEffectClass :=
  ([.pureRead, .localWrite, .externalWrite, .destructive, .networkCall, .humanReview, .unknown].find?
    fun known => wordIs text known.text).getD (.other (String.ofList (normalizedWord text)))

inductive RetryStrategy where
  | safe
  | manualOnly
  deriving DecidableEq

/-- `inferSideEffectClass(step, metadata)`. -/
def inferSideEffectClass (step : PlanStep) : SideEffectClass :=
  let explicit := (truthy step.sideEffectClass <|> truthy step.metadata.sideEffectClass <|>
    truthy step.effectClass).getD ""
  if !isBlank explicit then .ofText explicit
  else
    let action := (truthy step.action <|> truthy step.actionClass <|> truthy step.kind).getD ""
    if ["read", "read_file", "list", "inspect", "query", "fetch"].any (wordIs action) then .pureRead
    else if ["write", "write_file", "create", "update", "mutate", "edit"].any (wordIs action) then
      .localWrite
    else if ["delete", "remove", "destroy"].any (wordIs action) then .destructive
    else if ["network", "http", "api_call", "plugin"].any (wordIs action) then .networkCall
    else if ["execute", "shell", "run_command"].any (wordIs action) then .externalWrite
    else .unknown

/-- The recovery evidence that reconciliation keeps of a step. -/
structure CheckpointStep where
  id : String
  idempotent : Bool
  idempotencyKey : Option String
  retryStrategy : RetryStrategy
  sideEffectClass : SideEffectClass
  sideEffects : List String
  deriving DecidableEq

structure CheckpointPlan where
  id : String
  steps : List CheckpointStep
  deriving DecidableEq

/-- `String(step.id || "step_<index>")`. -/
def checkpointStepId (id : Option String) (index : Nat) : String := (truthy id).getD s!"step_{index}"

/-- `entries.map((entry) => String(entry).trim().toLowerCase()).filter(Boolean)`. -/
def normalizedWords (entries : List String) : List String :=
  (entries.map fun entry => String.ofList (normalizedWord entry)).filter fun entry => entry ≠ ""

def normalizeCheckpointStep (step : PlanStep) (index : Nat) : CheckpointStep :=
  let idempotent := step.metadata.idempotent = some true || wordIs (step.idempotencyClass.getD "") "safe_repeat"
  { id := checkpointStepId step.id index
    idempotent := idempotent
    idempotencyKey := truthy step.idempotencyKey <|> truthy step.metadata.idempotencyKey
    retryStrategy :=
      if step.metadata.retryStrategy = some "safe" then .safe
      else if step.metadata.retryStrategy = some "manual_only" then .manualOnly
      else if idempotent then .safe
      else .manualOnly
    sideEffectClass := inferSideEffectClass step
    sideEffects := normalizedWords ((step.sideEffects <|> step.metadata.sideEffects).getD []) }

/-- `steps` when it is a list, else the steps of `stages`. -/
def Plan.rawSteps (plan : Plan) : List PlanStep :=
  match plan.steps, plan.stages with
  | some steps, _ => steps
  | none, some stages => stages.flatMap PlanStage.steps
  | none, none => []

/-- `normalizeCheckpointPlan` of the reconciliation. -/
def Plan.normalized (plan : Plan) : CheckpointPlan where
  id := (truthy plan.planId <|> truthy plan.id).getD ""
  steps := plan.rawSteps.mapIdx fun index step => normalizeCheckpointStep step index

def CheckpointPlan.stepIds (plan : CheckpointPlan) : List String := plan.steps.map CheckpointStep.id

/-- The ids after a second normalization, which `explainExecutionCorruption` makes of a normalized plan. -/
def renormalizedIds (ids : List String) : List String :=
  ids.mapIdx fun index id => checkpointStepId (some id) index

theorem checkpointStepId_ne_empty (id : Option String) (index : Nat) : checkpointStepId id index ≠ "" := by
  unfold checkpointStepId
  cases hId : truthy id with
  | some text =>
    have hText : text ≠ "" := by simpa [truthy, Option.filter_eq_some_iff] using (Option.filter_eq_some_iff.mp hId).2
    exact hText
  | none =>
    intro h
    have hList := congrArg String.toList h
    simp [String.toList_append] at hList

end CommandConsole.Execution
