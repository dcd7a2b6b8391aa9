import CommandConsole.Execution.RefusedWrites

/-! # The whole rows of execution_steps

The columns that no operation decides on stand beside the rows of the database. They are loaded, carried by a run
and written back with them, each under the names that the loader and the normalizer have for it.
-/
namespace CommandConsole.Execution
open Library
set_option autoImplicit false

section Columns

/-- The further columns of a step row. A column of JSON holds its value, and JSON null is the inner `none`. -/
structure StepExtras (J : Type) where
  parentStepId : Option String
  originalText : Option String
  originalInput : Option (Option J)
  normalizedInput : Option (Option J)
  resolvedCommand : Option String
  canRunIfPriorFailed : Bool
  canRunIfPriorDeferred : Bool
  riskLevel : Option String
  policyResult : Option String
  rewriteReason : Option String
  normalizationNote : Option String
  idempotencyClass : String
  attemptNumber : Int
  attempts : Int
  idempotencyKey : Option String
  isIdempotent : Bool
  sideEffects : List String
  failedAt : Option Int
  lastOutputHash : Option String
  reason : Option String
  deriving DecidableEq

/-- The further fields of a step of a run that the normalizer reads. A null value counts as absent, and of `command`
both the value and the text of a truthy one are kept. -/
structure RunStepExtras (J : Type) where
  parentStepId : Option String := none
  originalText : Option String := none
  description : Option String := none
  originalInput : Option J := none
  normalizedInput : Option J := none
  payload : Option J := none
  commandValue : Option J := none
  commandText : Option String := none
  commandPreview : Option String := none
  resolvedCommand : Option String := none
  canRunIfPriorFailed : Bool := false
  canRunIfPriorDeferred : Bool := false
  riskLevel : Option String := none
  riskScore : Option Int := none
  policyResult : Option String := none
  category : Option String := none
  rewriteReason : Option String := none
  normalizationNote : Option String := none
  idempotencyClass : Option String := none
  attemptNumber : Option Int := none
  attempt_number : Option Int := none
  retries : Option Int := none
  attempts : Option Int := none
  attemptCount : Option Int := none
  idempotencyKey : Option String := none
  isIdempotent : Bool := false
  metadataIdempotent : Bool := false
  sideEffects : List String := []
  failedAt : Option Int := none
  lastOutputHash : Option String := none
  reason : Option String := none
  deriving DecidableEq

variable {J : Type}

def inferRiskLevel (riskLevel : Option String) (riskScore : Option Int) : String :=
  (truthy riskLevel).getD
    (if 75 ≤ riskScore.getD 0 then "high" else if 35 ≤ riskScore.getD 0 then "medium" else "low")

def idempotencyClasses : List String := ["safe_repeat", "unsafe_repeat", "confirmation_required", "unknown"]

def normalizeIdempotencyClass (value : Option String) : String :=
  let normalized := String.ofList (normalizedWord ((truthy value).getD "unknown"))
  if normalized ∈ idempotencyClasses then normalized else "unknown"

/-- The part of `normalizeStepRow` that makes the further columns. -/
def normalizeStepExtras (step : RunStep) (extras : RunStepExtras J) : StepExtras J where
  parentStepId := truthy extras.parentStepId
  originalText := truthy extras.originalText <|> truthy extras.description
  originalInput := some (extras.originalInput <|> extras.payload <|> extras.commandValue)
  normalizedInput := some (extras.normalizedInput <|> extras.originalInput <|> extras.payload <|> extras.commandValue)
  resolvedCommand := truthy extras.resolvedCommand <|> extras.commandText <|> truthy extras.commandPreview
  canRunIfPriorFailed := extras.canRunIfPriorFailed
  canRunIfPriorDeferred := extras.canRunIfPriorDeferred
  riskLevel := some (inferRiskLevel extras.riskLevel extras.riskScore)
  policyResult := truthy extras.policyResult <|> truthy extras.category
  rewriteReason := truthy extras.rewriteReason
  normalizationNote := truthy extras.normalizationNote
  idempotencyClass := normalizeIdempotencyClass extras.idempotencyClass
  attemptNumber := max 0 ((extras.attemptNumber <|> extras.attempt_number).getD
    ((extras.retries.map fun retries => retries + 1).getD 0))
  attempts := max 0 ((extras.attempts <|> extras.attemptCount <|> extras.attemptNumber <|> extras.attempt_number).getD
    ((extras.retries.map fun retries => retries + 1).getD 0))
  idempotencyKey := truthy extras.idempotencyKey
  isIdempotent := extras.isIdempotent || extras.metadataIdempotent ||
    normalizeIdempotencyClass extras.idempotencyClass = "safe_repeat"
  sideEffects := extras.sideEffects
  failedAt := extras.failedAt
  lastOutputHash := truthy extras.lastOutputHash
  reason := truthy extras.reason <|> truthy step.pauseReason <|> truthy step.error

/-- The further columns as `loadExecutionState` names them. -/
def StepExtras.toRunStepExtras (extras : StepExtras J) : RunStepExtras J where
  parentStepId := extras.parentStepId
  originalText := extras.originalText
  originalInput := extras.originalInput.join
  normalizedInput := extras.normalizedInput.join
  resolvedCommand := extras.resolvedCommand
  canRunIfPriorFailed := extras.canRunIfPriorFailed
  canRunIfPriorDeferred := extras.canRunIfPriorDeferred
  riskLevel := extras.riskLevel
  policyResult := extras.policyResult
  rewriteReason := extras.rewriteReason
  normalizationNote := extras.normalizationNote
  idempotencyClass := some extras.idempotencyClass
  attemptNumber := some extras.attemptNumber
  attempts := some extras.attempts
  idempotencyKey := extras.idempotencyKey
  isIdempotent := extras.isIdempotent
  sideEffects := extras.sideEffects
  failedAt := extras.failedAt
  lastOutputHash := extras.lastOutputHash
  reason := extras.reason

/-- The part of the upsert that keeps further columns of the row that is there. -/
def mergeStepExtras (new : StepExtras J) (existing : Option (StepExtras J)) : StepExtras J :=
  match existing with
  | none => new
  | some old =>
    { new with
      originalText := old.originalText <|> new.originalText
      originalInput := old.originalInput <|> new.originalInput
      idempotencyKey := old.idempotencyKey <|> new.idempotencyKey }

/-- A row of execution_steps with all its columns. -/
abbrev FullRow (J : Type) := StepRow × StepExtras J

def mergeColumns (new : FullRow J) (existing : Option (FullRow J)) : FullRow J :=
  (mergeStepRow new.1 (existing.map Prod.fst), mergeStepExtras new.2 (existing.map Prod.snd))

/-- A step of a run with all that the normalizer reads. -/
structure FullStep (J : Type) where
  step : RunStep
  extras : RunStepExtras J

def normalizeColumns (executionId : String) (step : FullStep J) (index : Nat) (nowIso : Int) : FullRow J :=
  (normalizeStepRow executionId step.step index nowIso, normalizeStepExtras step.step step.extras)

/-- A run whose steps are full ones; those of `head` do not count. -/
structure FullRun (J : Type) where
  head : Run
  steps : List (FullStep J)

def FullRun.toRun (run : FullRun J) : Run := { run.head with steps := run.steps.map FullStep.step }

end Columns

section Writes

variable {J : Type}

/-- What the upserts of the listed rows leave under a key. -/
def writtenColumns (listings : List (FullRow J)) (key : String × String) (stored : Option (FullRow J)) :
    Option (FullRow J) :=
  listings.foldl (fun row listing => if listing.1.key = key then some (mergeColumns listing row) else row) stored

/-- `replaceExecutionSteps`: the listed rows are written and the other rows of the execution are deleted. -/
def replacedColumns (executionId : String) (listings : List (FullRow J)) (stored : String × String → Option (FullRow J))
    (key : String × String) : Option (FullRow J) :=
  if key.1 = executionId then
    if listings.any fun listing => listing.1.key = key then writtenColumns listings key (stored key) else none
  else stored key

/-- The database and the further columns of its step rows. -/
structure FullDb (J : Type) where
  db : Db
  extras : String × String → StepExtras J

def FullDb.row? (full : FullDb J) (key : String × String) : Option (FullRow J) :=
  (full.db.executionSteps.find? key).map fun row => (row, full.extras key)

def FullDb.loadedSteps (full : FullDb J) (executionId : String) : List (FullStep J) :=
  (loadExecutionState full.db executionId).steps.map fun row => ⟨row.toRunStep, (full.extras row.key).toRunStepExtras⟩

inductive AttemptOp (J : Type) where
  | begin (stepIndex : Int) (sideEffectClass : SideEffectClass)
  | complete (stepIndex totalSteps attemptNumber : Int)
  | fail (stepIndex attemptNumber : Int)
  | pause (stepIndex attemptNumber : Int) (reason : String) (stageId : Option String) (runSnapshot : Option (FullRun J))
      (reviewExecutionId : Option String)

/-- One of the attempt operations on a step. -/
structure AttemptOpCall (J : Type) where
  env : Env
  planId : String
  executionId : String
  stepId : String
  op : AttemptOp J

namespace AttemptOpCall

def work (call : AttemptOpCall J) : Tx (Result Unit) :=
  match call.op with
  | .begin stepIndex sideEffectClass =>
    withoutData (beginExecutionAttemptAtomic call.planId call.executionId call.stepId stepIndex sideEffectClass)
  | .complete stepIndex totalSteps attemptNumber =>
    withoutData (finalizeExecutionAttemptAtomic call.planId call.executionId call.stepId stepIndex attemptNumber
      (.completed totalSteps))
  | .fail stepIndex attemptNumber =>
    withoutData (finalizeExecutionAttemptAtomic call.planId call.executionId call.stepId stepIndex attemptNumber .failed)
  | .pause stepIndex attemptNumber reason stageId runSnapshot reviewExecutionId =>
    withoutData (pauseExecutionAttemptForReviewAtomic call.planId call.executionId call.stepId stepIndex attemptNumber
      reason stageId (runSnapshot.map FullRun.toRun) reviewExecutionId)

/-- The step as the operation changes it in the loaded snapshot. -/
def change (call : AttemptOpCall J) (step : RunStep) : RunStep :=
  let nowIso := call.env.nowMs
  match call.op with
  | .begin _ _ =>
    { step with
      status := "running", startedAt := some (step.startedAt.getD nowIso), finishedAt := none, updatedAt := some nowIso }
  | .complete _ _ _ =>
    { step with
      status := "completed", startedAt := some (step.startedAt.getD nowIso), finishedAt := some nowIso
      updatedAt := some nowIso, error := none }
  | .fail _ _ =>
    { step with
      status := "failed", startedAt := some (step.startedAt.getD nowIso), finishedAt := some nowIso
      updatedAt := some nowIso, error := some ((truthy step.error).getD "attempt_failed") }
  | .pause _ _ reason _ _ _ =>
    { step with
      status := "paused_for_review", startedAt := some (step.startedAt.getD nowIso), finishedAt := none
      updatedAt := some nowIso, pauseReason := some reason }

/-- The run that a pause is given to write in place of the loaded one. -/
def snapshot (call : AttemptOpCall J) : Option (FullRun J) :=
  match call.op with
  | .pause _ _ _ _ runSnapshot _ => runSnapshot.filter fun run => run.toRun.identity.isSome
  | _ => none

/-- The execution that is written. -/
def target (call : AttemptOpCall J) : String :=
  ((call.snapshot.bind fun run => run.toRun.identity)).getD call.executionId

def writtenSteps (call : AttemptOpCall J) (full : FullDb J) : List (FullStep J) :=
  match call.snapshot with
  | some run => run.steps
  | none => (full.loadedSteps call.executionId).map fun step =>
      if step.step.id = call.stepId then { step with step := call.change step.step } else step

def listings (call : AttemptOpCall J) (full : FullDb J) : List (FullRow J) :=
  (call.writtenSteps full).mapIdx fun index step => normalizeColumns call.target step index call.env.nowMs

/-- The call on the whole rows: a call that fails changes nothing. -/
def outcome (call : AttemptOpCall J) (full : FullDb J) : Result Unit × FullDb J :=
  match transact call.work call.env full.db with
  | (.ok data, db') => (.ok data, {
      db := db'
      extras := fun key => ((replacedColumns call.target (call.listings full) full.row? key).map Prod.snd).getD
        (full.extras key) })
  | (.error err, db') => (.error err, { full with db := db' })

end AttemptOpCall

end Writes

end CommandConsole.Execution
