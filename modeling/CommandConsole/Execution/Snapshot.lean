import CommandConsole.Execution.IntegrityStore
import CommandConsole.Execution.Plan

/-! # Execution snapshots

An in-memory run is written whole: its execution row, its stages and its steps
replace what the tables hold for that execution. Every write is an upsert that
first checks the status transitions and then the (execution, sequence) pairs.
-/
namespace CommandConsole.Execution
open Library
set_option autoImplicit false

/-- A step of an in-memory run, as the engine or a loaded snapshot carries it. The fields that nothing
overwrites are read from `source`, the plan's own step. -/
structure RunStep where
  id : String
  stageId : Option String
  stageSequence : Option Int
  sequence : Option Int
  status : String
  kind : Option String
  actionClass : Option String
  action : Option String
  tool : Option String
  dependsOn : Option (List String)
  depends_on_step_ids : Option (List String)
  blocking : Bool
  requiresReview : Bool
  rewritten : Bool
  deferred : Bool
  safeFallback : Bool
  reviewAcknowledged : Bool
  pauseReason : Option String
  blockReason : Option String
  rewriteReason : Option String
  deferReason : Option String
  error : Option String
  errorType : Option String
  createdAt : Option Int
  updatedAt : Option Int
  startedAt : Option Int
  finishedAt : Option Int
  source : Option PlanStep := none
  deriving DecidableEq

structure RunStage where
  id : String
  name : Option String
  sequence : Option Int
  status : String
  requiresReview : Bool
  pauseReason : Option String
  createdAt : Option Int
  updatedAt : Option Int
  startedAt : Option Int
  finishedAt : Option Int
  deriving DecidableEq

/-- `leaseExpiresAt` is absent (`none`), null (`some none`) or a number. -/
structure Run where
  runId : Option String
  id : Option String
  planId : Option String
  triggerSource : Option String
  globalState : String
  reviewStatus : Option String
  createdAt : Option Int
  updatedAt : Option Int
  startedAt : Option Int
  finishedAt : Option Int
  cancelledAt : Option Int
  leaseOwner : Option String
  leaseExpiresAt : Option (Option Int)
  totalAttempts : Nat
  consecutiveFailures : Nat
  noProgressAttempts : Nat
  lastProgressAt : Option Int
  stages : List RunStage
  steps : List RunStep
  deriving DecidableEq

/-- `run.runId || run.id`. -/
def Run.identity (run : Run) : Option String := truthy run.runId <|> truthy run.id

def normalizeTriggerSource (value : Option String) : String :=
  let text := (truthy value).getD "system"
  match ["cli", "api", "schedule", "webhook", "system"].find? (wordIs text) with
  | some word => word
  | none => "system"

def normalizeExecutionStatus (run : Run) : Status :=
  if run.cancelledAt.isSome then .cancelled
  else if run.globalState = "running" then .running
  else if run.steps.any fun step => step.status ∈ ["failed", "timeout", "blocked"] then .failed
  else if !run.steps.isEmpty && run.steps.all fun step => step.status ∈ ["completed", "deferred"] then
    .completed
  else if run.reviewStatus = some "pending" then .pausedForReview
  else if run.globalState = "paused" || run.globalState = "safe_mode" then .paused
  else .pending

def normalizeExecutionRow (run : Run) (nowIso : Int) : ExecutionRow :=
  let createdAt := run.createdAt.getD nowIso
  let lastUpdatedAt := run.updatedAt.getD createdAt
  let status := normalizeExecutionStatus run
  { id := run.identity.getD ""
    planId := truthy run.planId
    status := status
    triggerSource := normalizeTriggerSource run.triggerSource
    requiresReview := status = .pausedForReview || run.reviewStatus = some "pending"
    createdAt := createdAt
    startedAt := run.startedAt <|> run.steps.findSome? RunStep.startedAt <|>
      if status = .running then some lastUpdatedAt else none
    finishedAt := run.finishedAt <|> if status = .completed then some lastUpdatedAt else none
    cancelledAt := run.cancelledAt
    leaseOwner := truthy run.leaseOwner
    -- Number(undefined) is not finite, Number(null) is 0
    leaseExpiresAt := run.leaseExpiresAt.map fun expires => expires.getD 0
    totalAttempts := run.totalAttempts
    consecutiveFailures := run.consecutiveFailures
    noProgressAttempts := run.noProgressAttempts
    lastProgressAt := run.lastProgressAt
    lastUpdatedAt := lastUpdatedAt }

/-- `dependsOnStepIds` of a loaded step is none of the names that are read. -/
def normalizeStepRow (executionId : String) (step : RunStep) (index : Nat) (nowIso : Int) : StepRow where
  id := (truthy (some step.id)).getD s!"step_{index + 1}"
  executionId := executionId
  stageId := truthy step.stageId
  sequence := step.sequence.getD (index + 1)
  status := normalizeStepStatus step.status
  kind := (truthy step.kind <|> truthy step.actionClass <|> truthy step.action <|> truthy step.tool).getD "step"
  dependsOnStepIds := (step.dependsOn <|> step.depends_on_step_ids).getD []
  blocking := step.blocking
  pauseReason := truthy step.pauseReason <|> truthy step.error
  deferred := step.deferred || step.status = "deferred"
  blockReason := truthy step.blockReason
  reviewAcknowledged := step.reviewAcknowledged
  createdAt := step.createdAt.getD nowIso
  startedAt := step.startedAt
  finishedAt := step.finishedAt
  errorCode := truthy step.errorType
  errorMessage := truthy step.error
  errorType := truthy step.errorType

def normalizeStageRow (executionId : String) (stage : RunStage) (index : Nat) (nowIso : Int) : StageRow :=
  let createdAt := stage.createdAt.getD nowIso
  { id := (truthy (some stage.id)).getD s!"stage_{index + 1}"
    executionId := executionId
    sequence := stage.sequence.getD (index + 1)
    name := (truthy stage.name).getD s!"Stage {index + 1}"
    status := normalizeStageStatus stage.status
    requiresReview := stage.requiresReview
    pauseReason := truthy stage.pauseReason
    createdAt := createdAt
    startedAt := stage.startedAt
    finishedAt := stage.finishedAt
    lastUpdatedAt := (stage.updatedAt <|> stage.finishedAt <|> stage.startedAt).getD createdAt }

/-- `ALLOWED_STATUS_TRANSITIONS`. -/
def allowedStatusTransitions : Status → List Status
  | .pending => [.pending, .running, .completed, .cancelled, .failed, .paused, .pausedForReview,
      .awaitingReview, .pauseForOperatorRecovery, .executionAbandoned, .corrupted]
  | .running => [.running, .completed, .cancelled, .failed, .paused, .pausedForReview, .awaitingReview,
      .pauseForOperatorRecovery, .executionAbandoned, .corrupted]
  | .paused => [.paused, .pending, .running, .completed, .cancelled, .failed, .pausedForReview,
      .awaitingReview, .pauseForOperatorRecovery, .executionAbandoned, .corrupted]
  | .pausedForReview => [.pausedForReview, .pending, .running, .completed, .cancelled, .failed, .paused,
      .awaitingReview, .pauseForOperatorRecovery, .executionAbandoned, .corrupted]
  | .awaitingReview => [.awaitingReview, .paused, .running, .completed, .cancelled, .failed,
      .pauseForOperatorRecovery, .executionAbandoned, .corrupted]
  | .pauseForOperatorRecovery => [.pauseForOperatorRecovery, .executionAbandoned, .failed, .corrupted]
  | .completed => [.completed]
  | .cancelled => [.cancelled]
  | .failed => [.failed]
  | .executionAbandoned => [.executionAbandoned]
  | .corrupted => [.corrupted]

def isValidStatusTransition (current next : Status) : Bool := next ∈ allowedStatusTransitions current

/-- The options of `persistExecutionSnapshot` whose rows reference an execution. -/
structure PersistOptions where
  reviewExecutionId : Option String := none
  auditExecutionIds : List String := []

def mergeExecutionRow (row : ExecutionRow) (existing : Option ExecutionRow) : ExecutionRow :=
  match existing with
  | none => row
  | some old =>
    { row with
      createdAt := old.createdAt
      startedAt := row.startedAt <|> old.startedAt
      lastProgressAt := row.lastProgressAt <|> old.lastProgressAt }

def mergeStepRow (row : StepRow) (existing : Option StepRow) : StepRow :=
  match existing with
  | none => row
  | some old => { row with createdAt := old.createdAt, startedAt := row.startedAt <|> old.startedAt }

def mergeStageRow (row : StageRow) (existing : Option StageRow) : StageRow :=
  match existing with
  | none => row
  | some old => { row with createdAt := old.createdAt, startedAt := row.startedAt <|> old.startedAt }

@[simps] def Db.putExecution (db : Db) (row : ExecutionRow) : Db :=
  { db with executions := PlainTable.put db.executions row }

def upsertExecutionRow (row : ExecutionRow) : Tx Unit :=
  Tx.modify fun db => db.putExecution (mergeExecutionRow row (db.executions.find? row.id))

def upsertStepRow (row : StepRow) : Tx Unit := Tx.write fun db =>
  match db.executionSteps.upsert (mergeStepRow row (db.executionSteps.find? row.key)) with
  | some executionSteps => .ok { db with executionSteps := executionSteps }
  | none => .error ⟨"DB_WRITE_FAILED", "UNIQUE constraint failed: execution_steps.execution_id, execution_steps.sequence"⟩

def upsertStageRow (row : StageRow) : Tx Unit := Tx.write fun db =>
  match db.executionStages.upsert (mergeStageRow row (db.executionStages.find? row.key)) with
  | some executionStages => .ok { db with executionStages := executionStages }
  | none => .error ⟨"DB_WRITE_FAILED", "UNIQUE constraint failed: execution_stages.execution_id, execution_stages.sequence"⟩

def replaceExecutionSteps (executionId : String) (rows : List StepRow) : Tx Unit := do
  Tx.forEach upsertStepRow rows
  Tx.modify fun db =>
    { db with
      executionSteps := db.executionSteps.keep fun step =>
        step.executionId ≠ executionId || rows.any fun row => row.id = step.id }

def replaceExecutionStages (executionId : String) (rows : List StageRow) : Tx Unit := do
  Tx.forEach upsertStageRow rows
  Tx.modify fun db =>
    { db with
      executionStages := db.executionStages.keep fun stage =>
        stage.executionId ≠ executionId || rows.any fun row => row.id = stage.id }

/-- FOREIGN KEY (execution_id) of `review_records` and `audit_events`. -/
def requireExecution (executionId : String) : Tx Unit := do
  let db ← Tx.get
  match db.executions.find? executionId with
  | some _ => pure ()
  | none => Tx.throw ⟨"DB_WRITE_FAILED", "FOREIGN KEY constraint failed"⟩

def checkExecutionTransition (row : ExecutionRow) : Tx Unit := do
  let db ← Tx.get
  match db.executions.find? row.id with
  | none => pure ()
  | some old =>
    if isValidStatusTransition old.status row.status then pure ()
    else Tx.throw ⟨"DB_WRITE_FAILED",
      s!"Invalid execution status transition from {old.status.text} to {row.status.text} for {row.id}."⟩

def checkStageTransition (row : StageRow) : Tx Unit := do
  let db ← Tx.get
  match db.executionStages.find? row.key with
  | none => pure ()
  | some old =>
    if isValidStatusTransition old.status row.status then pure ()
    else Tx.throw ⟨"DB_WRITE_FAILED",
      s!"Invalid stage status transition from {old.status.text} to {row.status.text} for {row.executionId}:{row.id}."⟩

def checkStepTransition (row : StepRow) : Tx Unit := do
  let db ← Tx.get
  match db.executionSteps.find? row.key with
  | none => pure ()
  | some old =>
    if isValidStatusTransition old.status row.status then pure ()
    else Tx.throw ⟨"DB_WRITE_FAILED",
      s!"Invalid step status transition from {old.status.text} to {row.status.text} for {row.executionId}:{row.id}."⟩

def normalizedStages (executionId : String) (run : Run) (nowIso : Int) : List StageRow :=
  run.stages.mapIdx fun index stage => normalizeStageRow executionId stage index nowIso

def normalizedSteps (executionId : String) (run : Run) (nowIso : Int) : List StepRow :=
  run.steps.mapIdx fun index step => normalizeStepRow executionId step index nowIso

def persistExecutionSnapshot (run : Run) (options : PersistOptions) : Tx ExecutionRow := do
  match run.identity with
  | none => Tx.throw ⟨"DB_WRITE_FAILED", "Execution snapshot requires a runId."⟩
  | some _ =>
    let env ← Tx.ask
    let row := normalizeExecutionRow run env.nowMs
    let stages := normalizedStages row.id run env.nowMs
    let steps := normalizedSteps row.id run env.nowMs
    checkExecutionTransition row
    Tx.forEach checkStageTransition stages
    Tx.forEach checkStepTransition steps
    upsertExecutionRow row
    replaceExecutionStages row.id stages
    replaceExecutionSteps row.id steps
    Tx.forEach requireExecution (truthy options.reviewExecutionId).toList
    Tx.forEach requireExecution
      (options.auditExecutionIds.map fun executionId => (truthy (some executionId)).getD row.id)
    pure row

/-- What `loadExecutionState` returns; `execution` is null for an unknown id. -/
structure Snapshot where
  execution : Option ExecutionRow
  stages : List StageRow
  steps : List StepRow
  deriving DecidableEq

def stepsOf (db : Db) (executionId : String) : List StepRow :=
  (db.executionSteps.rows.filter fun row => row.executionId = executionId).insertionSort
    fun left right => left.sequence ≤ right.sequence

def stagesOf (db : Db) (executionId : String) : List StageRow :=
  (db.executionStages.rows.filter fun row => row.executionId = executionId).insertionSort
    fun left right => left.sequence ≤ right.sequence

def loadExecutionState (db : Db) (executionId : String) : Snapshot :=
  match db.executions.find? executionId with
  | none => ⟨none, [], []⟩
  | some execution => ⟨some execution, stagesOf db executionId, stepsOf db executionId⟩

/-- A loaded step as a step of a run: its dependencies are under another name. -/
def StepRow.toRunStep (row : StepRow) : RunStep where
  id := row.id
  stageId := row.stageId
  stageSequence := none
  sequence := some row.sequence
  status := row.status.text
  kind := some row.kind
  actionClass := none
  action := none
  tool := none
  dependsOn := none
  depends_on_step_ids := none
  blocking := row.blocking
  requiresReview := false
  rewritten := false
  deferred := row.deferred
  safeFallback := false
  reviewAcknowledged := row.reviewAcknowledged
  pauseReason := row.pauseReason
  blockReason := row.blockReason
  rewriteReason := none
  deferReason := none
  error := none
  errorType := row.errorType
  createdAt := some row.createdAt
  updatedAt := none
  startedAt := row.startedAt
  finishedAt := row.finishedAt

def StageRow.toRunStage (row : StageRow) : RunStage where
  id := row.id
  name := some row.name
  sequence := some row.sequence
  status := row.status.text
  requiresReview := row.requiresReview
  pauseReason := row.pauseReason
  createdAt := some row.createdAt
  updatedAt := none
  startedAt := row.startedAt
  finishedAt := row.finishedAt

end CommandConsole.Execution
