import CommandConsole.Execution.CheckpointStore

/-! # Attempt operations in one transaction

Each operation moves the attempt, the checkpoint and the snapshot together. Its
guards read the execution row and the step row; every failure inside throws, so
a failed operation leaves nothing behind.
-/
namespace CommandConsole.Execution
open Library
set_option autoImplicit false

/-- `TERMINAL_STEP_STATUSES` of the stored statuses. -/
def Status.terminalStep (status : Status) : Bool := status ∈ [.completed, .failed, .cancelled]

/-- `TERMINAL_EXECUTION_STATUSES`. -/
def Status.terminalForAttempts (status : Status) : Bool :=
  status ∈ [.completed, .failed, .cancelled, .executionAbandoned, .corrupted]

def buildSnapshotBase (execution : ExecutionRow) (nowIso : Int) : Run where
  runId := some execution.id
  id := some execution.id
  planId := truthy execution.planId
  triggerSource := some execution.triggerSource
  globalState := "running"
  reviewStatus := none
  createdAt := some execution.createdAt
  updatedAt := some nowIso
  startedAt := some (execution.startedAt.getD nowIso)
  finishedAt := execution.finishedAt
  cancelledAt := execution.cancelledAt
  leaseOwner := execution.leaseOwner
  leaseExpiresAt := some execution.leaseExpiresAt
  totalAttempts := execution.totalAttempts
  consecutiveFailures := execution.consecutiveFailures
  noProgressAttempts := execution.noProgressAttempts
  lastProgressAt := execution.lastProgressAt
  stages := []
  steps := []

/-- `mergeExecutionMetrics`: metrics and lease come from the stored row; without one the run keeps its own. -/
def mergeExecutionMetrics (run : Run) (execution : Option ExecutionRow) (nowIso : Int) : Run :=
  { run with
    createdAt := some ((run.createdAt <|> execution.map ExecutionRow.createdAt).getD nowIso)
    startedAt := some ((run.startedAt <|> execution.bind ExecutionRow.startedAt).getD nowIso)
    finishedAt := run.finishedAt <|> execution.bind ExecutionRow.finishedAt
    cancelledAt := run.cancelledAt <|> execution.bind ExecutionRow.cancelledAt
    leaseOwner := execution.bind ExecutionRow.leaseOwner <|> run.leaseOwner
    leaseExpiresAt := some (execution.bind ExecutionRow.leaseExpiresAt <|> run.leaseExpiresAt.join)
    totalAttempts := (execution.map ExecutionRow.totalAttempts).getD run.totalAttempts
    consecutiveFailures := (execution.map ExecutionRow.consecutiveFailures).getD run.consecutiveFailures
    noProgressAttempts := (execution.map ExecutionRow.noProgressAttempts).getD run.noProgressAttempts
    lastProgressAt := execution.bind ExecutionRow.lastProgressAt <|> run.lastProgressAt
    updatedAt := some nowIso }

def appliedStageStatus (stageSteps : List RunStep) (stage : RunStage) (fallbackStatus : String) : String :=
  if stageSteps.isEmpty then
    if isBlank stage.status then fallbackStatus else String.ofList (normalizedWord stage.status)
  else if stageSteps.any fun step => step.status = "failed" then "failed"
  else if stageSteps.all fun step => wordIs step.status "completed" || wordIs step.status "deferred" then
    "completed"
  else if stageSteps.any fun step => step.status = "running" then "running"
  else if stageSteps.any fun step => step.status = "paused_for_review" then "paused_for_review"
  else "pending"

def applyStageStatuses (steps : List RunStep) (stages : List RunStage) (nowIso : Int)
    (fallbackStatus : String) : List RunStage :=
  stages.map fun stage =>
    let stageSteps := steps.filter fun step => truthy step.stageId = some stage.id
    let status := appliedStageStatus stageSteps stage fallbackStatus
    { stage with
      status := status
      startedAt := some (stage.startedAt.getD nowIso)
      finishedAt :=
        if status = "completed" || status = "failed" then some (stage.finishedAt.getD nowIso) else none
      updatedAt := some nowIso }

/-- The loaded steps with the named one changed. -/
def changedSteps (snapshot : Snapshot) (stepId : String) (change : RunStep → RunStep) : List RunStep :=
  snapshot.steps.map fun row => if row.id = stepId then change row.toRunStep else row.toRunStep

def buildRunningSnapshot (snapshot : Snapshot) (execution : ExecutionRow) (stepId : String)
    (nowIso : Int) : Run :=
  let steps := changedSteps snapshot stepId fun step =>
    { step with
      status := "running", startedAt := some (step.startedAt.getD nowIso), finishedAt := none
      updatedAt := some nowIso }
  { buildSnapshotBase execution nowIso with
    stages := applyStageStatuses steps (snapshot.stages.map StageRow.toRunStage) nowIso "running"
    steps := steps }

def buildPausedAttemptSnapshot (snapshot : Snapshot) (execution : ExecutionRow) (stepId reason : String)
    (nowIso : Int) : Run :=
  let steps := changedSteps snapshot stepId fun step =>
    { step with
      status := "paused_for_review", startedAt := some (step.startedAt.getD nowIso), finishedAt := none
      updatedAt := some nowIso, pauseReason := some reason }
  { buildSnapshotBase execution nowIso with
    stages := applyStageStatuses steps (snapshot.stages.map StageRow.toRunStage) nowIso "running"
    steps := steps }

def buildTerminalAttemptSnapshot (snapshot : Snapshot) (execution : ExecutionRow) (stepId stepStatus : String)
    (nowIso : Int) : Run :=
  let steps := changedSteps snapshot stepId fun step =>
    { step with
      status := stepStatus, startedAt := some (step.startedAt.getD nowIso), finishedAt := some nowIso
      updatedAt := some nowIso
      error := if stepStatus = "failed" then some ((truthy step.error).getD "attempt_failed") else none }
  { buildSnapshotBase execution nowIso with
    stages := snapshot.stages.map fun stage => { stage.toRunStage with updatedAt := some nowIso }
    steps := steps }

/-- `getExecutionAndStep`: the checkpoint of the plan is not among what it looks at. -/
def getExecutionAndStep (snapshot : Snapshot) (stepId : String) : Tx ExecutionRow :=
  match snapshot.execution with
  | none => Tx.throw ⟨"DB_WRITE_FAILED", "EXECUTION_NOT_FOUND"⟩
  | some execution =>
    if execution.status.terminalForAttempts then
      Tx.throw ⟨"DB_WRITE_FAILED", "EXECUTION_ALREADY_TERMINAL"⟩
    else
      match snapshot.steps.find? fun step => step.id = stepId with
      | none => Tx.throw ⟨"DB_WRITE_FAILED", "STEP_NOT_FOUND"⟩
      | some step =>
        if step.status.terminalStep then Tx.throw ⟨"DB_WRITE_FAILED", "STEP_ALREADY_TERMINAL"⟩
        else pure execution

/-- What `getExecutionAndStep` lets through. -/
def Snapshot.admits (snapshot : Snapshot) (stepId : String) : Bool :=
  (snapshot.execution.any fun execution => !execution.status.terminalForAttempts) &&
    (snapshot.steps.find? fun step => step.id = stepId).any fun step => !step.status.terminalStep

theorem getExecutionAndStep_eq_ok {snapshot : Snapshot} {stepId : String} {env : Env} {db db' : Db}
    {execution : ExecutionRow} (h : getExecutionAndStep snapshot stepId env db = .ok (execution, db')) :
    db' = db ∧ snapshot.execution = some execution ∧ snapshot.admits stepId = true := by
  unfold getExecutionAndStep at h
  unfold Snapshot.admits
  cases hExecution : snapshot.execution with
  | none =>
    rw [hExecution] at h
    cases h
  | some row =>
    rw [hExecution] at h
    dsimp only at h
    split at h
    · cases h
    · rename_i hOpen
      cases hStep : snapshot.steps.find? fun step => step.id = stepId with
      | none =>
        rw [hStep] at h
        cases h
      | some step =>
        rw [hStep] at h
        dsimp only at h
        split at h
        · cases h
        · rename_i hStepOpen
          cases h
          refine ⟨rfl, rfl, ?_⟩
          simp [hOpen, hStepOpen]

def ensureAttemptIdentity (planId executionId stepId : String) : Option Failure :=
  ensureIdentity planId executionId <|>
    if isBlank stepId then some ⟨"INVALID_STATE", "stepId is required."⟩ else none

/-- The id checks before the transaction; a throw inside is returned with its code. -/
def atomically {α : Type} (planId executionId stepId : String) (work : Tx α) : Tx (Result α) :=
  match ensureAttemptIdentity planId executionId stepId with
  | some err => pure (.error err)
  | none => do
    let data ← work
    success data

theorem transact_atomically {α : Type} (planId executionId stepId : String) (work : Tx α) (env : Env) (db : Db) :
    (∃ err, transact (atomically planId executionId stepId work) env db = (.error err, db)) ∨
      ∃ data db', ensureAttemptIdentity planId executionId stepId = none ∧ work env db = .ok (data, db') ∧
        transact (atomically planId executionId stepId work) env db = (.ok data, db') := by
  cases hId : ensureAttemptIdentity planId executionId stepId with
  | some err =>
    have hRun : atomically planId executionId stepId work env db = .ok (.error err, db) := by
      simp only [atomically, hId, Tx.pure_apply]
    exact .inl ⟨err, transact_of_ok hRun⟩
  | none =>
    have hRun : atomically planId executionId stepId work env db = (work >>= success) env db := by
      simp only [atomically, hId]
    cases hWork : work env db with
    | error err => exact .inl ⟨err, transact_of_throw (hRun.trans (Tx.bind_of_error hWork))⟩
    | ok result => exact .inr ⟨result.1, result.2, rfl, rfl, transact_of_ok (hRun.trans (Tx.bind_of_ok hWork))⟩

structure AttemptOutcome where
  checkpoint : Checkpoint
  attempt : AttemptRow
  deriving DecidableEq

/-- The execution row a snapshot is loaded with after the attempt was written. -/
def reloadExecution (executionId : String) (execution : ExecutionRow) : Tx (Snapshot × ExecutionRow) := do
  let db ← Tx.get
  let snapshot := loadExecutionState db executionId
  pure (snapshot, snapshot.execution.getD execution)

def beginExecutionAttemptAtomic (planId executionId stepId : String) (stepIndex : Int)
    (sideEffectClass : SideEffectClass) : Tx (Result AttemptOutcome) :=
  atomically planId executionId stepId do
    let env ← Tx.ask
    let db ← Tx.get
    let execution ← getExecutionAndStep (loadExecutionState db executionId) stepId
    let checkpoint ← orThrow (checkpointBeforeStep planId stepIndex)
    let attempt ← orThrow (createExecutionAttempt planId executionId stepId sideEffectClass none)
    let (snapshot, execution) ← reloadExecution executionId execution
    let _ ← persistExecutionSnapshot (buildRunningSnapshot snapshot execution stepId env.nowMs) {}
    pure ⟨checkpoint, attempt⟩

/-- The two modes of `finalizeExecutionAttemptAtomic`; only a completion knows the number of steps. -/
inductive AttemptEnd where
  | completed (totalSteps : Int)
  | failed
  deriving DecidableEq

def AttemptEnd.attemptStatus : AttemptEnd → AttemptStatus
  | .completed _ => .completed
  | .failed => .failed

def AttemptEnd.stepStatus : AttemptEnd → String
  | .completed _ => "completed"
  | .failed => "failed"

def AttemptEnd.checkpoint (mode : AttemptEnd) (planId : String) (stepIndex : Int) : Tx (Result Checkpoint) :=
  match mode with
  | .completed totalSteps => checkpointAfterStep planId stepIndex totalSteps
  | .failed => failExecutionCheckpoint planId stepIndex

def finalizeExecutionAttemptAtomic (planId executionId stepId : String) (stepIndex attemptNumber : Int)
    (mode : AttemptEnd) : Tx (Result AttemptOutcome) :=
  atomically planId executionId stepId do
    let env ← Tx.ask
    let db ← Tx.get
    let execution ← getExecutionAndStep (loadExecutionState db executionId) stepId
    let attempt ← orThrow (finalizeAttempt planId executionId stepId attemptNumber mode.attemptStatus)
    let checkpoint ← orThrow (mode.checkpoint planId stepIndex)
    let (snapshot, execution) ← reloadExecution executionId execution
    let _ ← persistExecutionSnapshot
      (buildTerminalAttemptSnapshot snapshot execution stepId mode.stepStatus env.nowMs) {}
    pure ⟨checkpoint, attempt⟩

def completeExecutionAttemptAtomic (planId executionId stepId : String)
    (stepIndex totalSteps attemptNumber : Int) : Tx (Result AttemptOutcome) :=
  finalizeExecutionAttemptAtomic planId executionId stepId stepIndex attemptNumber (.completed totalSteps)

def failExecutionAttemptAtomic (planId executionId stepId : String) (stepIndex attemptNumber : Int) :
    Tx (Result AttemptOutcome) :=
  finalizeExecutionAttemptAtomic planId executionId stepId stepIndex attemptNumber .failed

/-- A release that tolerates a lock that is gone or another execution's. -/
def releaseIfHeld (planId executionId : String) : Tx (Option Int) := do
  match ← releaseExecutionLock planId executionId .none with
  | .ok grant => pure grant.lockReleasedAt
  | .error err =>
    if err.code ∈ ["NOT_FOUND", "LOCK_CONFLICT"] then pure none else Tx.throw err

/-- The three ledger events of a pause for review. -/
def pauseEvents (planId executionId stepId : String) (stageId : Option String) : Tx Unit := do
  let _ ← orThrow (appendLedgerEvent {
    planId, executionId := some executionId, stepId := some stepId
    eventType := .stagePausedForReview, stageId })
  let _ ← orThrow (appendLedgerEvent {
    planId, executionId := some executionId, stepId := some stepId
    eventType := .reviewRequested, stageId })
  let _ ← orThrow (appendLedgerEvent {
    planId, executionId := some executionId, stepId := some stepId, eventType := .executionPaused })
  pure ()

/-- `runId || id || executionId` and `planId` filled in. -/
def Run.identifiedAs (run : Run) (planId executionId : String) : Run :=
  { run with
    runId := some (run.identity.getD executionId)
    id := some ((truthy run.id <|> truthy run.runId).getD executionId)
    planId := some ((truthy run.planId).getD planId) }

structure PauseOutcome where
  attempt : Option AttemptRow
  checkpoint : Checkpoint
  lockReleasedAt : Option Int
  deriving DecidableEq

def pauseExecutionAttemptForReviewAtomic (planId executionId stepId : String)
    (stepIndex attemptNumber : Int) (reason : String) (stageId : Option String) (runSnapshot : Option Run)
    (reviewExecutionId : Option String) : Tx (Result PauseOutcome) :=
  atomically planId executionId stepId do
    let env ← Tx.ask
    let db ← Tx.get
    let snapshot := loadExecutionState db executionId
    let execution ← getExecutionAndStep snapshot stepId
    let attempt ← orThrow (cancelExecutionAttempt planId executionId stepId attemptNumber)
    let checkpoint ← orThrow (markAwaitingReview planId stepIndex)
    let paused :=
      match runSnapshot.filter fun run => run.identity.isSome with
      | some run => mergeExecutionMetrics (run.identifiedAs planId executionId) (some execution) env.nowMs
      | none => buildPausedAttemptSnapshot snapshot execution stepId reason env.nowMs
    match runSnapshot with
    | some _ =>
      let _ ← persistExecutionSnapshot paused {
        reviewExecutionId, auditExecutionIds := [executionId, executionId, executionId] }
      pauseEvents planId executionId stepId stageId
    | none =>
      let _ ← persistExecutionSnapshot paused {}
    let lockReleasedAt ← releaseIfHeld planId executionId
    pure ⟨some attempt, checkpoint, lockReleasedAt⟩

def pauseBeforeExecutionForReviewAtomic (planId executionId stepId : String) (stageId : Option String)
    (stepIndex : Int) (runSnapshot : Run) (reviewExecutionId : Option String) : Tx (Result PauseOutcome) :=
  match ensureAttemptIdentity planId executionId stepId with
  | some err => pure (.error err)
  | none =>
    if runSnapshot.identity = none then failure "INVALID_STATE" "runSnapshot is required."
    else do
      let env ← Tx.ask
      let db ← Tx.get
      let snapshot := loadExecutionState db executionId
      let checkpoint ← orThrow (markAwaitingReview planId stepIndex)
      let _ ← persistExecutionSnapshot (mergeExecutionMetrics runSnapshot snapshot.execution env.nowMs) {
        reviewExecutionId, auditExecutionIds := [executionId, executionId, executionId] }
      pauseEvents planId executionId stepId stageId
      let lockReleasedAt ← releaseIfHeld planId executionId
      success ⟨none, checkpoint, lockReleasedAt⟩

end CommandConsole.Execution
