import CommandConsole.Execution.RecoveryPlan
import CommandConsole.Execution.Execute
import CommandConsole.Library.Interleaving

/-! # Committing a recovery plan

The commit runs in three sections. The first loads the state and compares the
token, the second is the preflight, whose integrity check may write, and the third
writes the chosen mode in one transaction from the state of the first. -/
namespace CommandConsole.Execution
open Library
set_option autoImplicit false

section Preflight

/-- `unavailable` is a preflight without `ok`, `ineligible` one whose data is not eligible. -/
inductive Preflight where
  | unavailable (failure : Failure)
  | ineligible (failure : Failure)
  | eligible
  deriving DecidableEq

/-- ORDER BY last_updated_at DESC, created_at DESC. -/
def ExecutionRow.isNewer (left right : ExecutionRow) : Bool :=
  right.lastUpdatedAt < left.lastUpdatedAt ||
    left.lastUpdatedAt = right.lastUpdatedAt && right.createdAt < left.createdAt

/-- The execution of `getLatestPersistedExecutionState`. -/
def latestResumable (db : Db) (planId : String) : Option ExecutionRow :=
  (db.executions.rows.filter fun row =>
      row.planId = some planId && row.status ∈ [.running, .paused, .pausedForReview]).foldl
    (fun latest row =>
      match latest with
      | none => some row
      | some other => if row.isNewer other then some row else some other) none

def activeExecution (message : String) : Preflight := .ineligible ⟨"EXECUTION_ACTIVE", message⟩

def manualReview (message : String) : Preflight := .ineligible ⟨"MANUAL_REVIEW_REQUIRED", message⟩

def hasActiveAttempt (db : Db) (planId executionId : String) (now : Int) : Bool :=
  (listExecutionAttempts db planId).any fun attempt =>
    attempt.executionId = executionId && attempt.status = .running && now < attempt.leaseExpiresAt

/-- What follows a passed validation: the checkpoint and the execution are those read before it. -/
def preflightStatus (rules : Rules) (checkpoint : Checkpoint) (persisted : Option ExecutionRow)
    (executionId : Option String) (db : Db) (now : Int) : Preflight :=
  if checkpoint.status.terminalCheckpoint then
    .ineligible ⟨"EXECUTION_TERMINAL", s!"Execution checkpoint is already {checkpoint.status.text}."⟩
  else if checkpoint.status.reviewCheckpoint then
    manualReview "Execution requires review or operator action before deterministic recovery can continue."
  else if checkpoint.status = .paused &&
      persisted.any fun row => row.requiresReview || row.status = .pausedForReview then
    manualReview ("Execution is paused for review and requires operator action before " ++
      "deterministic recovery can continue.")
  else
    match executionId.bind fun id => getExecutionTimingBreach db id rules now <|>
        getExecutionContainmentBreach db id rules with
    | some breach => .ineligible ⟨breach.type, breach.message⟩
    | none => .eligible

/-- A generated execution id is that of no row. -/
def runRecoveryPreflight (rules : Rules) (plan : RecoveryPlan) : Op Preflight := do
  let checkpointPlan := plan.checkpointPlan
  if checkpointPlan.id = "" then
    pure (.unavailable ⟨"INVALID_STATE", "Execution plan requires an id for recovery."⟩)
  else do
    let db ← Session.read id
    let now ← databaseNow
    match readCheckpointRow db checkpointPlan.id with
    | none => pure (.unavailable ⟨"NOT_FOUND", s!"Execution checkpoint {checkpointPlan.id} was not found."⟩)
    | some checkpoint => do
      let persisted := latestResumable db checkpointPlan.id
      let activeLock := (activeLocks db checkpointPlan.id).head?
      let executionId := truthy (activeLock.map LockRow.executionId) <|>
        truthy (persisted.map ExecutionRow.id) <|> truthy plan.runId
      if (persisted.any fun row => row.status = .running) && hasLiveExecutionLease persisted now then
        pure (activeExecution "Execution is still active and its execution lease has not expired.")
      else if activeLock.isSome && hasActiveAttempt db checkpointPlan.id (executionId.getD "") now then
        pure (activeExecution "Execution is still active and its running attempt lease has not expired.")
      else do
        match ← validateExecutionIntegrity checkpointPlan.id (some checkpointPlan.stepIds) with
        | .error err => do
          let db ← Session.read id
          let stepIds := renormalizedIds checkpointPlan.stepIds
          pure (.ineligible ⟨deriveIntegrityFailureCode db checkpointPlan.id (some stepIds) err, err.message⟩)
        | .ok _ => do
          let db ← Session.read id
          let now ← databaseNow
          pure (preflightStatus rules checkpoint persisted executionId db now)

end Preflight

section Commit

inductive RecoveryMode where
  | resume
  | retrySafeSteps
  | operatorRecovery
  | abandon
  | markCorrupted
  | other (text : String)
  deriving DecidableEq

def RecoveryMode.ofText (text : String) : RecoveryMode :=
  if text = "resume" then .resume
  else if text = "retry_safe_steps" then .retrySafeSteps
  else if text = "operator_recovery" then .operatorRecovery
  else if text = "abandon" then .abandon
  else if text = "mark_corrupted" then .markCorrupted
  else .other text

/-- The input of `commitRecoveryPlan`; `requestedBy` is `String(requestedBy || "operator")`. -/
structure CommitRequest where
  plan : RecoveryPlan
  requestedBy : String
  dryRun : Bool

namespace CommitRequest

def executionId (request : CommitRequest) : String := trimmed request.plan.executionId

def planId (request : CommitRequest) : String := trimmed request.plan.planId

def mode (request : CommitRequest) : RecoveryMode := .ofText (trimmed request.plan.recoveryMode)

def incomplete (request : CommitRequest) : Bool :=
  request.executionId = "" || request.planId = "" || trimmed request.plan.recoveryMode = ""

def event (request : CommitRequest) (eventType : EventType) (stepId : Option String := none) : LedgerEvent where
  planId := request.planId
  executionId := some request.executionId
  stepId := stepId
  eventType := eventType

end CommitRequest

structure CommitReceipt where
  recoveryMode : RecoveryMode
  executionId : String
  planId : String
  stepId : Option String
  deriving DecidableEq

/-- `normalizeRunFromSnapshot` with the overrides of a resume. -/
def normalizeRunFromSnapshot (snapshot : RecoverySnapshot) (grant : LockGrant) : Run where
  runId := some snapshot.execution.id
  id := none
  planId := snapshot.execution.planId
  triggerSource := (truthy (some snapshot.execution.triggerSource)).getD "api"
  globalState := "running"
  reviewStatus := some "approved"
  createdAt := some snapshot.execution.createdAt
  updatedAt := none
  startedAt := snapshot.execution.startedAt
  finishedAt := none
  cancelledAt := none
  leaseOwner := truthy (some grant.workerId) <|> truthy snapshot.execution.leaseOwner
  leaseExpiresAt := some (some grant.leaseExpiresAt)
  totalAttempts := snapshot.execution.totalAttempts
  consecutiveFailures := snapshot.execution.consecutiveFailures
  noProgressAttempts := snapshot.execution.noProgressAttempts
  lastProgressAt := snapshot.execution.lastProgressAt
  stages := snapshot.stages.map StageRow.toRunStage
  steps := snapshot.steps.map fun step => step.1.toRunStep

def resumePlan (request : CommitRequest) (snapshot : RecoverySnapshot) : Tx (Option String) := do
  let grant ← orThrow (acquireOrReuseExecutionLockTx request.planId request.executionId .none)
  let _ ← orThrow (setExecutionCheckpointStatus request.planId .running {})
  let _ ← Tx.mapThrow (fun err => ⟨"RECOVERY_COMMIT_FAILED", err.message⟩)
    (persistExecutionSnapshot (normalizeRunFromSnapshot snapshot grant) {})
  let _ ← appendLedgerEventTx (request.event .recoveryResumeApplied)
  pure none

def retrySafeSteps (request : CommitRequest) : Tx (Option String) := do
  let stepId := truthy request.plan.nextStepId
  let _ ← orThrow (applyOperatorRecoveryAction request.planId request.executionId {
    action := .retryStep
    operatorId := trimmed request.requestedBy
    reason := "Committed safe recovery replay."
    stepId })
  let _ ← appendLedgerEventTx (request.event .recoveryRetrySafeStepsApplied stepId)
  pure stepId

/-- A lock that is gone or held by another execution does not stop the mode. -/
def releaseTolerantly (request : CommitRequest) : Tx Unit := do
  match ← releaseExecutionLockTx request.planId request.executionId .none with
  | .ok _ => pure ()
  | .error err => if err.code ∈ ["NOT_FOUND", "LOCK_CONFLICT"] then pure () else Library.Tx.throw err

/-- The three modes that end the execution: a checkpoint status, the release and an event. -/
def endExecution (status : Status) (eventType : EventType) (request : CommitRequest) : Tx (Option String) := do
  let _ ← orThrow (setExecutionCheckpointStatus request.planId status {})
  releaseTolerantly request
  let _ ← appendLedgerEventTx (request.event eventType)
  pure none

def operatorRecovery (request : CommitRequest) : Tx (Option String) :=
  endExecution .pauseForOperatorRecovery .recoveryOperatorRequired request

def abandonExecution (request : CommitRequest) : Tx (Option String) :=
  endExecution .executionAbandoned .recoveryExecutionAbandoned request

def markCorrupted (request : CommitRequest) : Tx (Option String) :=
  endExecution .corrupted .recoveryCorrupted request

def applyMode (request : CommitRequest) (snapshot : RecoverySnapshot) : Tx (Option String) :=
  match request.mode with
  | .resume => resumePlan request snapshot
  | .retrySafeSteps => retrySafeSteps request
  | .operatorRecovery => operatorRecovery request
  | .abandon => abandonExecution request
  | .markCorrupted => markCorrupted request
  | .other text => Library.Tx.throw ⟨"RECOVERY_MODE_NOT_IMPLEMENTED", s!"Recovery mode {text} is not implemented."⟩

/-- The transaction; `snapshot` is the one that the stale check loaded. -/
def writeRecovery (request : CommitRequest) (snapshot : RecoverySnapshot) : Tx CommitReceipt := do
  let _ ← appendLedgerEventTx (request.event .recoveryCommitStarted)
  let stepId ← applyMode request snapshot
  pure ⟨request.mode, request.executionId, request.planId, stepId⟩

/-- The columns that a resumed snapshot writes back. -/
def StepColumns.rewritten (columns : StepColumns) (pauseReason : Option String) : StepColumns where
  attemptNumber := max 0 columns.attemptNumber
  attempts := max 0 columns.attempts
  reason := truthy columns.reason <|> truthy pauseReason
  lastOutputHash := truthy columns.lastOutputHash

def rewrittenColumns (snapshot : RecoverySnapshot) (stepColumns : String × String → StepColumns)
    (key : String × String) : StepColumns :=
  match snapshot.steps.find? fun step => (snapshot.execution.id, step.1.id) = key with
  | some step => step.2.rewritten step.1.pauseReason
  | none => stepColumns key

inductive CommitPhase where
  | requested
  | checked (current : CurrentState)
  | preflighted (current : CurrentState) (preflight : Preflight)
  | refused (failure : Failure)
  | previewed
  | committed (receipt : CommitReceipt)
  deriving DecidableEq

def CommitPhase.finished : CommitPhase → Bool
  | .refused _ | .previewed | .committed _ => true
  | _ => false

/-- A `return failure(..)` after an event of its own. -/
def refuseWith (request : CommitRequest) (eventType : EventType) (failure : Failure) (env : Env)
    (store : RecoveryStore) : CommitPhase × RecoveryStore :=
  (.refused failure, { store with db := (transact (appendLedgerEvent (request.event eventType)) env store.db).2 })

def checkRecoveryPlan (digests : Digests) (request : CommitRequest) (env : Env) (store : RecoveryStore) :
    CommitPhase × RecoveryStore :=
  if request.dryRun then (.previewed, store)
  else if request.plan.staleToken = .missing then
    (.refused ⟨"MISSING_STALE_TOKEN", "Recovery commit requires a stale token from preview."⟩, store)
  else if request.incomplete then
    (.refused ⟨"INVALID_RECOVERY_PLAN", "Recovery commit requires executionId, planId, and recoveryMode."⟩, store)
  else
    match loadCurrentState store request.planId request.executionId with
    | .error err => (.refused err, store)
    | .ok current =>
      if request.plan.staleToken = .token (createRecoveryPlanHash digests current) then (.checked current, store)
      else
        refuseWith request .recoveryCommitStale
          ⟨"STALE_RECOVERY_PLAN", "Recovery plan is stale and cannot be committed."⟩ env store

def preflightSection (rules : Rules) (request : CommitRequest) (current : CurrentState) (clock : Nat → Env)
    (store : RecoveryStore) : CommitPhase × RecoveryStore :=
  let outcome := Session.run (runRecoveryPreflight rules request.plan) clock store.db
  (.preflighted current outcome.1, { store with db := outcome.2 })

/-- A throw rolls the transaction back; its event is appended after it. -/
def commitSection (request : CommitRequest) (current : CurrentState) (env : Env) (store : RecoveryStore) :
    CommitPhase × RecoveryStore :=
  match writeRecovery request current.snapshot env store.db with
  | .ok (receipt, db) =>
    (.committed receipt,
      { db
        stepColumns :=
          if request.mode = .resume then rewrittenColumns current.snapshot store.stepColumns else store.stepColumns })
  | .error err => refuseWith request .recoveryCommitFailed err env store

def decideCommit (request : CommitRequest) (current : CurrentState) (preflight : Preflight) (env : Env)
    (store : RecoveryStore) : CommitPhase × RecoveryStore :=
  match preflight with
  | .unavailable failure => refuseWith request .recoveryCommitBlocked failure env store
  | .ineligible failure =>
    refuseWith request
      (if failure.code = "MANUAL_REVIEW_REQUIRED" then .recoveryOperatorRequired else .recoveryCommitBlocked)
      failure env store
  | .eligible =>
    if previewBlocked request.plan current && request.mode ∉ [.operatorRecovery, .abandon, .markCorrupted] then
      refuseWith request .recoveryCommitBlocked
        ⟨"RECOVERY_COMMIT_BLOCKED", "Recovery preview indicates replay is blocked."⟩ env store
    else commitSection request current env store

/-- `commitRecoveryPlan`, one section a turn. -/
def advanceCommit (digests : Digests) (rules : Rules) (request : CommitRequest) (clock : Nat → Env)
    (phase : CommitPhase) (store : RecoveryStore) : CommitPhase × RecoveryStore :=
  match phase with
  | .requested => checkRecoveryPlan digests request (clock 0) store
  | .checked current => preflightSection rules request current clock store
  | .preflighted current preflight => decideCommit request current preflight (clock 0) store
  | finished => (finished, store)

abbrev CommitRun := Interleaving CommitPhase RecoveryStore

def CommitRun.step (digests : Digests) (rules : Rules) (request : CommitRequest) :
    Turn (Nat → Env) RecoveryStore → CommitRun → CommitRun :=
  Interleaving.step (advanceCommit digests rules request) CommitPhase.finished

end Commit

end CommandConsole.Execution
