import CommandConsole.Library.Table
import CommandConsole.Library.Transaction

/-! # The execution tables of the state database

Rows hold the columns that the modelled code reads or decides on. Instants are
milliseconds: the TEXT timestamps are fixed-width ISO strings, whose order is
the order of the instants. A ledger row keeps the one payload field that is read
back, the stage id; the list position of a ledger row is its autoincrement id.
-/
namespace CommandConsole.Execution
open Library
set_option autoImplicit false

/-- The statuses that the `status` columns hold. -/
inductive Status where
  | pending
  | running
  | paused
  | pausedForReview
  | awaitingReview
  | pauseForOperatorRecovery
  | completed
  | cancelled
  | failed
  | executionAbandoned
  | corrupted
  deriving DecidableEq

inductive AttemptStatus where
  | pending
  | running
  | completed
  | failed
  | cancelled
  | abandoned
  deriving DecidableEq

/-- The set `SIDE_EFFECT_CLASSES`, and any other text a plan may name. -/
inductive SideEffectClass where
  | pureRead
  | localWrite
  | externalWrite
  | destructive
  | networkCall
  | humanReview
  | unknown
  | other (text : String)
  deriving DecidableEq

inductive EventType where
  | executionCreated
  | executionStarted
  | executionCompleted
  | executionFailed
  | executionCancelled
  | executionAbandoned
  | executionCorrupted
  | executionPaused
  | stageStarted
  | stageResumed
  | stageCompleted
  | stageFailed
  | stagePausedForReview
  | attemptStarted
  | attemptHeartbeat
  | attempt (status : AttemptStatus)
  | leaseAcquired
  | leaseRenewed
  | leaseReleased
  | leaseConflict
  | recoveryEnqueued
  | recoveryExpired
  | recoveryAmbiguous
  | recoveryPending
  | reviewRequested
  | operatorRetryRequested
  | recoveryCommitStale
  | recoveryCommitBlocked
  | recoveryCommitStarted
  | recoveryCommitFailed
  | recoveryOperatorRequired
  | recoveryResumeApplied
  | recoveryRetrySafeStepsApplied
  | recoveryExecutionAbandoned
  | recoveryCorrupted
  deriving DecidableEq

structure ExecutionRow where
  id : String
  planId : Option String
  status : Status
  triggerSource : String
  requiresReview : Bool
  createdAt : Int
  startedAt : Option Int
  finishedAt : Option Int
  cancelledAt : Option Int
  leaseOwner : Option String
  leaseExpiresAt : Option Int
  totalAttempts : Nat
  consecutiveFailures : Nat
  noProgressAttempts : Nat
  lastProgressAt : Option Int
  lastUpdatedAt : Int
  deriving DecidableEq

/-- A row of `execution_state`. -/
structure Checkpoint where
  planId : String
  planVersion : Option String
  currentStep : Int
  status : Status
  lastCompletedStepIndex : Int
  cancellationRequested : Bool
  updatedAt : Int
  deriving DecidableEq

structure LockRow where
  tenantId : Option String
  workspaceId : Option String
  planId : String
  executionId : String
  workerId : String
  lockAcquiredAt : Int
  heartbeatAt : Option Int
  leaseExpiresAt : Option Int
  lockReleasedAt : Option Int
  createdAt : Int
  deriving DecidableEq

structure AttemptRow where
  planId : String
  executionId : String
  stepId : String
  attemptNumber : Int
  status : AttemptStatus
  sideEffectClass : SideEffectClass
  idempotencyKey : Option String
  workerId : String
  heartbeatAt : Int
  leaseExpiresAt : Int
  createdAt : Int
  updatedAt : Int
  completedAt : Option Int
  deriving DecidableEq

structure LedgerRow where
  planId : String
  executionId : Option String
  stepId : Option String
  attemptNumber : Option Int
  eventType : EventType
  stageId : Option String
  createdAt : Int
  deriving DecidableEq

/-- A row of `execution_recovery_queue`. -/
structure RecoveryRow where
  planId : String
  executionId : String
  stepId : Option String
  reason : String
  lastState : Status
  safeOptions : List String
  recommended : Option String
  createdAt : Int
  expiresAtMs : Int
  resolvedAt : Option Int
  deriving DecidableEq

structure StepRow where
  id : String
  executionId : String
  stageId : Option String
  sequence : Int
  status : Status
  kind : String
  dependsOnStepIds : List String
  blocking : Bool
  pauseReason : Option String
  deferred : Bool
  blockReason : Option String
  reviewAcknowledged : Bool
  createdAt : Int
  startedAt : Option Int
  finishedAt : Option Int
  errorCode : Option String
  errorMessage : Option String
  errorType : Option String
  deriving DecidableEq

structure StageRow where
  id : String
  executionId : String
  sequence : Int
  name : String
  status : Status
  requiresReview : Bool
  pauseReason : Option String
  createdAt : Int
  startedAt : Option Int
  finishedAt : Option Int
  lastUpdatedAt : Int
  deriving DecidableEq

def AttemptRow.key (row : AttemptRow) : String × String × String × Int :=
  (row.planId, row.executionId, row.stepId, row.attemptNumber)

def StepRow.key (row : StepRow) : String × String := (row.executionId, row.id)

/-- UNIQUE (execution_id, sequence). -/
def StepRow.position (row : StepRow) : Option (String × Int) := some (row.executionId, row.sequence)

def StageRow.key (row : StageRow) : String × String := (row.executionId, row.id)

def StageRow.position (row : StageRow) : Option (String × Int) := some (row.executionId, row.sequence)

/-- `schemaVersion` is the `execution_state` entry of `schema_metadata`. -/
structure Db where
  executions : PlainTable ExecutionRow.id
  executionState : PlainTable Checkpoint.planId
  executionLocks : PlainTable LockRow.planId
  executionAttempts : Table AttemptRow.key AttemptRow.idempotencyKey
  executionLedger : List LedgerRow
  executionRecoveryQueue : List RecoveryRow
  executionSteps : Table StepRow.key StepRow.position
  executionStages : Table StageRow.key StageRow.position
  schemaVersion : Nat

def Db.empty : Db where
  executions := .empty
  executionState := .empty
  executionLocks := .empty
  executionAttempts := .empty
  executionLedger := []
  executionRecoveryQueue := []
  executionSteps := .empty
  executionStages := .empty
  schemaVersion := 1

@[simps] def Db.updateExecution (db : Db) (executionId : String) (change : ExecutionRow → ExecutionRow)
    (hKey : ∀ row, (change row).id = row.id) : Db :=
  { db with executions := db.executions.update (fun row => row.id = executionId) change hKey }

@[simps] def Db.putLock (db : Db) (row : LockRow) : Db :=
  { db with executionLocks := PlainTable.put db.executionLocks row }

@[simps] def Db.updateLock (db : Db) (planId executionId : String) (change : LockRow → LockRow)
    (hKey : ∀ row, (change row).planId = row.planId) : Db :=
  { db with
    executionLocks := db.executionLocks.update
      (fun row => row.planId = planId ∧ row.executionId = executionId) change hKey }

@[simps] def Db.putCheckpoint (db : Db) (row : Checkpoint) : Db :=
  { db with executionState := PlainTable.put db.executionState row }

@[simps] def Db.updateAttempts (db : Db) (test : AttemptRow → Bool) (change : AttemptRow → AttemptRow)
    (hKey : ∀ row, (change row).key = row.key)
    (hAlt : ∀ row, (change row).idempotencyKey = row.idempotencyKey) : Db :=
  { db with executionAttempts := db.executionAttempts.update test change hKey hAlt }

@[simps] def Db.log (db : Db) (row : LedgerRow) : Db :=
  { db with executionLedger := db.executionLedger ++ [row] }

/-- The database clock of one transaction and the worker that runs it. -/
structure Env where
  nowMs : Int
  workerId : String

structure Failure where
  code : String
  message : String
  deriving DecidableEq

/-- What an operation returns: `{ ok: true, data }` or `{ ok: false, code, message }`. -/
abbrev Result (α : Type) := Except Failure α

abbrev Tx (α : Type) := Library.Tx Env Failure Db α

def success {α : Type} (data : α) : Tx (Result α) := pure (.ok data)

/-- A returned failure: what the transaction wrote before it stays. -/
def failure {α : Type} (code message : String) : Tx (Result α) := pure (.error ⟨code, message⟩)

/-- The `catch` of an operation that runs inside its caller's transaction. -/
def caught {α : Type} (work : Tx (Result α)) : Tx (Result α) := fun env db =>
  match work env db with
  | .ok outcome => .ok outcome
  | .error err => .ok (.error ⟨"DB_WRITE_FAILED", err.message⟩, db)

/-- `if (!result.ok) throwTransactionalFailure(result, ..)`. -/
def orThrow {α : Type} (work : Tx (Result α)) : Tx α := do
  match ← work with
  | .ok data => pure data
  | .error err => Library.Tx.throw err

theorem orThrow_eq_ok {α : Type} {work : Tx (Result α)} {env : Env} {db db' : Db} {data : α} :
    orThrow work env db = .ok (data, db') ↔ work env db = .ok (.ok data, db') := by
  unfold orThrow
  rw [Library.Tx.bind_eq_ok]
  constructor
  · rintro ⟨result, next, hWork, hRest⟩
    cases result with
    | error err => cases hRest
    | ok value =>
      cases hRest
      exact hWork
  · intro h
    exact ⟨.ok data, db', h, rfl⟩

/-- An operation as its own transaction. -/
def transact {α : Type} (work : Tx (Result α)) (env : Env) (db : Db) : Result α × Db :=
  match Library.Tx.commit work env db with
  | (.ok result, db') => (result, db')
  | (.error err, db') => (.error err, db')

theorem transact_of_ok {α : Type} {work : Tx (Result α)} {env : Env} {db db' : Db} {result : Result α}
    (h : work env db = .ok (result, db')) : transact work env db = (result, db') := by
  unfold transact Tx.commit
  rw [h]

theorem transact_of_throw {α : Type} {work : Tx (Result α)} {env : Env} {db : Db} {err : Failure}
    (h : work env db = .error err) : transact work env db = (.error err, db) := by
  unfold transact Tx.commit
  rw [h]

end CommandConsole.Execution
