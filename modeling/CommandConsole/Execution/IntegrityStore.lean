import CommandConsole.Execution.Text
import Mathlib.Data.List.Sort

/-! # Locks, attempts, ledger and recovery queue

The operations of the integrity store, each as the statements it runs inside a
transaction. A transaction reads the database clock once.
-/
namespace CommandConsole.Execution
open Library
set_option autoImplicit false

def leaseDurationMs : Int := 30000

def executionStateSchemaVersion : Nat := 1

def operatorRecoveryTtlMs : Int := 86400000

structure TenantScope where
  tenantId : Option String
  workspaceId : Option String

/-- `normalizeTenantScope(null)`. -/
def TenantScope.none : TenantScope := ⟨.none, .none⟩

/-- `scope.tenantId && row.tenantId && row.tenantId !== scope.tenantId`. -/
def TenantScope.excludes (scope : TenantScope) (tenantId : Option String) : Bool :=
  match scope.tenantId, tenantId with
  | some wanted, some held => wanted ≠ "" && held ≠ "" && held ≠ wanted
  | _, _ => false

structure LedgerEvent where
  planId : String
  executionId : Option String := none
  stepId : Option String := none
  attemptNumber : Option Int := none
  eventType : EventType
  stageId : Option String := none

def LedgerEvent.toRow (event : LedgerEvent) (now : Int) : LedgerRow where
  planId := event.planId
  executionId := event.executionId
  stepId := event.stepId
  attemptNumber := event.attemptNumber
  eventType := event.eventType
  stageId := event.stageId
  createdAt := now

def ensureIdentity (planId executionId : String) : Option Failure :=
  if isBlank planId then some ⟨"INVALID_STATE", "planId is required."⟩
  else if isBlank executionId then some ⟨"INVALID_STATE", "executionId is required."⟩
  else none

/-- The identity check that comes before the transaction of an operation. -/
def identified {α : Type} (planId executionId : String) (work : Tx (Result α)) : Tx (Result α) :=
  match ensureIdentity planId executionId with
  | some err => pure (.error err)
  | none => work

def leasedExecutionRow (leaseOwner : Option String) (leaseExpiresAt : Option Int) (row : ExecutionRow) :
    ExecutionRow :=
  { row with leaseOwner := leaseOwner, leaseExpiresAt := leaseExpiresAt }

theorem leasedExecutionRow_id (leaseOwner : Option String) (leaseExpiresAt : Option Int)
    (row : ExecutionRow) : (leasedExecutionRow leaseOwner leaseExpiresAt row).id = row.id := rfl

def Db.syncLease (db : Db) (executionId : String) (leaseOwner : Option String)
    (leaseExpiresAt : Option Int) : Db :=
  if isBlank executionId then db
  else
    db.updateExecution executionId (leasedExecutionRow leaseOwner leaseExpiresAt)
      (leasedExecutionRow_id leaseOwner leaseExpiresAt)

section SyncLease

variable (db : Db) (executionId : String) (owner : Option String) (expires : Option Int)

@[simp] theorem Db.syncLease_executionState : (db.syncLease executionId owner expires).executionState = db.executionState := by
  unfold Db.syncLease
  split <;> rfl

@[simp] theorem Db.syncLease_executionLocks : (db.syncLease executionId owner expires).executionLocks = db.executionLocks := by
  unfold Db.syncLease
  split <;> rfl

@[simp] theorem Db.syncLease_executionLedger : (db.syncLease executionId owner expires).executionLedger = db.executionLedger := by
  unfold Db.syncLease
  split <;> rfl

@[simp] theorem Db.syncLease_executionRecoveryQueue : (db.syncLease executionId owner expires).executionRecoveryQueue = db.executionRecoveryQueue := by
  unfold Db.syncLease
  split <;> rfl

end SyncLease

def syncExecutionLeaseTx (executionId : String) (leaseOwner : Option String)
    (leaseExpiresAt : Option Int) : Tx Unit :=
  Tx.modify fun db => db.syncLease executionId leaseOwner leaseExpiresAt

/-- The `updates` of `touchExecutionAttemptMetricsTx`; an absent one keeps its column. -/
structure MetricUpdates where
  totalAttempts : Option Nat := none
  consecutiveFailures : Option Nat := none
  noProgressAttempts : Option Nat := none
  lastProgressAt : Option Int := none

def MetricUpdates.apply (updates : MetricUpdates) (row : ExecutionRow) : ExecutionRow :=
  { row with
    totalAttempts := updates.totalAttempts.getD row.totalAttempts
    consecutiveFailures := updates.consecutiveFailures.getD row.consecutiveFailures
    noProgressAttempts := updates.noProgressAttempts.getD row.noProgressAttempts
    lastProgressAt := updates.lastProgressAt <|> row.lastProgressAt }

theorem MetricUpdates.apply_id (updates : MetricUpdates) (row : ExecutionRow) :
    (updates.apply row).id = row.id := rfl

def Db.touchMetrics (db : Db) (executionId : String) (updates : MetricUpdates) : Db :=
  if isBlank executionId then db else db.updateExecution executionId updates.apply updates.apply_id

section TouchMetrics

variable (db : Db) (executionId : String) (updates : MetricUpdates)

@[simp] theorem Db.touchMetrics_executionAttempts : (db.touchMetrics executionId updates).executionAttempts = db.executionAttempts := by
  unfold Db.touchMetrics
  split <;> rfl

@[simp] theorem Db.touchMetrics_executionLedger : (db.touchMetrics executionId updates).executionLedger = db.executionLedger := by
  unfold Db.touchMetrics
  split <;> rfl

end TouchMetrics

def touchExecutionAttemptMetricsTx (executionId : String) (updates : MetricUpdates) : Tx Unit :=
  Tx.modify fun db => db.touchMetrics executionId updates

def appendLedgerEventTx (event : LedgerEvent) : Tx Int := do
  let env ← Tx.ask
  Tx.modify fun db => db.log (event.toRow env.nowMs)
  pure env.nowMs

def appendLedgerEvent (event : LedgerEvent) : Tx (Result Int) :=
  if isBlank event.planId then
    failure "INVALID_STATE" "planId is required for execution ledger events."
  else do
    let createdAt ← appendLedgerEventTx event
    success createdAt

structure LockGrant where
  planId : String
  executionId : String
  workerId : String
  lockAcquiredAt : Option Int
  heartbeatAt : Int
  leaseExpiresAt : Int
  lockReleasedAt : Option Int
  deriving DecidableEq

def lockConflictTx (planId executionId message : String) : Tx (Result LockGrant) := do
  let _ ← appendLedgerEventTx { planId, executionId := some executionId, eventType := .leaseConflict }
  failure "LOCK_CONFLICT" message

/-- The row that an acquire call writes; ON CONFLICT leaves `created_at` as it is. -/
def acquiredLockRow (planId executionId : String) (scope : TenantScope) (env : Env)
    (existing : Option LockRow) : LockRow where
  tenantId := scope.tenantId
  workspaceId := scope.workspaceId
  planId := planId
  executionId := executionId
  workerId := env.workerId
  lockAcquiredAt := env.nowMs
  heartbeatAt := some env.nowMs
  leaseExpiresAt := some (env.nowMs + leaseDurationMs)
  lockReleasedAt := none
  createdAt := (existing.map LockRow.createdAt).getD env.nowMs

def writeAcquiredLockTx (planId executionId : String) (scope : TenantScope) (existing : Option LockRow)
    (eventType : EventType) : Tx (Result LockGrant) := do
  let env ← Tx.ask
  Tx.modify fun db => db.putLock (acquiredLockRow planId executionId scope env existing)
  syncExecutionLeaseTx executionId (some env.workerId) (some (env.nowMs + leaseDurationMs))
  let _ ← appendLedgerEventTx { planId, executionId := some executionId, eventType }
  success {
    planId, executionId, workerId := env.workerId, lockAcquiredAt := some env.nowMs
    heartbeatAt := env.nowMs, leaseExpiresAt := env.nowMs + leaseDurationMs, lockReleasedAt := none }

def acquireExecutionLockTx (planId executionId : String) (scope : TenantScope) :
    Tx (Result LockGrant) := identified planId executionId do
  let db ← Tx.get
  match db.executionLocks.find? planId with
  | none => writeAcquiredLockTx planId executionId scope none .leaseAcquired
  | some existing =>
    if existing.lockReleasedAt = none then
      lockConflictTx planId executionId
        s!"Execution lock already held for plan {planId} by execution {existing.executionId}."
    else writeAcquiredLockTx planId executionId scope (some existing) .leaseAcquired

def acquireOrReuseExecutionLockTx (planId executionId : String) (scope : TenantScope) :
    Tx (Result LockGrant) := identified planId executionId do
  let db ← Tx.get
  match db.executionLocks.find? planId with
  | none => writeAcquiredLockTx planId executionId scope none .leaseAcquired
  | some existing =>
    if existing.lockReleasedAt = none ∧ existing.executionId ≠ executionId then
      lockConflictTx planId executionId
        s!"Execution lock already held for plan {planId} by execution {existing.executionId}."
    else
      writeAcquiredLockTx planId executionId scope (some existing)
        (if existing.lockReleasedAt = none then .leaseRenewed else .leaseAcquired)

def renewedLockRow (now : Int) (row : LockRow) : LockRow :=
  { row with heartbeatAt := some now, leaseExpiresAt := some (now + leaseDurationMs) }

def releasedLockRow (now : Int) (row : LockRow) : LockRow :=
  { row with heartbeatAt := some now, leaseExpiresAt := some now, lockReleasedAt := some now }

theorem renewedLockRow_planId (now : Int) (row : LockRow) : (renewedLockRow now row).planId = row.planId := rfl

theorem releasedLockRow_planId (now : Int) (row : LockRow) :
    (releasedLockRow now row).planId = row.planId := rfl

def renewExecutionLockTx (planId executionId : String) (scope : TenantScope) :
    Tx (Result LockGrant) := do
  let env ← Tx.ask
  let db ← Tx.get
  match db.executionLocks.find? planId with
  | none => failure "NOT_FOUND" s!"Execution lock {planId} was not found."
  | some existing =>
    if scope.excludes existing.tenantId then
      failure "LOCK_CONFLICT"
        s!"Execution lock {planId} is not owned by tenant {scope.tenantId.getD default}."
    else if existing.executionId ≠ executionId then
      lockConflictTx planId executionId
        s!"Execution lock for plan {planId} belongs to execution {existing.executionId}."
    else if existing.lockReleasedAt ≠ none then
      failure "LOCK_RELEASED" s!"Execution lock {planId} has already been released."
    else if existing.workerId ≠ env.workerId then
      lockConflictTx planId executionId s!"Execution lock {planId} is owned by a different worker."
    else do
      let leaseExpiresAt := env.nowMs + leaseDurationMs
      Tx.modify fun db =>
        db.updateLock planId executionId (renewedLockRow env.nowMs) (renewedLockRow_planId env.nowMs)
      syncExecutionLeaseTx executionId (some env.workerId) (some leaseExpiresAt)
      let _ ← appendLedgerEventTx { planId, executionId := some executionId, eventType := .leaseRenewed }
      success {
        planId, executionId, workerId := env.workerId, lockAcquiredAt := none
        heartbeatAt := env.nowMs, leaseExpiresAt, lockReleasedAt := none }

def releaseExecutionLockTx (planId executionId : String) (scope : TenantScope) :
    Tx (Result LockGrant) := do
  let env ← Tx.ask
  let db ← Tx.get
  match db.executionLocks.find? planId with
  | none => failure "NOT_FOUND" s!"Execution lock {planId} was not found."
  | some existing =>
    if scope.excludes existing.tenantId then
      failure "LOCK_CONFLICT"
        s!"Execution lock {planId} is not owned by tenant {scope.tenantId.getD default}."
    else if existing.executionId ≠ executionId then
      failure "LOCK_CONFLICT"
        s!"Execution lock for plan {planId} belongs to execution {existing.executionId}."
    else do
      -- neither `existing.workerId` nor the lease is consulted
      Tx.modify fun db =>
        db.updateLock planId executionId (releasedLockRow env.nowMs) (releasedLockRow_planId env.nowMs)
      syncExecutionLeaseTx executionId none none
      let _ ← appendLedgerEventTx { planId, executionId := some executionId, eventType := .leaseReleased }
      success {
        planId, executionId, workerId := existing.workerId, lockAcquiredAt := none
        heartbeatAt := env.nowMs, leaseExpiresAt := env.nowMs, lockReleasedAt := some env.nowMs }

def renewExecutionLock (planId executionId : String) (scope : TenantScope) : Tx (Result LockGrant) :=
  identified planId executionId (renewExecutionLockTx planId executionId scope)

def releaseExecutionLock (planId executionId : String) (scope : TenantScope) : Tx (Result LockGrant) :=
  identified planId executionId (releaseExecutionLockTx planId executionId scope)

/-- The UPDATE of a renewal and the mirror and ledger writes after it. -/
def renewedDb (planId executionId : String) (env : Env) (db : Db) : Db :=
  ((db.updateLock planId executionId (renewedLockRow env.nowMs)
      (renewedLockRow_planId env.nowMs)).syncLease executionId (some env.workerId)
    (some (env.nowMs + leaseDurationMs))).log
      (LedgerEvent.toRow { planId, executionId := some executionId, eventType := .leaseRenewed } env.nowMs)

/-- The UPDATE of a release and the mirror and ledger writes after it. -/
def releasedDb (planId executionId : String) (env : Env) (db : Db) : Db :=
  ((db.updateLock planId executionId (releasedLockRow env.nowMs)
      (releasedLockRow_planId env.nowMs)).syncLease executionId none none).log
      (LedgerEvent.toRow { planId, executionId := some executionId, eventType := .leaseReleased } env.nowMs)

def listExecutionLocks (db : Db) (planId : String) : List LockRow :=
  db.executionLocks.rows.filter fun row => row.planId = planId

def listLedgerEvents (db : Db) (planId : String) : List LedgerRow :=
  db.executionLedger.filter fun row => row.planId = planId

/-- ORDER BY created_at, id. -/
def listExecutionAttempts (db : Db) (planId : String) : List AttemptRow :=
  (db.executionAttempts.rows.filter fun row => row.planId = planId).insertionSort
    fun left right => left.createdAt ≤ right.createdAt

def listRecoveryQueue (db : Db) (planId : String) : List RecoveryRow :=
  (db.executionRecoveryQueue.filter fun row => row.planId = planId).insertionSort
    fun left right => left.createdAt ≤ right.createdAt

/-- COALESCE(MAX(attempt_number), 0). -/
def maxAttempt (db : Db) (planId executionId stepId : String) : Int :=
  ((db.executionAttempts.rows.filter fun row =>
      row.planId = planId ∧ row.executionId = executionId ∧ row.stepId = stepId).map
    AttemptRow.attemptNumber).max?.getD 0

def resolveIdempotencyKey (planId executionId stepId : String) (attemptNumber : Int)
    (sideEffectClass : SideEffectClass) (idempotencyKey : Option String) : Option String :=
  match idempotencyKey with
  | some key => some key
  | none =>
    if sideEffectClass = .externalWrite then some s!"{planId}:{executionId}:{stepId}:{attemptNumber}"
    else none

/-- `normalizeSideEffectClass`. -/
def SideEffectClass.normalized : SideEffectClass → SideEffectClass
  | .other _ => .unknown
  | known => known

def startedAttemptRow (planId executionId stepId : String) (attemptNumber : Int)
    (sideEffectClass : SideEffectClass) (idempotencyKey : Option String) (env : Env) : AttemptRow where
  planId := planId
  executionId := executionId
  stepId := stepId
  attemptNumber := attemptNumber
  status := .running
  sideEffectClass := sideEffectClass
  idempotencyKey := idempotencyKey
  workerId := env.workerId
  heartbeatAt := env.nowMs
  leaseExpiresAt := env.nowMs + leaseDurationMs
  createdAt := env.nowMs
  updatedAt := env.nowMs
  completedAt := none

def createExecutionAttempt (planId executionId stepId : String) (sideEffectClass : SideEffectClass)
    (idempotencyKey : Option String) : Tx (Result AttemptRow) :=
  identified planId executionId <|
    if isBlank stepId then failure "INVALID_STATE" "stepId is required."
    else caught do
      let env ← Tx.ask
      let db ← Tx.get
      let attemptNumber := maxAttempt db planId executionId stepId + 1
      let sideEffectClass := sideEffectClass.normalized
      let row := startedAttemptRow planId executionId stepId attemptNumber sideEffectClass
        (resolveIdempotencyKey planId executionId stepId attemptNumber sideEffectClass idempotencyKey) env
      Tx.write fun db =>
        match db.executionAttempts.insert row with
        | some executionAttempts => .ok { db with executionAttempts := executionAttempts }
        | none => .error ⟨"DB_WRITE_FAILED", "UNIQUE constraint failed: execution_attempts"⟩
      touchExecutionAttemptMetricsTx executionId {
        totalAttempts := some (((db.executions.find? executionId).map ExecutionRow.totalAttempts).getD 0 + 1) }
      let _ ← appendLedgerEventTx {
        planId, executionId := some executionId, stepId := some stepId
        attemptNumber := some attemptNumber, eventType := .attemptStarted }
      success row

/-- The WHERE clause of the attempt updates. -/
def AttemptRow.isAt (row : AttemptRow) (planId executionId stepId : String) (attemptNumber : Int) :
    Bool :=
  row.key = (planId, executionId, stepId, attemptNumber)

def AttemptRow.isRunningAt (row : AttemptRow) (planId executionId stepId : String)
    (attemptNumber : Int) : Bool :=
  row.isAt planId executionId stepId attemptNumber && row.status = .running

def heartbeatAttemptRow (now : Int) (row : AttemptRow) : AttemptRow :=
  { row with heartbeatAt := now, leaseExpiresAt := now + leaseDurationMs, updatedAt := now }

theorem heartbeatAttemptRow_key (now : Int) (row : AttemptRow) :
    (heartbeatAttemptRow now row).key = row.key := by
  simp only [AttemptRow.key, heartbeatAttemptRow]

theorem heartbeatAttemptRow_idempotencyKey (now : Int) (row : AttemptRow) :
    (heartbeatAttemptRow now row).idempotencyKey = row.idempotencyKey := rfl

/-- Returns a failed lock renewal after the attempt row was touched, and commits that row. -/
def heartbeatExecutionAttempt (planId executionId stepId : String) (attemptNumber : Int) :
    Tx (Result AttemptRow) := identified planId executionId do
  let env ← Tx.ask
  let db ← Tx.get
  let running := fun row : AttemptRow => row.isRunningAt planId executionId stepId attemptNumber
  match db.executionAttempts.rows.find? running with
  | none => failure "NOT_FOUND" "Running attempt not found."
  | some attempt =>
    Tx.modify fun db => db.updateAttempts running (heartbeatAttemptRow env.nowMs)
      (heartbeatAttemptRow_key env.nowMs) (heartbeatAttemptRow_idempotencyKey env.nowMs)
    match ← renewExecutionLockTx planId executionId .none with
    | .error err => pure (.error err)
    | .ok _ =>
      let _ ← appendLedgerEventTx {
        planId, executionId := some executionId, stepId := some stepId
        attemptNumber := some attemptNumber, eventType := .attemptHeartbeat }
      success (heartbeatAttemptRow env.nowMs attempt)

/-- The UPDATE of a heartbeat. -/
def stampedDb (planId executionId stepId : String) (attemptNumber : Int) (env : Env) (db : Db) : Db :=
  db.updateAttempts (fun row => row.isRunningAt planId executionId stepId attemptNumber) (heartbeatAttemptRow env.nowMs)
    (heartbeatAttemptRow_key env.nowMs) (heartbeatAttemptRow_idempotencyKey env.nowMs)

def finalizedAttemptRow (status : AttemptStatus) (now : Int) (row : AttemptRow) : AttemptRow :=
  { row with
    status := status, updatedAt := now, completedAt := some now, leaseExpiresAt := now, heartbeatAt := now }

theorem finalizedAttemptRow_key (status : AttemptStatus) (now : Int) (row : AttemptRow) :
    (finalizedAttemptRow status now row).key = row.key := by
  simp only [AttemptRow.key, finalizedAttemptRow]

theorem finalizedAttemptRow_idempotencyKey (status : AttemptStatus) (now : Int) (row : AttemptRow) :
    (finalizedAttemptRow status now row).idempotencyKey = row.idempotencyKey := rfl

/-- What finalizing an attempt adds to the metrics of its execution. -/
def finalizedMetrics (status : AttemptStatus) (now : Int) (execution : Option ExecutionRow) :
    Option MetricUpdates :=
  match status with
  | .completed =>
    some { consecutiveFailures := some 0, noProgressAttempts := some 0, lastProgressAt := some now }
  | .failed => some {
      consecutiveFailures := some ((execution.map ExecutionRow.consecutiveFailures).getD 0 + 1)
      noProgressAttempts := some ((execution.map ExecutionRow.noProgressAttempts).getD 0 + 1) }
  | _ => none

/-- The UPDATE names the attempt by its key alone, whatever its status is. -/
def finalizeAttempt (planId executionId stepId : String) (attemptNumber : Int) (status : AttemptStatus) :
    Tx (Result AttemptRow) := identified planId executionId do
  let env ← Tx.ask
  let db ← Tx.get
  match db.executionAttempts.find? (planId, executionId, stepId, attemptNumber) with
  | none => failure "NOT_FOUND" "Execution attempt not found."
  | some attempt =>
    Tx.modify fun db =>
      db.updateAttempts (fun row => row.isAt planId executionId stepId attemptNumber)
        (finalizedAttemptRow status env.nowMs) (finalizedAttemptRow_key status env.nowMs)
        (finalizedAttemptRow_idempotencyKey status env.nowMs)
    match finalizedMetrics status env.nowMs (db.executions.find? executionId) with
    | some updates => touchExecutionAttemptMetricsTx executionId updates
    | none => pure ()
    let _ ← appendLedgerEventTx {
      planId, executionId := some executionId, stepId := some stepId
      attemptNumber := some attemptNumber, eventType := .attempt status }
    success (finalizedAttemptRow status env.nowMs attempt)

def completeExecutionAttempt (planId executionId stepId : String) (attemptNumber : Int) :
    Tx (Result AttemptRow) := finalizeAttempt planId executionId stepId attemptNumber .completed

def failExecutionAttempt (planId executionId stepId : String) (attemptNumber : Int) :
    Tx (Result AttemptRow) := finalizeAttempt planId executionId stepId attemptNumber .failed

def cancelExecutionAttempt (planId executionId stepId : String) (attemptNumber : Int) :
    Tx (Result AttemptRow) := finalizeAttempt planId executionId stepId attemptNumber .cancelled

/-- The arguments of `enqueueOperatorRecovery`. -/
structure RecoveryRequest where
  planId : String
  executionId : String
  stepId : Option String
  reason : String
  lastState : Status
  safeOptions : List String
  recommended : Option String
  ttlMs : Int

def RecoveryRequest.toRow (request : RecoveryRequest) (now : Int) : RecoveryRow where
  planId := request.planId
  executionId := request.executionId
  stepId := request.stepId
  reason := request.reason
  lastState := request.lastState
  safeOptions := request.safeOptions
  recommended := request.recommended
  createdAt := now
  expiresAtMs := now + max 1 (if request.ttlMs = 0 then operatorRecoveryTtlMs else request.ttlMs)
  resolvedAt := none

def enqueueOperatorRecovery (request : RecoveryRequest) : Tx (Result RecoveryRow) :=
  identified request.planId request.executionId <|
    if isBlank request.reason then failure "INVALID_STATE" "reason is required."
    else do
      let env ← Tx.ask
      Tx.modify fun db =>
        { db with executionRecoveryQueue := db.executionRecoveryQueue ++ [request.toRow env.nowMs] }
      let _ ← appendLedgerEventTx {
        planId := request.planId, executionId := some request.executionId, stepId := request.stepId
        eventType := .recoveryEnqueued }
      success (request.toRow env.nowMs)

def RecoveryRow.expired (row : RecoveryRow) (planId : String) (now : Int) : Bool :=
  row.planId = planId ∧ row.resolvedAt = none ∧ row.expiresAtMs ≤ now

def expiredEvent (row : RecoveryRow) : LedgerEvent where
  planId := row.planId
  executionId := some row.executionId
  stepId := row.stepId
  eventType := .recoveryExpired

def expireOperatorRecoveryItems (planId : String) : Tx (Result (List RecoveryRow)) := do
  let env ← Tx.ask
  let db ← Tx.get
  let rows := db.executionRecoveryQueue.filter fun row => row.expired planId env.nowMs
  Tx.modify fun db =>
    { db with
      executionRecoveryQueue := db.executionRecoveryQueue.map fun row =>
        if row.expired planId env.nowMs then { row with resolvedAt := some env.nowMs } else row
      executionLedger := db.executionLedger ++ rows.map fun row => (expiredEvent row).toRow env.nowMs }
  success rows

def expiredRows (planId : String) (now : Int) (db : Db) : List RecoveryRow :=
  db.executionRecoveryQueue.filter fun row => row.expired planId now

/-- What an expiry transaction leaves. -/
@[simps] def expiredDb (planId : String) (now : Int) (db : Db) : Db :=
  { db with
    executionRecoveryQueue := db.executionRecoveryQueue.map fun row =>
      if row.expired planId now then { row with resolvedAt := some now } else row
    executionLedger := db.executionLedger ++
      (expiredRows planId now db).map fun row => (expiredEvent row).toRow now }

theorem expireOperatorRecoveryItems_apply (planId : String) (env : Env) (db : Db) :
    expireOperatorRecoveryItems planId env db =
      .ok (.ok (expiredRows planId env.nowMs db), expiredDb planId env.nowMs db) := rfl

end CommandConsole.Execution
