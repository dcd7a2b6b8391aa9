import CommandConsole.Execution.IntegrityStore
import CommandConsole.Library.Run

/-! # What one lock operation does to the lock row of a plan

The five operations are calls of one type. A call leaves the lock row of its
plan unchanged, grants it, renews its lease or releases it, and never touches
the lock row of another plan.
-/
namespace CommandConsole.Execution
open Library
set_option autoImplicit false

def Db.lockOf (db : Db) (planId : String) : Option LockRow := db.executionLocks.find? planId

theorem lockOf_putLock (db : Db) (row : LockRow) (planId : String) :
    (db.putLock row).lockOf planId = if planId = row.planId then some row else db.lockOf planId :=
  PlainTable.find?_put db.executionLocks row planId

theorem lockOf_updateLock (db : Db) (planId executionId : String) (change : LockRow → LockRow)
    (hKey : ∀ row, (change row).planId = row.planId) (other : String) :
    (db.updateLock planId executionId change hKey).lockOf other =
      (db.lockOf other).map fun row =>
        if row.planId = planId ∧ row.executionId = executionId then change row else row := by
  have h := Table.find?_update db.executionLocks
    (fun row => row.planId = planId ∧ row.executionId = executionId) change hKey (fun _ => rfl) other
  simp only [decide_eq_true_eq] at h
  exact h

@[simp] theorem lockOf_log (db : Db) (row : LedgerRow) (planId : String) :
    (db.log row).lockOf planId = db.lockOf planId := rfl

@[simp] theorem lockOf_syncLease (db : Db) (executionId : String) (owner : Option String)
    (expires : Option Int) (planId : String) :
    (db.syncLease executionId owner expires).lockOf planId = db.lockOf planId := by
  unfold Db.lockOf
  rw [Db.syncLease_executionLocks]

@[simp] theorem lockOf_updateAttempts (db : Db) (test : AttemptRow → Bool)
    (change : AttemptRow → AttemptRow) (hKey : ∀ row, (change row).key = row.key)
    (hAlt : ∀ row, (change row).idempotencyKey = row.idempotencyKey) (planId : String) :
    (db.updateAttempts test change hKey hAlt).lockOf planId = db.lockOf planId := rfl

theorem lockOf_planId {db : Db} {planId : String} {row : LockRow} (h : db.lockOf planId = some row) :
    row.planId = planId := Table.find?_key h

theorem lockConflictTx_apply (planId executionId message : String) (env : Env) (db : Db) :
    lockConflictTx planId executionId message env db =
      .ok (.error ⟨"LOCK_CONFLICT", message⟩, db.log (LedgerEvent.toRow
        { planId, executionId := some executionId, eventType := .leaseConflict } env.nowMs)) := rfl

theorem writeAcquiredLockTx_apply (planId executionId : String) (scope : TenantScope)
    (existing : Option LockRow) (eventType : EventType) (env : Env) (db : Db) :
    writeAcquiredLockTx planId executionId scope existing eventType env db =
      .ok (.ok {
          planId, executionId, workerId := env.workerId, lockAcquiredAt := some env.nowMs
          heartbeatAt := env.nowMs, leaseExpiresAt := env.nowMs + leaseDurationMs, lockReleasedAt := none },
        (((db.putLock (acquiredLockRow planId executionId scope env existing)).syncLease executionId
          (some env.workerId) (some (env.nowMs + leaseDurationMs))).log (LedgerEvent.toRow
            { planId, executionId := some executionId, eventType } env.nowMs))) := rfl

inductive LockOp where
  | acquire
  | acquireOrReuse
  | renew
  | heartbeat (stepId : String) (attemptNumber : Int)
  | release
  deriving DecidableEq

def reporting {α : Type} (expiry : α → Int) (work : Tx (Result α)) : Tx (Result Int) := do
  let result ← work
  pure (result.map expiry)

/-- A call of one of the lock operations by the worker of `env` at its clock. -/
structure LockCall where
  env : Env
  op : LockOp
  planId : String
  executionId : String
  scope : TenantScope

namespace LockCall

def isAcquire (call : LockCall) : Bool := call.op = .acquire || call.op = .acquireOrReuse

/-- The statements of the call; its value is the lease expiry it reports. -/
def work (call : LockCall) : Tx (Result Int) :=
  match call.op with
  | .acquire =>
    reporting LockGrant.leaseExpiresAt
      (acquireExecutionLockTx call.planId call.executionId call.scope)
  | .acquireOrReuse =>
    reporting LockGrant.leaseExpiresAt
      (acquireOrReuseExecutionLockTx call.planId call.executionId call.scope)
  | .renew =>
    reporting LockGrant.leaseExpiresAt (renewExecutionLock call.planId call.executionId call.scope)
  | .heartbeat stepId attemptNumber =>
    reporting AttemptRow.leaseExpiresAt
      (heartbeatExecutionAttempt call.planId call.executionId stepId attemptNumber)
  | .release =>
    reporting LockGrant.leaseExpiresAt (releaseExecutionLock call.planId call.executionId call.scope)

def outcome (call : LockCall) (db : Db) : Result Int × Db := transact call.work call.env db

/-- The lock row refuses an acquire call. -/
def blockedBy (call : LockCall) (row : LockRow) : Prop :=
  row.lockReleasedAt = none ∧ (call.op = .acquireOrReuse → row.executionId ≠ call.executionId)

/-- The lock row lets a release call through. -/
def mayRelease (call : LockCall) (row : LockRow) : Prop :=
  row.executionId = call.executionId ∧ call.scope.excludes row.tenantId = false

/-- How a call finds the lock row of its plan, how it leaves it, and what it returns. -/
inductive Effect (call : LockCall) (before after : Option LockRow) (result : Result Int) : Prop where
  | kept (h : after = before) (err : Failure) (hResult : result = .error err)
      (hAcquire : call.isAcquire → ensureIdentity call.planId call.executionId = none →
        ∃ row, before = some row ∧ call.blockedBy row)
      (hRelease : call.op = .release → ensureIdentity call.planId call.executionId = none →
        ∀ row, before = some row → ¬call.mayRelease row)
  | granted (row : LockRow) (h : after = some row) (hAcquire : call.isAcquire)
      (hResult : result = .ok (call.env.nowMs + leaseDurationMs))
      (hFree : ∀ old, before = some old → ¬call.blockedBy old)
      (hExecution : row.executionId = call.executionId) (hWorker : row.workerId = call.env.workerId)
      (hReleased : row.lockReleasedAt = none)
      (hLease : row.leaseExpiresAt = some (call.env.nowMs + leaseDurationMs))
  | renewed (row : LockRow) (h : before = some row) (hAcquire : call.isAcquire = false)
      (hOp : call.op ≠ .release)
      (hResult : result = .ok (call.env.nowMs + leaseDurationMs))
      (hExecution : row.executionId = call.executionId) (hWorker : row.workerId = call.env.workerId)
      (hReleased : row.lockReleasedAt = none)
      (hAfter : after = some (renewedLockRow call.env.nowMs row))
  | released (row : LockRow) (h : before = some row) (hOp : call.op = .release)
      (hResult : result = .ok call.env.nowMs) (hMay : call.mayRelease row)
      (hAfter : after = some (releasedLockRow call.env.nowMs row))

end LockCall

theorem LockCall.outcome_of_ok {α : Type} {call : LockCall} {db db' : Db} {work : Tx (Result α)}
    {result : Result α} {expiry : α → Int} (hWork : call.work = reporting expiry work)
    (h : work call.env db = .ok (result, db')) : call.outcome db = (result.map expiry, db') := by
  unfold LockCall.outcome transact Tx.commit
  rw [hWork, reporting, Tx.bind_of_ok h]
  rfl

theorem identified_of_invalid {α : Type} {planId executionId : String} {err : Failure}
    (h : ensureIdentity planId executionId = some err) (work : Tx (Result α)) :
    identified planId executionId work = pure (.error err) := by
  simp only [identified, h]

theorem identified_of_valid {α : Type} {planId executionId : String}
    (h : ensureIdentity planId executionId = none) (work : Tx (Result α)) :
    identified planId executionId work = work := by
  simp only [identified, h]

section Effects

variable {call : LockCall} {db : Db}

/-- The call's effect on the lock row of its own plan. -/
abbrev LockCall.EffectOn (call : LockCall) (db : Db) : Prop :=
  call.Effect (db.lockOf call.planId) ((call.outcome db).2.lockOf call.planId) (call.outcome db).1

theorem LockCall.effect_of_invalid {α : Type} {expiry : α → Int} {work : Tx (Result α)} {err : Failure}
    (hWork : call.work = reporting expiry (identified call.planId call.executionId work))
    (hId : ensureIdentity call.planId call.executionId = some err) : call.EffectOn db := by
  have hRun : identified call.planId call.executionId work call.env db = .ok (.error err, db) := by
    rw [identified_of_invalid hId, Tx.pure_apply]
  unfold LockCall.EffectOn
  rw [LockCall.outcome_of_ok hWork hRun]
  exact .kept rfl err rfl (fun _ hNone => by simp [hId] at hNone) (fun _ hNone => by simp [hId] at hNone)

theorem LockCall.effect_of_error {α : Type} {expiry : α → Int} {work : Tx (Result α)} {err : Failure}
    {db' : Db} (hWork : call.work = reporting expiry work)
    (h : work call.env db = .ok (.error err, db')) (hLock : db'.lockOf call.planId = db.lockOf call.planId)
    (hAcquire : call.isAcquire → ∃ row, db.lockOf call.planId = some row ∧ call.blockedBy row)
    (hRelease : call.op = .release → ∀ row, db.lockOf call.planId = some row → ¬call.mayRelease row) :
    call.EffectOn db := by
  unfold LockCall.EffectOn
  rw [LockCall.outcome_of_ok hWork h]
  exact .kept hLock err rfl (fun hOp _ => hAcquire hOp) (fun hOp _ => hRelease hOp)

theorem LockCall.effect_of_granted {eventType : EventType} {existing : Option LockRow}
    (hAcquire : call.isAcquire) (hFree : ∀ old, db.lockOf call.planId = some old → ¬call.blockedBy old)
    {work : Tx (Result LockGrant)} (hWork : call.work = reporting LockGrant.leaseExpiresAt work)
    (h : work call.env db =
      writeAcquiredLockTx call.planId call.executionId call.scope existing eventType call.env db) :
    call.EffectOn db := by
  rw [writeAcquiredLockTx_apply] at h
  unfold LockCall.EffectOn
  rw [LockCall.outcome_of_ok hWork h]
  refine .granted (acquiredLockRow call.planId call.executionId call.scope call.env existing) ?_
    hAcquire rfl hFree rfl rfl rfl rfl
  rw [lockOf_log, lockOf_syncLease, lockOf_putLock]
  exact if_pos rfl

end Effects

theorem acquireExecutionLockTx_apply {planId executionId : String} (scope : TenantScope)
    (hId : ensureIdentity planId executionId = none) (env : Env) (db : Db) :
    acquireExecutionLockTx planId executionId scope env db =
      match db.lockOf planId with
      | none => writeAcquiredLockTx planId executionId scope none .leaseAcquired env db
      | some existing =>
        if existing.lockReleasedAt = none then
          lockConflictTx planId executionId
            s!"Execution lock already held for plan {planId} by execution {existing.executionId}." env db
        else writeAcquiredLockTx planId executionId scope (some existing) .leaseAcquired env db := by
  rw [acquireExecutionLockTx, identified_of_valid hId, Tx.get_bind, Db.lockOf]
  cases db.executionLocks.find? planId with
  | none => rfl
  | some existing =>
    dsimp only
    split <;> rfl

theorem acquireOrReuseExecutionLockTx_apply {planId executionId : String} (scope : TenantScope)
    (hId : ensureIdentity planId executionId = none) (env : Env) (db : Db) :
    acquireOrReuseExecutionLockTx planId executionId scope env db =
      match db.lockOf planId with
      | none => writeAcquiredLockTx planId executionId scope none .leaseAcquired env db
      | some existing =>
        if existing.lockReleasedAt = none ∧ existing.executionId ≠ executionId then
          lockConflictTx planId executionId
            s!"Execution lock already held for plan {planId} by execution {existing.executionId}." env db
        else
          writeAcquiredLockTx planId executionId scope (some existing)
            (if existing.lockReleasedAt = none then .leaseRenewed else .leaseAcquired) env db := by
  rw [acquireOrReuseExecutionLockTx, identified_of_valid hId, Tx.get_bind, Db.lockOf]
  cases db.executionLocks.find? planId with
  | none => rfl
  | some existing =>
    dsimp only
    split <;> rfl

theorem lockOf_renewedDb {planId executionId : String} {row : LockRow} (env : Env) {db : Db}
    (hRow : db.lockOf planId = some row) (hExecution : row.executionId = executionId) :
    (renewedDb planId executionId env db).lockOf planId = some (renewedLockRow env.nowMs row) := by
  rw [renewedDb, lockOf_log, lockOf_syncLease, lockOf_updateLock, hRow, Option.map_some]
  rw [if_pos ⟨lockOf_planId hRow, hExecution⟩]

/-- A renewal fails, and leaves the lock row, or the caller holds the lock. -/
theorem renewExecutionLockTx_cases (planId executionId : String) (scope : TenantScope) (env : Env)
    (db : Db) :
    (∃ err db', renewExecutionLockTx planId executionId scope env db = .ok (.error err, db') ∧
      db'.lockOf planId = db.lockOf planId) ∨
    (∃ row grant, db.lockOf planId = some row ∧ row.executionId = executionId ∧
      row.lockReleasedAt = none ∧ row.workerId = env.workerId ∧
      grant.leaseExpiresAt = env.nowMs + leaseDurationMs ∧
      renewExecutionLockTx planId executionId scope env db =
        .ok (.ok grant, renewedDb planId executionId env db)) := by
  unfold renewExecutionLockTx
  rw [Tx.ask_bind, Tx.get_bind]
  cases hRow : db.executionLocks.find? planId with
  | none => exact .inl ⟨_, _, rfl, rfl⟩
  | some row =>
    dsimp only
    by_cases hScope : scope.excludes row.tenantId
    · rw [if_pos hScope]
      exact .inl ⟨_, _, rfl, rfl⟩
    rw [if_neg hScope]
    by_cases hExecution : row.executionId = executionId
    · rw [if_neg (not_not.mpr hExecution)]
      by_cases hReleased : row.lockReleasedAt = none
      · rw [if_neg (not_not.mpr hReleased)]
        by_cases hWorker : row.workerId = env.workerId
        · rw [if_neg (not_not.mpr hWorker)]
          exact .inr ⟨row, _, hRow, hExecution, hReleased, hWorker, rfl, rfl⟩
        · rw [if_pos hWorker, lockConflictTx_apply]
          exact .inl ⟨_, _, rfl, rfl⟩
      · rw [if_pos hReleased]
        exact .inl ⟨_, _, rfl, rfl⟩
    · rw [if_pos hExecution, lockConflictTx_apply]
      exact .inl ⟨_, _, rfl, rfl⟩

theorem lockOf_releasedDb {planId executionId : String} {row : LockRow} (env : Env) {db : Db}
    (hRow : db.lockOf planId = some row) (hExecution : row.executionId = executionId) :
    (releasedDb planId executionId env db).lockOf planId = some (releasedLockRow env.nowMs row) := by
  rw [releasedDb, lockOf_log, lockOf_syncLease, lockOf_updateLock, hRow, Option.map_some]
  rw [if_pos ⟨lockOf_planId hRow, hExecution⟩]

def releasedGrant (planId executionId : String) (env : Env) (row : LockRow) : LockGrant where
  planId := planId
  executionId := executionId
  workerId := row.workerId
  lockAcquiredAt := none
  heartbeatAt := env.nowMs
  leaseExpiresAt := env.nowMs
  lockReleasedAt := some env.nowMs

theorem releaseExecutionLockTx_of_held {planId executionId : String} {scope : TenantScope} {row : LockRow}
    {db : Db} (hRow : db.lockOf planId = some row) (hExecution : row.executionId = executionId)
    (hScope : scope.excludes row.tenantId = false) (env : Env) :
    releaseExecutionLockTx planId executionId scope env db =
      .ok (.ok (releasedGrant planId executionId env row), releasedDb planId executionId env db) := by
  unfold releaseExecutionLockTx
  rw [Tx.ask_bind, Tx.get_bind, show db.executionLocks.find? planId = some row from hRow]
  dsimp only
  rw [if_neg (by simp [hScope]), if_neg (not_not.mpr hExecution)]
  rfl

theorem releaseExecutionLockTx_of_refused {planId executionId : String} {scope : TenantScope} {db : Db}
    (hRow : ∀ row, db.lockOf planId = some row →
      ¬(row.executionId = executionId ∧ scope.excludes row.tenantId = false)) (env : Env) :
    ∃ err, releaseExecutionLockTx planId executionId scope env db = .ok (.error err, db) ∧
      err.code ∈ ["NOT_FOUND", "LOCK_CONFLICT"] := by
  unfold releaseExecutionLockTx
  rw [Tx.ask_bind, Tx.get_bind]
  cases hFind : db.executionLocks.find? planId with
  | none => exact ⟨_, rfl, by simp⟩
  | some row =>
    dsimp only
    by_cases hScope : scope.excludes row.tenantId
    · rw [if_pos hScope]
      exact ⟨_, rfl, by simp⟩
    · rw [if_neg hScope, if_pos]
      · exact ⟨_, rfl, by simp⟩
      · intro hExecution
        exact hRow row hFind ⟨hExecution, by simpa using hScope⟩

theorem acquireExecutionLock_effect {call : LockCall} (hOp : call.op = .acquire) (db : Db) :
    call.EffectOn db := by
  have hWork : call.work = reporting LockGrant.leaseExpiresAt
      (acquireExecutionLockTx call.planId call.executionId call.scope) := by
    unfold LockCall.work
    rw [hOp]
  have hAcquire : call.isAcquire := by simp [LockCall.isAcquire, hOp]
  cases hId : ensureIdentity call.planId call.executionId with
  | some err => exact LockCall.effect_of_invalid hWork hId
  | none =>
    have hRun := acquireExecutionLockTx_apply call.scope hId call.env db
    cases hRow : db.lockOf call.planId with
    | none =>
      rw [hRow] at hRun
      exact LockCall.effect_of_granted hAcquire (by simp [hRow]) hWork hRun
    | some row =>
      rw [hRow] at hRun
      dsimp only at hRun
      by_cases hReleased : row.lockReleasedAt = none
      · rw [if_pos hReleased, lockConflictTx_apply] at hRun
        exact LockCall.effect_of_error hWork hRun (lockOf_log _ _ _)
          (fun _ => ⟨row, hRow, hReleased, by simp [hOp]⟩) (by simp [hOp])
      · rw [if_neg hReleased] at hRun
        refine LockCall.effect_of_granted hAcquire ?_ hWork hRun
        rintro old hOld ⟨hOldReleased, -⟩
        rw [hRow, Option.some.injEq] at hOld
        exact hReleased (hOld ▸ hOldReleased)

theorem acquireOrReuseExecutionLock_effect {call : LockCall} (hOp : call.op = .acquireOrReuse) (db : Db) :
    call.EffectOn db := by
  have hWork : call.work = reporting LockGrant.leaseExpiresAt
      (acquireOrReuseExecutionLockTx call.planId call.executionId call.scope) := by
    unfold LockCall.work
    rw [hOp]
  have hAcquire : call.isAcquire := by simp [LockCall.isAcquire, hOp]
  cases hId : ensureIdentity call.planId call.executionId with
  | some err => exact LockCall.effect_of_invalid hWork hId
  | none =>
    have hRun := acquireOrReuseExecutionLockTx_apply call.scope hId call.env db
    cases hRow : db.lockOf call.planId with
    | none =>
      rw [hRow] at hRun
      exact LockCall.effect_of_granted hAcquire (by simp [hRow]) hWork hRun
    | some row =>
      rw [hRow] at hRun
      dsimp only at hRun
      by_cases hHeld : row.lockReleasedAt = none ∧ row.executionId ≠ call.executionId
      · rw [if_pos hHeld, lockConflictTx_apply] at hRun
        exact LockCall.effect_of_error hWork hRun (lockOf_log _ _ _)
          (fun _ => ⟨row, hRow, hHeld.1, fun _ => hHeld.2⟩) (by simp [hOp])
      · rw [if_neg hHeld] at hRun
        refine LockCall.effect_of_granted hAcquire ?_ hWork hRun
        rintro old hOld ⟨hOldReleased, hOther⟩
        rw [hRow, Option.some.injEq] at hOld
        exact hHeld (hOld ▸ ⟨hOldReleased, hOther hOp⟩)

theorem renewExecutionLock_effect {call : LockCall} (hOp : call.op = .renew) (db : Db) :
    call.EffectOn db := by
  have hWork : call.work = reporting LockGrant.leaseExpiresAt
      (identified call.planId call.executionId
        (renewExecutionLockTx call.planId call.executionId call.scope)) := by
    unfold LockCall.work
    rw [hOp]
    rfl
  have hAcquire : call.isAcquire = false := by simp [LockCall.isAcquire, hOp]
  cases hId : ensureIdentity call.planId call.executionId with
  | some err => exact LockCall.effect_of_invalid hWork hId
  | none =>
    rw [identified_of_valid hId] at hWork
    obtain ⟨err, db', hRun, hLock⟩ | ⟨row, grant, hRow, hExecution, hReleased, hWorker, hLease, hRun⟩ :=
      renewExecutionLockTx_cases call.planId call.executionId call.scope call.env db
    · exact LockCall.effect_of_error hWork hRun hLock (by simp [hAcquire]) (by simp [hOp])
    · unfold LockCall.EffectOn
      rw [LockCall.outcome_of_ok hWork hRun]
      exact .renewed row hRow hAcquire (by simp [hOp]) (by simp [Except.map, hLease]) hExecution
        hWorker hReleased (lockOf_renewedDb call.env hRow hExecution)

theorem releaseExecutionLock_effect {call : LockCall} (hOp : call.op = .release) (db : Db) :
    call.EffectOn db := by
  have hWork : call.work = reporting LockGrant.leaseExpiresAt
      (identified call.planId call.executionId
        (releaseExecutionLockTx call.planId call.executionId call.scope)) := by
    unfold LockCall.work
    rw [hOp]
    rfl
  have hAcquire : call.isAcquire = false := by simp [LockCall.isAcquire, hOp]
  cases hId : ensureIdentity call.planId call.executionId with
  | some err => exact LockCall.effect_of_invalid hWork hId
  | none =>
    rw [identified_of_valid hId] at hWork
    by_cases hHeld : ∃ row, db.lockOf call.planId = some row ∧ call.mayRelease row
    · obtain ⟨row, hRow, hExecution, hScope⟩ := hHeld
      have hRun := releaseExecutionLockTx_of_held hRow hExecution hScope call.env
      unfold LockCall.EffectOn
      rw [LockCall.outcome_of_ok hWork hRun]
      exact .released row hRow hOp rfl ⟨hExecution, hScope⟩ (lockOf_releasedDb call.env hRow hExecution)
    · have hMay : ∀ row, db.lockOf call.planId = some row → ¬call.mayRelease row :=
        fun row hRow h => hHeld ⟨row, hRow, h⟩
      obtain ⟨err, hRun, -⟩ := releaseExecutionLockTx_of_refused hMay call.env
      exact LockCall.effect_of_error hWork hRun rfl (by simp [hAcquire]) (fun _ => hMay)

theorem heartbeatExecutionAttempt_cases {planId executionId : String}
    (hId : ensureIdentity planId executionId = none) (stepId : String) (attemptNumber : Int) (env : Env)
    (db : Db) :
    (∃ err db', heartbeatExecutionAttempt planId executionId stepId attemptNumber env db =
        .ok (.error err, db') ∧ db'.lockOf planId = db.lockOf planId) ∨
    (∃ row attempt db', db.lockOf planId = some row ∧ row.executionId = executionId ∧
      row.lockReleasedAt = none ∧ row.workerId = env.workerId ∧
      attempt.leaseExpiresAt = env.nowMs + leaseDurationMs ∧
      heartbeatExecutionAttempt planId executionId stepId attemptNumber env db = .ok (.ok attempt, db') ∧
      db'.lockOf planId = some (renewedLockRow env.nowMs row)) := by
  unfold heartbeatExecutionAttempt
  rw [identified_of_valid hId, Tx.ask_bind, Tx.get_bind]
  cases hAttempt : db.executionAttempts.rows.find? fun row =>
      row.isRunningAt planId executionId stepId attemptNumber with
  | none => exact .inl ⟨_, _, rfl, rfl⟩
  | some attempt =>
    dsimp only
    rw [Tx.modify_bind]
    generalize hTouched : db.updateAttempts _ _ _ _ = touched
    have hLock : touched.lockOf planId = db.lockOf planId := by
      rw [← hTouched, lockOf_updateAttempts]
    obtain ⟨err, db', hRun, hKept⟩ | ⟨row, grant, hRow, hExecution, hReleased, hWorker, hLease, hRun⟩ :=
      renewExecutionLockTx_cases planId executionId .none env touched
    · rw [Tx.bind_of_ok hRun]
      exact .inl ⟨err, db', rfl, hKept.trans hLock⟩
    · rw [Tx.bind_of_ok hRun]
      refine .inr ⟨row, _, _, hLock ▸ hRow, hExecution, hReleased, hWorker, rfl, rfl, ?_⟩
      rw [lockOf_log]
      exact lockOf_renewedDb env hRow hExecution

theorem heartbeatExecutionAttempt_effect {call : LockCall} {stepId : String} {attemptNumber : Int}
    (hOp : call.op = .heartbeat stepId attemptNumber) (db : Db) : call.EffectOn db := by
  have hWork : call.work = reporting AttemptRow.leaseExpiresAt
      (heartbeatExecutionAttempt call.planId call.executionId stepId attemptNumber) := by
    unfold LockCall.work
    rw [hOp]
  have hAcquire : call.isAcquire = false := by simp [LockCall.isAcquire, hOp]
  cases hId : ensureIdentity call.planId call.executionId with
  | some err =>
    unfold heartbeatExecutionAttempt at hWork
    exact LockCall.effect_of_invalid hWork hId
  | none =>
    obtain ⟨err, db', hRun, hLock⟩ |
        ⟨row, attempt, db', hRow, hExecution, hReleased, hWorker, hLease, hRun, hAfter⟩ :=
      heartbeatExecutionAttempt_cases hId stepId attemptNumber call.env db
    · exact LockCall.effect_of_error hWork hRun hLock (by simp [hAcquire]) (by simp [hOp])
    · unfold LockCall.EffectOn
      rw [LockCall.outcome_of_ok hWork hRun]
      exact .renewed row hRow hAcquire (by simp [hOp]) (by simp [Except.map, hLease]) hExecution
        hWorker hReleased hAfter

/-- Every lock operation keeps, grants, renews or releases the lock row of its plan. -/
theorem LockCall.effect (call : LockCall) (db : Db) : call.EffectOn db := by
  cases hOp : call.op with
  | acquire => exact acquireExecutionLock_effect hOp db
  | acquireOrReuse => exact acquireOrReuseExecutionLock_effect hOp db
  | renew => exact renewExecutionLock_effect hOp db
  | heartbeat stepId attemptNumber => exact heartbeatExecutionAttempt_effect hOp db
  | release => exact releaseExecutionLock_effect hOp db

section Frame

variable {planId executionId other : String} (hOther : other ≠ planId)

/-- The lock row of the plan `other` stays as it is. -/
abbrev KeepsLock {α : Type} (other : String) (work : Tx α) : Prop :=
  Tx.Keeps (fun db : Db => db.lockOf other) work

theorem keepsLock_identified {α : Type} {work : Tx (Result α)} (h : KeepsLock other work) :
    KeepsLock other (identified planId executionId work) := by
  unfold identified
  split
  · exact .pure _
  · exact h

theorem keepsLock_appendLedgerEventTx (event : LedgerEvent) :
    KeepsLock other (appendLedgerEventTx event) :=
  .bind .ask fun _ => .bind (.modify fun db => lockOf_log db _ other) fun _ => .pure _

theorem keepsLock_syncExecutionLeaseTx (owner : Option String) (expires : Option Int) :
    KeepsLock other (syncExecutionLeaseTx executionId owner expires) :=
  .modify fun db => lockOf_syncLease db executionId owner expires other

theorem keepsLock_lockConflictTx (message : String) :
    KeepsLock other (lockConflictTx planId executionId message) :=
  .bind (keepsLock_appendLedgerEventTx _) fun _ => .pure _

include hOther

theorem keepsLock_writeAcquiredLockTx (scope : TenantScope) (existing : Option LockRow)
    (eventType : EventType) :
    KeepsLock other (writeAcquiredLockTx planId executionId scope existing eventType) := by
  refine .bind .ask fun env => .bind (.modify fun db => ?_) fun _ =>
    .bind (keepsLock_syncExecutionLeaseTx _ _) fun _ =>
      .bind (keepsLock_appendLedgerEventTx _) fun _ => .pure _
  dsimp only
  rw [lockOf_putLock]
  exact if_neg hOther

theorem keepsLock_updateLock (change : LockRow → LockRow)
    (hKey : ∀ row, (change row).planId = row.planId) :
    KeepsLock other (Tx.modify fun db : Db => db.updateLock planId executionId change hKey) := by
  refine .modify fun db => ?_
  dsimp only
  rw [lockOf_updateLock]
  cases hRow : db.lockOf other with
  | none => rfl
  | some row =>
    rw [Option.map_some, if_neg]
    rw [lockOf_planId hRow]
    exact fun h => hOther h.1

theorem keepsLock_acquireExecutionLockTx (scope : TenantScope) :
    KeepsLock other (acquireExecutionLockTx planId executionId scope) := by
  refine keepsLock_identified (.bind .get fun db => ?_)
  split
  · exact keepsLock_writeAcquiredLockTx hOther _ _ _
  · exact .ite (keepsLock_lockConflictTx _) (keepsLock_writeAcquiredLockTx hOther _ _ _)

theorem keepsLock_acquireOrReuseExecutionLockTx (scope : TenantScope) :
    KeepsLock other (acquireOrReuseExecutionLockTx planId executionId scope) := by
  refine keepsLock_identified (.bind .get fun db => ?_)
  split
  · exact keepsLock_writeAcquiredLockTx hOther _ _ _
  · exact .ite (keepsLock_lockConflictTx _) (keepsLock_writeAcquiredLockTx hOther _ _ _)

theorem keepsLock_renewExecutionLockTx (scope : TenantScope) :
    KeepsLock other (renewExecutionLockTx planId executionId scope) := by
  refine .bind .ask fun env => .bind .get fun db => ?_
  split
  · exact .pure _
  · refine .ite (.pure _) (.ite (keepsLock_lockConflictTx _) (.ite (.pure _)
      (.ite (keepsLock_lockConflictTx _) ?_)))
    exact .bind (keepsLock_updateLock hOther _ _) fun _ =>
      .bind (keepsLock_syncExecutionLeaseTx _ _) fun _ =>
        .bind (keepsLock_appendLedgerEventTx _) fun _ => .pure _

theorem keepsLock_releaseExecutionLockTx (scope : TenantScope) :
    KeepsLock other (releaseExecutionLockTx planId executionId scope) := by
  refine .bind .ask fun env => .bind .get fun db => ?_
  split
  · exact .pure _
  · refine .ite (.pure _) (.ite (.pure _) ?_)
    exact .bind (keepsLock_updateLock hOther _ _) fun _ =>
      .bind (keepsLock_syncExecutionLeaseTx _ _) fun _ =>
        .bind (keepsLock_appendLedgerEventTx _) fun _ => .pure _

theorem keepsLock_heartbeatExecutionAttempt (stepId : String) (attemptNumber : Int) :
    KeepsLock other (heartbeatExecutionAttempt planId executionId stepId attemptNumber) := by
  refine keepsLock_identified (.bind .ask fun env => .bind .get fun db => ?_)
  dsimp only
  split
  · exact .pure _
  · refine .bind (.modify fun db => lockOf_updateAttempts db _ _ _ _ other) fun _ =>
      .bind (keepsLock_renewExecutionLockTx hOther _) fun result => ?_
    split
    · exact .pure _
    · exact .bind (keepsLock_appendLedgerEventTx _) fun _ => .pure _

end Frame

theorem transact_respects {α : Type} {R : Db → Db → Prop} [Std.Refl R] {work : Tx (Result α)}
    (h : Tx.Respects R work) (env : Env) (db : Db) : R db (transact work env db).2 := by
  have hCommit := h.commit env db
  unfold transact
  split <;> rename_i hEq <;> rw [hEq] at hCommit <;> exact hCommit

/-- A call on another plan leaves the lock row alone. -/
theorem LockCall.lockOf_other (call : LockCall) (db : Db) {planId : String} (hPlan : planId ≠ call.planId) :
    (call.outcome db).2.lockOf planId = db.lockOf planId := by
  refine transact_respects (R := fun db db' => db'.lockOf planId = db.lockOf planId) ?_ call.env db
  unfold LockCall.work
  split
  · exact .bind (keepsLock_acquireExecutionLockTx hPlan _) fun _ => .pure _
  · exact .bind (keepsLock_acquireOrReuseExecutionLockTx hPlan _) fun _ => .pure _
  · exact .bind (keepsLock_identified (keepsLock_renewExecutionLockTx hPlan _)) fun _ => .pure _
  · exact .bind (keepsLock_heartbeatExecutionAttempt hPlan _ _) fun _ => .pure _
  · exact .bind (keepsLock_identified (keepsLock_releaseExecutionLockTx hPlan _)) fun _ => .pure _

end CommandConsole.Execution
