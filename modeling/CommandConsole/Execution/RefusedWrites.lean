import CommandConsole.Execution.AttemptJournal

/-! # What a refused write of the integrity store leaves

A refusal is a returned value, and a transaction that returns is committed. A heartbeat writes the attempt before
the lock can refuse it.
-/
namespace CommandConsole.Execution
open Library
set_option autoImplicit false

section Calls

/-- `appendLedgerEvent` of an event that may have a blank type. -/
def appendGivenEvent (planId : String) (event : Option LedgerEvent) : Tx (Result Int) :=
  match event with
  | some event => appendLedgerEvent event
  | none =>
    if isBlank planId then failure "INVALID_STATE" "planId is required for execution ledger events."
    else failure "INVALID_STATE" "eventType is required for execution ledger events."

inductive WriteOp where
  | acquireLock
  | acquireOrReuseLock
  | renewLock
  | releaseLock
  | createAttempt (stepId : String) (sideEffectClass : SideEffectClass) (idempotencyKey : Option String)
  | heartbeatAttempt (stepId : String) (attemptNumber : Int)
  | completeAttempt (stepId : String) (attemptNumber : Int)
  | failAttempt (stepId : String) (attemptNumber : Int)
  | cancelAttempt (stepId : String) (attemptNumber : Int)
  | appendEvent (event : Option LedgerEvent)

/-- A call of a public write operation by the worker of `env` at its clock. -/
structure WriteCall where
  env : Env
  op : WriteOp
  planId : String
  executionId : String
  scope : TenantScope

def withoutData {α : Type} (work : Tx (Result α)) : Tx (Result Unit) := do
  let result ← work
  pure (result.map fun _ => ())

/-- The statements of the call; a call inside its caller's transaction runs these alone. -/
def WriteCall.work (call : WriteCall) : Tx (Result Unit) :=
  match call.op with
  | .acquireLock => withoutData (acquireExecutionLockTx call.planId call.executionId call.scope)
  | .acquireOrReuseLock => withoutData (acquireOrReuseExecutionLockTx call.planId call.executionId call.scope)
  | .renewLock => withoutData (renewExecutionLock call.planId call.executionId call.scope)
  | .releaseLock => withoutData (releaseExecutionLock call.planId call.executionId call.scope)
  | .createAttempt stepId sideEffectClass idempotencyKey =>
    withoutData (createExecutionAttempt call.planId call.executionId stepId sideEffectClass idempotencyKey)
  | .heartbeatAttempt stepId attemptNumber =>
    withoutData (heartbeatExecutionAttempt call.planId call.executionId stepId attemptNumber)
  | .completeAttempt stepId attemptNumber =>
    withoutData (completeExecutionAttempt call.planId call.executionId stepId attemptNumber)
  | .failAttempt stepId attemptNumber =>
    withoutData (failExecutionAttempt call.planId call.executionId stepId attemptNumber)
  | .cancelAttempt stepId attemptNumber =>
    withoutData (cancelExecutionAttempt call.planId call.executionId stepId attemptNumber)
  | .appendEvent event => withoutData (appendGivenEvent call.planId event)

def WriteCall.outcome (call : WriteCall) (db : Db) : Result Unit × Db := transact call.work call.env db

end Calls

section Unchanged

variable {env : Env} {db db' db'' : Db} {α : Type} {work : Tx (Result α)}

/-- Every row of the four tables is as it was; the ledger may have got one event of a lease conflict. -/
structure Unchanged (db db' : Db) : Prop where
  attempts : db'.executionAttempts = db.executionAttempts
  locks : db'.executionLocks = db.executionLocks
  executions : db'.executions = db.executions
  state : db'.executionState = db.executionState
  ledger : db'.executionLedger = db.executionLedger ∨
    ∃ row, row.eventType = .leaseConflict ∧ db'.executionLedger = db.executionLedger ++ [row]

theorem Unchanged.refl (db : Db) : Unchanged db db := ⟨rfl, rfl, rfl, rfl, .inl rfl⟩

theorem Unchanged.conflict (db : Db) {row : LedgerRow} (h : row.eventType = .leaseConflict) : Unchanged db (db.log row) :=
  ⟨rfl, rfl, rfl, rfl, .inr ⟨row, h, rfl⟩⟩

/-- The statements return, and with a refusal they leave everything unchanged. -/
def AllOrNothing (env : Env) (db : Db) (work : Tx (Result α)) : Prop :=
  ∃ result db', work env db = .ok (result, db') ∧ ∀ err, result = .error err → Unchanged db db'

theorem allOrNothing_ok {data : α} (h : work env db = .ok (.ok data, db')) : AllOrNothing env db work :=
  ⟨.ok data, db', h, fun _ hError => nomatch hError⟩

theorem allOrNothing_error {err : Failure} (h : work env db = .ok (.error err, db')) (hSame : Unchanged db db') :
    AllOrNothing env db work := ⟨.error err, db', h, fun _ _ => hSame⟩

theorem allOrNothing_failure (code message : String) : AllOrNothing env db (failure (α := α) code message) :=
  allOrNothing_error rfl (.refl db)

theorem allOrNothing_conflict (planId executionId message : String) :
    AllOrNothing env db (lockConflictTx planId executionId message) :=
  allOrNothing_error (lockConflictTx_apply planId executionId message env db) (.conflict db rfl)

theorem allOrNothing_identified {planId executionId : String} (h : AllOrNothing env db work) :
    AllOrNothing env db (identified planId executionId work) := by
  cases hId : ensureIdentity planId executionId with
  | some err =>
    rw [identified_of_invalid hId]
    exact allOrNothing_error rfl (.refl db)
  | none =>
    rw [identified_of_valid hId]
    exact h

theorem allOrNothing_get {f : Db → Tx (Result α)} (h : AllOrNothing env db (f db)) :
    AllOrNothing env db (Tx.get >>= f) := h

theorem AllOrNothing.withoutData (h : AllOrNothing env db work) : AllOrNothing env db (withoutData work) := by
  obtain ⟨result, db', hRun, hRefused⟩ := h
  refine ⟨result.map fun _ => (), db', ?_, fun err hError => ?_⟩
  · rw [Execution.withoutData, Tx.bind_of_ok hRun]
    rfl
  · cases result with
    | error err => exact hRefused err rfl
    | ok data => cases hError

end Unchanged

section Locks

variable (planId executionId : String) (scope : TenantScope) (env : Env) (db : Db)

theorem allOrNothing_acquire : AllOrNothing env db (acquireExecutionLockTx planId executionId scope) := by
  refine allOrNothing_identified (allOrNothing_get ?_)
  split
  · exact allOrNothing_ok (writeAcquiredLockTx_apply _ _ _ _ _ env db)
  · split
    · exact allOrNothing_conflict _ _ _
    · exact allOrNothing_ok (writeAcquiredLockTx_apply _ _ _ _ _ env db)

theorem allOrNothing_acquireOrReuse : AllOrNothing env db (acquireOrReuseExecutionLockTx planId executionId scope) := by
  refine allOrNothing_identified (allOrNothing_get ?_)
  split
  · exact allOrNothing_ok (writeAcquiredLockTx_apply _ _ _ _ _ env db)
  · split
    · exact allOrNothing_conflict _ _ _
    · exact allOrNothing_ok (writeAcquiredLockTx_apply _ _ _ _ _ env db)

/-- The lock row lets the worker renew the lease of the execution. -/
def LockRow.renewableBy (row : LockRow) (executionId workerId : String) : Prop :=
  row.executionId = executionId ∧ row.lockReleasedAt = none ∧ row.workerId = workerId

/-- A renewal is refused and leaves everything unchanged, or it finds a lock row that it may renew. -/
theorem renewExecutionLockTx_answer :
    (∃ err db', renewExecutionLockTx planId executionId scope env db = .ok (.error err, db') ∧ Unchanged db db' ∧
      ∀ row, db.lockOf planId = some row → scope.excludes row.tenantId = false →
        ¬ row.renewableBy executionId env.workerId) ∨
    (∃ row grant, db.lockOf planId = some row ∧ row.renewableBy executionId env.workerId ∧
      renewExecutionLockTx planId executionId scope env db =
        .ok (.ok grant, renewedDb planId executionId env db)) := by
  obtain ⟨err, db', hRun, -⟩ | ⟨row, grant, hRow, hExecution, hReleased, hWorker, -, hRun⟩ :=
    renewExecutionLockTx_cases planId executionId scope env db
  · refine .inl ⟨err, db', hRun, ?_⟩
    rw [renewExecutionLockTx, Tx.ask_bind, Tx.get_bind] at hRun
    rw [Db.lockOf]
    cases hRow : db.executionLocks.find? planId with
    | none =>
      rw [hRow] at hRun
      cases hRun
      exact ⟨.refl db, fun _ hNone => by cases hNone⟩
    | some row =>
      rw [hRow] at hRun
      dsimp only at hRun
      simp only [Option.some.injEq, forall_eq']
      by_cases hScope : scope.excludes row.tenantId = true
      · rw [if_pos hScope] at hRun
        cases hRun
        exact ⟨.refl db, fun hOpen => absurd (hScope.symm.trans hOpen) (by decide)⟩
      rw [if_neg hScope] at hRun
      by_cases hExecution : row.executionId = executionId
      · rw [if_neg (not_not.mpr hExecution)] at hRun
        by_cases hReleased : row.lockReleasedAt = none
        · rw [if_neg (not_not.mpr hReleased)] at hRun
          by_cases hWorker : row.workerId = env.workerId
          · rw [if_neg (not_not.mpr hWorker)] at hRun
            cases hRun
          · rw [if_pos hWorker] at hRun
            cases hRun
            exact ⟨.conflict db rfl, fun _ hHeld => hWorker hHeld.2.2⟩
        · rw [if_pos hReleased] at hRun
          cases hRun
          exact ⟨.refl db, fun _ hHeld => hReleased hHeld.2.1⟩
      · rw [if_pos hExecution] at hRun
        cases hRun
        exact ⟨.conflict db rfl, fun _ hHeld => hExecution hHeld.1⟩
  · exact .inr ⟨row, grant, hRow, ⟨hExecution, hReleased, hWorker⟩, hRun⟩

theorem allOrNothing_renew : AllOrNothing env db (renewExecutionLock planId executionId scope) := by
  refine allOrNothing_identified ?_
  obtain ⟨err, db', hRun, hSame, -⟩ | ⟨row, grant, -, -, hRun⟩ :=
    renewExecutionLockTx_answer planId executionId scope env db
  · exact allOrNothing_error hRun hSame
  · exact allOrNothing_ok hRun

theorem allOrNothing_release : AllOrNothing env db (releaseExecutionLock planId executionId scope) := by
  refine allOrNothing_identified ?_
  by_cases hHeld : ∃ row, db.lockOf planId = some row ∧ row.executionId = executionId ∧ scope.excludes row.tenantId = false
  · obtain ⟨row, hRow, hExecution, hScope⟩ := hHeld
    exact allOrNothing_ok (releaseExecutionLockTx_of_held hRow hExecution hScope env)
  · obtain ⟨err, hRun, -⟩ := releaseExecutionLockTx_of_refused (fun row hRow hMay => hHeld ⟨row, hRow, hMay⟩) env
    exact allOrNothing_error hRun (.refl db)

end Locks

section Attempts

variable {planId executionId stepId : String} {attemptNumber : Int} {env : Env} {db : Db}

theorem allOrNothing_append (event : LedgerEvent) : AllOrNothing env db (appendLedgerEvent event) := by
  rw [appendLedgerEvent]
  split
  · exact allOrNothing_failure _ _
  · exact allOrNothing_ok rfl

theorem allOrNothing_appendGiven (planId : String) (event : Option LedgerEvent) :
    AllOrNothing env db (appendGivenEvent planId event) := by
  cases event with
  | some event => exact allOrNothing_append event
  | none =>
    rw [appendGivenEvent]
    split
    · exact allOrNothing_failure _ _
    · exact allOrNothing_failure _ _

/-- The INSERT is the first write, so an attempt that it refuses leaves nothing. -/
theorem allOrNothing_create (sideEffectClass : SideEffectClass) (idempotencyKey : Option String) :
    AllOrNothing env db (createExecutionAttempt planId executionId stepId sideEffectClass idempotencyKey) := by
  refine allOrNothing_identified ?_
  split
  · exact allOrNothing_failure _ _
  · cases hRun : (caught _ : Tx (Result AttemptRow)) env db with
    | error err =>
      rw [caught] at hRun
      split at hRun <;> cases hRun
    | ok outcome =>
      obtain ⟨result, db'⟩ := outcome
      refine ⟨result, db', hRun, fun err hError => ?_⟩
      subst hError
      rw [caught] at hRun
      split at hRun
      · rename_i outcome hInner
        cases hRun
        rw [Tx.ask_bind, Tx.get_bind] at hInner
        obtain ⟨_, mid, -, hRest⟩ := Tx.bind_eq_ok.mp hInner
        cases hRest
      · cases hRun
        exact .refl db

theorem allOrNothing_finalize (status : AttemptStatus) :
    AllOrNothing env db (finalizeAttempt planId executionId stepId attemptNumber status) := by
  cases hId : ensureIdentity planId executionId with
  | some err =>
    rw [finalizeAttempt, identified_of_invalid hId]
    exact allOrNothing_error rfl (.refl db)
  | none =>
    rw [finalizeAttempt, identified_of_valid hId]
    unfold AllOrNothing
    rw [Tx.ask_bind, Tx.get_bind]
    cases db.executionAttempts.find? (planId, executionId, stepId, attemptNumber) with
    | none => exact allOrNothing_failure _ _
    | some attempt =>
      dsimp only
      rw [Tx.modify_bind]
      cases finalizedMetrics status env.nowMs (db.executions.find? executionId) with
      | some updates => exact ⟨_, _, rfl, fun _ hError => by cases hError⟩
      | none => exact ⟨_, _, rfl, fun _ hError => by cases hError⟩

/-- The heartbeat would stamp no attempt anew, or it may renew the lock after. -/
def HeartbeatKeeps (planId executionId stepId : String) (attemptNumber : Int) (env : Env) (db : Db) : Prop :=
  ensureIdentity planId executionId = none →
    (∀ row ∈ db.executionAttempts.rows, row.isRunningAt planId executionId stepId attemptNumber = true →
      heartbeatAttemptRow env.nowMs row = row) ∨
    ∃ row, db.lockOf planId = some row ∧ row.renewableBy executionId env.workerId

theorem stampedDb_attempts : (stampedDb planId executionId stepId attemptNumber env db).executionAttempts =
      db.executionAttempts ↔
    ∀ row ∈ db.executionAttempts.rows, row.isRunningAt planId executionId stepId attemptNumber = true →
      heartbeatAttemptRow env.nowMs row = row := by
  constructor
  · intro hSame row hRow hRunning
    have hRows := congrArg Table.rows hSame
    rw [stampedDb, Db.updateAttempts_executionAttempts, Table.rows_update] at hRows
    have hMap := List.map_inj_left.mp (hRows.trans (List.map_id _).symm) row hRow
    rw [if_pos hRunning] at hMap
    exact hMap
  · intro hAll
    refine Table.ext_rows ?_
    rw [stampedDb, Db.updateAttempts_executionAttempts, Table.rows_update]
    refine (List.map_congr_left fun row hRow => ?_).trans (List.map_id _)
    split
    · rename_i hRunning
      exact hAll row hRow hRunning
    · rfl

theorem excludes_none (tenantId : Option String) : TenantScope.none.excludes tenantId = false := rfl

/-- A heartbeat returns. It is refused with everything unchanged exactly where it stamps no attempt anew or may not
be refused. -/
theorem heartbeat_spec : ∃ result db', heartbeatExecutionAttempt planId executionId stepId attemptNumber env db =
      .ok (result, db') ∧
    ((∀ err, result = .error err → Unchanged db db') ↔ HeartbeatKeeps planId executionId stepId attemptNumber env db) := by
  cases hId : ensureIdentity planId executionId with
  | some err =>
    rw [heartbeatExecutionAttempt, identified_of_invalid hId]
    refine ⟨_, _, rfl, iff_of_true (fun _ _ => .refl db) fun hNone => ?_⟩
    rw [hId] at hNone
    cases hNone
  | none =>
    rw [heartbeatExecutionAttempt, identified_of_valid hId, Tx.ask_bind, Tx.get_bind]
    cases hAttempt : db.executionAttempts.rows.find? fun row =>
        row.isRunningAt planId executionId stepId attemptNumber with
    | none =>
      rw [List.find?_eq_none] at hAttempt
      exact ⟨_, _, rfl, iff_of_true (fun _ _ => .refl db) fun _ =>
        .inl fun row hRow hRunning => absurd hRunning (hAttempt row hRow)⟩
    | some attempt =>
      dsimp only
      rw [Tx.modify_bind]
      change ∃ result db', (renewExecutionLockTx planId executionId .none >>= _) env
        (stampedDb planId executionId stepId attemptNumber env db) = _ ∧ _
      have hLock : (stampedDb planId executionId stepId attemptNumber env db).lockOf planId = db.lockOf planId :=
        lockOf_updateAttempts db _ _ _ _ planId
      obtain ⟨err, db', hRun, hSame, hNot⟩ | ⟨row, grant, hRow, hHeld, hRun⟩ := renewExecutionLockTx_answer planId
        executionId .none env (stampedDb planId executionId stepId attemptNumber env db)
      · rw [hLock] at hNot
        rw [Tx.bind_of_ok hRun]
        refine ⟨_, _, rfl, fun hRefused _ => .inl ?_, fun hKeeps _ _ => ?_⟩
        · exact stampedDb_attempts.mp (hSame.attempts.symm.trans (hRefused err rfl).attempts)
        · obtain hStamped | ⟨row, hRow, hHeld⟩ := hKeeps hId
          · exact ⟨hSame.attempts.trans (stampedDb_attempts.mpr hStamped), hSame.locks, hSame.executions, hSame.state,
              hSame.ledger⟩
          · exact absurd hHeld (hNot row hRow (excludes_none _))
      · rw [hLock] at hRow
        rw [Tx.bind_of_ok hRun]
        exact ⟨_, _, rfl, iff_of_true (fun _ hError => nomatch hError) fun _ => .inr ⟨row, hRow, hHeld⟩⟩

end Attempts

section Refusals

/-- A heartbeat stamps no attempt anew or may renew the lock; of the other calls nothing is asked. -/
def WriteCall.Keeps (call : WriteCall) (db : Db) : Prop :=
  ∀ stepId attemptNumber, call.op = .heartbeatAttempt stepId attemptNumber →
    HeartbeatKeeps call.planId call.executionId stepId attemptNumber call.env db

theorem AllOrNothing.outcome {call : WriteCall} {db : Db} (h : AllOrNothing call.env db call.work)
    (hOther : ∀ stepId attemptNumber, call.op ≠ .heartbeatAttempt stepId attemptNumber) :
    call.work call.env db = .ok (call.outcome db) ∧
      ((∀ err, (call.outcome db).1 = .error err → Unchanged db (call.outcome db).2) ↔ call.Keeps db) := by
  obtain ⟨result, db', hRun, hRefused⟩ := h
  rw [WriteCall.outcome, transact_of_ok hRun]
  exact ⟨hRun, iff_of_true hRefused fun stepId attemptNumber hOp => absurd hOp (hOther stepId attemptNumber)⟩

/-- Every call returns, inside a transaction of its own as inside its caller's. A refused one leaves the rows as they
were exactly where it is no heartbeat that stamps a running attempt anew without a lock that it may renew. -/
theorem refused_call_unchanged_iff (call : WriteCall) (db : Db) :
    call.work call.env db = .ok (call.outcome db) ∧
      ((∀ err, (call.outcome db).1 = .error err → Unchanged db (call.outcome db).2) ↔ call.Keeps db) := by
  obtain ⟨env, op, planId, executionId, scope⟩ := call
  cases op with
  | acquireLock => exact (allOrNothing_acquire planId executionId scope env db).withoutData.outcome nofun
  | acquireOrReuseLock => exact (allOrNothing_acquireOrReuse planId executionId scope env db).withoutData.outcome nofun
  | renewLock => exact (allOrNothing_renew planId executionId scope env db).withoutData.outcome nofun
  | releaseLock => exact (allOrNothing_release planId executionId scope env db).withoutData.outcome nofun
  | createAttempt stepId sideEffectClass idempotencyKey =>
    exact (allOrNothing_create sideEffectClass idempotencyKey).withoutData.outcome nofun
  | completeAttempt stepId attemptNumber => exact (allOrNothing_finalize .completed).withoutData.outcome nofun
  | failAttempt stepId attemptNumber => exact (allOrNothing_finalize .failed).withoutData.outcome nofun
  | cancelAttempt stepId attemptNumber => exact (allOrNothing_finalize .cancelled).withoutData.outcome nofun
  | appendEvent event => exact (allOrNothing_appendGiven planId event).withoutData.outcome nofun
  | heartbeatAttempt stepId attemptNumber =>
    obtain ⟨result, db', hRun, hIff⟩ := @heartbeat_spec planId executionId stepId attemptNumber env db
    have hWork : withoutData (heartbeatExecutionAttempt planId executionId stepId attemptNumber) env db =
        .ok (result.map fun _ => (), db') := by
      rw [withoutData, Tx.bind_of_ok hRun]
      rfl
    have hOutcome : WriteCall.outcome ⟨env, .heartbeatAttempt stepId attemptNumber, planId, executionId, scope⟩ db =
        (result.map fun _ => (), db') := transact_of_ok hWork
    rw [hOutcome]
    refine ⟨hWork, ?_⟩
    have hError : ∀ err, (result.map fun _ => ()) = .error err ↔ result = .error err := by
      intro err
      cases result with
      | error _ => exact ⟨fun h => congrArg Except.error (Except.error.inj h), fun h => congrArg Except.error (Except.error.inj h)⟩
      | ok data => exact ⟨nofun, nofun⟩
    simp only [hError, hIff]
    refine ⟨fun hKeeps _ _ hOp => ?_, fun hKeeps => hKeeps stepId attemptNumber rfl⟩
    obtain ⟨rfl, rfl⟩ := WriteOp.heartbeatAttempt.inj hOp
    exact hKeeps

end Refusals

section Examples

/-- One attempt runs, and its plan has no lock. -/
def unlockedDb : Db := (transact (createExecutionAttempt "plan" "run" "step" .pureRead none) ⟨0, "worker"⟩ .empty).2

def unlockedHeartbeat : WriteCall := ⟨⟨5, "worker"⟩, .heartbeatAttempt "step" 1, "plan", "run", .none⟩

theorem refused_heartbeat_stamps :
    (unlockedHeartbeat.outcome unlockedDb).1 = .error ⟨"NOT_FOUND", "Execution lock plan was not found."⟩ ∧
      unlockedDb.executionAttempts.rows.map AttemptRow.leaseExpiresAt = [30000] ∧
      (unlockedHeartbeat.outcome unlockedDb).2.executionAttempts.rows.map AttemptRow.leaseExpiresAt = [30005] ∧
      ¬ ∀ (call : WriteCall) (db : Db), ∀ err, (call.outcome db).1 = .error err → Unchanged db (call.outcome db).2 := by
  have hRefused : (unlockedHeartbeat.outcome unlockedDb).1 =
      .error ⟨"NOT_FOUND", "Execution lock plan was not found."⟩ := by decide +kernel
  have hBefore : unlockedDb.executionAttempts.rows.map AttemptRow.leaseExpiresAt = [30000] := by decide +kernel
  have hAfter : (unlockedHeartbeat.outcome unlockedDb).2.executionAttempts.rows.map AttemptRow.leaseExpiresAt =
      [30005] := by decide +kernel
  refine ⟨hRefused, hBefore, hAfter, fun hAll => ?_⟩
  rw [(hAll unlockedHeartbeat unlockedDb _ hRefused).attempts, hBefore] at hAfter
  cases hAfter

end Examples

end CommandConsole.Execution
