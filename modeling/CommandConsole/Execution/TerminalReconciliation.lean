import CommandConsole.Execution.LockOperations
import CommandConsole.Execution.Reconciliation

/-! # Reconciling a finished plan

Reconciliation needs the plan's lock, and the checker calls a terminal
checkpoint under an active lock corrupted. A terminal plan is therefore reported
as terminal only when an operator-recovery item of it has just expired, for that
branch comes before the checker.
-/
namespace CommandConsole.Execution
open Library
set_option autoImplicit false

section Writes

variable (planId executionId : String)

/-- What a granted acquire call leaves. -/
def acquiredDb (scope : TenantScope) (existing : Option LockRow) (eventType : EventType) (env : Env)
    (db : Db) : Db :=
  ((db.putLock (acquiredLockRow planId executionId scope env existing)).syncLease executionId
    (some env.workerId) (some (env.nowMs + leaseDurationMs))).log
      (LedgerEvent.toRow { planId, executionId := some executionId, eventType } env.nowMs)

def transitionedCheckpoint (options : TransitionOptions) (env : Env) (db : Db) : Option Checkpoint :=
  match options.status, readCheckpointRow db planId with
  | some next, some row => some { options.overrides.apply next row with updatedAt := env.nowMs }
  | _, checkpoint => checkpoint

def checkpointedDb (options : TransitionOptions) (env : Env) (db : Db) : Db :=
  match options.status, readCheckpointRow db planId with
  | some next, some row => db.putCheckpoint { options.overrides.apply next row with updatedAt := env.nowMs }
  | _, _ => db

def eventLoggedDb (options : TransitionOptions) (env : Env) (db : Db) : Db :=
  match options.eventType with
  | none => db
  | some eventType => db.log (LedgerEvent.toRow {
      planId, executionId := some executionId, stepId := options.stepId
      attemptNumber := options.attemptNumber, eventType } env.nowMs)

/-- What a transition that releases the lock leaves. -/
def transitionedDb (options : TransitionOptions) (env : Env) (db : Db) : Db :=
  releasedDb planId executionId env
    (eventLoggedDb planId executionId options env (checkpointedDb planId options env db))

end Writes

section Transition

variable {planId executionId : String} {options : TransitionOptions} {db : Db} {row : LockRow}

theorem lockOf_checkpointedDb (env : Env) (other : String) :
    (checkpointedDb planId options env db).lockOf other = db.lockOf other := by
  unfold checkpointedDb
  split <;> rfl

theorem lockOf_eventLoggedDb (env : Env) (other : String) :
    (eventLoggedDb planId executionId options env db).lockOf other = db.lockOf other := by
  unfold eventLoggedDb
  split <;> rfl

theorem transitionCheckpoint_apply (env : Env) :
    transitionCheckpoint options.status options.overrides (readCheckpointRow db planId) env db =
      .ok (transitionedCheckpoint planId options env db, checkpointedDb planId options env db) := by
  unfold transitionCheckpoint transitionedCheckpoint checkpointedDb
  cases options.status with
  | none => cases readCheckpointRow db planId <;> rfl
  | some next => cases readCheckpointRow db planId <;> rfl

theorem transitionEvent_apply (env : Env) :
    transitionEvent planId executionId options env db =
      .ok ((), eventLoggedDb planId executionId options env db) := by
  unfold transitionEvent eventLoggedDb
  cases options.eventType <;> rfl

/-- Under a held lock a transition that releases it succeeds. -/
theorem finalizeExecutionTransition_of_held (hRow : db.lockOf planId = some row)
    (hExecution : row.executionId = executionId)
    (hCheckpoint : readCheckpointRow db planId ≠ none ∨ options.requireCheckpoint = false)
    (hRelease : options.releaseLock = true) (env : Env) :
    finalizeExecutionTransition planId executionId options env db =
      .ok (.ok (transitionedCheckpoint planId options env db),
        transitionedDb planId executionId options env db) := by
  unfold finalizeExecutionTransition
  rw [Tx.get_bind, if_neg (by rintro ⟨hNone, hRequired⟩; simp [hNone, hRequired] at hCheckpoint)]
  rw [Tx.bind_of_ok (transitionCheckpoint_apply env), Tx.bind_of_ok (transitionEvent_apply env),
    if_pos hRelease]
  have hLock : (eventLoggedDb planId executionId options env
      (checkpointedDb planId options env db)).lockOf planId = some row := by
    rw [lockOf_eventLoggedDb, lockOf_checkpointedDb, hRow]
  have hScope : TenantScope.none.excludes row.tenantId = false := rfl
  have hThrow := releaseExecutionLockTx_of_held hLock hExecution hScope env
  have hOr : orThrow (releaseExecutionLockTx planId executionId .none) env
      (eventLoggedDb planId executionId options env (checkpointedDb planId options env db)) =
      .ok (releasedGrant planId executionId env row, transitionedDb planId executionId options env db) := by
    unfold orThrow
    rw [Tx.bind_of_ok hThrow]
    rfl
  rw [Tx.bind_of_ok hOr]
  rfl

end Transition

section Reads

variable {planId executionId : String} {db : Db} {row : LockRow}

theorem listExecutionLocks_eq (db : Db) (planId : String) :
    listExecutionLocks db planId = (db.lockOf planId).toList := db.executionLocks.filter_key planId

theorem activeLocks_of_held (hRow : db.lockOf planId = some row) (hReleased : row.lockReleasedAt = none) :
    activeLocks db planId = [row] := by
  rw [activeLocks, listExecutionLocks_eq, hRow, Option.toList_some, List.filter_singleton]
  simp [hReleased]

/-- A terminal checkpoint under an active lock is an issue. -/
theorem collectIntegrityIssues_of_terminal_held {checkpoint : Checkpoint} (planIds : Option (List String))
    (hCheckpoint : readCheckpointRow db planId = some checkpoint)
    (hTerminal : checkpoint.status.terminalCheckpoint = true) (hLocks : activeLocks db planId = [row]) :
    collectIntegrityIssues db planId planIds ≠ [] := by
  have hLock : lockIssues planId (readCheckpointRow db planId) (activeLocks db planId) ≠ [] := by
    simp [lockIssues, issueIf, hCheckpoint, hTerminal, hLocks]
  intro hNone
  simp only [collectIntegrityIssues, List.append_eq_nil_iff] at hNone
  exact hLock hNone.1.1.1.1.2

def corruptedEvents (db : Db) (planId : String) : Nat :=
  (listLedgerEvents db planId).countP fun event => event.eventType = .executionCorrupted

theorem corruptedEvents_append {db' : Db} {events : List LedgerRow}
    (h : db'.executionLedger = db.executionLedger ++ events)
    (hEvents : ∀ event ∈ events, event.eventType ≠ .executionCorrupted) :
    corruptedEvents db' planId = corruptedEvents db planId := by
  have hNew : (events.filter fun event => event.planId = planId).countP
      (fun event => event.eventType = .executionCorrupted) = 0 := by
    rw [List.countP_eq_zero]
    intro event hEvent
    simpa using hEvents event (List.mem_of_mem_filter hEvent)
  rw [corruptedEvents, listLedgerEvents, h, List.filter_append, List.countP_append, hNew, Nat.add_zero]
  rfl

end Reads

section TransitionReads

variable {planId executionId : String} {options : TransitionOptions} {db : Db} {checkpoint : Checkpoint}

theorem checkpointedDb_executionLedger (env : Env) :
    (checkpointedDb planId options env db).executionLedger = db.executionLedger := by
  unfold checkpointedDb
  split <;> rfl

theorem eventLoggedDb_executionState (env : Env) :
    (eventLoggedDb planId executionId options env db).executionState = db.executionState := by
  unfold eventLoggedDb
  split <;> rfl

theorem readCheckpointRow_transitionedDb {next : Status} (hStatus : options.status = some next)
    (hCheckpoint : readCheckpointRow db planId = some checkpoint) {env : Env} :
    readCheckpointRow (transitionedDb planId executionId options env db) planId =
      some { options.overrides.apply next checkpoint with updatedAt := env.nowMs } := by
  have hState : (transitionedDb planId executionId options env db).executionState =
      (checkpointedDb planId options env db).executionState := by
    rw [transitionedDb, releasedDb, Db.log_executionState, Db.syncLease_executionState,
      Db.updateLock_executionState, eventLoggedDb_executionState]
  have hPut : checkpointedDb planId options env db =
      db.putCheckpoint { options.overrides.apply next checkpoint with updatedAt := env.nowMs } := by
    unfold checkpointedDb
    rw [hStatus, hCheckpoint]
  have hKey : planId = { options.overrides.apply next checkpoint with updatedAt := env.nowMs }.planId :=
    (readCheckpointRow_planId hCheckpoint).symm
  rw [readCheckpointRow_congr hState, hPut]
  conv_lhs => rw [hKey]
  rw [readCheckpointRow_putCheckpoint]
  simp only [CheckpointOverrides.apply, normalizeCheckpointStatus_idempotent]

end TransitionReads

theorem acquireExecutionLock_of_ok {planId executionId : String} {scope : TenantScope} {env : Env} {db : Db}
    {grant : LockGrant} (h : (transact (acquireExecutionLockTx planId executionId scope) env db).1 = .ok grant) :
    isBlank planId = false ∧ ∃ existing,
      (transact (acquireExecutionLockTx planId executionId scope) env db).2 =
        acquiredDb planId executionId scope existing .leaseAcquired env db := by
  cases hId : ensureIdentity planId executionId with
  | some err =>
    have hRun : acquireExecutionLockTx planId executionId scope env db = .ok (.error err, db) := by
      rw [acquireExecutionLockTx, identified_of_invalid hId, Tx.pure_apply]
    rw [transact_of_ok hRun] at h
    cases h
  | none =>
    have hBlank : isBlank planId = false := by
      by_contra hBlank
      rw [Bool.not_eq_false] at hBlank
      simp [ensureIdentity, hBlank] at hId
    have hRun := acquireExecutionLockTx_apply scope hId env db
    refine ⟨hBlank, ?_⟩
    cases hRow : db.lockOf planId with
    | none =>
      rw [hRow] at hRun
      dsimp only at hRun
      rw [writeAcquiredLockTx_apply] at hRun
      rw [transact_of_ok hRun]
      exact ⟨none, rfl⟩
    | some row =>
      rw [hRow] at hRun
      dsimp only at hRun
      by_cases hReleased : row.lockReleasedAt = none
      · rw [if_pos hReleased, lockConflictTx_apply] at hRun
        rw [transact_of_ok hRun] at h
        cases h
      · rw [if_neg hReleased, writeAcquiredLockTx_apply] at hRun
        rw [transact_of_ok hRun]
        exact ⟨some row, rfl⟩

section Acquired

variable {planId executionId : String} {scope : TenantScope} {existing : Option LockRow} {env : Env} {db : Db}

theorem lockOf_acquiredDb {eventType : EventType} :
    (acquiredDb planId executionId scope existing eventType env db).lockOf planId =
      some (acquiredLockRow planId executionId scope env existing) := by
  rw [acquiredDb, lockOf_log, lockOf_syncLease, lockOf_putLock]
  exact if_pos rfl

theorem readCheckpointRow_acquiredDb {eventType : EventType} (other : String) :
    readCheckpointRow (acquiredDb planId executionId scope existing eventType env db) other =
      readCheckpointRow db other :=
  readCheckpointRow_congr (by simp [acquiredDb]) other

end Acquired

/-- The actions that belong to a terminal status. -/
def terminalActions : Status → List ReconcileAction
  | .completed => [.completed]
  | .cancelled => [.cancelled]
  | _ => [.halt, .abandon, .operatorRecovery]

/-- Reconciliation reports the terminal status, and nothing marks the plan corrupted. -/
structure ReportsTerminal (planId : String) (status : Status) (before : Db)
    (outcome : Result Reconciliation × Db) : Prop where
  reported : ∃ reconciliation, outcome.1 = .ok reconciliation ∧
    reconciliation.action ∈ terminalActions status
  uncorrupted : ∀ row, readCheckpointRow outcome.2 planId = some row → row.status ≠ .corrupted
  silent : corruptedEvents outcome.2 planId = corruptedEvents before planId

section Reconcile

variable {plan : CheckpointPlan} {clock : Nat → Env} {db : Db} {row : LockRow} {checkpoint : Checkpoint}

/-- An expired item abandons the plan before the checker runs. -/
theorem reconcileExecutionState_of_expired (hId : plan.id ≠ "") (hRow : db.lockOf plan.id = some row)
    (hReleased : row.lockReleasedAt = none) (hCheckpoint : readCheckpointRow db plan.id = some checkpoint)
    (hExpired : expiredRows plan.id (clock 0).nowMs db ≠ []) :
    let options : TransitionOptions := {
      status := some .executionAbandoned, eventType := some .executionAbandoned, requireCheckpoint := false }
    let expired := expiredDb plan.id (clock 0).nowMs db
    Session.run (reconcileExecutionState plan) clock db =
      (.ok ⟨.abandon, transitionedCheckpoint plan.id options (clock 1) expired <|> some checkpoint,
          row.executionId, none⟩,
        transitionedDb plan.id row.executionId options (clock 1) expired) := by
  intro options expired
  have hLocks : activeLocks expired plan.id = [row] := activeLocks_of_held hRow hReleased
  have hRead : readCheckpointRow expired plan.id = some checkpoint := hCheckpoint
  have hTransition : transact (finalizeExecutionTransition plan.id row.executionId options) (clock 1) expired =
      (.ok (transitionedCheckpoint plan.id options (clock 1) expired),
        transitionedDb plan.id row.executionId options (clock 1) expired) :=
    transact_of_ok (finalizeExecutionTransition_of_held
      (show expired.lockOf plan.id = some row from hRow) rfl (.inr rfl) rfl (clock 1))
  have hRun : reconcileExecutionState plan clock 0 db =
      transition plan.id row.executionId options .abandon (some checkpoint) clock 1 expired := by
    unfold reconcileExecutionState
    rw [if_neg hId, transaction_bind, transact_of_ok (expireOperatorRecoveryItems_apply _ _ _)]
    dsimp only
    rw [Session.read_bind]
    simp only [id_eq]
    rw [show activeLocks (expiredDb plan.id (clock 0).nowMs db) plan.id = [row] from hLocks]
    dsimp only [List.head?_cons]
    rw [if_pos hExpired, show readCheckpointRow (expiredDb plan.id (clock 0).nowMs db) plan.id =
      some checkpoint from hRead]
    rfl
  unfold Session.run
  rw [hRun, transition, transaction_bind, hTransition]
  rfl

/-- Without an expired item the checker comes next. -/
theorem reconcileExecutionState_of_unexpired (hId : plan.id ≠ "") (hRow : db.lockOf plan.id = some row)
    (hReleased : row.lockReleasedAt = none) (hFresh : expiredRows plan.id (clock 0).nowMs db = []) :
    reconcileExecutionState plan clock 0 db =
      reconcileValidated plan row clock 1 (expiredDb plan.id (clock 0).nowMs db) := by
  unfold reconcileExecutionState
  rw [if_neg hId, transaction_bind, transact_of_ok (expireOperatorRecoveryItems_apply _ _ _)]
  dsimp only
  rw [Session.read_bind]
  simp only [id_eq]
  rw [show activeLocks (expiredDb plan.id (clock 0).nowMs db) plan.id = [row] from
    activeLocks_of_held hRow hReleased]
  dsimp only [List.head?_cons]
  rw [if_neg (not_not.mpr hFresh)]

/-- Without an expired item the checker runs under the lock and reports corruption. -/
theorem reconcileExecutionState_of_fresh (hBlank : isBlank plan.id = false)
    (hRow : db.lockOf plan.id = some row) (hReleased : row.lockReleasedAt = none)
    (hCheckpoint : readCheckpointRow db plan.id = some checkpoint)
    (hTerminal : checkpoint.status.terminalCheckpoint = true)
    (hFresh : expiredRows plan.id (clock 0).nowMs db = []) :
    ∃ err, (Session.run (reconcileExecutionState plan) clock db).1 = .error err := by
  have hId : plan.id ≠ "" := by
    intro h
    rw [h] at hBlank
    cases hBlank
  have hIssues : collectIntegrityIssues (expiredDb plan.id (clock 1).nowMs (expiredDb plan.id (clock 0).nowMs db))
      plan.id (some (renormalizedIds plan.stepIds)) ≠ [] :=
    collectIntegrityIssues_of_terminal_held (some (renormalizedIds plan.stepIds)) hCheckpoint hTerminal
      (activeLocks_of_held hRow hReleased)
  have hValidate : (validateExecutionIntegrity plan.id (some plan.stepIds) clock 1
      (expiredDb plan.id (clock 0).nowMs db)).1 =
        .error ⟨"CORRUPTED", s!"Execution integrity validation failed for {plan.id}."⟩ := by
    unfold validateExecutionIntegrity
    rw [if_neg (by simp [hBlank]), transaction_bind,
      transact_of_ok (expireOperatorRecoveryItems_apply _ _ _), Session.read_bind]
    simp only [id_eq, Option.map_some]
    rw [if_pos hIssues]
    split <;> rfl
  refine ⟨⟨"CORRUPTED", s!"Execution integrity validation failed for {plan.id}."⟩, ?_⟩
  unfold Session.run
  rw [reconcileExecutionState_of_unexpired hId hRow hReleased hFresh, reconcileValidated, Session.bind_apply,
    hValidate]
  rfl

/-- In the terminal states the lock and the checkpoint are all that decides. -/
theorem reportsTerminal_of_expired (hId : plan.id ≠ "") (hRow : db.lockOf plan.id = some row)
    (hReleased : row.lockReleasedAt = none) (hCheckpoint : readCheckpointRow db plan.id = some checkpoint)
    (hExpired : expiredRows plan.id (clock 0).nowMs db ≠ []) :
    ReportsTerminal plan.id checkpoint.status db (Session.run (reconcileExecutionState plan) clock db) ↔
      ReconcileAction.abandon ∈ terminalActions checkpoint.status := by
  rw [reconcileExecutionState_of_expired hId hRow hReleased hCheckpoint hExpired]
  constructor
  · rintro ⟨⟨reconciliation, hOk, hAction⟩, -, -⟩
    rw [Except.ok.injEq] at hOk
    rw [← hOk] at hAction
    exact hAction
  · intro hAction
    refine ⟨⟨_, rfl, hAction⟩, ?_, ?_⟩
    · intro after hAfter
      dsimp only at hAfter
      rw [readCheckpointRow_transitionedDb rfl (show readCheckpointRow (expiredDb plan.id (clock 0).nowMs db)
        plan.id = some checkpoint from hCheckpoint), Option.some.injEq] at hAfter
      rw [← hAfter]
      exact (by decide : normalizeCheckpointStatus .executionAbandoned ≠ .corrupted)
    · have hLedger : (transitionedDb plan.id row.executionId {
          status := some .executionAbandoned, eventType := some .executionAbandoned, requireCheckpoint := false }
          (clock 1) (expiredDb plan.id (clock 0).nowMs db)).executionLedger = db.executionLedger ++
          (((expiredRows plan.id (clock 0).nowMs db).map fun item => (expiredEvent item).toRow (clock 0).nowMs) ++
            [LedgerEvent.toRow {
                planId := plan.id, executionId := some row.executionId, eventType := .executionAbandoned }
                (clock 1).nowMs] ++
            [LedgerEvent.toRow {
                planId := plan.id, executionId := some row.executionId, eventType := .leaseReleased }
                (clock 1).nowMs]) := by
        simp [transitionedDb, releasedDb, eventLoggedDb, checkpointedDb_executionLedger]
      refine corruptedEvents_append hLedger ?_
      intro event hEvent
      simp only [List.mem_append, List.mem_map, List.mem_singleton] at hEvent
      obtain (⟨item, -, rfl⟩ | rfl) | rfl := hEvent
      · exact (by decide : EventType.recoveryExpired ≠ .executionCorrupted)
      · exact (by decide : EventType.executionAbandoned ≠ .executionCorrupted)
      · exact (by decide : EventType.leaseReleased ≠ .executionCorrupted)

/-- Reconciled under a freshly acquired lock, a terminal plan is reported as such exactly when it failed or
was abandoned and one of its unresolved recovery items has expired. -/
theorem reconcileExecutionState_reportsTerminal_iff (plan : CheckpointPlan) (executionId : String)
    (scope : TenantScope) (env : Env) (clock : Nat → Env) (db : Db) (grant : LockGrant)
    (checkpoint : Checkpoint)
    (hAcquire : (transact (acquireExecutionLockTx plan.id executionId scope) env db).1 = .ok grant)
    (hCheckpoint : readCheckpointRow db plan.id = some checkpoint)
    (hTerminal : checkpoint.status ∈ [.completed, .cancelled, .failed, .executionAbandoned]) :
    let held := (transact (acquireExecutionLockTx plan.id executionId scope) env db).2
    ReportsTerminal plan.id checkpoint.status held (Session.run (reconcileExecutionState plan) clock held) ↔
      checkpoint.status ∈ [.failed, .executionAbandoned] ∧
        ∃ row ∈ db.executionRecoveryQueue, row.expired plan.id (clock 0).nowMs := by
  obtain ⟨hBlank, existing, hHeld⟩ := acquireExecutionLock_of_ok hAcquire
  rw [hHeld]
  intro held
  have hId : plan.id ≠ "" := fun h => by simp [h, isBlank] at hBlank
  have hRow : held.lockOf plan.id = some (acquiredLockRow plan.id executionId scope env existing) :=
    lockOf_acquiredDb
  have hRead : readCheckpointRow held plan.id = some checkpoint :=
    (readCheckpointRow_acquiredDb plan.id).trans hCheckpoint
  have hStatus : ReconcileAction.abandon ∈ terminalActions checkpoint.status ↔
      checkpoint.status ∈ [.failed, .executionAbandoned] := by
    simp only [List.mem_cons, List.not_mem_nil, or_false] at hTerminal
    obtain h | h | h | h := hTerminal <;> rw [h] <;> decide
  have hRows : expiredRows plan.id (clock 0).nowMs held ≠ [] ↔
      ∃ row ∈ db.executionRecoveryQueue, row.expired plan.id (clock 0).nowMs := by
    have hQueue : held.executionRecoveryQueue = db.executionRecoveryQueue := by simp [held, acquiredDb]
    rw [expiredRows, hQueue, ne_eq, List.filter_eq_nil_iff]
    simp only [Bool.not_eq_true, not_forall, Bool.not_eq_false, exists_prop]
  by_cases hExpired : expiredRows plan.id (clock 0).nowMs held = []
  · have hTerminal' : checkpoint.status.terminalCheckpoint = true := by
      simp only [List.mem_cons, List.not_mem_nil, or_false] at hTerminal
      obtain h | h | h | h := hTerminal <;> rw [h] <;> rfl
    obtain ⟨err, hErr⟩ := reconcileExecutionState_of_fresh hBlank hRow rfl hRead hTerminal' hExpired
    constructor
    · rintro ⟨⟨reconciliation, hOk, -⟩, -, -⟩
      rw [hErr] at hOk
      cases hOk
    · rintro ⟨-, hSome⟩
      exact absurd hExpired (hRows.mpr hSome)
  · rw [reportsTerminal_of_expired hId hRow rfl hRead hExpired, hStatus]
    exact (and_iff_left (hRows.mp hExpired)).symm

end Reconcile

section Completed

def finishedPlan : CheckpointPlan where
  id := "plan_1"
  steps := [⟨"step_a", true, none, .safe, .pureRead, []⟩]

def finishedEvent (eventType : EventType) : LedgerRow :=
  ⟨"plan_1", some "exec_1", none, none, eventType, none, 0⟩

/-- A plan whose execution ran to its end and released the lock. -/
def finishedDb (status : Status) (event : EventType) (queue : List RecoveryRow) : Db :=
  { Db.empty with
    executionState := PlainTable.put .empty ⟨"plan_1", none, 1, status, 0, false, 0⟩
    executionLocks := PlainTable.put .empty
      ⟨none, none, "plan_1", "exec_1", "worker_1", 0, some 0, some 0, some 0, 0⟩
    executionLedger := [finishedEvent .executionCreated, finishedEvent .executionStarted, finishedEvent event]
    executionRecoveryQueue := queue }

def expiringItem : RecoveryRow :=
  ⟨"plan_1", "exec_1", some "step_a", "recovery_ambiguous", .running, ["inspect"], none, 0, 1000, none⟩

theorem failed_plan_reported_after_expiry :
    ReportsTerminal "plan_1" .failed
      (transact (acquireExecutionLockTx "plan_1" "exec_2" .none) ⟨1000, "worker_2"⟩
        (finishedDb .failed .executionFailed [expiringItem])).2
      (Session.run (reconcileExecutionState finishedPlan) (fun _ => ⟨1000, "worker_2"⟩)
        (transact (acquireExecutionLockTx "plan_1" "exec_2" .none) ⟨1000, "worker_2"⟩
          (finishedDb .failed .executionFailed [expiringItem])).2) :=
  (reconcileExecutionState_reportsTerminal_iff finishedPlan "exec_2" .none ⟨1000, "worker_2"⟩
    (fun _ => ⟨1000, "worker_2"⟩) (finishedDb .failed .executionFailed [expiringItem]) _ _ rfl rfl
    (by decide)).mpr ⟨by decide, expiringItem, by decide, by decide⟩

/-- A completed plan without any issue is turned corrupted by the worker that reconciles it. -/
theorem completed_plan_not_reported :
    ¬∀ (plan : CheckpointPlan) (executionId : String) (scope : TenantScope) (env : Env) (clock : Nat → Env)
      (db : Db) (grant : LockGrant) (checkpoint : Checkpoint),
      activeLocks db plan.id = [] → collectIntegrityIssues db plan.id (some plan.stepIds) = [] →
      readCheckpointRow db plan.id = some checkpoint →
      checkpoint.status ∈ [.completed, .cancelled, .failed, .executionAbandoned] →
      (transact (acquireExecutionLockTx plan.id executionId scope) env db).1 = .ok grant →
      let held := (transact (acquireExecutionLockTx plan.id executionId scope) env db).2
      ReportsTerminal plan.id checkpoint.status held
        (Session.run (reconcileExecutionState plan) clock held) := by
  intro h
  obtain ⟨⟨reconciliation, hOk, -⟩, -, -⟩ :=
    h finishedPlan "exec_2" .none ⟨1000, "worker_2"⟩ (fun _ => ⟨1000, "worker_2"⟩)
      (finishedDb .completed .executionCompleted []) _ _ (by decide) (by decide) rfl (by decide) rfl
  have hFresh : ∃ err, (Session.run (reconcileExecutionState finishedPlan) (fun _ => ⟨1000, "worker_2"⟩)
      (transact (acquireExecutionLockTx "plan_1" "exec_2" .none) ⟨1000, "worker_2"⟩
        (finishedDb .completed .executionCompleted [])).2).1 = .error err :=
    reconcileExecutionState_of_fresh (by decide) rfl rfl rfl (by decide) (by decide)
  obtain ⟨err, hErr⟩ := hFresh
  exact absurd (hErr.symm.trans hOk) (by rintro ⟨⟩)

end Completed

end CommandConsole.Execution
