import CommandConsole.Execution.LifecycleAtomic
import CommandConsole.Execution.SnapshotStatuses
import CommandConsole.Execution.TerminalCheckpoint

/-! # What a finalized execution agrees on

Checkpoint, ledger and lock get the status that was asked for. The status of the execution row is read from the
steps of the run that is written, so it is that one where they say so.
-/
namespace CommandConsole.Execution
open Library
set_option autoImplicit false

section Statuses

/-- `FINAL_STATUSES.has(normalizedStatus)`. -/
def FinalStatus.ofText? (text : String) : Option FinalStatus :=
  if wordIs text "completed" then some .completed
  else if wordIs text "failed" then some .failed
  else none

/-- `finalizeExecution` with the status as it is given. -/
def finalizeExecutionAs (executionId finalStatus : String) (runSnapshot : Option Run) : Tx (Result FinalOutcome) :=
  if isBlank executionId then failure "EXECUTION_NOT_FOUND" "executionId is required."
  else
    match FinalStatus.ofText? finalStatus with
    | none => failure "INVALID_STATE" ("Unsupported final status \"" ++ finalStatus ++ "\".")
    | some status => finalizeExecution executionId status runSnapshot

/-- The statuses of the steps say how their run ended. -/
def FinalStatus.saidBy (finalStatus : FinalStatus) (statuses : List String) : Prop :=
  match finalStatus with
  | .completed => statuses ≠ [] ∧ ∀ status ∈ statuses, status ∈ ["completed", "deferred"]
  | .failed => ∃ status ∈ statuses, status ∈ ["failed", "timeout", "blocked"]

theorem normalizeExecutionStatus_of_said {run : Run} {finalStatus : FinalStatus} (hOpen : run.cancelledAt = none)
    (hIdle : run.globalState ≠ "running") (hSaid : finalStatus.saidBy (run.steps.map RunStep.status)) :
    normalizeExecutionStatus run = finalStatus.status := by
  rw [normalizeExecutionStatus, hOpen, if_neg (by simp), if_neg hIdle]
  cases finalStatus with
  | failed =>
    obtain ⟨status, hStatus, hFailed⟩ := hSaid
    obtain ⟨step, hStep, rfl⟩ := List.mem_map.mp hStatus
    rw [if_pos (List.any_eq_true.mpr ⟨step, hStep, decide_eq_true hFailed⟩)]
    rfl
  | completed =>
    obtain ⟨hSome, hAll⟩ := hSaid
    have hDone : ∀ step ∈ run.steps, step.status ∈ ["completed", "deferred"] := fun step hStep =>
      hAll step.status (List.mem_map_of_mem hStep)
    rw [if_neg, if_pos]
    · rfl
    · rw [Bool.and_eq_true, List.all_eq_true]
      refine ⟨?_, fun step hStep => decide_eq_true (hDone step hStep)⟩
      cases hSteps : run.steps with
      | nil => exact absurd (by rw [hSteps]; rfl) hSome
      | cons step rest => rfl
    · intro hFailed
      obtain ⟨step, hStep, hIs⟩ := List.any_eq_true.mp hFailed
      have hEnd := hDone step hStep
      have hFail := of_decide_eq_true hIs
      simp only [List.mem_cons, List.not_mem_nil, or_false] at hEnd hFail
      obtain hEnd | hEnd := hEnd <;> rw [hEnd] at hFail <;> exact absurd hFail (by decide)

/-- The stored steps, or those of the snapshot that is passed in, say that the execution ended so. -/
def FinalStatus.evident (finalStatus : FinalStatus) (db : Db) (executionId : String) (runSnapshot : Option Run) : Prop :=
  (∀ row, db.executions.find? executionId = some row → row.cancelledAt = none) ∧
    match runSnapshot.filter fun run => run.identity.isSome with
    | some run => run.identity = some executionId ∧ run.cancelledAt = none ∧ run.globalState ≠ "running" ∧
        finalStatus.saidBy (run.steps.map RunStep.status)
    | none =>
      match finalStatus with
      | .completed => stepsOf db executionId ≠ []
      | .failed => ∃ step ∈ stepsOf db executionId, step.status ∉ [.completed, .cancelled, .pending]

/-- The run that finalizing writes. -/
def finalRun (db : Db) (executionId : String) (finalStatus : FinalStatus) (runSnapshot : Option Run)
    (execution : ExecutionRow) (nowMs : Int) : Run :=
  match runSnapshot.filter fun run => run.identity.isSome with
  | some run => mergeFinalMetrics (run.identifiedAs (execution.planId.getD "") executionId) (some execution) nowMs
  | none => buildTerminalRun (loadExecutionState db executionId) execution finalStatus nowMs

theorem normalizeFailedTerminalStatus_of_ended {status : Status} (h : status ∉ [.completed, .cancelled, .pending]) :
    normalizeFailedTerminalStatus status "failed" = "failed" := by
  revert h
  cases status <;> decide

theorem finalRun_of_evident {db : Db} {executionId : String} {finalStatus : FinalStatus} {runSnapshot : Option Run}
    {execution : ExecutionRow} (nowMs : Int) (hRow : db.executions.find? executionId = some execution)
    (hBlank : isBlank executionId = false) (h : finalStatus.evident db executionId runSnapshot) :
    (normalizeExecutionRow (finalRun db executionId finalStatus runSnapshot execution nowMs) nowMs).id = executionId ∧
      normalizeExecutionStatus (finalRun db executionId finalStatus runSnapshot execution nowMs) = finalStatus.status := by
  obtain ⟨hOpen, hSteps⟩ := h
  have hCancelled := hOpen execution hRow
  have hId : execution.id = executionId := Table.find?_key hRow
  have hNonempty : executionId ≠ "" := by
    rintro rfl
    cases hBlank
  rw [finalRun]
  split at hSteps
  · rename_i run hRun
    obtain ⟨hIdentity, hRunOpen, hIdle, hSaid⟩ := hSteps
    refine ⟨?_, normalizeExecutionStatus_of_said ?_ hIdle hSaid⟩
    · change ((truthy (some (run.identity.getD executionId)) <|> _).getD "") = executionId
      rw [hIdentity, Option.getD_some, truthy, Option.filter_some_pos (by simpa using hNonempty)]
      rfl
    · change (run.cancelledAt <|> execution.cancelledAt) = none
      rw [hRunOpen, hCancelled]
      rfl
  · refine ⟨?_, normalizeExecutionStatus_of_said hCancelled (show "idle" ≠ "running" by decide) ?_⟩
    · change ((truthy (some execution.id) <|> truthy (some execution.id)).getD "") = executionId
      rw [hId, truthy, Option.filter_some_pos (by simpa using hNonempty)]
      rfl
    · change finalStatus.saidBy ((List.map (terminalStep finalStatus nowMs) (loadExecutionState db executionId).steps).map
        RunStep.status)
      rw [loadExecutionState, hRow, List.map_map]
      cases finalStatus with
      | completed =>
        refine ⟨fun hNone => hSteps (List.map_eq_nil_iff.mp hNone), fun status hStatus => ?_⟩
        obtain ⟨step, -, rfl⟩ := List.mem_map.mp hStatus
        exact List.mem_cons_self
      | failed =>
        obtain ⟨step, hStep, hEnded⟩ := hSteps
        refine ⟨_, List.mem_map_of_mem hStep, ?_⟩
        change normalizeFailedTerminalStatus step.status "failed" ∈ _
        rw [normalizeFailedTerminalStatus_of_ended hEnded]
        exact List.mem_cons_self

end Statuses

section Effect

variable {executionId : String} {finalStatus : FinalStatus} {runSnapshot : Option Run} {env : Env} {db db' : Db}

theorem orThrowCode_eq_ok {α : Type} {work : Tx (Result α)} {data : α} :
    orThrowCode work env db = .ok (data, db') ↔ work env db = .ok (.ok data, db') := by
  unfold orThrowCode
  rw [Tx.bind_eq_ok]
  constructor
  · rintro ⟨result, next, hWork, hRest⟩
    cases result with
    | error err => cases hRest
    | ok value =>
      cases hRest
      exact hWork
  · exact fun h => ⟨.ok data, db', h, rfl⟩

theorem underMessage_eq_ok {α : Type} {work : Tx α} {data : α} :
    underMessage work env db = .ok (.ok data, db') ↔ work env db = .ok (data, db') := by
  unfold underMessage
  rw [Tx.mapThrow_eq_ok, Tx.bind_eq_ok]
  constructor
  · rintro ⟨value, next, hWork, hRest⟩
    cases hRest
    exact hWork
  · exact fun h => ⟨data, db', h, rfl⟩

theorem underMessage_ne_error {α : Type} {work : Tx α} {err : Failure} :
    underMessage work env db ≠ .ok (.error err, db') := by
  intro h
  obtain ⟨data, next, -, hRest⟩ := Tx.bind_eq_ok.mp (Tx.mapThrow_eq_ok.mp h)
  cases hRest

theorem appendLedgerEvent_eq_ok {event : LedgerEvent} {createdAt : Int}
    (h : appendLedgerEvent event env db = .ok (.ok createdAt, db')) : db' = db.log (event.toRow env.nowMs) := by
  unfold appendLedgerEvent at h
  split at h
  · cases h
  · cases h
    rfl

/-- A release that succeeds found the lock with the execution. -/
theorem releaseExecutionLock_eq_ok {planId : String} {grant : LockGrant}
    (h : releaseExecutionLock planId executionId .none env db = .ok (.ok grant, db')) :
    ∃ row, db.lockOf planId = some row ∧ row.executionId = executionId ∧ db' = releasedDb planId executionId env db := by
  cases hId : ensureIdentity planId executionId with
  | some err =>
    rw [releaseExecutionLock, identified_of_invalid hId] at h
    cases h
  | none =>
    rw [releaseExecutionLock, identified_of_valid hId] at h
    by_cases hHeld : ∃ row, db.lockOf planId = some row ∧ row.executionId = executionId
    · obtain ⟨row, hRow, hExecution⟩ := hHeld
      rw [releaseExecutionLockTx_of_held hRow hExecution rfl env] at h
      cases h
      exact ⟨row, hRow, hExecution, rfl⟩
    · obtain ⟨err, hRun, -⟩ := @releaseExecutionLockTx_of_refused planId executionId .none db
        (fun row hRow hMay => hHeld ⟨row, hRow, hMay.1⟩) env
      rw [hRun] at h
      cases h

def finalEvent (planId executionId : String) (finalStatus : FinalStatus) (env : Env) : LedgerRow :=
  LedgerEvent.toRow { planId, executionId := some executionId, eventType := finalStatus.eventType } env.nowMs

def releasedEvent (planId executionId : String) (env : Env) : LedgerRow :=
  LedgerEvent.toRow { planId, executionId := some executionId, eventType := .leaseReleased } env.nowMs

/-- What a finalization that succeeds found and left. -/
structure Finalized (executionId : String) (finalStatus : FinalStatus) (runSnapshot : Option Run) (env : Env)
    (db db' : Db) (planId : String) : Prop where
  plan : ∃ row, db.executions.find? executionId = some row ∧ row.planId = some planId
  checkpoint : (readCheckpointRow db' planId).map Checkpoint.status = some finalStatus.status
  execution : finalStatus.evident db executionId runSnapshot → db'.executionStatus executionId = some finalStatus.status
  ledger : db'.executionLedger = db.executionLedger ++
    [finalEvent planId executionId finalStatus env, releasedEvent planId executionId env]
  lock : ∃ row, db'.lockOf planId = some row ∧ row.executionId = executionId ∧ row.lockReleasedAt = some env.nowMs

theorem executionStatus_releasedDb (planId : String) (db : Db) (id : String) :
    (releasedDb planId executionId env db).executionStatus id = db.executionStatus id := by
  rw [releasedDb, Db.executionStatus, Db.log_executions, Db.syncLease]
  split
  · rfl
  · rw [Db.updateExecution_executions, Table.find?_update, Option.map_map]
    refine Option.map_congr fun row _ => ?_
    rw [Function.comp_apply]
    split <;> rfl

theorem finalizeExecution_ok {outcome : FinalOutcome}
    (h : finalizeExecution executionId finalStatus runSnapshot env db = .ok (.ok outcome, db')) :
    ∃ planId, Finalized executionId finalStatus runSnapshot env db db' planId := by
  unfold finalizeExecution at h
  split at h
  · cases h
  rename_i hNotBlank
  have hBlank : isBlank executionId = false := by simpa using hNotBlank
  rw [underMessage_eq_ok, Tx.ask_bind, Tx.get_bind] at h
  cases hRow : db.executions.find? executionId with
  | none =>
    rw [loadExecutionState, hRow] at h
    cases h
  | some execution =>
    have hLoaded : (loadExecutionState db executionId).execution = some execution := by
      rw [loadExecutionState, hRow]
    rw [hLoaded] at h
    dsimp only at h
    split at h
    · cases h
    split at h
    · cases h
    rename_i hPlanBlank
    have hPlan : execution.planId = some (execution.planId.getD "") := by
      cases hPlan : execution.planId with
      | some planId => rfl
      | none =>
        rw [hPlan] at hPlanBlank
        exact absurd rfl hPlanBlank
    generalize execution.planId.getD "" = planId at h hPlan
    obtain ⟨checkpoint, db₁, hCheckpoint, hRest⟩ := Tx.bind_eq_ok.mp h
    obtain ⟨old, hOld, hNew, rfl⟩ := changeCheckpoint_eq_ok (orThrowCode_eq_ok.mp hCheckpoint)
    obtain ⟨row, db₂, hPersist, hRest⟩ := Tx.bind_eq_ok.mp hRest
    replace hPersist : persistExecutionSnapshot (finalRun db executionId finalStatus runSnapshot execution env.nowMs)
        { auditExecutionIds := [executionId] } env (db.putCheckpoint checkpoint) = .ok (row, db₂) := by
      rw [finalRun, hPlan]
      exact hPersist
    obtain ⟨createdAt, db₃, hAppend, hRest⟩ := Tx.bind_eq_ok.mp hRest
    obtain rfl := appendLedgerEvent_eq_ok (orThrowCode_eq_ok.mp hAppend)
    obtain ⟨grant, db₄, hRelease, hLast⟩ := Tx.bind_eq_ok.mp hRest
    obtain ⟨lock, hLock, hHolder, rfl⟩ := releaseExecutionLock_eq_ok (orThrowCode_eq_ok.mp hRelease)
    cases hLast
    have hStored := keeps_checkpoint_persist planId _ _ env _ row db₂ hPersist
    have hLedgerView : Tx.Keeps Db.executionLedger (persistExecutionSnapshot
        (finalRun db executionId finalStatus runSnapshot execution env.nowMs) { auditExecutionIds := [executionId] }) :=
      keeps_persistExecutionSnapshot (fun _ _ => rfl) (fun _ _ => rfl) (fun _ _ => rfl) _ _
    have hLedger := hLedgerView env _ row db₂ hPersist
    refine ⟨planId, ⟨execution, hRow, hPlan⟩, ?_, fun hEvident => ?_, ?_, ?_⟩
    · have hReleased : readCheckpointRow (releasedDb planId executionId env (db₂.log (LedgerEvent.toRow
          { planId, executionId := some executionId, eventType := finalStatus.eventType } env.nowMs))) planId =
            readCheckpointRow db₂ planId := by
        refine readCheckpointRow_congr ?_ planId
        rw [releasedDb, Db.log_executionState, Db.syncLease_executionState]
        rfl
      have hOldPlan := readCheckpointRow_planId hOld
      have hKey : checkpoint.planId = planId := by
        rw [hNew]
        exact hOldPlan
      have hPut := readCheckpointRow_putCheckpoint db checkpoint
      rw [hKey] at hPut
      rw [hReleased, show readCheckpointRow db₂ planId = _ from hStored.trans hPut, hNew]
      cases finalStatus <;> rfl
    · obtain ⟨hId, hStatus⟩ := finalRun_of_evident env.nowMs hRow hBlank hEvident
      rw [executionStatus_releasedDb]
      change db₂.executionStatus executionId = _
      rw [(persistExecutionSnapshot_ok hPersist).executions, if_pos hId.symm, ← hStatus]
      rfl
    · rw [releasedDb, Db.log_executionLedger, Db.syncLease_executionLedger, Db.updateLock_executionLedger,
        Db.log_executionLedger, hLedger, List.append_assoc]
      rfl
    · exact ⟨releasedLockRow env.nowMs lock, lockOf_releasedDb env hLock hHolder, hHolder, rfl⟩

theorem finalizeExecutionAs_refused {finalStatus : String} {err : Failure}
    (h : finalizeExecutionAs executionId finalStatus runSnapshot env db = .ok (.error err, db')) : db' = db := by
  unfold finalizeExecutionAs at h
  split at h
  · cases h
    rfl
  · cases hStatus : FinalStatus.ofText? finalStatus with
    | none =>
      rw [hStatus] at h
      cases h
      rfl
    | some status =>
      rw [hStatus] at h
      dsimp only at h
      unfold finalizeExecution at h
      split at h
      · cases h
        rfl
      · exact absurd h underMessage_ne_error

theorem finalizeExecutionAs_ok {finalStatus : String} {outcome : FinalOutcome}
    (h : finalizeExecutionAs executionId finalStatus runSnapshot env db = .ok (.ok outcome, db')) :
    ∃ status planId, FinalStatus.ofText? finalStatus = some status ∧
      Finalized executionId status runSnapshot env db db' planId := by
  unfold finalizeExecutionAs at h
  split at h
  · cases h
  · cases hStatus : FinalStatus.ofText? finalStatus with
    | none =>
      rw [hStatus] at h
      cases h
    | some status =>
      rw [hStatus] at h
      obtain ⟨planId, hFinalized⟩ := finalizeExecution_ok h
      exact ⟨status, planId, rfl, hFinalized⟩

end Effect

section Repeated

/-- The types of the terminal ledger events of an execution. -/
def Db.terminalTypes (db : Db) (executionId : String) : List EventType :=
  (db.executionLedger.filter fun row => row.executionId = some executionId && row.eventType.terminal).map
    LedgerRow.eventType

variable {executionId finalStatus : String} {runSnapshot : Option Run} {env : Env} {db db' : Db}

theorem Finalized.terminalTypes {status : FinalStatus} {planId : String}
    (h : Finalized executionId status runSnapshot env db db' planId) :
    db'.terminalTypes executionId = db.terminalTypes executionId ++ [status.eventType] := by
  have hEvents : [finalEvent planId executionId status env, releasedEvent planId executionId env].filter (fun row =>
      row.executionId = some executionId && row.eventType.terminal) = [finalEvent planId executionId status env] := by
    cases status <;> simp [finalEvent, releasedEvent, LedgerEvent.toRow, FinalStatus.eventType, EventType.terminal]
  rw [Db.terminalTypes, h.ledger, List.filter_append, List.map_append, hEvents]
  rfl

/-- A call leaves the state alone or finalizes. -/
theorem finalizeExecutionAs_cases (executionId finalStatus : String) (runSnapshot : Option Run) (env : Env) (db : Db) :
    (transact (finalizeExecutionAs executionId finalStatus runSnapshot) env db).2 = db ∨
      ∃ status planId, FinalStatus.ofText? finalStatus = some status ∧ Finalized executionId status runSnapshot env db
        (transact (finalizeExecutionAs executionId finalStatus runSnapshot) env db).2 planId := by
  cases hRun : finalizeExecutionAs executionId finalStatus runSnapshot env db with
  | error err =>
    rw [transact_of_throw hRun]
    exact .inl rfl
  | ok result =>
    obtain ⟨outcome, next⟩ := result
    rw [transact_of_ok hRun]
    cases outcome with
    | error err => exact .inl (finalizeExecutionAs_refused hRun)
    | ok outcome => exact .inr (finalizeExecutionAs_ok hRun)

end Repeated

section Examples

/-- The one step of the plan is completed and its execution holds the lock. -/
def steppedDb : Db :=
  (completeCall 2 "worker_1").next ((beginCall 1 "worker_1").next
    (transact (acquireExecutionLockTx "plan_1" "exec_1" .none) ⟨0, "worker_1"⟩ startedDb).2)

def endCall (finalStatus : String) (nowMs : Int) (db : Db) : Result FinalOutcome × Db :=
  transact (finalizeExecutionAs "exec_1" finalStatus none) ⟨nowMs, "worker_1"⟩ db

end Examples

end CommandConsole.Execution
