import CommandConsole.Execution.Footprint
import CommandConsole.Library.Journal

/-! # The attempts of the database as a journal

The attempts of a step are numbered items, open while they run, and the
attempt.* ledger events are their entries. Every operation either leaves the
journal as it is, opens the next attempt of a step or closes an attempt.
-/
namespace CommandConsole.Execution
open Library
set_option autoImplicit false

/-- Plan id, execution id and step id. -/
abbrev StepKey := String × String × String

/-- The events that open (`none`) and close an attempt. -/
def EventType.attemptEnd : EventType → Option (Option AttemptStatus)
  | .attemptStarted => some none
  | .attempt status => some (some status)
  | _ => none

def LedgerRow.attemptEntry (row : LedgerRow) : Option (Entry StepKey AttemptStatus) :=
  match row.eventType.attemptEnd, row.executionId, row.stepId, row.attemptNumber with
  | some closedAs, some executionId, some stepId, some number =>
    some ⟨(row.planId, executionId, stepId), number, closedAs⟩
  | _, _, _, _ => none

def Db.attemptStatus (db : Db) (step : StepKey) (number : Int) : Option AttemptStatus :=
  (db.executionAttempts.find? (step.1, step.2.1, step.2.2, number)).map AttemptRow.status

def Db.attemptEvents (db : Db) : List LedgerRow :=
  db.executionLedger.filter fun row => row.eventType.attemptEnd.isSome

def Db.attemptJournal (db : Db) : Journal StepKey AttemptStatus :=
  ⟨db.attemptStatus, db.attemptEvents.filterMap LedgerRow.attemptEntry⟩

/-- All of the database that the journal is made of. -/
def Db.attemptView (db : Db) : (StepKey → Int → Option AttemptStatus) × List LedgerRow :=
  (db.attemptStatus, db.attemptEvents)

theorem attemptStatus_eq_some {db : Db} {step : StepKey} {number : Int} {status : AttemptStatus} :
    db.attemptStatus step number = some status ↔ ∃ row ∈ db.executionAttempts.rows,
      row.key = (step.1, step.2.1, step.2.2, number) ∧ row.status = status := by
  rw [Db.attemptStatus, Option.map_eq_some_iff]
  simp only [Table.find?_eq_some, and_assoc]

theorem attemptStatus_isSome {db : Db} {step : StepKey} {number : Int} :
    (db.attemptStatus step number).isSome ↔ ∃ row ∈ db.executionAttempts.rows,
      row.key = (step.1, step.2.1, step.2.2, number) := by
  rw [Option.isSome_iff_exists]
  constructor
  · rintro ⟨status, h⟩
    obtain ⟨row, hRow, hKey, -⟩ := attemptStatus_eq_some.mp h
    exact ⟨row, hRow, hKey⟩
  · rintro ⟨row, hRow, hKey⟩
    exact ⟨row.status, attemptStatus_eq_some.mpr ⟨row, hRow, hKey, rfl⟩⟩

/-- The status of a row's own attempt. -/
theorem attemptStatus_of_mem {db : Db} {row : AttemptRow} (h : row ∈ db.executionAttempts.rows) :
    db.attemptStatus (row.planId, row.executionId, row.stepId) row.attemptNumber = some row.status :=
  attemptStatus_eq_some.mpr ⟨row, h, rfl, rfl⟩

theorem attemptEvents_log (db : Db) (row : LedgerRow) :
    (db.log row).attemptEvents =
      db.attemptEvents ++ if row.eventType.attemptEnd.isSome then [row] else [] := by
  rw [Db.attemptEvents, Db.log_executionLedger, List.filter_append, List.filter_singleton, Bool.cond_eq_ite]
  rfl

theorem ignoresEvent_attemptView {eventType : EventType} (h : eventType.attemptEnd = none) :
    IgnoresEvent Db.attemptView eventType := by
  rintro db row rfl
  refine Prod.ext rfl ?_
  rw [Db.attemptView, attemptEvents_log, h]
  exact List.append_nil _

theorem ignoresExecutions_attemptView : IgnoresExecutions Db.attemptView := fun _ _ => rfl

theorem ignoresCheckpoints_attemptView : IgnoresCheckpoints Db.attemptView := fun _ _ => rfl

theorem ignoresLocks_attemptView : IgnoresLocks Db.attemptView := fun _ _ => rfl

theorem ignoresSteps_attemptView : IgnoresSteps Db.attemptView := fun _ _ => rfl

theorem ignoresStages_attemptView : IgnoresStages Db.attemptView := fun _ _ => rfl

theorem ignoresQueue_attemptView : IgnoresQueue Db.attemptView := fun _ _ => rfl

def nextAttempt (db : Db) (step : StepKey) : Int := maxAttempt db step.1 step.2.1 step.2.2 + 1

/-- The entry stands in the ledger with all its ids. -/
structure Journaled (db db' : Db) (entry : Entry StepKey AttemptStatus) (status : AttemptStatus) : Prop where
  journal : db'.attemptJournal = db.attemptJournal.record entry status
  event : ∃ row : LedgerRow, row.attemptEntry = some entry ∧ db'.attemptEvents = db.attemptEvents ++ [row]

def Opened (db db' : Db) (step : StepKey) : Prop :=
  Journaled db db' ⟨step, nextAttempt db step, none⟩ .running

def Closed (db db' : Db) (step : StepKey) (number : Int) (status : AttemptStatus) : Prop :=
  (db.attemptStatus step number).isSome ∧ Journaled db db' ⟨step, number, some status⟩ status

theorem attemptJournal_congr {db db' : Db} (h : db'.attemptView = db.attemptView) :
    db'.attemptJournal = db.attemptJournal := by
  rw [Db.attemptView, Db.attemptView, Prod.mk.injEq] at h
  rw [Db.attemptJournal, Db.attemptJournal, h.1, h.2]

theorem Journaled.congr {db db₁ db₂ db' : Db} {entry : Entry StepKey AttemptStatus} {status : AttemptStatus}
    (h : Journaled db₁ db₂ entry status) (hFirst : db₁.attemptView = db.attemptView)
    (hLast : db'.attemptView = db₂.attemptView) : Journaled db db' entry status := by
  have hEvents : db₁.attemptEvents = db.attemptEvents := congrArg Prod.snd hFirst
  have hEvents' : db'.attemptEvents = db₂.attemptEvents := congrArg Prod.snd hLast
  refine ⟨?_, ?_⟩
  · rw [attemptJournal_congr hLast, h.journal, attemptJournal_congr hFirst]
  · rw [← hEvents, hEvents']
    exact h.event

theorem Journaled.of_parts {db db' : Db} {row : LedgerRow} {entry : Entry StepKey AttemptStatus}
    {status : AttemptStatus} (hEntry : row.attemptEntry = some entry)
    (hEvents : db'.attemptEvents = db.attemptEvents ++ [row])
    (hStatus : ∀ step number, db'.attemptStatus step number =
      if step = entry.group ∧ number = entry.number then some status else db.attemptStatus step number) :
    Journaled db db' entry status := by
  refine ⟨Journal.ext_parts hStatus ?_, row, hEntry, hEvents⟩
  rw [Db.attemptJournal, hEvents]
  simp only [List.filterMap_append, List.filterMap_cons, hEntry, List.filterMap_nil]
  rfl

section Creation

/-- An attempt that was created is the next one of its step, and its event follows. -/
theorem createExecutionAttempt_opened {planId executionId stepId : String} {sideEffectClass : SideEffectClass}
    {idempotencyKey : Option String} {env : Env} {db db' : Db} {attempt : AttemptRow}
    (h : createExecutionAttempt planId executionId stepId sideEffectClass idempotencyKey env db =
      .ok (.ok attempt, db')) : Opened db db' (planId, executionId, stepId) := by
  cases hId : ensureIdentity planId executionId with
  | some err =>
    rw [createExecutionAttempt, identified_of_invalid hId] at h
    cases h
  | none =>
    rw [createExecutionAttempt, identified_of_valid hId] at h
    split at h
    · cases h
    · unfold caught at h
      rw [Tx.ask_bind, Tx.get_bind] at h
      split at h
      · rename_i outcome hRun
        rw [Except.ok.injEq] at h
        subst h
        obtain ⟨_, db₁, hWrite, hRun⟩ := Tx.bind_eq_ok.mp hRun
        rw [Tx.write_eq_ok] at hWrite
        split at hWrite
        · rename_i executionAttempts hInsert
          cases hWrite
          cases hRun
          refine .of_parts (show LedgerRow.attemptEntry (LedgerEvent.toRow {
            planId, executionId := some executionId, stepId := some stepId
            attemptNumber := some (maxAttempt db planId executionId stepId + 1)
            eventType := .attemptStarted } env.nowMs) = _ from rfl) ?_ ?_
          · rw [attemptEvents_log]
            exact congrArg (· ++ _) (by rw [Db.attemptEvents, Db.touchMetrics_executionLedger]; rfl)
          · rintro ⟨plan, execution, step⟩ number
            unfold Db.attemptStatus
            rw [Db.log_executionAttempts, Db.touchMetrics_executionAttempts, Table.find?_insert hInsert]
            simp only [AttemptRow.key, startedAttemptRow, Prod.mk.injEq, nextAttempt, and_assoc]
            split <;> rfl
        · cases hWrite
      · cases h

end Creation

section Updates

variable {planId executionId stepId : String} {attemptNumber : Int} {env : Env} {db db' : Db}

theorem find?_updateAttempts (db : Db) (test : AttemptRow → Bool) (change : AttemptRow → AttemptRow)
    (hKey : ∀ row, (change row).key = row.key)
    (hAlt : ∀ row, (change row).idempotencyKey = row.idempotencyKey) (key : String × String × String × Int) :
    (db.updateAttempts test change hKey hAlt).executionAttempts.find? key =
      (db.executionAttempts.find? key).map fun row => if test row then change row else row :=
  Table.find?_update db.executionAttempts test change hKey hAlt key

/-- An attempt that was finalized gets the status, whatever it had before, and its event follows. -/
theorem finalizeAttempt_closed {status : AttemptStatus} {attempt : AttemptRow}
    (h : finalizeAttempt planId executionId stepId attemptNumber status env db = .ok (.ok attempt, db')) :
    Closed db db' (planId, executionId, stepId) attemptNumber status := by
  cases hId : ensureIdentity planId executionId with
  | some err =>
    rw [finalizeAttempt, identified_of_invalid hId] at h
    cases h
  | none =>
    rw [finalizeAttempt, identified_of_valid hId, Tx.ask_bind, Tx.get_bind] at h
    cases hFind : db.executionAttempts.find? (planId, executionId, stepId, attemptNumber) with
    | none =>
      rw [hFind] at h
      cases h
    | some old =>
      rw [hFind] at h
      dsimp only at h
      rw [Tx.modify_bind] at h
      have hSome : (db.attemptStatus (planId, executionId, stepId) attemptNumber).isSome := by
        rw [Db.attemptStatus, hFind]
        rfl
      refine ⟨hSome, ?_⟩
      have hStatus (step : StepKey) (number : Int) :
          (db.updateAttempts (fun row => row.isAt planId executionId stepId attemptNumber)
            (finalizedAttemptRow status env.nowMs) (finalizedAttemptRow_key status env.nowMs)
            (finalizedAttemptRow_idempotencyKey status env.nowMs)).attemptStatus step number =
          if step = (planId, executionId, stepId) ∧ number = attemptNumber then some status
          else db.attemptStatus step number := by
        obtain ⟨plan, execution, stepId'⟩ := step
        unfold Db.attemptStatus
        rw [find?_updateAttempts]
        by_cases hKey : (plan, execution, stepId') = (planId, executionId, stepId) ∧ number = attemptNumber
        · rw [if_pos hKey]
          simp only [Prod.mk.injEq] at hKey
          obtain ⟨⟨rfl, rfl, rfl⟩, rfl⟩ := hKey
          rw [hFind, Option.map_some, Option.map_some]
          have hAt : old.isAt plan execution stepId' number = true := by
            simpa [AttemptRow.isAt] using Table.find?_key hFind
          rw [if_pos hAt]
          rfl
        · rw [if_neg hKey, Option.map_map]
          refine Option.map_congr fun row hRow => ?_
          rw [Function.comp_apply, if_neg]
          intro hAt
          have hOther := Table.find?_key hRow
          rw [AttemptRow.isAt, decide_eq_true_eq] at hAt
          rw [hAt] at hOther
          simp only [Prod.mk.injEq] at hOther hKey
          exact hKey ⟨⟨hOther.1.symm, hOther.2.1.symm, hOther.2.2.1.symm⟩, hOther.2.2.2.symm⟩
      cases hMetrics : finalizedMetrics status env.nowMs (db.executions.find? executionId) with
      | some updates =>
        rw [hMetrics] at h
        cases h
        refine .of_parts (show LedgerRow.attemptEntry (LedgerEvent.toRow {
          planId, executionId := some executionId, stepId := some stepId
          attemptNumber := some attemptNumber, eventType := .attempt status } env.nowMs) = _ from rfl) ?_ ?_
        · rw [attemptEvents_log]
          exact congrArg (· ++ _) (by rw [Db.attemptEvents, Db.touchMetrics_executionLedger]; rfl)
        · intro step number
          rw [← hStatus step number]
          unfold Db.attemptStatus
          rw [Db.log_executionAttempts, Db.touchMetrics_executionAttempts]
      | none =>
        rw [hMetrics] at h
        cases h
        refine .of_parts (show LedgerRow.attemptEntry (LedgerEvent.toRow {
          planId, executionId := some executionId, stepId := some stepId
          attemptNumber := some attemptNumber, eventType := .attempt status } env.nowMs) = _ from rfl) ?_ ?_
        · rw [attemptEvents_log]
          rfl
        · exact hStatus

theorem finalizeAttempt_refused {status : AttemptStatus} {err : Failure}
    (h : finalizeAttempt planId executionId stepId attemptNumber status env db = .ok (.error err, db')) :
    db' = db := by
  cases hId : ensureIdentity planId executionId with
  | some err =>
    rw [finalizeAttempt, identified_of_invalid hId] at h
    cases h
    rfl
  | none =>
    rw [finalizeAttempt, identified_of_valid hId, Tx.ask_bind, Tx.get_bind] at h
    cases hFind : db.executionAttempts.find? (planId, executionId, stepId, attemptNumber) with
    | none =>
      rw [hFind] at h
      cases h
      rfl
    | some old =>
      rw [hFind] at h
      dsimp only at h
      rw [Tx.modify_bind] at h
      cases hMetrics : finalizedMetrics status env.nowMs (db.executions.find? executionId) with
      | some updates =>
        rw [hMetrics] at h
        cases h
      | none =>
        rw [hMetrics] at h
        cases h

/-- A heartbeat moves the clocks of the attempt and of the lock, not the statuses. -/
theorem keeps_heartbeatExecutionAttempt :
    Tx.Keeps Db.attemptView (heartbeatExecutionAttempt planId executionId stepId attemptNumber) := by
  refine keeps_identified (.bind .ask fun env => .bind .get fun db => ?_)
  dsimp only
  split
  · exact .pure _
  · refine .bind (.modify fun db => Prod.ext ?_ rfl) fun _ =>
      .bind (keeps_renewExecutionLockTx ignoresLocks_attemptView ignoresExecutions_attemptView _ _ _
        (ignoresEvent_attemptView rfl) (ignoresEvent_attemptView rfl)) fun result => ?_
    · funext step number
      change Db.attemptStatus _ step number = Db.attemptStatus db step number
      unfold Db.attemptStatus
      rw [find?_updateAttempts, Option.map_map]
      refine Option.map_congr fun row _ => ?_
      rw [Function.comp_apply]
      split <;> rfl
    · split
      · exact .pure _
      · exact .bind (keeps_appendLedgerEventTx (ignoresEvent_attemptView rfl)) fun _ => .pure _

end Updates

end CommandConsole.Execution
