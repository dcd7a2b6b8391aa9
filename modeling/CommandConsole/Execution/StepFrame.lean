import CommandConsole.Execution.SnapshotStatuses
import CommandConsole.Execution.StepColumns

/-! # What the attempt operations do to the step rows

An attempt operation loads all rows of its execution and writes all of them back. Which columns survive this is
decided by the names under which the normalizer looks for them.
-/
namespace CommandConsole.Execution
open Library
set_option autoImplicit false

section Writes

variable {J : Type} {env : Env} {db next : Db}

theorem upsertStepRow_find {row : StepRow} {u : Unit} (h : upsertStepRow row env db = .ok (u, next)) (key : String × String) :
    next.executionSteps.find? key =
      if row.key = key then some (mergeStepRow row (db.executionSteps.find? key)) else db.executionSteps.find? key := by
  have hWrite := Tx.write_eq_ok.mp h
  split at hWrite
  · rename_i steps hSteps
    cases hWrite
    have hKey := (mergeStepRow_same row (db.executionSteps.find? row.key)).1
    rw [Table.find?_upsert hSteps, hKey]
    by_cases hSame : row.key = key
    · rw [if_pos hSame, if_pos hSame.symm, hSame]
    · rw [if_neg hSame, if_neg (fun h => hSame h.symm)]
  · cases hWrite

def writtenRow (rows : List StepRow) (key : String × String) (stored : Option StepRow) : Option StepRow :=
  rows.foldl (fun row listing => if listing.key = key then some (mergeStepRow listing row) else row) stored

theorem upserts_find {rows : List StepRow} {u : Unit} (h : Tx.forEach upsertStepRow rows env db = .ok (u, next))
    (key : String × String) :
    next.executionSteps.find? key = writtenRow rows key (db.executionSteps.find? key) := by
  induction rows generalizing db with
  | nil =>
    cases h
    rfl
  | cons row rows ih =>
    obtain ⟨v, mid, hRow, hRest⟩ := Tx.bind_eq_ok.mp h
    rw [ih hRest, upsertStepRow_find hRow key]
    rfl

theorem writtenRow_unlisted {rows : List StepRow} {key : String × String} (h : ∀ row ∈ rows, row.key ≠ key)
    (stored : Option StepRow) : writtenRow rows key stored = stored := by
  induction rows with
  | nil => rfl
  | cons row rows ih =>
    rw [writtenRow, List.foldl_cons, if_neg (h row List.mem_cons_self)]
    exact ih fun other hOther => h other (List.mem_cons_of_mem _ hOther)

theorem replaceExecutionSteps_find {executionId : String} {rows : List StepRow} {u : Unit}
    (hOwn : ∀ row ∈ rows, row.executionId = executionId)
    (h : replaceExecutionSteps executionId rows env db = .ok (u, next)) (key : String × String) :
    next.executionSteps.find? key =
      if key.1 = executionId then
        if rows.any fun row => row.key = key then writtenRow rows key (db.executionSteps.find? key) else none
      else db.executionSteps.find? key := by
  obtain ⟨v, mid, hUpserts, hKeep⟩ := Tx.bind_eq_ok.mp h
  cases hKeep
  rw [Table.find?_keep, upserts_find hUpserts key]
  by_cases hKey : key.1 = executionId
  · rw [if_pos hKey]
    by_cases hListed : ∃ row ∈ rows, row.key = key
    · obtain ⟨row, hRow, hSame⟩ := hListed
      rw [if_pos (List.any_eq_true.mpr ⟨row, hRow, decide_eq_true hSame⟩)]
      cases hWritten : writtenRow rows key (db.executionSteps.find? key) with
      | none => rfl
      | some stored =>
        have hStored : stored.key = key := Table.find?_key ((upserts_find hUpserts key).trans hWritten)
        refine Option.filter_some_pos ?_
        rw [Bool.or_eq_true, List.any_eq_true]
        exact .inr ⟨row, hRow, decide_eq_true (congrArg Prod.snd (hSame.trans hStored.symm))⟩
    · have hNone : ∀ row ∈ rows, row.key ≠ key := fun row hRow hSame => hListed ⟨row, hRow, hSame⟩
      rw [if_neg (by simpa using hNone), writtenRow_unlisted hNone]
      cases hStored : db.executionSteps.find? key with
      | none => rfl
      | some stored =>
        have hStoredKey : stored.key = key := Table.find?_key hStored
        refine Option.filter_some_neg ?_
        rw [Bool.or_eq_false_iff, List.any_eq_false]
        constructor
        · refine decide_eq_false (not_not.mpr ?_)
          rw [← hKey, ← hStoredKey]
          rfl
        · intro row hRow hId
          refine hNone row hRow (Prod.ext ((hOwn row hRow).trans hKey.symm) ?_)
          rw [← hStoredKey]
          exact of_decide_eq_true hId
  · rw [if_neg hKey, writtenRow_unlisted]
    · cases hStored : db.executionSteps.find? key with
      | none => rfl
      | some stored =>
        have hStoredKey : stored.key = key := Table.find?_key hStored
        refine Option.filter_some_pos ?_
        rw [Bool.or_eq_true, decide_eq_true_iff]
        refine .inl fun hSame => hKey ?_
        rw [← hStoredKey]
        exact hSame
    · intro row hRow hSame
      exact hKey (hSame ▸ hOwn row hRow)

theorem writtenColumns_fst (listings : List (FullRow J)) (key : String × String) (stored : Option (FullRow J)) :
    (writtenColumns listings key stored).map Prod.fst = writtenRow (listings.map Prod.fst) key (stored.map Prod.fst) := by
  induction listings generalizing stored with
  | nil => rfl
  | cons listing listings ih =>
    rw [writtenColumns, List.foldl_cons]
    refine (ih _).trans ?_
    rw [List.map_cons, writtenRow, writtenRow, List.foldl_cons]
    by_cases hKey : listing.1.key = key
    · rw [if_pos hKey, if_pos hKey]
      rfl
    · rw [if_neg hKey, if_neg hKey]

end Writes

section Runs

variable {J : Type} {call : AttemptOpCall J} {full : FullDb J} {env : Env} {db db' : Db}

theorem withoutData_eq_ok {α : Type} {work : Tx (Result α)} {u : Unit} :
    withoutData work env db = .ok (.ok u, db') ↔ ∃ data, work env db = .ok (.ok data, db') := by
  rw [withoutData, Tx.bind_eq_ok]
  constructor
  · rintro ⟨result, mid, hRun, hRest⟩
    cases result with
    | error err => cases hRest
    | ok data =>
      cases hRest
      exact ⟨data, hRun⟩
  · rintro ⟨data, hRun⟩
    exact ⟨.ok data, db', hRun, rfl⟩

theorem atomically_eq_ok {α : Type} {planId executionId stepId : String} {work : Tx α} {data : α}
    (h : atomically planId executionId stepId work env db = .ok (.ok data, db')) :
    ensureAttemptIdentity planId executionId stepId = none ∧ work env db = .ok (data, db') := by
  cases hId : ensureAttemptIdentity planId executionId stepId with
  | some err =>
    rw [atomically, hId] at h
    cases h
  | none =>
    rw [atomically, hId] at h
    obtain ⟨value, mid, hRun, hRest⟩ := Tx.bind_eq_ok.mp h
    cases hRest
    exact ⟨rfl, hRun⟩

theorem ensureAttemptIdentity_eq_none {planId executionId stepId : String}
    (h : ensureAttemptIdentity planId executionId stepId = none) : executionId ≠ "" ∧ stepId ≠ "" := by
  rw [ensureAttemptIdentity] at h
  cases hIds : ensureIdentity planId executionId with
  | some err =>
    rw [hIds] at h
    cases h
  | none =>
    rw [hIds] at h
    refine ⟨?_, ?_⟩
    · rintro rfl
      obtain ⟨err, hErr⟩ : ∃ err, ensureIdentity planId "" = some err := by
        rw [ensureIdentity]
        split
        · exact ⟨_, rfl⟩
        · exact ⟨_, rfl⟩
      rw [hErr] at hIds
      cases hIds
    · rintro rfl
      cases h

/-- The rows that a run writes for an execution replace those that are stored. -/
structure RowsWritten (executionId : String) (rows : List StepRow) (db db' : Db) : Prop where
  allowed : ∀ row ∈ rows, ∀ status, db.stepStatus row.key = some status → row.status ∈ allowedStatusTransitions status
  written : ∀ key, db'.executionSteps.find? key =
    if key.1 = executionId then
      if rows.any fun row => row.key = key then writtenRow rows key (db.executionSteps.find? key) else none
    else db.executionSteps.find? key

theorem rowsWritten_of_persist {run : Run} {options : PersistOptions} {row : ExecutionRow}
    (h : persistExecutionSnapshot run options env db = .ok (row, db')) :
    RowsWritten (run.identity.getD "") (run.stepRows env.nowMs) db db' := by
  have hPersisted := persistExecutionSnapshot_ok h
  refine ⟨hPersisted.steps, fun key => ?_⟩
  obtain ⟨mid, last, u, hMid, hReplaced, hLast⟩ := hPersisted.replacedSteps
  rw [hLast, replaceExecutionSteps_find (fun listed hListed => ?_) hReplaced key, hMid]
  · rfl
  · obtain ⟨index, hIndex, rfl⟩ := List.mem_mapIdx.mp hListed
    rfl

theorem RowsWritten.congr {executionId : String} {rows : List StepRow} {db₁ db₂ : Db} (h : RowsWritten executionId rows db db')
    (hBefore : db.executionSteps = db₁.executionSteps) (hAfter : db₂.executionSteps = db'.executionSteps) :
    RowsWritten executionId rows db₁ db₂ := by
  refine ⟨fun row hRow status hStatus => h.allowed row hRow status ?_, fun key => ?_⟩
  · rw [Db.stepStatus, hBefore]
    exact hStatus
  · rw [hAfter, ← hBefore]
    exact h.written key

theorem keeps_steps_create (planId executionId stepId : String) (sideEffectClass : SideEffectClass)
    (idempotencyKey : Option String) :
    Tx.Keeps Db.executionSteps (createExecutionAttempt planId executionId stepId sideEffectClass idempotencyKey) :=
  keeps_createExecutionAttempt (fun _ _ => rfl) (fun _ _ => rfl) (fun _ _ _ => rfl) _ _ _ _ _

theorem keeps_steps_finalize (planId executionId stepId : String) (attemptNumber : Int) (status : AttemptStatus) :
    Tx.Keeps Db.executionSteps (finalizeAttempt planId executionId stepId attemptNumber status) :=
  keeps_finalizeAttempt (fun _ _ => rfl) (fun _ _ => rfl) (fun _ _ _ => rfl) planId executionId stepId attemptNumber

theorem keeps_steps_change (planId : String) (change : Checkpoint → Checkpoint) :
    Tx.Keeps Db.executionSteps (changeCheckpoint planId change) :=
  keeps_changeCheckpoint (fun _ _ => rfl) planId change

theorem keeps_steps_release (planId executionId : String) : Tx.Keeps Db.executionSteps (releaseIfHeld planId executionId) :=
  keeps_releaseIfHeld (fun _ _ => rfl) (fun _ _ => rfl) planId executionId fun _ _ _ => rfl

theorem keeps_steps_pauseEvents (planId executionId stepId : String) (stageId : Option String) :
    Tx.Keeps Db.executionSteps (pauseEvents planId executionId stepId stageId) :=
  keeps_pauseEvents (fun _ _ _ => rfl) (fun _ _ _ => rfl) (fun _ _ _ => rfl) planId executionId stepId stageId

/-- The execution row is there as long as nothing deletes it. -/
def Db.hasExecution (executionId : String) (db : Db) : Bool := (db.executions.find? executionId).isSome

theorem hasExecution_update (db : Db) (id : String) (change : ExecutionRow → ExecutionRow)
    (hKey : ∀ row, (change row).id = row.id) (executionId : String) :
    (db.updateExecution id change hKey).hasExecution executionId = db.hasExecution executionId := by
  rw [Db.hasExecution, Db.updateExecution_executions, Table.find?_update, Option.isSome_map]
  rfl

theorem hasExecution_touch (db : Db) (id : String) (updates : MetricUpdates) (executionId : String) :
    (db.touchMetrics id updates).hasExecution executionId = db.hasExecution executionId := by
  rw [Db.touchMetrics]
  split
  · rfl
  · exact hasExecution_update db id _ _ executionId

theorem keeps_hasExecution_create (other planId executionId stepId : String) (sideEffectClass : SideEffectClass)
    (idempotencyKey : Option String) : Tx.Keeps (Db.hasExecution other)
      (createExecutionAttempt planId executionId stepId sideEffectClass idempotencyKey) := by
  refine keeps_identified (.ite (.pure _) (keeps_caught (.bind .ask fun env => .bind .get fun db => ?_)))
  refine .bind (.write fun db db' h => ?_) fun _ =>
    .bind (.modify fun db => hasExecution_touch db _ _ other) fun _ =>
      .bind (keeps_appendLedgerEventTx fun _ _ _ => rfl) fun _ => .pure _
  split at h
  · cases h
    rfl
  · cases h

theorem keeps_hasExecution_finalize (other planId executionId stepId : String) (attemptNumber : Int)
    (status : AttemptStatus) : Tx.Keeps (Db.hasExecution other)
      (finalizeAttempt planId executionId stepId attemptNumber status) := by
  refine keeps_identified (.bind .ask fun env => .bind .get fun db => ?_)
  split
  · exact .pure _
  · refine .bind (.modify fun db => rfl) fun _ => ?_
    have hEvent : Tx.Keeps (Db.hasExecution other) (appendLedgerEventTx {
        planId, executionId := some executionId, stepId := some stepId
        attemptNumber := some attemptNumber, eventType := .attempt status }) :=
      keeps_appendLedgerEventTx fun _ _ _ => rfl
    split
    · exact .bind (.modify fun db => hasExecution_touch db _ _ other) fun _ => .bind hEvent fun _ => .pure _
    · exact .bind hEvent fun _ => .pure _

/-- The steps are loaded as they were while only other tables are written. -/
theorem loadedRows_congr {executionId : String} (hSteps : db'.executionSteps = db.executionSteps)
    (hThere : db'.hasExecution executionId = db.hasExecution executionId) :
    (loadExecutionState db' executionId).steps = (loadExecutionState db executionId).steps := by
  rw [Db.hasExecution, Db.hasExecution] at hThere
  rw [loadExecutionState, loadExecutionState]
  cases hBefore : db.executions.find? executionId with
  | none =>
    rw [hBefore] at hThere
    rw [Option.isSome_eq_false_iff.mp hThere |> Option.isNone_iff_eq_none.mp]
  | some row =>
    rw [hBefore] at hThere
    obtain ⟨other, hOther⟩ := Option.isSome_iff_exists.mp hThere
    rw [hOther]
    dsimp only
    rw [stepsOf, stepsOf, hSteps]

theorem writtenSteps_step (hLoaded : call.snapshot = none) :
    (call.writtenSteps full).map FullStep.step =
      changedSteps (loadExecutionState full.db call.executionId) call.stepId call.change := by
  rw [AttemptOpCall.writtenSteps, hLoaded]
  dsimp only
  rw [FullDb.loadedSteps, List.map_map, List.map_map, changedSteps]
  refine List.map_congr_left fun row _ => ?_
  rw [Function.comp_apply, Function.comp_apply]
  change FullStep.step (if row.id = call.stepId then _ else _) = _
  split <;> rfl

theorem listings_fst (call : AttemptOpCall J) (full : FullDb J) :
    (call.listings full).map Prod.fst = ((call.writtenSteps full).map FullStep.step).mapIdx fun index step =>
      normalizeStepRow call.target step index call.env.nowMs := by
  refine List.ext_getElem (by simp [AttemptOpCall.listings]) fun index h h' => ?_
  simp only [AttemptOpCall.listings, List.getElem_map, List.getElem_mapIdx]
  rfl

/-- What a call that succeeds found and wrote. -/
structure AttemptOpCall.Wrote (call : AttemptOpCall J) (full : FullDb J) (db' : Db) : Prop where
  executionId : call.executionId ≠ ""
  stepId : call.stepId ≠ ""
  present : (loadExecutionState full.db call.executionId).execution.isSome
  rows : RowsWritten call.target ((call.listings full).map Prod.fst) full.db db'

/-- A run with the loaded steps, the named one changed, lists the rows of the call. -/
theorem stepRows_of_loaded {run : Run} (hLoaded : call.snapshot = none) (hId : run.identity = some call.executionId)
    (hSteps : run.steps = changedSteps (loadExecutionState full.db call.executionId) call.stepId call.change) :
    run.identity.getD "" = call.target ∧ run.stepRows call.env.nowMs = (call.listings full).map Prod.fst := by
  have hTarget : call.target = call.executionId := by
    rw [AttemptOpCall.target, hLoaded]
    rfl
  refine ⟨by rw [hId, hTarget]; rfl, ?_⟩
  rw [listings_fst, writtenSteps_step hLoaded, ← hSteps, hTarget, Run.stepRows, normalizedSteps]
  change run.steps.mapIdx (fun index step => normalizeStepRow (run.identity.getD "") step index call.env.nowMs) = _
  rw [hId]
  rfl

theorem identity_of_id {run : Run} {id : String} (hId : id ≠ "") (hRun : run.runId = some id) : run.identity = some id := by
  rw [Run.identity, hRun, truthy, Option.filter_some_pos (by simpa using hId)]
  rfl

theorem loaded_id {executionId : String} {execution : ExecutionRow}
    (h : (loadExecutionState db executionId).execution = some execution) : execution.id = executionId := by
  rw [loadExecutionState] at h
  cases hRow : db.executions.find? executionId with
  | none =>
    rw [hRow] at h
    cases h
  | some row =>
    rw [hRow] at h
    cases h
    exact Table.find?_key hRow

theorem reloaded_id {executionId : String} {execution : ExecutionRow} (hId : execution.id = executionId) :
    ((loadExecutionState db executionId).execution.getD execution).id = executionId := by
  cases hLoaded : (loadExecutionState db executionId).execution with
  | none => exact hId
  | some row => exact loaded_id hLoaded

/-- What a run with the loaded steps leaves when it is persisted. -/
theorem rowsWritten_of_loaded {run : Run} {options : PersistOptions} {row : ExecutionRow} {mid : Db}
    (hSnapshot : call.snapshot = none) (hExecution : call.executionId ≠ "") (hId : run.runId = some call.executionId)
    (hSteps : run.steps = changedSteps (loadExecutionState full.db call.executionId) call.stepId call.change)
    (hKept : mid.executionSteps = full.db.executionSteps)
    (h : persistExecutionSnapshot run options call.env mid = .ok (row, db')) :
    RowsWritten call.target ((call.listings full).map Prod.fst) full.db db' := by
  obtain ⟨hTarget, hRows⟩ := stepRows_of_loaded hSnapshot (identity_of_id hExecution hId) hSteps
  rw [← hTarget, ← hRows]
  exact (rowsWritten_of_persist h).congr hKept rfl

theorem begin_wrote {stepIndex : Int} {sideEffectClass : SideEffectClass} {data : AttemptOutcome}
    (hOp : call.op = .begin stepIndex sideEffectClass)
    (h : beginExecutionAttemptAtomic call.planId call.executionId call.stepId stepIndex sideEffectClass call.env full.db =
      .ok (.ok data, db')) : call.Wrote full db' := by
  obtain ⟨hIds, hRun⟩ := atomically_eq_ok h
  obtain ⟨hExecution, hStep⟩ := ensureAttemptIdentity_eq_none hIds
  rw [Tx.ask_bind, Tx.get_bind] at hRun
  obtain ⟨execution, db₁, hGuard, hRest⟩ := Tx.bind_eq_ok.mp hRun
  obtain ⟨rfl, hLoaded, -⟩ := getExecutionAndStep_eq_ok hGuard
  obtain ⟨checkpoint, db₂, hCheckpoint, hRest⟩ := Tx.bind_eq_ok.mp hRest
  obtain ⟨attempt, db₃, hAttempt, hRest⟩ := Tx.bind_eq_ok.mp hRest
  obtain ⟨loaded, db₄, hReload, hRest⟩ := Tx.bind_eq_ok.mp hRest
  cases hReload
  obtain ⟨row, db₅, hPersist, hLast⟩ := Tx.bind_eq_ok.mp hRest
  cases hLast
  have hSteps : db₃.executionSteps = full.db.executionSteps :=
    (keeps_steps_create _ _ _ _ _ call.env db₂ _ db₃ (orThrow_eq_ok.mp hAttempt)).trans
      (keeps_steps_change _ _ call.env full.db _ db₂ (orThrow_eq_ok.mp hCheckpoint))
  have hThere : db₃.hasExecution call.executionId = full.db.hasExecution call.executionId :=
    (keeps_hasExecution_create _ _ _ _ _ _ call.env db₂ _ db₃ (orThrow_eq_ok.mp hAttempt)).trans
      (keeps_changeCheckpoint (fun _ _ => rfl) _ _ call.env full.db _ db₂ (orThrow_eq_ok.mp hCheckpoint))
  have hSnapshot : call.snapshot = none := by
    rw [AttemptOpCall.snapshot, hOp]
  have hChange : call.change = fun step => { step with
      status := "running", startedAt := some (step.startedAt.getD call.env.nowMs), finishedAt := none
      updatedAt := some call.env.nowMs } := by
    funext step
    rw [AttemptOpCall.change, hOp]
  refine ⟨hExecution, hStep, by rw [hLoaded]; rfl, ?_⟩
  refine rowsWritten_of_loaded hSnapshot hExecution (congrArg some (reloaded_id (loaded_id hLoaded))) ?_ hSteps hPersist
  rw [hChange]
  change List.map _ _ = List.map _ _
  rw [loadedRows_congr hSteps hThere]

theorem mode_checkpoint (mode : AttemptEnd) (planId : String) (stepIndex : Int) :
    ∃ change, mode.checkpoint planId stepIndex = changeCheckpoint planId change := by
  cases mode <;> exact ⟨_, rfl⟩

theorem finalize_wrote {stepIndex attemptNumber : Int} {mode : AttemptEnd} {data : AttemptOutcome}
    (hSnapshot : call.snapshot = none)
    (hChange : call.change = fun step => { step with
      status := mode.stepStatus, startedAt := some (step.startedAt.getD call.env.nowMs)
      finishedAt := some call.env.nowMs, updatedAt := some call.env.nowMs
      error := if mode.stepStatus = "failed" then some ((truthy step.error).getD "attempt_failed") else none })
    (h : finalizeExecutionAttemptAtomic call.planId call.executionId call.stepId stepIndex attemptNumber mode call.env
      full.db = .ok (.ok data, db')) : call.Wrote full db' := by
  obtain ⟨hIds, hRun⟩ := atomically_eq_ok h
  obtain ⟨hExecution, hStep⟩ := ensureAttemptIdentity_eq_none hIds
  rw [Tx.ask_bind, Tx.get_bind] at hRun
  obtain ⟨execution, db₁, hGuard, hRest⟩ := Tx.bind_eq_ok.mp hRun
  obtain ⟨rfl, hLoaded, -⟩ := getExecutionAndStep_eq_ok hGuard
  obtain ⟨attempt, db₂, hAttempt, hRest⟩ := Tx.bind_eq_ok.mp hRest
  obtain ⟨checkpoint, db₃, hCheckpoint, hRest⟩ := Tx.bind_eq_ok.mp hRest
  obtain ⟨loaded, db₄, hReload, hRest⟩ := Tx.bind_eq_ok.mp hRest
  cases hReload
  obtain ⟨row, db₅, hPersist, hLast⟩ := Tx.bind_eq_ok.mp hRest
  cases hLast
  obtain ⟨change, hMode⟩ := mode_checkpoint mode call.planId stepIndex
  rw [hMode] at hCheckpoint
  have hSteps : db₃.executionSteps = full.db.executionSteps :=
    (keeps_steps_change _ _ call.env db₂ _ db₃ (orThrow_eq_ok.mp hCheckpoint)).trans
      (keeps_steps_finalize _ _ _ _ _ call.env full.db _ db₂ (orThrow_eq_ok.mp hAttempt))
  have hThere : db₃.hasExecution call.executionId = full.db.hasExecution call.executionId :=
    (keeps_changeCheckpoint (fun _ _ => rfl) _ _ call.env db₂ _ db₃ (orThrow_eq_ok.mp hCheckpoint)).trans
      (keeps_hasExecution_finalize _ _ _ _ _ _ call.env full.db _ db₂ (orThrow_eq_ok.mp hAttempt))
  refine ⟨hExecution, hStep, by rw [hLoaded]; rfl, ?_⟩
  refine rowsWritten_of_loaded hSnapshot hExecution (congrArg some (reloaded_id (loaded_id hLoaded))) ?_ hSteps hPersist
  rw [hChange]
  change List.map _ _ = List.map _ _
  rw [loadedRows_congr hSteps hThere]

/-- A run that is given with an identity lists the rows of the call. -/
theorem stepRows_of_given {run : Run} {given : FullRun J} (hSnapshot : call.snapshot = some given)
    (hId : run.identity = given.toRun.identity) (hSome : given.toRun.identity.isSome)
    (hSteps : run.steps = given.toRun.steps) :
    run.identity.getD "" = call.target ∧ run.stepRows call.env.nowMs = (call.listings full).map Prod.fst := by
  obtain ⟨id, hGiven⟩ := Option.isSome_iff_exists.mp hSome
  have hTarget : call.target = id := by
    rw [AttemptOpCall.target, hSnapshot, Option.bind_some, hGiven]
    rfl
  refine ⟨by rw [hId, hGiven, hTarget]; rfl, ?_⟩
  rw [listings_fst, AttemptOpCall.writtenSteps, hSnapshot, hTarget, Run.stepRows, normalizedSteps]
  change run.steps.mapIdx (fun index step => normalizeStepRow (run.identity.getD "") step index call.env.nowMs) = _
  rw [hId, hGiven, hSteps]
  rfl

theorem identifiedAs_identity {run : Run} {planId executionId id : String} (h : run.identity = some id) :
    (run.identifiedAs planId executionId).identity = some id := by
  have hTruthy : truthy (some id) = some id := by
    rw [Run.identity] at h
    cases hRun : truthy run.runId with
    | some value =>
      rw [hRun] at h
      cases h
      rw [truthy, Option.filter_eq_some_iff] at hRun
      exact Option.filter_some_pos hRun.2
    | none =>
      rw [hRun] at h
      change truthy run.id = some id at h
      rw [truthy, Option.filter_eq_some_iff] at h
      exact Option.filter_some_pos h.2
  change (truthy (some (run.identity.getD executionId)) <|> _) = some id
  rw [h, Option.getD_some, hTruthy]
  rfl

/-- The run that a pause persists: the given one under its own identity, or else the loaded one. -/
theorem rowsWritten_of_paused {stepIndex attemptNumber : Int} {reason : String} {stageId : Option String}
    {runSnapshot : Option (FullRun J)} {reviewExecutionId : Option String} {execution : ExecutionRow}
    {options : PersistOptions} {row : ExecutionRow} {mid next : Db}
    (hOp : call.op = .pause stepIndex attemptNumber reason stageId runSnapshot reviewExecutionId)
    (hExecution : call.executionId ≠ "") (hId : execution.id = call.executionId)
    (hKept : mid.executionSteps = full.db.executionSteps) (hNext : db'.executionSteps = next.executionSteps)
    (h : persistExecutionSnapshot
      (match (runSnapshot.map FullRun.toRun).filter fun run => run.identity.isSome with
        | some run => mergeExecutionMetrics (run.identifiedAs call.planId call.executionId) (some execution) call.env.nowMs
        | none => buildPausedAttemptSnapshot (loadExecutionState full.db call.executionId) execution call.stepId reason
            call.env.nowMs) options call.env mid = .ok (row, next)) :
    RowsWritten call.target ((call.listings full).map Prod.fst) full.db db' := by
  have hFilter : (runSnapshot.map FullRun.toRun).filter (fun run => run.identity.isSome) =
      call.snapshot.map FullRun.toRun := by
    rw [AttemptOpCall.snapshot, hOp]
    cases runSnapshot with
    | none => rfl
    | some given =>
      dsimp only
      rw [Option.map_some, Option.filter_some, Option.filter_some]
      split <;> rfl
  rw [hFilter] at h
  cases hSnapshot : call.snapshot with
  | none =>
    rw [hSnapshot] at h
    refine (rowsWritten_of_loaded hSnapshot hExecution (congrArg some hId) ?_ hKept h).congr rfl hNext
    change List.map _ _ = List.map _ _
    refine List.map_congr_left fun step _ => ?_
    rw [AttemptOpCall.change, hOp]
  | some given =>
    rw [hSnapshot] at h
    have hSome : given.toRun.identity.isSome := by
      rw [AttemptOpCall.snapshot, hOp] at hSnapshot
      exact (Option.filter_eq_some_iff.mp hSnapshot).2
    obtain ⟨id, hGiven⟩ := Option.isSome_iff_exists.mp hSome
    have hIdentified := @identifiedAs_identity given.toRun call.planId call.executionId id hGiven
    obtain ⟨hTarget, hRows⟩ := @stepRows_of_given J call full
      (mergeExecutionMetrics (given.toRun.identifiedAs call.planId call.executionId) (some execution) call.env.nowMs)
      given hSnapshot (hIdentified.trans hGiven.symm) hSome rfl
    rw [← hTarget, ← hRows]
    exact (rowsWritten_of_persist h).congr hKept hNext

theorem pause_wrote {stepIndex attemptNumber : Int} {reason : String} {stageId : Option String}
    {runSnapshot : Option (FullRun J)} {reviewExecutionId : Option String} {data : PauseOutcome}
    (hOp : call.op = .pause stepIndex attemptNumber reason stageId runSnapshot reviewExecutionId)
    (h : pauseExecutionAttemptForReviewAtomic call.planId call.executionId call.stepId stepIndex attemptNumber reason
      stageId (runSnapshot.map FullRun.toRun) reviewExecutionId call.env full.db = .ok (.ok data, db')) :
    call.Wrote full db' := by
  obtain ⟨hIds, hRun⟩ := atomically_eq_ok h
  obtain ⟨hExecution, hStep⟩ := ensureAttemptIdentity_eq_none hIds
  rw [Tx.ask_bind, Tx.get_bind] at hRun
  obtain ⟨execution, db₁, hGuard, hRest⟩ := Tx.bind_eq_ok.mp hRun
  obtain ⟨rfl, hLoaded, -⟩ := getExecutionAndStep_eq_ok hGuard
  obtain ⟨attempt, db₂, hAttempt, hRest⟩ := Tx.bind_eq_ok.mp hRest
  obtain ⟨checkpoint, db₃, hCheckpoint, hRest⟩ := Tx.bind_eq_ok.mp hRest
  have hSteps : db₃.executionSteps = full.db.executionSteps :=
    (keeps_steps_change _ _ call.env db₂ _ db₃ (orThrow_eq_ok.mp hCheckpoint)).trans
      (keeps_steps_finalize _ _ _ _ _ call.env full.db _ db₂ (orThrow_eq_ok.mp hAttempt))
  refine ⟨hExecution, hStep, by rw [hLoaded]; rfl, ?_⟩
  have hWritten {options : PersistOptions} {row : ExecutionRow} {next : Db} :=
    @rowsWritten_of_paused J call full db' stepIndex attemptNumber reason stageId runSnapshot reviewExecutionId execution
      options row db₃ next hOp hExecution (loaded_id hLoaded) hSteps
  cases hGiven : runSnapshot.map FullRun.toRun with
  | none =>
    rw [hGiven] at hRest hWritten
    obtain ⟨row, db₄, hPersist, hRest⟩ := Tx.bind_eq_ok.mp hRest
    obtain ⟨released, db₅, hRelease, hLast⟩ := Tx.bind_eq_ok.mp hRest
    cases hLast
    exact hWritten (keeps_steps_release _ _ call.env db₄ released _ hRelease) hPersist
  | some given =>
    rw [hGiven] at hRest hWritten
    obtain ⟨row, db₄, hPersist, hRest⟩ := Tx.bind_eq_ok.mp hRest
    obtain ⟨u, db₅, hEvents, hRest⟩ := Tx.bind_eq_ok.mp hRest
    obtain ⟨released, db₆, hRelease, hLast⟩ := Tx.bind_eq_ok.mp hRest
    cases hLast
    exact hWritten ((keeps_steps_release _ _ call.env db₅ released _ hRelease).trans
      (keeps_steps_pauseEvents _ _ _ _ call.env db₄ u db₅ hEvents)) hPersist

end Runs

end CommandConsole.Execution
