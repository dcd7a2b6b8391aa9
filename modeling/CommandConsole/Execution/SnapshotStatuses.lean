import CommandConsole.Execution.Footprint

/-! # Statuses over sequences of snapshots

A snapshot is checked against the rows that are stored and then replaces them.
A final status stays as long as its row does: an execution row always, the row of
a stage or a step while every snapshot of its execution lists it.
-/
namespace CommandConsole.Execution
open Library
set_option autoImplicit false

section Statuses

variable {db next : Db} {env : Env}

def Db.executionStatus (db : Db) (id : String) : Option Status := (db.executions.find? id).map ExecutionRow.status

def Db.stageStatus (db : Db) (key : String × String) : Option Status :=
  (db.executionStages.find? key).map StageRow.status

def Db.stepStatus (db : Db) (key : String × String) : Option Status :=
  (db.executionSteps.find? key).map StepRow.status

/-- No move leads away from the status. -/
def Status.Final (status : Status) : Prop := ∀ next ∈ allowedStatusTransitions status, next = status

instance (status : Status) : Decidable status.Final :=
  inferInstanceAs (Decidable (∀ next ∈ allowedStatusTransitions status, next = status))

theorem mergeStepRow_same (row : StepRow) (existing : Option StepRow) :
    (mergeStepRow row existing).key = row.key ∧ (mergeStepRow row existing).status = row.status := by
  cases existing <;> exact ⟨rfl, rfl⟩

theorem mergeStageRow_same (row : StageRow) (existing : Option StageRow) :
    (mergeStageRow row existing).key = row.key ∧ (mergeStageRow row existing).status = row.status := by
  cases existing <;> exact ⟨rfl, rfl⟩

theorem mergeExecutionRow_same (row : ExecutionRow) (existing : Option ExecutionRow) :
    (mergeExecutionRow row existing).id = row.id ∧ (mergeExecutionRow row existing).status = row.status := by
  cases existing <;> exact ⟨rfl, rfl⟩

theorem upsertStepRow_status {row : StepRow} {u : Unit} (h : upsertStepRow row env db = .ok (u, next))
    (key : String × String) :
    next.stepStatus key = if key = row.key then some row.status else db.stepStatus key := by
  obtain hWrite := Tx.write_eq_ok.mp h
  split at hWrite
  · rename_i steps hSteps
    cases hWrite
    obtain ⟨hKey, hStatus⟩ := mergeStepRow_same row (db.executionSteps.find? row.key)
    rw [Db.stepStatus, Table.find?_upsert hSteps, hKey]
    split
    · rw [Option.map_some, hStatus]
    · rfl
  · cases hWrite

theorem upsertStageRow_status {row : StageRow} {u : Unit} (h : upsertStageRow row env db = .ok (u, next))
    (key : String × String) :
    next.stageStatus key = if key = row.key then some row.status else db.stageStatus key := by
  obtain hWrite := Tx.write_eq_ok.mp h
  split at hWrite
  · rename_i stages hStages
    cases hWrite
    obtain ⟨hKey, hStatus⟩ := mergeStageRow_same row (db.executionStages.find? row.key)
    rw [Db.stageStatus, Table.find?_upsert hStages, hKey]
    split
    · rw [Option.map_some, hStatus]
    · rfl
  · cases hWrite

/-- The deletion of the rows that are not listed spares the listed ones and other executions. -/
theorem find?_keep_listed {ρ υ : Type} {keyOf : ρ → String × String} {alt : ρ → Option υ} [DecidableEq υ]
    (table : Table keyOf alt) (rows : List ρ) (executionId : String) (key : String × String)
    (hListed : key.1 = executionId → ∃ row ∈ rows, keyOf row = key) :
    (table.keep fun row => (keyOf row).1 ≠ executionId || rows.any fun other => (keyOf other).2 = (keyOf row).2).find?
      key = table.find? key := by
  rw [Table.find?_keep]
  cases hFind : table.find? key with
  | none => rfl
  | some stored =>
    obtain rfl := Table.find?_key hFind
    rw [Option.filter_some_pos]
    by_cases hOwn : (keyOf stored).1 = executionId
    · obtain ⟨row, hRow, hKey⟩ := hListed hOwn
      simp only [Bool.or_eq_true, List.any_eq_true, decide_eq_true_eq]
      exact .inr ⟨row, hRow, congrArg Prod.snd hKey⟩
    · simp [hOwn]

/-- Upserts that give a row one status leave it with that status. -/
theorem upserts_status {ρ : Type} {upsert : ρ → Tx Unit} {keyOf : ρ → String × String} {statusOf : ρ → Status}
    {view : Db → String × String → Option Status} {key : String × String} {status : Status} {rows : List ρ} {u : Unit}
    (hUpsert : ∀ row db next v, upsert row env db = .ok (v, next) →
      view next key = if key = keyOf row then some (statusOf row) else view db key)
    (hRun : Library.Tx.forEach upsert rows env db = .ok (u, next)) (hStored : view db key = some status)
    (hRows : ∀ row ∈ rows, keyOf row = key → statusOf row = status) : view next key = some status := by
  refine Library.Tx.forEach_keeps (P := fun db => view db key = some status) ?_ hRun hStored
  intro row hRow s v s' hItem hs
  rw [hUpsert row s s' v hItem]
  split
  · rename_i hKey
    rw [hRows row hRow hKey.symm]
  · exact hs

/-- A listed step keeps the status that all its listings have. -/
theorem replaceExecutionSteps_status {executionId : String} {rows : List StepRow} {u : Unit} {key : String × String}
    {status : Status} (h : replaceExecutionSteps executionId rows env db = .ok (u, next))
    (hStored : db.stepStatus key = some status) (hRows : ∀ row ∈ rows, row.key = key → row.status = status)
    (hListed : key.1 = executionId → ∃ row ∈ rows, row.key = key) : next.stepStatus key = some status := by
  obtain ⟨v, mid, hUpserts, hKeep⟩ := Library.Tx.bind_eq_ok.mp h
  cases hKeep
  have hMid : mid.stepStatus key = some status :=
    upserts_status (fun row s s' w hItem => upsertStepRow_status hItem key) hUpserts hStored hRows
  rw [← hMid]
  exact congrArg (Option.map StepRow.status) (find?_keep_listed mid.executionSteps rows executionId key hListed)

theorem replaceExecutionStages_status {executionId : String} {rows : List StageRow} {u : Unit}
    {key : String × String} {status : Status} (h : replaceExecutionStages executionId rows env db = .ok (u, next))
    (hStored : db.stageStatus key = some status) (hRows : ∀ row ∈ rows, row.key = key → row.status = status)
    (hListed : key.1 = executionId → ∃ row ∈ rows, row.key = key) : next.stageStatus key = some status := by
  obtain ⟨v, mid, hUpserts, hKeep⟩ := Library.Tx.bind_eq_ok.mp h
  cases hKeep
  have hMid : mid.stageStatus key = some status :=
    upserts_status (fun row s s' w hItem => upsertStageRow_status hItem key) hUpserts hStored hRows
  rw [← hMid]
  exact congrArg (Option.map StageRow.status) (find?_keep_listed mid.executionStages rows executionId key hListed)

end Statuses

section Calls

variable {db next : Db} {env : Env} {run : Run} {options : PersistOptions}

theorem validTransition_ok {current status : Status} {failure : Failure} {u : Unit}
    (h : (if isValidStatusTransition current status then (pure () : Tx Unit) else Library.Tx.throw failure) env db =
      .ok (u, next)) : next = db ∧ status ∈ allowedStatusTransitions current := by
  split at h
  · rename_i hValid
    cases h
    exact ⟨rfl, of_decide_eq_true hValid⟩
  · cases h

theorem checkExecutionTransition_ok {row : ExecutionRow} {u : Unit}
    (h : checkExecutionTransition row env db = .ok (u, next)) :
    next = db ∧ ∀ status, db.executionStatus row.id = some status → row.status ∈ allowedStatusTransitions status := by
  simp only [checkExecutionTransition, Tx.get_bind] at h
  cases hFind : db.executions.find? row.id with
  | none =>
    rw [hFind] at h
    cases h
    exact ⟨rfl, fun status hStatus => by rw [Db.executionStatus, hFind] at hStatus; cases hStatus⟩
  | some old =>
    rw [hFind] at h
    obtain ⟨hSame, hAllowed⟩ := validTransition_ok h
    refine ⟨hSame, fun status hStatus => ?_⟩
    rw [Db.executionStatus, hFind, Option.map_some] at hStatus
    exact Option.some.inj hStatus ▸ hAllowed

theorem checkStageTransition_ok {row : StageRow} {u : Unit}
    (h : checkStageTransition row env db = .ok (u, next)) :
    next = db ∧ ∀ status, db.stageStatus row.key = some status → row.status ∈ allowedStatusTransitions status := by
  simp only [checkStageTransition, Tx.get_bind] at h
  cases hFind : db.executionStages.find? row.key with
  | none =>
    rw [hFind] at h
    cases h
    exact ⟨rfl, fun status hStatus => by rw [Db.stageStatus, hFind] at hStatus; cases hStatus⟩
  | some old =>
    rw [hFind] at h
    obtain ⟨hSame, hAllowed⟩ := validTransition_ok h
    refine ⟨hSame, fun status hStatus => ?_⟩
    rw [Db.stageStatus, hFind, Option.map_some] at hStatus
    exact Option.some.inj hStatus ▸ hAllowed

theorem checkStepTransition_ok {row : StepRow} {u : Unit}
    (h : checkStepTransition row env db = .ok (u, next)) :
    next = db ∧ ∀ status, db.stepStatus row.key = some status → row.status ∈ allowedStatusTransitions status := by
  simp only [checkStepTransition, Tx.get_bind] at h
  cases hFind : db.executionSteps.find? row.key with
  | none =>
    rw [hFind] at h
    cases h
    exact ⟨rfl, fun status hStatus => by rw [Db.stepStatus, hFind] at hStatus; cases hStatus⟩
  | some old =>
    rw [hFind] at h
    obtain ⟨hSame, hAllowed⟩ := validTransition_ok h
    refine ⟨hSame, fun status hStatus => ?_⟩
    rw [Db.stepStatus, hFind, Option.map_some] at hStatus
    exact Option.some.inj hStatus ▸ hAllowed

/-- The rows that a snapshot lists. -/
def Run.stepRows (run : Run) (nowMs : Int) : List StepRow :=
  normalizedSteps (normalizeExecutionRow run nowMs).id run nowMs

def Run.stageRows (run : Run) (nowMs : Int) : List StageRow :=
  normalizedStages (normalizeExecutionRow run nowMs).id run nowMs

/-- A snapshot that is written was checked against every stored status, and then replaced the rows. -/
structure Persisted (run : Run) (env : Env) (db next : Db) : Prop where
  execution : ∀ status, db.executionStatus (normalizeExecutionRow run env.nowMs).id = some status →
    (normalizeExecutionRow run env.nowMs).status ∈ allowedStatusTransitions status
  stages : ∀ row ∈ run.stageRows env.nowMs, ∀ status, db.stageStatus row.key = some status →
    row.status ∈ allowedStatusTransitions status
  steps : ∀ row ∈ run.stepRows env.nowMs, ∀ status, db.stepStatus row.key = some status →
    row.status ∈ allowedStatusTransitions status
  executions : ∀ id, next.executionStatus id =
    if id = (normalizeExecutionRow run env.nowMs).id then some (normalizeExecutionRow run env.nowMs).status
    else db.executionStatus id
  replacedStages : ∃ mid last u, mid.executionStages = db.executionStages ∧
    replaceExecutionStages (normalizeExecutionRow run env.nowMs).id (run.stageRows env.nowMs) env mid = .ok (u, last) ∧
    next.executionStages = last.executionStages
  replacedSteps : ∃ mid last u, mid.executionSteps = db.executionSteps ∧
    replaceExecutionSteps (normalizeExecutionRow run env.nowMs).id (run.stepRows env.nowMs) env mid = .ok (u, last) ∧
    next.executionSteps = last.executionSteps

theorem persistExecutionSnapshot_ok {row : ExecutionRow}
    (h : persistExecutionSnapshot run options env db = .ok (row, next)) : Persisted run env db next := by
  unfold persistExecutionSnapshot at h
  cases hIdentity : run.identity with
  | none =>
    rw [hIdentity] at h
    cases h
  | some identity =>
    simp only [hIdentity, Tx.ask_bind] at h
    obtain ⟨a, checked, hExecution, hAfterExecution⟩ := Tx.bind_eq_ok.mp h
    obtain ⟨rfl, hExecution⟩ := checkExecutionTransition_ok hExecution
    obtain ⟨b, checked', hStages, hAfterStages⟩ := Tx.bind_eq_ok.mp hAfterExecution
    obtain ⟨rfl, hStages⟩ := Library.Tx.forEach_checks (fun row s u s' => checkStageTransition_ok) hStages
    obtain ⟨c, checked'', hSteps, hAfterSteps⟩ := Tx.bind_eq_ok.mp hAfterStages
    obtain ⟨rfl, hSteps⟩ := Library.Tx.forEach_checks (fun row s u s' => checkStepTransition_ok) hSteps
    obtain ⟨d, put, hPut, hAfterPut⟩ := Tx.bind_eq_ok.mp hAfterSteps
    cases hPut
    obtain ⟨u, staged, hStaged, hAfterStaged⟩ := Tx.bind_eq_ok.mp hAfterPut
    obtain ⟨v, stepped, hStepped, hAfterStepped⟩ := Tx.bind_eq_ok.mp hAfterStaged
    obtain ⟨w, reviewed, hReviewed, hAfterReviewed⟩ := Tx.bind_eq_ok.mp hAfterStepped
    obtain ⟨x, audited, hAudited, hAfterAudited⟩ := Tx.bind_eq_ok.mp hAfterReviewed
    cases hAfterAudited
    have hCheck (executionId : String) : Tx.Keeps (fun db : Db => db) (requireExecution executionId) :=
      keeps_requireExecution executionId
    have hReview : reviewed = stepped := Library.Tx.Respects.forEach hCheck _ env stepped w reviewed hReviewed
    have hAudit : next = reviewed := Library.Tx.Respects.forEach hCheck _ env reviewed x next hAudited
    obtain rfl : next = stepped := hAudit.trans hReview
    refine ⟨hExecution, hStages, hSteps, ?_, ⟨_, staged, u, ?_, hStaged, ?_⟩, ⟨staged, next, v, ?_, hStepped, rfl⟩⟩
    · intro id
      have hStageKeeps (executionId : String) (rows : List StageRow) :
          Tx.Keeps Db.executions (replaceExecutionStages executionId rows) :=
        keeps_replaceExecutionStages (fun _ _ => rfl) executionId rows
      have hStepKeeps (executionId : String) (rows : List StepRow) :
          Tx.Keeps Db.executions (replaceExecutionSteps executionId rows) :=
        keeps_replaceExecutionSteps (fun _ _ => rfl) executionId rows
      have hByStages := hStageKeeps _ _ env _ u staged hStaged
      have hBySteps := hStepKeeps _ _ env staged v next hStepped
      obtain ⟨hId, hStatus⟩ := mergeExecutionRow_same (normalizeExecutionRow run env.nowMs)
        (checked''.executions.find? (normalizeExecutionRow run env.nowMs).id)
      rw [Db.executionStatus, hBySteps, hByStages, Db.putExecution_executions, PlainTable.find?_put, hId]
      split
      · rw [Option.map_some, hStatus]
      · rfl
    · rfl
    · have hKeeps (executionId : String) (rows : List StepRow) :
          Tx.Keeps Db.executionStages (replaceExecutionSteps executionId rows) :=
        keeps_replaceExecutionSteps (fun _ _ => rfl) executionId rows
      exact hKeeps _ _ env staged v next hStepped
    · have hKeeps (executionId : String) (rows : List StageRow) :
          Tx.Keeps Db.executionSteps (replaceExecutionStages executionId rows) :=
        keeps_replaceExecutionStages (fun _ _ => rfl) executionId rows
      have hSame := hKeeps _ _ env _ u staged hStaged
      exact hSame

/-- One call of a sequence, with its clock; a call that throws changes nothing. -/
structure PersistCall where
  run : Run
  options : PersistOptions
  env : Env

def persistCall (call : PersistCall) (db : Db) : Db :=
  (Library.Tx.commit (persistExecutionSnapshot call.run call.options) call.env db).2

def PersistCall.executionId (call : PersistCall) : String := (normalizeExecutionRow call.run call.env.nowMs).id

/-- A snapshot of the execution lists the step. -/
def PersistCall.ListsStep (key : String × String) (call : PersistCall) : Prop :=
  key.1 = call.executionId → ∃ row ∈ call.run.stepRows call.env.nowMs, row.key = key

def PersistCall.ListsStage (key : String × String) (call : PersistCall) : Prop :=
  key.1 = call.executionId → ∃ row ∈ call.run.stageRows call.env.nowMs, row.key = key

def PersistCall.Succeeds (call : PersistCall) (db : Db) : Prop :=
  ∃ result, persistExecutionSnapshot call.run call.options call.env db = .ok result

theorem persistCall_cases (call : PersistCall) (db : Db) :
    persistCall call db = db ∨ call.Succeeds db ∧ Persisted call.run call.env db (persistCall call db) := by
  unfold persistCall Library.Tx.commit
  cases hRun : persistExecutionSnapshot call.run call.options call.env db with
  | error err => exact .inl rfl
  | ok result => exact .inr ⟨⟨result, hRun⟩, persistExecutionSnapshot_ok hRun⟩

variable {call : PersistCall} {key : String × String} {status : Status}

theorem persistCall_executionStatus {id : String} (hFinal : status.Final)
    (h : db.executionStatus id = some status) : (persistCall call db).executionStatus id = some status := by
  rcases persistCall_cases call db with hSame | ⟨-, hPersisted⟩
  · rw [hSame, h]
  · rw [hPersisted.executions]
    split
    · rename_i hId
      rw [hFinal _ (hPersisted.execution status (hId ▸ h))]
    · exact h

theorem persistCall_stepStatus (hFinal : status.Final) (hListed : call.Succeeds db → call.ListsStep key)
    (h : db.stepStatus key = some status) : (persistCall call db).stepStatus key = some status := by
  rcases persistCall_cases call db with hSame | ⟨hSucceeds, hPersisted⟩
  · rw [hSame, h]
  · obtain ⟨mid, last, u, hBefore, hReplace, hAfter⟩ := hPersisted.replacedSteps
    have hLast : last.stepStatus key = some status := by
      refine replaceExecutionSteps_status hReplace ?_ ?_ (hListed hSucceeds)
      · rw [Db.stepStatus, hBefore]
        exact h
      · rintro row hRow rfl
        exact hFinal _ (hPersisted.steps row hRow status h)
    rw [Db.stepStatus, hAfter]
    exact hLast

theorem persistCall_stageStatus (hFinal : status.Final) (hListed : call.Succeeds db → call.ListsStage key)
    (h : db.stageStatus key = some status) : (persistCall call db).stageStatus key = some status := by
  rcases persistCall_cases call db with hSame | ⟨hSucceeds, hPersisted⟩
  · rw [hSame, h]
  · obtain ⟨mid, last, u, hBefore, hReplace, hAfter⟩ := hPersisted.replacedStages
    have hLast : last.stageStatus key = some status := by
      refine replaceExecutionStages_status hReplace ?_ ?_ (hListed hSucceeds)
      · rw [Db.stageStatus, hBefore]
        exact h
      · rintro row hRow rfl
        exact hFinal _ (hPersisted.stages row hRow status h)
    rw [Db.stageStatus, hAfter]
    exact hLast

end Calls

/-- A final status of an execution stays through every sequence of calls, that of a stage or a step
through every sequence whose successful calls on its execution all list it. -/
theorem final_statuses_stay (db later : Db) (status : Status) (hFinal : status.Final) :
    (∀ id, Reaches persistCall (fun _ _ => True) db later → db.executionStatus id = some status →
      later.executionStatus id = some status) ∧
    (∀ key, Reaches persistCall (fun call db => call.Succeeds db → call.ListsStage key) db later →
      db.stageStatus key = some status → later.stageStatus key = some status) ∧
    ∀ key, Reaches persistCall (fun call db => call.Succeeds db → call.ListsStep key) db later →
      db.stepStatus key = some status → later.stepStatus key = some status := by
  refine ⟨fun id hRun hStored => ?_, fun key hRun hStored => ?_, fun key hRun hStored => ?_⟩
  · exact hRun.invariant (P := fun db => db.executionStatus id = some status) hStored
      fun call db h _ => persistCall_executionStatus hFinal h
  · exact hRun.invariant (P := fun db => db.stageStatus key = some status) hStored
      fun call db h hListed => persistCall_stageStatus hFinal hListed h
  · exact hRun.invariant (P := fun db => db.stepStatus key = some status) hStored
      fun call db h hListed => persistCall_stepStatus hFinal hListed h

section Sequences

def listedStep (status : String) : RunStep where
  id := "step_a"
  stageId := none
  stageSequence := none
  sequence := some 1
  status := status
  kind := some "read"
  actionClass := none
  action := none
  tool := none
  dependsOn := none
  depends_on_step_ids := none
  blocking := false
  requiresReview := false
  rewritten := false
  deferred := false
  safeFallback := false
  reviewAcknowledged := false
  pauseReason := none
  blockReason := none
  rewriteReason := none
  deferReason := none
  error := none
  errorType := none
  createdAt := none
  updatedAt := none
  startedAt := none
  finishedAt := none

/-- A call for a running execution with the given steps. -/
def callWith (steps : List RunStep) : PersistCall where
  run :=
    { runId := some "exec_1", id := none, planId := some "plan_1", triggerSource := none, globalState := "running"
      reviewStatus := none, createdAt := none, updatedAt := none, startedAt := none, finishedAt := none
      cancelledAt := none, leaseOwner := none, leaseExpiresAt := none, totalAttempts := 0, consecutiveFailures := 0
      noProgressAttempts := 0, lastProgressAt := none, stages := [], steps := steps }
  options := {}
  env := ⟨1000, "worker_1"⟩

theorem listed_step_stays_completed :
    (runAll persistCall (persistCall (callWith [listedStep "completed"]) .empty)
      [callWith [listedStep "pending"], callWith [listedStep "completed"]]).stepStatus ("exec_1", "step_a") =
        some .completed := by
  refine (final_statuses_stay (persistCall (callWith [listedStep "completed"]) .empty) _ .completed (by decide)).2.2
    ("exec_1", "step_a") ?_ (by decide)
  have hLists : ∀ status, (callWith [listedStep status]).ListsStep ("exec_1", "step_a") :=
    fun status _ => ⟨_, List.mem_singleton_self _, rfl⟩
  exact .step _ (.step _ .refl fun _ => hLists _) fun _ => hLists _

/-- A completed step that one snapshot omits is pending after the next one. -/
theorem omitted_step_is_pending_again :
    ¬∀ (db later : Db) (status : Status), status.Final → Reaches persistCall (fun _ _ => True) db later →
      (∀ id, db.executionStatus id = some status →
        later.executionStatus id = none ∨ later.executionStatus id = some status) ∧
      (∀ key, db.stageStatus key = some status →
        later.stageStatus key = none ∨ later.stageStatus key = some status) ∧
      ∀ key, db.stepStatus key = some status → later.stepStatus key = none ∨ later.stepStatus key = some status := by
  intro h
  have hStep := (h (persistCall (callWith [listedStep "completed"]) .empty) _ .completed (by decide)
    (reaches_runAll persistCall _ [callWith [], callWith [listedStep "pending"]])).2.2 ("exec_1", "step_a") (by decide)
  exact absurd hStep (by decide)

end Sequences

end CommandConsole.Execution
