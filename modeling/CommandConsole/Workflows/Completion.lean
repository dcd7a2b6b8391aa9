import CommandConsole.Workflows.StepDiscipline

/-! # The completion of a run

The status of a run says whether every step of its definition has a completed attempt, as
long as no outcome is committed for the last step that another outcome in flight has found
incomplete, and no other write is committed over the status of a completed run.
-/
namespace CommandConsole.Workflows
open Library
set_option autoImplicit false

section Statement

def WorkflowDatabase.definition? (db : WorkflowDatabase) (workflowRunId : String) : Option WorkflowDefinition :=
  (db.runs.find? workflowRunId).bind WorkflowRun.definition

/-- A run is `COMPLETED` exactly when every step of its definition has a `COMPLETED` attempt. -/
def WorkflowDatabase.Exact (db : WorkflowDatabase) : Prop :=
  ∀ id run definition, db.runs.find? id = some run → run.definition = some definition →
    (run.status = .completed ↔ ∀ step ∈ definition.steps, step.key ∈ db.completedSteps id)

/-- No call is in progress. -/
def Quiescent (crowd : Workflows) : Prop :=
  ∀ call ∈ crowd.calls, ∃ reply, call.stage = .ended reply

def WorkflowDatabase.NotCompleted (db : WorkflowDatabase) (workflowRunId : String) : Prop :=
  ∀ run ∈ db.runs.find? workflowRunId, run.status ≠ .completed

/-- The rows as a transaction sees them after its own update of an attempt. -/
def WorkflowDatabase.withOutcome (db : WorkflowDatabase) (stepRun : WorkflowStepRun)
    (status : WorkflowStepRunStatus) : WorkflowDatabase :=
  { db with stepRuns := db.stepRuns.setStatus stepRun.id status }

/-- The status of the attempt decides whether its step is completed. -/
def WorkflowDatabase.Decides (db : WorkflowDatabase) (stepRun : WorkflowStepRun) (status : WorkflowStepRunStatus) :
    Prop :=
  ¬(stepRun.stepKey ∈ db.completedSteps stepRun.workflowRunId ↔
    stepRun.stepKey ∈ (db.withOutcome stepRun status).completedSteps stepRun.workflowRunId)

/-- The step of the run whose `COMPLETED` outcome waits for its commit. -/
def StepCall.completing? (call : StepCall) (workflowRunId : String) : Option String :=
  match call.request, call.stage with
  | .record _ _ _ _ .completed, .closing stepRun _ _ =>
    if stepRun.workflowRunId = workflowRunId then some stepRun.stepKey else none
  | _, _ => none

/-- A step of the run besides these two has no `COMPLETED` attempt. -/
def WorkflowDatabase.LacksThird (db : WorkflowDatabase) (workflowRunId stepKey otherKey : String) : Prop :=
  ∃ definition ∈ db.definition? workflowRunId, ∃ step ∈ definition.steps,
    step.key ≠ stepKey ∧ step.key ≠ otherKey ∧ step.key ∉ db.completedSteps workflowRunId

/-- No other outcome in flight depends on this one. -/
def Undisputed (db : WorkflowDatabase) (others : List StepCall) (stepRun : WorkflowStepRun)
    (status : WorkflowStepRunStatus) : Prop :=
  db.Decides stepRun status → ∀ other ∈ others, ∀ key ∈ other.completing? stepRun.workflowRunId,
    key = stepRun.stepKey ∨ db.LacksThird stepRun.workflowRunId stepRun.stepKey key

/-- What a call may commit while the others are where they are. -/
def StepCall.InOrder (db : WorkflowDatabase) (others : List StepCall) (call : StepCall) : Prop :=
  match call.request, call.stage with
  | .begin .., .starting run _ _ => db.NotCompleted run.id
  | .record _ _ _ _ outcome, .closing stepRun step _ =>
    let status := outcomeStatus outcome stepRun.attempt step
    (outcome = .completed ∨ db.NotCompleted stepRun.workflowRunId ∨ db.Decides stepRun status) ∧
      Undisputed db others stepRun status
  | .recover .., .reopening stepRun => db.NotCompleted stepRun.workflowRunId
  | .requestApproval .., .asking run _ => db.NotCompleted run.id
  | .approve .., .confirming approval => db.NotCompleted approval.workflowRunId
  | _, _ => True

/-- The call finds its idempotency key on no attempt of another step, and writes no failure over a completed
attempt. -/
def StepCall.InPlace (db : WorkflowDatabase) (call : StepCall) : Prop :=
  match call.request, call.stage with
  | .begin _ _ _ _ idempotencyKey, .replaying run step =>
    ∀ row ∈ db.stepRuns.rows, row.workflowRunId = run.id → row.idempotencyKey = idempotencyKey →
      row.stepKey = step.key
  | .record _ _ _ _ outcome, .closing stepRun _ _ =>
    outcome = .completed ∨ ∀ row ∈ db.stepRuns.rows, row.id = stepRun.id → row.status ≠ .completed
  | _, _ => True

def InOrder (turn : StepTurn) (crowd : Workflows) : Prop :=
  match turn with
  | .advance index _ => ∀ call ∈ crowd.calls[index]?, call.InOrder crowd.store (crowd.calls.eraseIdx index)
  | _ => True

section Decidable

variable (db : WorkflowDatabase)

instance (workflowRunId : String) : Decidable (db.NotCompleted workflowRunId) :=
  inferInstanceAs (Decidable (∀ run ∈ db.runs.find? workflowRunId, _))

instance (stepRun : WorkflowStepRun) (status : WorkflowStepRunStatus) : Decidable (db.Decides stepRun status) :=
  inferInstanceAs (Decidable (¬_))

instance (workflowRunId stepKey otherKey : String) : Decidable (db.LacksThird workflowRunId stepKey otherKey) :=
  inferInstanceAs (Decidable (∃ definition ∈ db.definition? workflowRunId, _))

instance (others : List StepCall) (stepRun : WorkflowStepRun) (status : WorkflowStepRunStatus) :
    Decidable (Undisputed db others stepRun status) :=
  inferInstanceAs (Decidable (_ → ∀ other ∈ others, _))

instance (others : List StepCall) (call : StepCall) : Decidable (call.InOrder db others) := by
  unfold StepCall.InOrder
  split <;> infer_instance

instance (call : StepCall) : Decidable (call.InPlace db) := by
  unfold StepCall.InPlace
  split <;> infer_instance

instance (turn : StepTurn) (crowd : Workflows) : Decidable (InOrder turn crowd) :=
  match turn with
  | .advance index _ => inferInstanceAs (Decidable (∀ call ∈ crowd.calls[index]?, _))
  | .enter _ | .outside _ => inferInstanceAs (Decidable True)

end Decidable

end Statement

section CompletedSteps

variable {db : WorkflowDatabase} {stepRun : WorkflowStepRun} {status : WorkflowStepRunStatus} {id key : String}

theorem mem_completedSteps :
    key ∈ db.completedSteps id ↔ ∃ row ∈ db.stepRuns.rows, row.Of id key ∧ row.status = .completed := by
  simp only [WorkflowDatabase.completedSteps, List.mem_map, List.mem_filter, decide_eq_true_eq, WorkflowStepRun.Of]
  constructor
  · rintro ⟨row, ⟨hRow, hRun, hStatus⟩, hKey⟩
    exact ⟨row, hRow, ⟨hRun, hKey⟩, hStatus⟩
  · rintro ⟨row, hRow, ⟨hRun, hKey⟩, hStatus⟩
    exact ⟨row, ⟨hRow, hRun, hStatus⟩, hKey⟩

/-- An attempt of a step says nothing about the others. -/
theorem completedSteps_withOutcome (hKnown : ∃ row ∈ db.stepRuns.rows, row.SameAttempt stepRun)
    (hNot : id = stepRun.workflowRunId → key ≠ stepRun.stepKey) :
    key ∈ (db.withOutcome stepRun status).completedSteps id ↔ key ∈ db.completedSteps id := by
  obtain ⟨target, hTarget, hId, hOf, -⟩ := hKnown
  have hKeeps : ∀ row ∈ db.stepRuns.rows, row.Of id key → (row.setStatus stepRun.id status).status = row.status := by
    intro row hRow hRowOf
    rw [WorkflowStepRun.status_setStatus, if_neg]
    intro hRowId
    obtain rfl := WorkflowStepRuns.eq_of_id_eq hRow hTarget (hRowId.trans hId.symm)
    exact hNot (hRowOf.1.symm.trans hOf.1) (hRowOf.2.symm.trans hOf.2)
  simp only [mem_completedSteps, WorkflowDatabase.withOutcome, mem_setStatus]
  constructor
  · rintro ⟨_, ⟨row, hRow, rfl⟩, hRowOf, hStatus⟩
    have hRowOf : row.Of id key := by
      simpa only [WorkflowStepRun.Of, WorkflowStepRun.workflowRunId_setStatus,
        WorkflowStepRun.stepKey_setStatus] using hRowOf
    exact ⟨row, hRow, hRowOf, hKeeps row hRow hRowOf ▸ hStatus⟩
  · rintro ⟨row, hRow, hRowOf, hStatus⟩
    refine ⟨_, ⟨row, hRow, rfl⟩, ?_, (hKeeps row hRow hRowOf).trans hStatus⟩
    simpa only [WorkflowStepRun.Of, WorkflowStepRun.workflowRunId_setStatus,
      WorkflowStepRun.stepKey_setStatus] using hRowOf

theorem completedSteps_completed (hKnown : ∃ row ∈ db.stepRuns.rows, row.SameAttempt stepRun) :
    stepRun.stepKey ∈ (db.withOutcome stepRun .completed).completedSteps stepRun.workflowRunId := by
  obtain ⟨target, hTarget, hId, hOf, -⟩ := hKnown
  refine mem_completedSteps.mpr ⟨_, mem_setStatus.mpr ⟨target, hTarget, rfl⟩, ?_, ?_⟩
  · simpa only [WorkflowStepRun.Of, WorkflowStepRun.workflowRunId_setStatus,
      WorkflowStepRun.stepKey_setStatus] using hOf
  · rw [WorkflowStepRun.status_setStatus, if_pos hId]

/-- A failed outcome completes nothing. -/
theorem completedSteps_of_failed (hStatus : status ≠ .completed)
    (h : key ∈ (db.withOutcome stepRun status).completedSteps id) : key ∈ db.completedSteps id := by
  obtain ⟨_, hRow', hOf, hCompleted⟩ := mem_completedSteps.mp h
  obtain ⟨row, hRow, rfl⟩ := mem_setStatus.mp hRow'
  rw [WorkflowStepRun.status_setStatus] at hCompleted
  split at hCompleted
  · exact absurd hCompleted hStatus
  · refine mem_completedSteps.mpr ⟨row, hRow, ?_, hCompleted⟩
    simpa only [WorkflowStepRun.Of, WorkflowStepRun.workflowRunId_setStatus,
      WorkflowStepRun.stepKey_setStatus] using hOf

/-- Every step of the definition but this one has a `COMPLETED` attempt. -/
def WorkflowDatabase.CompleteBut (db : WorkflowDatabase) (workflowRunId : String) (definition : WorkflowDefinition)
    (stepKey : String) : Prop :=
  ∀ step ∈ definition.steps, step.key = stepKey ∨ step.key ∈ db.completedSteps workflowRunId

theorem allCompleted_iff {definition : WorkflowDefinition}
    (hKnown : ∃ row ∈ db.stepRuns.rows, row.SameAttempt stepRun) :
    allCompleted db stepRun definition .completed = true ↔
      db.CompleteBut stepRun.workflowRunId definition stepRun.stepKey := by
  simp only [allCompleted, List.all_eq_true, decide_eq_true_eq, WorkflowDatabase.CompleteBut]
  refine forall₂_congr fun step _ => ?_
  by_cases hKey : step.key = stepRun.stepKey
  · simp only [hKey, true_or, iff_true]
    exact completedSteps_completed hKnown
  · rw [or_iff_right hKey]
    exact completedSteps_withOutcome hKnown fun _ => hKey

/-- An undisputed outcome leaves the others in flight what they have found. -/
theorem completeBut_withOutcome {definition : WorkflowDefinition} {other : String}
    (hKnown : ∃ row ∈ db.stepRuns.rows, row.SameAttempt stepRun) (hDefinition : db.definition? id = some definition)
    (hFree : db.Decides stepRun status → id = stepRun.workflowRunId →
      other = stepRun.stepKey ∨ db.LacksThird id stepRun.stepKey other) :
    (db.withOutcome stepRun status).CompleteBut id definition other ↔ db.CompleteBut id definition other := by
  by_cases hRun : id = stepRun.workflowRunId
  swap
  · refine forall₂_congr fun step _ => or_congr_right ?_
    exact completedSteps_withOutcome hKnown fun h => absurd h hRun
  subst hRun
  by_cases hDecides : db.Decides stepRun status
  · rcases hFree hDecides rfl with rfl | ⟨definition', hDefinition', third, hThird, hNe, hNe', hLacks⟩
    · refine forall₂_congr fun step _ => ?_
      by_cases hKey : step.key = stepRun.stepKey
      · simp only [hKey, true_or]
      · rw [or_iff_right hKey, or_iff_right hKey]
        exact completedSteps_withOutcome hKnown fun _ => hKey
    · obtain rfl := Option.some.inj (hDefinition.symm.trans hDefinition')
      refine iff_of_false (fun h => ?_) fun h => ?_
      · rcases h third hThird with hEq | hMem
        · exact hNe' hEq
        · exact hLacks ((completedSteps_withOutcome hKnown fun _ => hNe).mp hMem)
      · rcases h third hThird with hEq | hMem
        · exact hNe' hEq
        · exact hLacks hMem
  · refine forall₂_congr fun step _ => or_congr_right ?_
    by_cases hKey : step.key = stepRun.stepKey
    · rw [hKey]
      exact (not_not.mp hDecides).symm
    · exact completedSteps_withOutcome hKnown fun _ => hKey

end CompletedSteps

section Exactness

variable {db : WorkflowDatabase}

theorem definition?_eq_some {id : String} {run : WorkflowRun} {definition : WorkflowDefinition}
    (hRun : db.runs.find? id = some run) (hDefinition : run.definition = some definition) :
    db.definition? id = some definition := by
  rw [WorkflowDatabase.definition?, hRun, Option.bind_some, hDefinition]

/-- No update touches the definition of a run. -/
@[simp] theorem definition?_setRunStatus (db : WorkflowDatabase) (id other : String) (status : WorkflowRunStatus) :
    (db.setRunStatus id status).definition? other = db.definition? other := by
  unfold WorkflowDatabase.definition?
  rw [find?_setRunStatus]
  cases db.runs.find? other with
  | none => rfl
  | some run =>
    rw [Option.map_some, Option.bind_some, Option.bind_some]
    split <;> rfl

@[simp] theorem completedSteps_setRunStatus (id other : String) (status : WorkflowRunStatus) :
    (db.setRunStatus id status).completedSteps other = db.completedSteps other := rfl

/-- What is true of the row of each run after its status is set. -/
theorem exact_setRunStatus {before : WorkflowDatabase} {id : String} {status : WorkflowRunStatus}
    (hExact : before.Exact) (hRuns : db.runs = before.runs)
    (hOthers : ∀ other, other ≠ id → ∀ key, key ∈ db.completedSteps other ↔ key ∈ before.completedSteps other)
    (hStatus : ∀ run definition, before.runs.find? id = some run → run.definition = some definition →
      (status = .completed ↔ ∀ step ∈ definition.steps, step.key ∈ db.completedSteps id)) :
    (db.setRunStatus id status).Exact := by
  intro other run definition hRun hDefinition
  rw [find?_setRunStatus, hRuns] at hRun
  obtain ⟨row, hRow, rfl⟩ := Option.map_eq_some_iff.mp hRun
  obtain rfl := Table.find?_key hRow
  rw [completedSteps_setRunStatus]
  split at hDefinition
  · rename_i hId
    rw [if_pos hId, hId]
    exact hStatus row definition (hId ▸ hRow) hDefinition
  · rename_i hId
    rw [if_neg hId, hExact _ row definition hRow hDefinition]
    exact forall₂_congr fun step _ => (hOthers _ hId step.key).symm

/-- A write that completes nothing, on a run that is not completed. -/
theorem exact_mark {before : WorkflowDatabase} {id : String} {status : WorkflowRunStatus} (hExact : before.Exact)
    (hRuns : db.runs = before.runs) (hSame : ∀ other key, key ∈ db.completedSteps other ↔ key ∈ before.completedSteps other)
    (hNot : before.NotCompleted id) (hStatus : status ≠ .completed) : (db.setRunStatus id status).Exact := by
  refine exact_setRunStatus hExact hRuns (fun other _ key => hSame other key) fun run definition hRun hDefinition => ?_
  refine iff_of_false hStatus fun hAll => hNot run hRun ?_
  exact (hExact id run definition hRun hDefinition).mpr fun step hStep => (hSame id step.key).mp (hAll step hStep)

theorem outcomeStatus_eq_completed {outcome : StepOutcome} {attempt : Nat} {step : WorkflowStep} :
    outcomeStatus outcome attempt step = .completed ↔ outcome = .completed := by
  unfold outcomeStatus
  split
  · rename_i hCompleted
    simp only [hCompleted]
  · rename_i hCompleted
    split <;> simp only [hCompleted, reduceCtorEq]

theorem runStatusAfter_eq_completed {status : WorkflowStepRunStatus} {workflowCompleted : Bool}
    (hStatus : status = .completed ∨ status = .retryWait ∨ status = .failed) :
    runStatusAfter status workflowCompleted = .completed ↔ status = .completed ∧ workflowCompleted = true := by
  rcases hStatus with rfl | rfl | rfl <;> cases workflowCompleted <;> decide

theorem outcomeStatus_cases (outcome : StepOutcome) (attempt : Nat) (step : WorkflowStep) :
    outcomeStatus outcome attempt step = .completed ∨ outcomeStatus outcome attempt step = .retryWait ∨
      outcomeStatus outcome attempt step = .failed := by
  unfold outcomeStatus
  split
  · exact .inl rfl
  · split
    · exact .inr (.inl rfl)
    · exact .inr (.inr rfl)

theorem key_mem_of_step? {definition : WorkflowDefinition} {stepKey : String} {step : WorkflowStep}
    (h : definition.step? stepKey = some step) : step ∈ definition.steps ∧ step.key = stepKey :=
  ⟨List.mem_of_find?_eq_some h, by simpa using List.find?_some h⟩

/-- The commit of an outcome, when what the call has found is still so. -/
theorem exact_commitOutcome {stepRun : WorkflowStepRun} {step : WorkflowStep} {outcome : StepOutcome}
    {workflowCompleted : Bool} (hExact : db.Exact)
    (hKnown : (StepStage.closing stepRun step workflowCompleted).Known db)
    (hFound : outcome = .completed → ∀ definition, db.definition? stepRun.workflowRunId = some definition →
      (workflowCompleted = true ↔ db.CompleteBut stepRun.workflowRunId definition stepRun.stepKey))
    (hOrder : outcome = .completed ∨ db.NotCompleted stepRun.workflowRunId ∨
      db.Decides stepRun (outcomeStatus outcome stepRun.attempt step)) :
    (commitOutcome db stepRun (outcomeStatus outcome stepRun.attempt step) workflowCompleted).Exact := by
  obtain ⟨hStep, hRow⟩ := hKnown
  refine exact_setRunStatus hExact rfl
    (fun other hOther key => completedSteps_withOutcome hRow fun h => absurd h hOther)
    fun run definition hRun hDefinition => ?_
  have hOf := definition?_eq_some hRun hDefinition
  rw [runStatusAfter_eq_completed (outcomeStatus_cases outcome stepRun.attempt step), outcomeStatus_eq_completed]
  by_cases hCompleted : outcome = .completed
  · rw [and_iff_right hCompleted, hFound hCompleted definition hOf, ← allCompleted_iff hRow,
      outcomeStatus_eq_completed.mpr hCompleted]
    simp only [allCompleted, List.all_eq_true, decide_eq_true_eq]
  · have hStatus : outcomeStatus outcome stepRun.attempt step ≠ .completed :=
      mt outcomeStatus_eq_completed.mp hCompleted
    refine iff_of_false (fun h => hCompleted h.1) fun hAll => ?_
    rcases (or_iff_right hCompleted).mp hOrder with hNot | hDecides
    · refine hNot run hRun ((hExact _ run definition hRun hDefinition).mpr fun other hOther => ?_)
      exact completedSteps_of_failed hStatus (hAll other hOther)
    · rw [WorkflowDatabase.stepOf?, hRun, Option.bind_some, hDefinition, Option.bind_some] at hStep
      obtain ⟨hMem, hKey⟩ := key_mem_of_step? hStep
      have hAfter := hAll step hMem
      rw [hKey] at hAfter
      exact hDecides (iff_of_true (completedSteps_of_failed hStatus hAfter) hAfter)

end Exactness

section Sections

variable {db after : WorkflowDatabase} {call : StepCall}

/-- The write of a section, if it makes one. -/
inductive Commit (call : StepCall) (db : WorkflowDatabase) : WorkflowDatabase → Prop where
  | none : Commit call db db
  | starts (run : WorkflowRun) (row : WorkflowStepRun) (stepRuns : WorkflowStepRuns)
      (hNew : row.status = .running) (hStored : (db.runs.find? row.workflowRunId).isSome)
      (hInsert : db.stepRuns.insert row = some stepRuns)
      (hOrder : ∀ others, call.InOrder db others → db.NotCompleted row.workflowRunId) :
      Commit call db ({ db with stepRuns }.setRunStatus row.workflowRunId .running)
  | closes (workspaceId workflowRunId stepKey stepRunId : String) (stepRun : WorkflowStepRun) (step : WorkflowStep)
      (outcome : StepOutcome) (workflowCompleted : Bool)
      (hCall : call = ⟨.record workspaceId workflowRunId stepKey stepRunId outcome,
        .closing stepRun step workflowCompleted⟩) :
      Commit call db (commitOutcome db stepRun (outcomeStatus outcome stepRun.attempt step) workflowCompleted)
  | marks (workflowRunId : String) (status : WorkflowRunStatus) (approvals : PlainTable WorkflowStepApproval.id)
      (hStatus : status ≠ .completed)
      (hOrder : ∀ others, call.InOrder db others → db.NotCompleted workflowRunId) :
      Commit call db ({ db with approvals }.setRunStatus workflowRunId status)

theorem section_commit (input : StepInput) (call : StepCall) (db : WorkflowDatabase) (hKnown : call.stage.Known db) :
    Commit call db (call.section input db).2 := by
  obtain ⟨request, stage⟩ := call
  cases request with
  | begin workspaceId workflowRunId stepKey scope idempotencyKey =>
    cases stage with
    | starting run step prior =>
      dsimp only [StepCall.section, beginWorkflowStepAttempt, commitAttempt]
      split
      · exact .none
      · rename_i stepRuns hInsert
        refine .starts run _ stepRuns rfl ?_ hInsert fun _ => id
        obtain ⟨definition, hDefinition, -⟩ := Option.bind_eq_some_iff.mp hKnown.1
        obtain ⟨stored, hStored, -⟩ := Option.bind_eq_some_iff.mp hDefinition
        exact Option.isSome_of_mem hStored
    | _ => exact .none
  | record workspaceId workflowRunId stepKey stepRunId outcome =>
    cases stage with
    | closing stepRun step workflowCompleted => exact .closes _ _ _ _ _ _ _ _ rfl
    | _ => exact .none
  | recover workspaceId stepRunId =>
    cases stage with
    | received =>
      dsimp only [StepCall.section, recoverWorkflowStepForRetry]
      split <;> exact .none
    | reopening stepRun => exact .marks _ _ db.approvals nofun fun _ => id
    | _ => exact .none
  | requestApproval workspaceId actorId workflowRunId stepKey =>
    cases stage with
    | asking run step =>
      dsimp only [StepCall.section, requestWorkflowStepApproval, commitApproval]
      split
      · exact .none
      · exact .marks _ _ _ nofun fun _ => id
    | _ => exact .none
  | approve workspaceId approvalId actorId =>
    cases stage with
    | confirming approval => exact .marks _ _ _ nofun fun _ => id
    | _ => exact .none

/-- What a call that records an outcome has found is so when it commits. -/
def StepCall.Found (db : WorkflowDatabase) (call : StepCall) : Prop :=
  match call.request, call.stage with
  | .record .., .recording stepRun definition _ => db.definition? stepRun.workflowRunId = some definition
  | .record _ _ _ _ outcome, .closing stepRun _ workflowCompleted =>
    outcome = .completed → ∀ definition, db.definition? stepRun.workflowRunId = some definition →
      (workflowCompleted = true ↔ db.CompleteBut stepRun.workflowRunId definition stepRun.stepKey)
  | _, _ => True

theorem findOutcomeTarget_found (workspaceId workflowRunId stepKey stepRunId : String) (outcome : StepOutcome) :
    StepCall.Found db ⟨.record workspaceId workflowRunId stepKey stepRunId outcome,
      findOutcomeTarget db workspaceId workflowRunId stepKey stepRunId⟩ := by
  unfold findOutcomeTarget
  split
  · trivial
  · rename_i stepRun hFind
    split
    · trivial
    · split
      · trivial
      · rename_i definition hDefinition
        split
        · trivial
        · have hFound : stepRun.id = stepRunId ∧ stepRun.Of workflowRunId stepKey := by
            simpa using List.find?_some hFind
          simp only [StepCall.Found, WorkflowDatabase.definition?, hFound.2.1]
          exact hDefinition

theorem section_found (input : StepInput) (hKnown : call.stage.Known db) (hFound : call.Found db) :
    StepCall.Found (call.section input db).2 { call with stage := (call.section input db).1 } := by
  obtain ⟨request, stage⟩ := call
  cases request with
  | record workspaceId workflowRunId stepKey stepRunId outcome =>
    cases stage with
    | received => exact findOutcomeTarget_found _ _ _ _ _
    | recording stepRun definition step =>
      rintro hCompleted definition' hDefinition
      obtain rfl := Option.some.inj (hDefinition.symm.trans hFound)
      subst hCompleted
      have hStatus : outcomeStatus .completed stepRun.attempt step = .completed := if_pos rfl
      simp only [hStatus, true_and, decide_eq_true_eq]
      exact allCompleted_iff hKnown.2
    | _ => trivial
  | _ => trivial

end Sections

section Commits

variable {db after : WorkflowDatabase} {call other : StepCall} {others : List StepCall}

theorem completedSteps_insert {row : WorkflowStepRun} {stepRuns : WorkflowStepRuns} (hNew : row.status = .running)
    (hInsert : db.stepRuns.insert row = some stepRuns) (id key : String) :
    key ∈ { db with stepRuns }.completedSteps id ↔ key ∈ db.completedSteps id := by
  simp only [mem_completedSteps, (WorkflowStepRuns.insert_eq_some hInsert).2, List.mem_append, List.mem_singleton]
  constructor
  · rintro ⟨other, hOther | rfl, hOf, hStatus⟩
    · exact ⟨other, hOther, hOf, hStatus⟩
    · cases hNew.symm.trans hStatus
  · rintro ⟨other, hOther, hOf, hStatus⟩
    exact ⟨other, .inl hOther, hOf, hStatus⟩

theorem Commit.exact (h : Commit call db after) (hOrder : call.InOrder db others) (hKnown : call.stage.Known db)
    (hFound : call.Found db) (hExact : db.Exact) : after.Exact := by
  cases h with
  | none => exact hExact
  | starts run row stepRuns hNew hStored hInsert hIn =>
    exact exact_mark hExact rfl (completedSteps_insert hNew hInsert) (hIn others hOrder) nofun
  | closes workspaceId workflowRunId stepKey stepRunId stepRun step outcome workflowCompleted hCall =>
    subst hCall
    exact exact_commitOutcome hExact hKnown hFound hOrder.1
  | marks workflowRunId status approvals hStatus hIn =>
    exact exact_mark hExact rfl (fun _ _ => .rfl) (hIn others hOrder) hStatus

theorem Commit.definition? (h : Commit call db after) (id : String) : after.definition? id = db.definition? id := by
  cases h with
  | none => rfl
  | starts => exact definition?_setRunStatus _ _ _ _
  | closes => exact definition?_setRunStatus _ _ _ _
  | marks => exact definition?_setRunStatus _ _ _ _

theorem isSome_setRunStatus (id other : String) (status : WorkflowRunStatus) :
    ((db.setRunStatus id status).runs.find? other).isSome = (db.runs.find? other).isSome := by
  rw [find?_setRunStatus, Option.isSome_map]

/-- The rows of attempts are those of stored runs. -/
def WorkflowDatabase.Owned (db : WorkflowDatabase) : Prop :=
  ∀ row ∈ db.stepRuns.rows, (db.runs.find? row.workflowRunId).isSome

theorem Commit.owned (h : Commit call db after) (hOwned : db.Owned) : after.Owned := by
  cases h with
  | none => exact hOwned
  | starts run row stepRuns hNew hStored hInsert hIn =>
    intro other hOther
    rw [isSome_setRunStatus]
    rw [stepRuns_setRunStatus, (WorkflowStepRuns.insert_eq_some hInsert).2, List.mem_append, List.mem_singleton] at hOther
    rcases hOther with hOther | rfl
    · exact hOwned other hOther
    · exact hStored
  | closes =>
    intro other hOther
    obtain ⟨row, hRow, rfl⟩ := mem_setStatus.mp hOther
    rw [commitOutcome, isSome_setRunStatus, WorkflowStepRun.workflowRunId_setStatus]
    exact hOwned row hRow
  | marks =>
    intro other hOther
    rw [isSome_setRunStatus]
    exact hOwned other hOther

theorem StepCall.Found.congr (h : other.Found db) (hKnown : other.stage.Known db)
    (hDefinition : ∀ id definition, db.definition? id = some definition → after.definition? id = some definition)
    (hSame : ∀ id key definition, other.completing? id = some key → db.definition? id = some definition →
      (after.CompleteBut id definition key ↔ db.CompleteBut id definition key)) : other.Found after := by
  obtain ⟨request, stage⟩ := other
  cases request with
  | record =>
    cases stage with
    | recording => exact hDefinition _ _ h
    | closing stepRun step workflowCompleted =>
      rintro rfl definition hAfter
      obtain ⟨definition', hBefore, -⟩ := Option.bind_eq_some_iff.mp hKnown.1
      obtain rfl := Option.some.inj (hAfter.symm.trans (hDefinition _ _ hBefore))
      exact (h rfl definition hBefore).trans (hSame _ _ _ (if_pos rfl) hBefore).symm
    | _ => trivial
  | _ => trivial

theorem Commit.found (h : Commit call db after) (hOrder : call.InOrder db others) (hKnown : call.stage.Known db)
    (hOther : other ∈ others) (hKnown' : other.stage.Known db) (hFound : other.Found db) : other.Found after := by
  refine hFound.congr hKnown' (fun id _ => (h.definition? id).trans) fun id key definition hKey hDefinition => ?_
  cases h with
  | none => exact .rfl
  | starts run row stepRuns hNew hStored hInsert hIn =>
    exact forall₂_congr fun step _ => or_congr_right (completedSteps_insert hNew hInsert id step.key)
  | closes workspaceId workflowRunId stepKey stepRunId stepRun step outcome workflowCompleted hCall =>
    subst hCall
    refine completeBut_withOutcome hKnown.2 hDefinition ?_
    rintro hDecides rfl
    exact hOrder.2 hDecides other hOther key hKey
  | marks => exact .rfl

end Commits

section Runs

variable {crowd : Workflows}

structure Sound (crowd : Workflows) : Prop where
  exact : crowd.store.Exact
  owned : crowd.store.Owned
  known : ∀ call ∈ crowd.calls, call.stage.Known crowd.store
  found : ∀ call ∈ crowd.calls, call.Found crowd.store

theorem Sound.enter (h : Sound crowd) (request : StepRequest) :
    Sound (Crowd.step stepRules (.enter request) crowd) := by
  refine ⟨h.exact, h.owned, fun call hCall => ?_, fun call hCall => ?_⟩
  · rcases List.mem_append.mp hCall with hOld | hNew
    · exact h.known call hOld
    · obtain rfl := List.mem_singleton.mp hNew
      trivial
  · rcases List.mem_append.mp hCall with hOld | hNew
    · exact h.found call hOld
    · obtain rfl := List.mem_singleton.mp hNew
      cases request <;> trivial

theorem Sound.advance (h : Sound crowd) {index : Nat} {call : StepCall} (input : StepInput)
    (hCall : crowd.calls[index]? = some call)
    (hOrder : call.InOrder crowd.store (crowd.calls.eraseIdx index)) :
    Sound (Crowd.step stepRules (.advance index input) crowd) := by
  have hMem := List.mem_of_getElem? hCall
  have hCommit := section_commit input call crowd.store (h.known call hMem)
  have hEffect := section_effect input call crowd.store
  rw [Crowd.step_advance hCall]
  refine ⟨hCommit.exact hOrder (h.known call hMem) (h.found call hMem) h.exact, hCommit.owned h.owned, ?_, ?_⟩
  · intro other hOther
    rcases List.mem_or_eq_of_mem_set hOther with hOld | rfl
    · exact (h.known other hOld).later hEffect.grows
    · exact hEffect.known (h.known call hMem)
  · intro other hOther
    obtain ⟨i, hi⟩ := List.mem_iff_getElem?.mp hOther
    by_cases hIndex : i = index
    · rw [hIndex, Crowd.getElem?_set_self' hCall] at hi
      obtain rfl := Option.some.inj hi
      exact section_found input (h.known call hMem) (h.found call hMem)
    · rw [List.getElem?_set_ne (Ne.symm hIndex)] at hi
      have hErased : other ∈ crowd.calls.eraseIdx index := List.mem_eraseIdx_iff_getElem?.mpr ⟨i, hIndex, hi⟩
      have hOld := List.mem_of_getElem? hi
      exact hCommit.found hOrder (h.known call hMem) hErased (h.known other hOld) (h.found other hOld)

/-- A new run has no attempts, and its definition has a step. -/
theorem exact_admission (admitted : AdmittedRun) {db : WorkflowDatabase} (hExact : db.Exact) (hOwned : db.Owned) :
    (admitWorkflowRun admitted db).Exact ∧ (admitWorkflowRun admitted db).Owned := by
  unfold admitWorkflowRun
  split
  · exact ⟨hExact, hOwned⟩
  · rename_i runs hInsert
    refine ⟨fun id run definition hRun hDefinition => ?_, fun row hRow => ?_⟩
    · rw [Table.find?_insert hInsert] at hRun
      split at hRun
      · rename_i hId
        obtain rfl := Option.some.inj hRun
        refine iff_of_false nofun fun hAll => ?_
        obtain ⟨step, hStep⟩ := List.exists_mem_of_ne_nil _ definition.someStep
        obtain ⟨row, hRow, hOf, -⟩ := mem_completedSteps.mp (hAll step hStep)
        have hStored := hOwned row hRow
        rw [hOf.1, hId, (Table.insert_eq_some hInsert).1] at hStored
        cases hStored
      · exact hExact id run definition hRun hDefinition
    · rw [Table.find?_insert hInsert]
      split
      · rfl
      · exact hOwned row hRow

theorem Sound.outside (h : Sound crowd) (admitted : AdmittedRun) :
    Sound { crowd with store := admitWorkflowRun admitted crowd.store } := by
  obtain ⟨hExact, hOwned⟩ := exact_admission admitted h.exact h.owned
  have hGrows := grows_admission admitted crowd.store
  refine ⟨hExact, hOwned, fun call hCall => (h.known call hCall).later hGrows, fun call hCall => ?_⟩
  refine (h.found call hCall).congr (h.known call hCall) (fun id definition hDefinition => ?_) fun id key definition _ _ => ?_
  · obtain ⟨run, hRun, hOf⟩ := Option.bind_eq_some_iff.mp hDefinition
    exact definition?_eq_some (find?_admission hRun) hOf
  · refine forall₂_congr fun step _ => or_congr_right ?_
    rw [mem_completedSteps, mem_completedSteps]
    dsimp only
    rw [stepRuns_admission]

theorem sound_init : Sound (Crowd.init .empty) := by
  refine ⟨fun id run definition hRun _ => ?_, fun row hRow => ?_, fun call hCall => ?_, fun call hCall => ?_⟩
  · cases hRun
  · cases hRow
  · cases hCall
  · cases hCall

/-- In the runs whose commits are all in order, whatever calls overlap. -/
theorem workflow_completion_exact (h : Reaches (Crowd.step stepRules) InOrder (Crowd.init .empty) crowd) :
    crowd.store.Exact := by
  refine (h.invariant sound_init fun turn crowd hSound hOrder => ?_).exact
  cases turn with
  | enter request => exact hSound.enter request
  | outside admitted => exact hSound.outside admitted
  | advance index input =>
    cases hCall : crowd.calls[index]? with
    | none =>
      rw [Crowd.step, hCall]
      exact hSound
    | some call => exact hSound.advance input hCall (hOrder call hCall)

end Runs

section Examples

def plainStep (key : String) : WorkflowStep :=
  ⟨key, ⟨"nuru", "drafts.write", "1.0"⟩, [], ⟨1, by decide, by decide⟩, ⟨.none, none⟩⟩

def sendStep : WorkflowStep :=
  ⟨"send", ⟨"nuru", "drafts.write", "1.0"⟩, ["draft"], ⟨1, by decide, by decide⟩, ⟨.required, some "It leaves the house."⟩⟩

def twoSteps : WorkflowDefinition := ⟨[plainStep "left", plainStep "right"], by decide, by decide⟩

def threeSteps : WorkflowDefinition := ⟨[plainStep "left", plainStep "right", plainStep "last"], by decide, by decide⟩

def stepBegin (index : Nat) (stepKey : String) : List StepTurn :=
  callTurns index 7 stepKey (.begin "workspace" "run-1" stepKey draftScope ("key of " ++ stepKey))

def recordCompleted (stepKey : String) : StepRequest := .record "workspace" "run-1" stepKey stepKey .completed

def turnsOf (indices : List Nat) : List StepTurn := indices.map fun index => .advance index (draftInput "unused")

/-- Two outcomes are read before either is committed. -/
def joinTurns (definition : WorkflowDefinition) : List StepTurn :=
  [.outside ⟨"run-1", "workspace", some definition⟩] ++ stepBegin 0 "left" ++ stepBegin 1 "right" ++
    [.enter (recordCompleted "left"), .enter (recordCompleted "right")] ++ turnsOf [2, 2, 3, 3, 2, 3]

def joined (definition : WorkflowDefinition) : Workflows :=
  runAll (Crowd.step stepRules) (Crowd.init .empty) (joinTurns definition)

def lastTurns : List StepTurn :=
  stepBegin 4 "last" ++ callTurns 5 3 "unused" (recordCompleted "last")

def finished : Workflows := runAll (Crowd.step stepRules) (Crowd.init .empty) (joinTurns threeSteps ++ lastTurns)

theorem workflow_completion_exact_finished :
    finished.store.Exact ∧ runStatusOf finished = some .completed :=
  ⟨workflow_completion_exact (GuardedAll.reaches (by decide +kernel)), by decide +kernel⟩

def quiet (crowd : Workflows) : Bool :=
  crowd.calls.all fun call => match call.stage with
    | .ended _ => true
    | _ => false

theorem quiescent_of_quiet {crowd : Workflows} (h : quiet crowd = true) : Quiescent crowd := by
  intro call hCall
  have hEnded := List.all_eq_true.mp h call hCall
  revert hEnded
  split
  · exact fun _ => ⟨_, by assumption⟩
  · nofun

theorem workflow_completion_inexact :
    quiet (joined twoSteps) = true ∧ runStatusOf (joined twoSteps) = some .running ∧
    (joined twoSteps).store.completedSteps "run-1" = ["left", "right"] ∧
    ¬ ∀ crowd, Reaches (Crowd.step stepRules) (fun _ _ => True) (Crowd.init .empty) crowd → Quiescent crowd →
      crowd.store.Exact := by
  have hQuiet : quiet (joined twoSteps) = true := by decide +kernel
  have hSteps : (joined twoSteps).store.completedSteps "run-1" = ["left", "right"] := by decide +kernel
  refine ⟨hQuiet, by decide +kernel, hSteps, fun h => ?_⟩
  have hRun : (joined twoSteps).store.runs.find? "run-1" = some ⟨"run-1", "workspace", .running, some twoSteps⟩ := by
    decide +kernel
  have hExact := h (joined twoSteps) (reaches_runAll _ _ _) (quiescent_of_quiet hQuiet) "run-1" _ twoSteps hRun rfl
  have hAll : ∀ step ∈ twoSteps.steps, step.key ∈ ["left", "right"] := by decide
  cases hExact.mpr (hSteps ▸ hAll)

end Examples

end CommandConsole.Workflows
