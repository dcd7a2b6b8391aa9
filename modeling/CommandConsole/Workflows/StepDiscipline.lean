import Mathlib.Data.List.Perm.Subperm
import CommandConsole.Workflows.StepCalls

/-! # The discipline of runs and attempts

A finished run stays as it is, a completed step is not started again, a step has one
running attempt at a time and as many attempts as its failure policy allows, and an
attempt that is over stays over. No call looks at more than one step, so this holds of
the runs whose writes come in time.
-/
namespace CommandConsole.Workflows
open Library
set_option autoImplicit false

section Statement

/-- What holds of the rows at one time and at any later time. -/
structure Disciplined (before after : WorkflowDatabase) : Prop where
  finished : ∀ id run, before.runs.find? id = some run → run.status.finished = true →
    ∃ later, after.runs.find? id = some later ∧ later.status = run.status
  notRestarted : ∀ row ∈ before.stepRuns.rows, row.status = .completed →
    ∀ later ∈ after.stepRuns.rows, later.Of row.workflowRunId row.stepKey →
      ∃ earlier ∈ before.stepRuns.rows, earlier.id = later.id
  oneRunning : ∀ row ∈ after.stepRuns.rows, ∀ other ∈ after.stepRuns.rows,
    other.Of row.workflowRunId row.stepKey → row.status = .running → other.status = .running → row = other
  settled : ∀ row ∈ before.stepRuns.rows, row.status ≠ .running →
    ∃ later ∈ after.stepRuns.rows, later.id = row.id ∧ later.status = row.status
  bounded : ∀ id run definition stepKey step, after.runs.find? id = some run → run.definition = some definition →
    definition.step? stepKey = some step → (after.attempts id stepKey).length ≤ step.failurePolicy.maxAttempts

/-- The run is neither completed nor failed. -/
def WorkflowDatabase.Open (db : WorkflowDatabase) (workflowRunId : String) : Prop :=
  ∀ run ∈ db.runs.find? workflowRunId, run.status.finished = false

def WorkflowDatabase.Failed (db : WorkflowDatabase) (workflowRunId : String) : Prop :=
  ∀ run ∈ db.runs.find? workflowRunId, run.status = .failed

/-- The step has no attempt, or its last one waits for a retry. -/
def WorkflowDatabase.Waits (db : WorkflowDatabase) (workflowRunId stepKey : String) : Prop :=
  ∀ row ∈ db.attempts workflowRunId stepKey,
    (∀ other ∈ db.attempts workflowRunId stepKey, other.attempt ≤ row.attempt) → row.status = .retryWait

def WorkflowDatabase.Running (db : WorkflowDatabase) (stepRunId : String) : Prop :=
  ∀ row ∈ db.stepRuns.rows, row.id = stepRunId → row.status = .running

/-- The outcome leaves the attempt no retry. -/
def StepRequest.failsForGood (request : StepRequest) (stepRun : WorkflowStepRun) (step : WorkflowStep) : Bool :=
  match request with
  | .record _ _ _ _ outcome => outcome ≠ .completed && !retries outcome stepRun.attempt step
  | _ => false

/-- The write that a call is about to commit comes in time. -/
def StepCall.Timely (db : WorkflowDatabase) (call : StepCall) : Prop :=
  match call.stage with
  | .starting run step _ => db.Open run.id ∧ db.Waits run.id step.key
  | .closing stepRun step _ =>
    db.Running stepRun.id ∧
      (db.Open stepRun.workflowRunId ∨ db.Failed stepRun.workflowRunId ∧ call.request.failsForGood stepRun step)
  | .reopening stepRun => db.Open stepRun.workflowRunId
  | .asking run _ => db.Open run.id
  | .confirming approval => db.Open approval.workflowRunId
  | _ => True

def Timely (turn : StepTurn) (crowd : Workflows) : Prop :=
  match turn with
  | .advance index _ => ∀ call ∈ crowd.calls[index]?, call.Timely crowd.store
  | _ => True

section Decidable

variable (db : WorkflowDatabase)

instance (workflowRunId : String) : Decidable (db.Open workflowRunId) :=
  inferInstanceAs (Decidable (∀ run ∈ db.runs.find? workflowRunId, _))

instance (workflowRunId : String) : Decidable (db.Failed workflowRunId) :=
  inferInstanceAs (Decidable (∀ run ∈ db.runs.find? workflowRunId, _))

instance (workflowRunId stepKey : String) : Decidable (db.Waits workflowRunId stepKey) :=
  inferInstanceAs (Decidable (∀ row ∈ db.attempts workflowRunId stepKey, _))

instance (stepRunId : String) : Decidable (db.Running stepRunId) :=
  inferInstanceAs (Decidable (∀ row ∈ db.stepRuns.rows, _))

instance (call : StepCall) : Decidable (call.Timely db) :=
  match call with
  | ⟨_, .starting ..⟩ | ⟨_, .closing ..⟩ => inferInstanceAs (Decidable (_ ∧ _))
  | ⟨_, .reopening _⟩ | ⟨_, .asking ..⟩ | ⟨_, .confirming _⟩ => inferInstanceAs (Decidable (db.Open _))
  | ⟨_, .received⟩ | ⟨_, .authorizing ..⟩ | ⟨_, .approving ..⟩ | ⟨_, .admitting ..⟩ | ⟨_, .replaying ..⟩
  | ⟨_, .counting ..⟩ | ⟨_, .recording ..⟩ | ⟨_, .requesting ..⟩ | ⟨_, .finding ..⟩ | ⟨_, .ended _⟩ =>
    inferInstanceAs (Decidable True)

instance (turn : StepTurn) (crowd : Workflows) : Decidable (Timely turn crowd) := by
  unfold Timely
  split <;> infer_instance

end Decidable

end Statement

section Reading

/-- The definition of a step never changes while its run is stored. -/
def WorkflowDatabase.stepOf? (db : WorkflowDatabase) (workflowRunId stepKey : String) : Option WorkflowStep :=
  ((db.runs.find? workflowRunId).bind WorkflowRun.definition).bind fun definition => definition.step? stepKey

/-- The columns of an attempt that no update touches. -/
def WorkflowStepRun.SameAttempt (left right : WorkflowStepRun) : Prop :=
  left.id = right.id ∧ left.Of right.workflowRunId right.stepKey ∧ left.attempt = right.attempt

/-- What a stage has read is still so, but for statuses. -/
def StepStage.Known (db : WorkflowDatabase) (stage : StepStage) : Prop :=
  match stage with
  | .authorizing run step | .approving run step | .admitting run step | .replaying run step
  | .counting run step => db.stepOf? run.id step.key = some step
  | .starting run step prior =>
    db.stepOf? run.id step.key = some step ∧
      (prior = 0 ∨ ∃ row ∈ db.stepRuns.rows, row.Of run.id step.key ∧ row.attempt = prior)
  | .recording stepRun _ step | .closing stepRun step _ =>
    db.stepOf? stepRun.workflowRunId stepRun.stepKey = some step ∧
      ∃ row ∈ db.stepRuns.rows, row.SameAttempt stepRun
  | _ => True

/-- What the calls may do to each other's readings. -/
structure Grows (before after : WorkflowDatabase) : Prop where
  steps : ∀ id stepKey step, before.stepOf? id stepKey = some step → after.stepOf? id stepKey = some step
  rows : ∀ row ∈ before.stepRuns.rows, ∃ later ∈ after.stepRuns.rows, later.SameAttempt row

theorem StepStage.Known.later {before after : WorkflowDatabase} {stage : StepStage} (h : stage.Known before)
    (hGrows : Grows before after) : stage.Known after := by
  have hSame : ∀ stepRun : WorkflowStepRun, (∃ row ∈ before.stepRuns.rows, row.SameAttempt stepRun) →
      ∃ row ∈ after.stepRuns.rows, row.SameAttempt stepRun := by
    rintro stepRun ⟨row, hRow, hId, hOf, hAttempt⟩
    obtain ⟨later, hLater, hId', hOf', hAttempt'⟩ := hGrows.rows row hRow
    refine ⟨later, hLater, hId'.trans hId, ⟨hOf'.1.trans hOf.1, hOf'.2.trans hOf.2⟩, hAttempt'.trans hAttempt⟩
  cases stage with
  | authorizing run step => exact hGrows.steps _ _ _ h
  | approving run step => exact hGrows.steps _ _ _ h
  | admitting run step => exact hGrows.steps _ _ _ h
  | replaying run step => exact hGrows.steps _ _ _ h
  | counting run step => exact hGrows.steps _ _ _ h
  | starting run step prior =>
    refine ⟨hGrows.steps _ _ _ h.1, h.2.imp_right ?_⟩
    rintro ⟨row, hRow, hOf, hAttempt⟩
    obtain ⟨later, hLater, -, hOf', hAttempt'⟩ := hGrows.rows row hRow
    exact ⟨later, hLater, ⟨hOf'.1.trans hOf.1, hOf'.2.trans hOf.2⟩, hAttempt'.trans hAttempt⟩
  | recording stepRun definition step => exact ⟨hGrows.steps _ _ _ h.1, hSame stepRun h.2⟩
  | closing stepRun step workflowCompleted => exact ⟨hGrows.steps _ _ _ h.1, hSame stepRun h.2⟩
  | _ => trivial

theorem lastAttempt_mem (db : WorkflowDatabase) (workflowRunId stepKey : String) :
    db.lastAttempt workflowRunId stepKey = 0 ∨
      ∃ row ∈ db.stepRuns.rows, row.Of workflowRunId stepKey ∧
        row.attempt = db.lastAttempt workflowRunId stepKey := by
  have hMem : ∀ row ∈ db.attempts workflowRunId stepKey,
      row ∈ db.stepRuns.rows ∧ row.Of workflowRunId stepKey := by
    intro row hRow
    obtain ⟨hStored, hOf⟩ := List.mem_filter.mp hRow
    exact ⟨hStored, of_decide_eq_true hOf⟩
  unfold WorkflowDatabase.lastAttempt
  generalize db.attempts workflowRunId stepKey = rows at hMem
  induction rows with
  | nil => exact .inl rfl
  | cons row rows ih =>
    rw [List.foldr_cons]
    rcases Nat.le_total row.attempt (rows.foldr (fun row last => max row.attempt last) 0) with hLe | hLe
    · rw [Nat.max_eq_right hLe]
      exact ih fun other hOther => hMem other (List.mem_cons_of_mem _ hOther)
    · rw [Nat.max_eq_left hLe]
      obtain ⟨hStored, hOf⟩ := hMem row List.mem_cons_self
      exact .inr ⟨row, hStored, hOf, rfl⟩

end Reading

section Effects

/-- What one section of a call does: it reads, or it commits one of its writes. -/
inductive SectionEffect (call : StepCall) (db : WorkflowDatabase) : StepStage → WorkflowDatabase → Prop where
  | reads (stage : StepStage) (hKnown : call.stage.Known db → stage.Known db) : SectionEffect call db stage db
  | starts (run : WorkflowRun) (step : WorkflowStep) (prior : Nat) (newId idempotencyKey : String)
      (stepRuns : WorkflowStepRuns) (reply : StepReply) (hStage : call.stage = .starting run step prior)
      (hInsert : db.stepRuns.insert (newAttempt newId run.id step.key prior idempotencyKey) = some stepRuns) :
      SectionEffect call db (.ended reply) ({ db with stepRuns }.setRunStatus run.id .running)
  | closes (stepRun : WorkflowStepRun) (step : WorkflowStep) (outcome : StepOutcome) (workflowCompleted : Bool)
      (reply : StepReply) (hStage : call.stage = .closing stepRun step workflowCompleted)
      (hFails : call.request.failsForGood stepRun step = true →
        outcomeStatus outcome stepRun.attempt step = .failed) :
      SectionEffect call db (.ended reply)
        (commitOutcome db stepRun (outcomeStatus outcome stepRun.attempt step) workflowCompleted)
  | marks (workflowRunId : String) (status : WorkflowRunStatus)
      (approvals : PlainTable WorkflowStepApproval.id) (reply : StepReply)
      (hOpen : call.Timely db → db.Open workflowRunId) :
      SectionEffect call db (.ended reply) ({ db with approvals }.setRunStatus workflowRunId status)

variable {call : StepCall} {db : WorkflowDatabase} {input : StepInput}

theorem stepOf?_of_findRun {id workspaceId stepKey : String} {statuses : List WorkflowRunStatus} {run : WorkflowRun}
    {step : WorkflowStep} (hRun : db.findRun id workspaceId statuses = some run)
    (hStep : (run.definition.bind fun definition => definition.step? stepKey) = some step) :
    db.stepOf? run.id step.key = some step := by
  obtain ⟨hFind, -⟩ := Option.filter_eq_some_iff.mp hRun
  obtain rfl := Table.find?_key hFind
  obtain ⟨definition, hDefinition, hFound⟩ := Option.bind_eq_some_iff.mp hStep
  have hKey : step.key = stepKey := by simpa using List.find?_some hFound
  rw [WorkflowDatabase.stepOf?, hFind, Option.bind_some, hDefinition, Option.bind_some, hKey, hFound]

theorem authorizeRun_known (workspaceId workflowRunId stepKey : String) :
    (authorizeRun db workspaceId workflowRunId stepKey).Known db := by
  unfold authorizeRun
  split
  · trivial
  · rename_i run hRun
    split
    · trivial
    · rename_i definition hDefinition
      split
      · trivial
      · rename_i step hStep
        have hFound : (run.definition.bind fun definition => definition.step? stepKey) = some step := by
          rw [hDefinition, Option.bind_some, hStep]
        exact stepOf?_of_findRun hRun hFound

theorem approvableRun_known (workspaceId workflowRunId stepKey : String) :
    (approvableRun db workspaceId workflowRunId stepKey).Known db := by
  unfold approvableRun
  split
  · trivial
  · split
    · trivial
    · split <;> trivial

theorem findOutcomeTarget_known (workspaceId workflowRunId stepKey stepRunId : String) :
    (findOutcomeTarget db workspaceId workflowRunId stepKey stepRunId).Known db := by
  unfold findOutcomeTarget
  split
  · trivial
  · rename_i stepRun hFind
    split
    · trivial
    · split
      · trivial
      · rename_i definition hDefinition
        split
        · trivial
        · rename_i step hStep
          have hFound : stepRun.id = stepRunId ∧ stepRun.Of workflowRunId stepKey := by
            simpa using List.find?_some hFind
          refine ⟨?_, stepRun, List.mem_of_find?_eq_some hFind, rfl, ⟨rfl, rfl⟩, rfl⟩
          rw [WorkflowDatabase.stepOf?, hFound.2.1, hDefinition, Option.bind_some, hStep]

theorem begin_effect {workspaceId workflowRunId stepKey idempotencyKey : String} {scope : RequestedScope}
    {stage : StepStage} (hStage : call.stage = stage) :
    SectionEffect call db
      (beginWorkflowStepAttempt input workspaceId workflowRunId stepKey scope idempotencyKey stage db).1
      (beginWorkflowStepAttempt input workspaceId workflowRunId stepKey scope idempotencyKey stage db).2 := by
  unfold beginWorkflowStepAttempt
  split
  · exact .reads _ fun _ => authorizeRun_known _ _ _
  · refine .reads _ fun hKnown => ?_
    rw [hStage] at hKnown
    dsimp only [authorizeDependencies]
    split
    · exact hKnown
    · trivial
  · refine .reads _ fun hKnown => ?_
    rw [hStage] at hKnown
    dsimp only [authorizeApproval]
    split
    · trivial
    · exact hKnown
  · refine .reads _ fun hKnown => ?_
    rw [hStage] at hKnown
    dsimp only [authorizePrincipal]
    split
    · trivial
    · exact hKnown
  · refine .reads _ fun hKnown => ?_
    rw [hStage] at hKnown
    dsimp only [replayAttempt]
    split
    · trivial
    · exact hKnown
  · refine .reads _ fun hKnown => ?_
    rw [hStage] at hKnown
    exact ⟨hKnown, lastAttempt_mem _ _ _⟩
  · rename_i run step prior
    unfold commitAttempt
    split
    · exact .reads _ fun _ => trivial
    · rename_i stepRuns hInsert
      exact .starts run step prior _ _ stepRuns _ hStage hInsert
  · exact .reads _ fun hKnown => hStage ▸ hKnown

theorem outcomeStatus_eq_failed {outcome : StepOutcome} {attempt : Nat} {step : WorkflowStep} :
    outcomeStatus outcome attempt step = .failed ↔
      outcome ≠ .completed ∧ retries outcome attempt step = false := by
  unfold outcomeStatus
  split
  · rename_i hCompleted
    simp only [hCompleted, reduceCtorEq, ne_eq, not_true_eq_false, false_and]
  · rename_i hCompleted
    split
    · rename_i hRetries
      simp only [hRetries, reduceCtorEq, Bool.true_eq_false, and_false]
    · rename_i hRetries
      simp only [hCompleted, ne_eq, not_false_eq_true, true_and, true_iff]
      exact Bool.eq_false_iff.mpr hRetries

theorem record_effect {workspaceId workflowRunId stepKey stepRunId : String} {outcome : StepOutcome}
    {stage : StepStage} (hRequest : call.request = .record workspaceId workflowRunId stepKey stepRunId outcome)
    (hStage : call.stage = stage) :
    SectionEffect call db
      (recordWorkflowStepOutcome workspaceId workflowRunId stepKey stepRunId outcome stage db).1
      (recordWorkflowStepOutcome workspaceId workflowRunId stepKey stepRunId outcome stage db).2 := by
  unfold recordWorkflowStepOutcome
  split
  · exact .reads _ fun _ => findOutcomeTarget_known _ _ _ _
  · refine .reads _ fun hKnown => ?_
    rw [hStage] at hKnown
    exact hKnown
  · rename_i stepRun step workflowCompleted
    refine .closes stepRun step outcome workflowCompleted _ hStage fun hFails => ?_
    rw [hRequest] at hFails
    simpa only [StepRequest.failsForGood, outcomeStatus_eq_failed, Bool.and_eq_true, decide_eq_true_eq,
      Bool.not_eq_true'] using hFails
  · exact .reads _ fun hKnown => hStage ▸ hKnown

theorem recover_effect {workspaceId stepRunId : String} {stage : StepStage} (hStage : call.stage = stage) :
    SectionEffect call db (recoverWorkflowStepForRetry workspaceId stepRunId stage db).1
      (recoverWorkflowStepForRetry workspaceId stepRunId stage db).2 := by
  unfold recoverWorkflowStepForRetry
  split
  · split
    · exact .reads _ fun _ => trivial
    · exact .reads _ fun _ => trivial
  · refine .marks _ _ db.approvals _ fun hTimely => ?_
    rw [StepCall.Timely, hStage] at hTimely
    exact hTimely
  · exact .reads _ fun hKnown => hStage ▸ hKnown

theorem requestApproval_effect {workspaceId actorId workflowRunId stepKey : String} {stage : StepStage}
    (hStage : call.stage = stage) :
    SectionEffect call db
      (requestWorkflowStepApproval input workspaceId actorId workflowRunId stepKey stage db).1
      (requestWorkflowStepApproval input workspaceId actorId workflowRunId stepKey stage db).2 := by
  unfold requestWorkflowStepApproval
  split
  · exact .reads _ fun _ => approvableRun_known _ _ _
  · refine .reads _ fun _ => ?_
    dsimp only [approvableDependencies]
    split <;> trivial
  · refine .reads _ fun _ => ?_
    dsimp only [pendingApproval]
    split <;> trivial
  · unfold commitApproval
    split
    · exact .reads _ fun _ => trivial
    · refine .marks _ _ _ _ fun hTimely => ?_
      rw [StepCall.Timely, hStage] at hTimely
      exact hTimely
  · exact .reads _ fun hKnown => hStage ▸ hKnown

theorem approve_effect {workspaceId approvalId actorId : String} {stage : StepStage}
    (hStage : call.stage = stage) :
    SectionEffect call db (approveWorkflowStepApproval input workspaceId approvalId actorId stage db).1
      (approveWorkflowStepApproval input workspaceId approvalId actorId stage db).2 := by
  unfold approveWorkflowStepApproval
  split
  · refine .reads _ fun _ => ?_
    dsimp only [findPending]
    split
    · trivial
    · split
      · trivial
      · split <;> trivial
  · refine .marks _ _ _ _ fun hTimely => ?_
    rw [StepCall.Timely, hStage] at hTimely
    exact hTimely
  · exact .reads _ fun hKnown => hStage ▸ hKnown

theorem section_effect (input : StepInput) (call : StepCall) (db : WorkflowDatabase) :
    SectionEffect call db (call.section input db).1 (call.section input db).2 := by
  obtain ⟨request, stage⟩ := call
  cases request with
  | begin workspaceId workflowRunId stepKey scope idempotencyKey => exact begin_effect rfl
  | record workspaceId workflowRunId stepKey stepRunId outcome => exact record_effect rfl rfl
  | recover workspaceId stepRunId => exact recover_effect rfl
  | requestApproval workspaceId actorId workflowRunId stepKey => exact requestApproval_effect rfl
  | approve workspaceId approvalId actorId => exact approve_effect rfl

end Effects

section Order

/-- The attempts of a step are numbered from 1, all but the last wait for a retry, and the failure
policy of the step allows each of them. -/
structure Orderly (db : WorkflowDatabase) : Prop where
  known : ∀ row ∈ db.stepRuns.rows, ∃ step, db.stepOf? row.workflowRunId row.stepKey = some step ∧
    1 ≤ row.attempt ∧ row.attempt ≤ step.failurePolicy.maxAttempts ∧
    (row.status = .retryWait → row.attempt < step.failurePolicy.maxAttempts)
  counted : ∀ row ∈ db.stepRuns.rows, 1 < row.attempt →
    ∃ earlier ∈ db.stepRuns.rows, earlier.Of row.workflowRunId row.stepKey ∧ earlier.attempt + 1 = row.attempt
  waited : ∀ row ∈ db.stepRuns.rows, ∀ later ∈ db.stepRuns.rows, later.Of row.workflowRunId row.stepKey →
    row.attempt < later.attempt → row.status = .retryWait

/-- What a timely write leaves of the rows before it. -/
structure Advances (before after : WorkflowDatabase) : Prop where
  finished : ∀ id run, before.runs.find? id = some run → run.status.finished = true →
    ∃ later, after.runs.find? id = some later ∧ later.status = run.status
  settled : ∀ row ∈ before.stepRuns.rows, row.status ≠ .running →
    ∃ later ∈ after.stepRuns.rows, later.SameAttempt row ∧ later.status = row.status
  fresh : ∀ later ∈ after.stepRuns.rows, (∃ earlier ∈ before.stepRuns.rows, earlier.SameAttempt later) ∨
    ∀ row ∈ before.stepRuns.rows, row.Of later.workflowRunId later.stepKey → row.status ≠ .completed

theorem WorkflowStepRun.SameAttempt.refl (row : WorkflowStepRun) : row.SameAttempt row := ⟨rfl, ⟨rfl, rfl⟩, rfl⟩

theorem WorkflowStepRun.SameAttempt.trans {left middle right : WorkflowStepRun} (h : left.SameAttempt middle)
    (h' : middle.SameAttempt right) : left.SameAttempt right :=
  ⟨h.1.trans h'.1, ⟨h.2.1.1.trans h'.2.1.1, h.2.1.2.trans h'.2.1.2⟩, h.2.2.trans h'.2.2⟩

theorem WorkflowStepRun.SameAttempt.symm {left right : WorkflowStepRun} (h : left.SameAttempt right) :
    right.SameAttempt left := ⟨h.1.symm, ⟨h.2.1.1.symm, h.2.1.2.symm⟩, h.2.2.symm⟩

instance : Std.Refl Advances where
  refl _ :=
    { finished := fun _ run hRun _ => ⟨run, hRun, rfl⟩
      settled := fun row hRow _ => ⟨row, hRow, .refl _, rfl⟩
      fresh := fun later hLater => .inl ⟨later, hLater, .refl _⟩ }

instance : IsTrans WorkflowDatabase Advances where
  trans first middle last h h' := by
    refine ⟨fun id run hRun hFinished => ?_, fun row hRow hSettled => ?_, fun later hLater => ?_⟩
    · obtain ⟨run', hRun', hStatus⟩ := h.finished id run hRun hFinished
      obtain ⟨run'', hRun'', hStatus'⟩ := h'.finished id run' hRun' (hStatus ▸ hFinished)
      exact ⟨run'', hRun'', hStatus'.trans hStatus⟩
    · obtain ⟨row', hRow', hSame, hStatus⟩ := h.settled row hRow hSettled
      obtain ⟨row'', hRow'', hSame', hStatus'⟩ := h'.settled row' hRow' (hStatus ▸ hSettled)
      exact ⟨row'', hRow'', hSame'.trans hSame, hStatus'.trans hStatus⟩
    · rcases h'.fresh later hLater with ⟨row, hRow, hSame⟩ | hNew
      · rcases h.fresh row hRow with ⟨earlier, hEarlier, hSame'⟩ | hNew
        · exact .inl ⟨earlier, hEarlier, hSame'.trans hSame⟩
        · refine .inr fun other hOther hOf => hNew other hOther ?_
          exact ⟨hOf.1.trans hSame.2.1.1.symm, hOf.2.trans hSame.2.1.2.symm⟩
      · refine .inr fun other hOther hOf hCompleted => ?_
        obtain ⟨row, hRow, hSame, hStatus⟩ := h.settled other hOther (hCompleted ▸ nofun)
        exact hNew row hRow ⟨hSame.2.1.1.trans hOf.1, hSame.2.1.2.trans hOf.2⟩ (hStatus.trans hCompleted)

variable {db : WorkflowDatabase}

/-- Every number up to that of an attempt is that of an attempt. -/
theorem Orderly.counted_down (h : Orderly db) {row : WorkflowStepRun} (hRow : row ∈ db.stepRuns.rows) {k : Nat}
    (hPositive : 1 ≤ k) (hLe : k ≤ row.attempt) :
    ∃ earlier ∈ db.stepRuns.rows, earlier.Of row.workflowRunId row.stepKey ∧ earlier.attempt = k := by
  obtain ⟨gap, hGap⟩ := Nat.exists_eq_add_of_le hLe
  induction gap generalizing row with
  | zero => exact ⟨row, hRow, ⟨rfl, rfl⟩, hGap⟩
  | succ gap ih =>
    obtain ⟨before, hBefore, hOf, hNext⟩ := h.counted row hRow (by omega)
    obtain ⟨earlier, hEarlier, hOf', hAttempt⟩ := ih hBefore (by omega) (by omega)
    exact ⟨earlier, hEarlier, ⟨hOf'.1.trans hOf.1, hOf'.2.trans hOf.2⟩, hAttempt⟩

/-- A step whose last attempt waits for a retry has no other attempts. -/
theorem Orderly.all_wait (h : Orderly db) {workflowRunId stepKey : String} (hWaits : db.Waits workflowRunId stepKey)
    {row : WorkflowStepRun} (hRow : row ∈ db.stepRuns.rows) (hOf : row.Of workflowRunId stepKey) :
    row.status = .retryWait := by
  by_cases hLater : ∃ later ∈ db.attempts workflowRunId stepKey, row.attempt < later.attempt
  · obtain ⟨later, hMem, hLt⟩ := hLater
    obtain ⟨hLater, hOf'⟩ := List.mem_filter.mp hMem
    have hOf' : later.Of workflowRunId stepKey := of_decide_eq_true hOf'
    exact h.waited row hRow later hLater ⟨hOf'.1.trans hOf.1.symm, hOf'.2.trans hOf.2.symm⟩ hLt
  · refine hWaits row (List.mem_filter.mpr ⟨hRow, decide_eq_true hOf⟩) fun other hOther => ?_
    exact Nat.le_of_not_lt fun hLt => hLater ⟨other, hOther, hLt⟩

@[simp] theorem stepRuns_setRunStatus (id : String) (status : WorkflowRunStatus) :
    (db.setRunStatus id status).stepRuns = db.stepRuns := rfl

theorem find?_setRunStatus (id other : String) (status : WorkflowRunStatus) :
    (db.setRunStatus id status).runs.find? other =
      (db.runs.find? other).map fun run => if run.id = id then { run with status } else run := by
  rw [WorkflowDatabase.setRunStatus, Table.find?_update]
  simp only [decide_eq_true_eq]

@[simp] theorem stepOf?_setRunStatus (db : WorkflowDatabase) (id workflowRunId stepKey : String)
    (status : WorkflowRunStatus) :
    (db.setRunStatus id status).stepOf? workflowRunId stepKey = db.stepOf? workflowRunId stepKey := by
  unfold WorkflowDatabase.stepOf?
  rw [find?_setRunStatus]
  cases db.runs.find? workflowRunId with
  | none => rfl
  | some run =>
    rw [Option.map_some, Option.bind_some, Option.bind_some]
    split <;> rfl

theorem Orderly.congr {db' : WorkflowDatabase} (h : Orderly db) (hRows : db'.stepRuns = db.stepRuns)
    (hSteps : ∀ id stepKey step, db.stepOf? id stepKey = some step → db'.stepOf? id stepKey = some step) :
    Orderly db' := by
  constructor
  · rw [hRows]
    intro row hRow
    obtain ⟨step, hStep, hBounds⟩ := h.known row hRow
    exact ⟨step, hSteps _ _ _ hStep, hBounds⟩
  · rw [hRows]
    exact h.counted
  · rw [hRows]
    exact h.waited

theorem Advances.of_runs {db' : WorkflowDatabase} (hRows : db'.stepRuns = db.stepRuns)
    (hFinished : ∀ id run, db.runs.find? id = some run → run.status.finished = true →
      ∃ later, db'.runs.find? id = some later ∧ later.status = run.status) : Advances db db' := by
  refine ⟨hFinished, ?_, ?_⟩
  · rw [hRows]
    exact fun row hRow _ => ⟨row, hRow, .refl _, rfl⟩
  · rw [hRows]
    exact fun later hLater => .inl ⟨later, hLater, .refl _⟩

/-- Setting the status of an open run, or a status that it has, leaves the finished ones alone. -/
theorem finished_setRunStatus (db : WorkflowDatabase) {id : String} {status : WorkflowRunStatus}
    (hOpen : db.Open id ∨ ∀ run ∈ db.runs.find? id, run.status = status) (other : String) (run : WorkflowRun)
    (hRun : db.runs.find? other = some run) (hFinished : run.status.finished = true) :
    ∃ later, (db.setRunStatus id status).runs.find? other = some later ∧ later.status = run.status := by
  rw [find?_setRunStatus, hRun]
  refine ⟨_, rfl, ?_⟩
  dsimp only
  split
  · rename_i hId
    obtain rfl := Table.find?_key hRun
    rcases hOpen with hOpen | hSame
    · have hNot := hOpen run (hId ▸ hRun)
      rw [hFinished] at hNot
      cases hNot
    · exact (hSame run (hId ▸ hRun)).symm
  · rfl

end Order

section Starting

variable {db : WorkflowDatabase} {run : WorkflowRun} {step : WorkflowStep} {prior : Nat}
  {newId idempotencyKey : String} {stepRuns : WorkflowStepRuns}

/-- The attempts of the step are those up to the number that the call has read. -/
theorem Orderly.le_prior (h : Orderly db)
    (hInsert : db.stepRuns.insert (newAttempt newId run.id step.key prior idempotencyKey) = some stepRuns)
    {row : WorkflowStepRun} (hRow : row ∈ db.stepRuns.rows) (hOf : row.Of run.id step.key) :
    row.attempt ≤ prior := by
  by_contra hLt
  obtain ⟨clash, hClash, hOf', hAttempt⟩ := h.counted_down hRow (k := prior + 1) (by omega) (by omega)
  exact ((WorkflowStepRuns.insert_eq_some hInsert).1 clash hClash).2.2
    ⟨hOf'.1.trans hOf.1, hOf'.2.trans hOf.2, hAttempt⟩

theorem Orderly.start (h : Orderly db) (hStep : db.stepOf? run.id step.key = some step)
    (hPrior : prior = 0 ∨ ∃ row ∈ db.stepRuns.rows, row.Of run.id step.key ∧ row.attempt = prior)
    (hWaits : db.Waits run.id step.key)
    (hInsert : db.stepRuns.insert (newAttempt newId run.id step.key prior idempotencyKey) = some stepRuns) :
    Orderly { db with stepRuns } := by
  have hRows := (WorkflowStepRuns.insert_eq_some hInsert).2
  constructor
  · intro row hRow
    simp only [hRows, List.mem_append, List.mem_singleton] at hRow
    rcases hRow with hRow | rfl
    · exact h.known row hRow
    · refine ⟨step, hStep, Nat.le_add_left 1 prior, ?_, nofun⟩
      rcases hPrior with rfl | ⟨last, hLast, hOf, rfl⟩
      · exact step.failurePolicy.atLeastOne
      · obtain ⟨step', hStep', -, -, hRetry⟩ := h.known last hLast
        rw [hOf.1, hOf.2, hStep] at hStep'
        obtain rfl := Option.some.inj hStep'
        exact hRetry (h.all_wait hWaits hLast hOf)
  · intro row hRow hLt
    simp only [hRows, List.mem_append, List.mem_singleton] at hRow ⊢
    rcases hRow with hRow | rfl
    · obtain ⟨earlier, hEarlier, hOf⟩ := h.counted row hRow hLt
      exact ⟨earlier, .inl hEarlier, hOf⟩
    · rcases hPrior with rfl | ⟨last, hLast, hOf, rfl⟩
      · exact absurd hLt (Nat.lt_irrefl 1)
      · exact ⟨last, .inl hLast, hOf, rfl⟩
  · intro row hRow later hLater hOf hLt
    simp only [hRows, List.mem_append, List.mem_singleton] at hRow hLater
    rcases hRow with hRow | rfl
    · rcases hLater with hLater | rfl
      · exact h.waited row hRow later hLater hOf hLt
      · exact h.all_wait hWaits hRow ⟨hOf.1.symm, hOf.2.symm⟩
    · rcases hLater with hLater | rfl
      · have hLe := h.le_prior hInsert hLater hOf
        exact absurd hLt (Nat.not_lt.mpr (Nat.le_succ_of_le hLe))
      · exact absurd hLt (Nat.lt_irrefl _)

theorem Orderly.start_advances (h : Orderly db) (hOpen : db.Open run.id) (hWaits : db.Waits run.id step.key)
    (hInsert : db.stepRuns.insert (newAttempt newId run.id step.key prior idempotencyKey) = some stepRuns) :
    Advances db ({ db with stepRuns }.setRunStatus run.id .running) := by
  have hRows := (WorkflowStepRuns.insert_eq_some hInsert).2
  refine ⟨finished_setRunStatus { db with stepRuns } (.inl hOpen), ?_, ?_⟩
  · intro row hRow _
    refine ⟨row, ?_, .refl _, rfl⟩
    rw [stepRuns_setRunStatus, hRows]
    exact List.mem_append_left _ hRow
  · intro later hLater
    simp only [stepRuns_setRunStatus, hRows, List.mem_append, List.mem_singleton] at hLater
    rcases hLater with hLater | rfl
    · exact .inl ⟨later, hLater, .refl _⟩
    · refine .inr fun row hRow hOf hCompleted => ?_
      rw [h.all_wait hWaits hRow hOf] at hCompleted
      cases hCompleted

end Starting

section Closing

variable {db : WorkflowDatabase} {stepRun : WorkflowStepRun} {step : WorkflowStep} {outcome : StepOutcome}
  {workflowCompleted : Bool}

theorem lt_of_outcomeStatus {attempt : Nat} (h : outcomeStatus outcome attempt step = .retryWait) :
    attempt < step.failurePolicy.maxAttempts := by
  unfold outcomeStatus at h
  split at h
  · cases h
  · split at h
    · rename_i hRetries
      exact of_decide_eq_true (Bool.and_eq_true_iff.mp hRetries).2
    · cases h

theorem mem_setStatus {id : String} {status : WorkflowStepRunStatus} {row' : WorkflowStepRun} :
    row' ∈ (db.stepRuns.setStatus id status).rows ↔ ∃ row ∈ db.stepRuns.rows, row.setStatus id status = row' :=
  List.mem_map

theorem sameAttempt_setStatus (row : WorkflowStepRun) (id : String) (status : WorkflowStepRunStatus) :
    (row.setStatus id status).SameAttempt row := by
  simp only [WorkflowStepRun.SameAttempt, WorkflowStepRun.Of, WorkflowStepRun.id_setStatus,
    WorkflowStepRun.workflowRunId_setStatus, WorkflowStepRun.stepKey_setStatus, WorkflowStepRun.attempt_setStatus,
    and_self]

theorem Orderly.close (h : Orderly db) (hRunning : db.Running stepRun.id)
    (hStep : db.stepOf? stepRun.workflowRunId stepRun.stepKey = some step)
    (hKnown : ∃ row ∈ db.stepRuns.rows, row.SameAttempt stepRun) :
    Orderly { db with stepRuns := db.stepRuns.setStatus stepRun.id (outcomeStatus outcome stepRun.attempt step) } := by
  obtain ⟨target, hTarget, hId, hOf, hAttempt⟩ := hKnown
  constructor
  · intro row' hRow'
    obtain ⟨row, hRow, rfl⟩ := mem_setStatus.mp hRow'
    obtain ⟨step', hStep', hPositive, hLe, hRetry⟩ := h.known row hRow
    simp only [WorkflowStepRun.workflowRunId_setStatus, WorkflowStepRun.stepKey_setStatus,
      WorkflowStepRun.attempt_setStatus, WorkflowStepRun.status_setStatus]
    refine ⟨step', hStep', hPositive, hLe, ?_⟩
    split
    · rename_i hRowId
      obtain rfl := WorkflowStepRuns.eq_of_id_eq hRow hTarget (hRowId.trans hId.symm)
      rw [hOf.1, hOf.2, hStep] at hStep'
      obtain rfl := Option.some.inj hStep'
      exact fun hStatus => hAttempt ▸ lt_of_outcomeStatus hStatus
    · exact hRetry
  · intro row' hRow' hLt
    obtain ⟨row, hRow, rfl⟩ := mem_setStatus.mp hRow'
    simp only [WorkflowStepRun.workflowRunId_setStatus, WorkflowStepRun.stepKey_setStatus,
      WorkflowStepRun.attempt_setStatus] at hLt ⊢
    obtain ⟨earlier, hEarlier, hOf', hNext⟩ := h.counted row hRow hLt
    refine ⟨_, mem_setStatus.mpr ⟨earlier, hEarlier, rfl⟩, ?_, ?_⟩
    · simpa only [WorkflowStepRun.Of, WorkflowStepRun.workflowRunId_setStatus,
        WorkflowStepRun.stepKey_setStatus] using hOf'
    · simpa only [WorkflowStepRun.attempt_setStatus] using hNext
  · intro row' hRow' later' hLater' hOf' hLt
    obtain ⟨row, hRow, rfl⟩ := mem_setStatus.mp hRow'
    obtain ⟨later, hLater, rfl⟩ := mem_setStatus.mp hLater'
    simp only [WorkflowStepRun.Of, WorkflowStepRun.workflowRunId_setStatus, WorkflowStepRun.stepKey_setStatus,
      WorkflowStepRun.attempt_setStatus] at hOf' hLt
    have hWait := h.waited row hRow later hLater hOf' hLt
    rw [WorkflowStepRun.status_setStatus, if_neg, hWait]
    intro hRowId
    rw [hRunning row hRow hRowId] at hWait
    cases hWait

theorem close_advances (hRunning : db.Running stepRun.id)
    (hRun : db.Open stepRun.workflowRunId ∨ db.Failed stepRun.workflowRunId ∧
      outcomeStatus outcome stepRun.attempt step = .failed) :
    Advances db (commitOutcome db stepRun (outcomeStatus outcome stepRun.attempt step) workflowCompleted) := by
  refine ⟨?_, ?_, ?_⟩
  · refine finished_setRunStatus
      { db with stepRuns := db.stepRuns.setStatus stepRun.id (outcomeStatus outcome stepRun.attempt step) }
      (hRun.imp_right ?_)
    rintro ⟨hFailed, hStatus⟩ run hFind
    rw [hStatus]
    exact hFailed run hFind
  · intro row hRow hSettled
    refine ⟨_, mem_setStatus.mpr ⟨row, hRow, rfl⟩, sameAttempt_setStatus row _ _, ?_⟩
    rw [WorkflowStepRun.status_setStatus, if_neg]
    exact fun hRowId => hSettled (hRunning row hRow hRowId)
  · intro later hLater
    obtain ⟨row, hRow, rfl⟩ := mem_setStatus.mp hLater
    exact .inl ⟨row, hRow, (sameAttempt_setStatus row _ _).symm⟩

end Closing

section Turns

section Sections

variable {input : StepInput} {call : StepCall} {db after : WorkflowDatabase} {stage : StepStage}

theorem SectionEffect.grows (h : SectionEffect call db stage after) : Grows db after := by
  cases h with
  | reads => exact ⟨fun _ _ _ => id, fun row hRow => ⟨row, hRow, .refl _⟩⟩
  | starts run step prior newId idempotencyKey stepRuns reply hStage hInsert =>
    refine ⟨fun id stepKey _ hStep => ?_, fun row hRow => ⟨row, ?_, .refl _⟩⟩
    · rw [stepOf?_setRunStatus]
      exact hStep
    · rw [stepRuns_setRunStatus, (WorkflowStepRuns.insert_eq_some hInsert).2]
      exact List.mem_append_left _ hRow
  | closes stepRun step outcome workflowCompleted reply =>
    refine ⟨fun id stepKey _ hStep => ?_, fun row hRow => ?_⟩
    · rw [commitOutcome, stepOf?_setRunStatus]
      exact hStep
    · exact ⟨_, mem_setStatus.mpr ⟨row, hRow, rfl⟩, sameAttempt_setStatus row _ _⟩
  | marks workflowRunId status approvals reply =>
    refine ⟨fun id stepKey _ hStep => ?_, fun row hRow => ⟨row, hRow, .refl _⟩⟩
    rw [stepOf?_setRunStatus]
    exact hStep

theorem SectionEffect.known (h : SectionEffect call db stage after) (hKnown : call.stage.Known db) :
    stage.Known after := by
  cases h with
  | reads _ hStage => exact hStage hKnown
  | starts => trivial
  | closes => trivial
  | marks => trivial

/-- What a timely section keeps. -/
theorem SectionEffect.keeps (h : SectionEffect call db stage after) (hTimely : call.Timely db)
    (hOrderly : Orderly db) (hKnown : call.stage.Known db) : Orderly after ∧ Advances db after := by
  have hSteps := h.grows.steps
  cases h with
  | reads => exact ⟨hOrderly, Std.Refl.refl db⟩
  | starts run step prior newId idempotencyKey stepRuns reply hStage hInsert =>
    rw [StepCall.Timely, hStage] at hTimely
    rw [hStage] at hKnown
    refine ⟨(hOrderly.start hKnown.1 hKnown.2 hTimely.2 hInsert).congr rfl hSteps, ?_⟩
    exact hOrderly.start_advances hTimely.1 hTimely.2 hInsert
  | closes stepRun step outcome workflowCompleted reply hStage hFails =>
    rw [StepCall.Timely, hStage] at hTimely
    rw [hStage] at hKnown
    refine ⟨(hOrderly.close hTimely.1 hKnown.1 hKnown.2).congr rfl hSteps, ?_⟩
    exact close_advances hTimely.1 (hTimely.2.imp_right fun h => ⟨h.1, hFails h.2⟩)
  | marks workflowRunId status approvals reply hOpen =>
    refine ⟨hOrderly.congr rfl hSteps, .of_runs rfl ?_⟩
    exact finished_setRunStatus { db with approvals } (.inl (hOpen hTimely))

end Sections

/-- An admission does not touch the rows of the runs that are stored. -/
theorem find?_admission {admitted : AdmittedRun} {db : WorkflowDatabase} {id : String} {run : WorkflowRun}
    (hRun : db.runs.find? id = some run) : (admitWorkflowRun admitted db).runs.find? id = some run := by
  unfold admitWorkflowRun
  split
  · exact hRun
  · rename_i runs hInsert
    rw [Table.find?_insert hInsert]
    split
    · rename_i hId
      rw [hId, (Table.insert_eq_some hInsert).1] at hRun
      cases hRun
    · exact hRun

theorem stepOf?_admit {admitted : AdmittedRun} {db : WorkflowDatabase} {id stepKey : String} {step : WorkflowStep}
    (h : db.stepOf? id stepKey = some step) : (admitWorkflowRun admitted db).stepOf? id stepKey = some step := by
  obtain ⟨definition, hDefinition, hStep⟩ := Option.bind_eq_some_iff.mp h
  obtain ⟨run, hRun, hOf⟩ := Option.bind_eq_some_iff.mp hDefinition
  rw [WorkflowDatabase.stepOf?, find?_admission hRun, Option.bind_some, hOf, Option.bind_some, hStep]

theorem stepRuns_admission (admitted : AdmittedRun) (db : WorkflowDatabase) :
    (admitWorkflowRun admitted db).stepRuns = db.stepRuns := by
  unfold admitWorkflowRun
  split <;> rfl

theorem grows_admission (admitted : AdmittedRun) (db : WorkflowDatabase) : Grows db (admitWorkflowRun admitted db) := by
  refine ⟨fun _ _ _ => stepOf?_admit, ?_⟩
  rw [stepRuns_admission]
  exact fun row hRow => ⟨row, hRow, .refl _⟩

theorem admit_keeps (admitted : AdmittedRun) {db : WorkflowDatabase} (hOrderly : Orderly db) :
    Orderly (admitWorkflowRun admitted db) ∧ Advances db (admitWorkflowRun admitted db) := by
  have hRows := stepRuns_admission admitted db
  refine ⟨hOrderly.congr hRows fun _ _ _ => stepOf?_admit, .of_runs hRows fun id run hRun _ => ?_⟩
  exact ⟨run, find?_admission hRun, rfl⟩

theorem orderly_empty : Orderly .empty := by
  constructor <;>
  · intro row hRow
    cases hRow

variable {crowd later : Workflows}

theorem run_orderly (h : Reaches (Crowd.step stepRules) Timely (Crowd.init .empty) crowd) :
    Orderly crowd.store ∧ ∀ call ∈ crowd.calls, call.stage.Known crowd.store := by
  refine Crowd.invariant (P := Orderly) (Q := fun call db => call.stage.Known db) (R := Grows) h orderly_empty
    (fun _ _ _ => trivial) ?_ ?_ ?_
  · intro index input call crowd hTimely hCall hOrderly hKnown
    have hEffect := section_effect input call crowd.store
    exact ⟨(hEffect.keeps (hTimely call hCall) hOrderly hKnown).1, hEffect.grows, hEffect.known hKnown⟩
  · intro admitted crowd _ hOrderly
    exact ⟨(admit_keeps admitted hOrderly).1, grows_admission admitted _⟩
  · exact fun call _ _ hGrows hKnown => hKnown.later hGrows

theorem run_advances (h : Reaches (Crowd.step stepRules) Timely (Crowd.init .empty) crowd)
    (hLater : Reaches (Crowd.step stepRules) Timely crowd later) : Advances crowd.store later.store := by
  refine Crowd.relates_later (R := Advances) h hLater ?_ fun admitted u hRun _ => ?_
  · intro index input call u hRun hTimely hCall
    obtain ⟨hOrderly, hKnown⟩ := run_orderly hRun
    have hEffect := section_effect input call u.store
    exact (hEffect.keeps (hTimely call hCall) hOrderly (hKnown call (List.mem_of_getElem? hCall))).2
  · exact (admit_keeps admitted (run_orderly hRun).1).2

end Turns

section Discipline

variable {db : WorkflowDatabase}

theorem Orderly.running_unique (h : Orderly db) {row other : WorkflowStepRun} (hRow : row ∈ db.stepRuns.rows)
    (hOther : other ∈ db.stepRuns.rows) (hOf : other.Of row.workflowRunId row.stepKey)
    (hRunning : row.status = .running) (hRunning' : other.status = .running) : row = other := by
  rcases Nat.lt_trichotomy row.attempt other.attempt with hLt | hEq | hLt
  · have hWait := h.waited row hRow other hOther hOf hLt
    rw [hRunning] at hWait
    cases hWait
  · exact WorkflowStepRuns.eq_of_attempt_eq hRow hOther hOf hEq
  · have hWait := h.waited other hOther row hRow ⟨hOf.1.symm, hOf.2.symm⟩ hLt
    rw [hRunning'] at hWait
    cases hWait

theorem attempts_nodup (db : WorkflowDatabase) (workflowRunId stepKey : String) :
    ((db.attempts workflowRunId stepKey).map WorkflowStepRun.attempt).Nodup := by
  rw [List.Nodup, List.pairwise_map]
  refine List.Pairwise.imp_of_mem ?_ (db.stepRuns.unique.filter _)
  intro left right hLeft hRight hApart hAttempt
  have hLeft : left.Of workflowRunId stepKey := of_decide_eq_true (List.mem_filter.mp hLeft).2
  have hRight : right.Of workflowRunId stepKey := of_decide_eq_true (List.mem_filter.mp hRight).2
  exact hApart.2.2 ⟨hLeft.1.trans hRight.1.symm, hLeft.2.trans hRight.2.symm, hAttempt⟩

/-- Distinct numbers from 1 to the maximum are at most that many. -/
theorem Orderly.bounded (h : Orderly db) {id stepKey : String} {step : WorkflowStep}
    (hStep : db.stepOf? id stepKey = some step) :
    (db.attempts id stepKey).length ≤ step.failurePolicy.maxAttempts := by
  have hSubset : (db.attempts id stepKey).map WorkflowStepRun.attempt ⊆
      List.range' 1 step.failurePolicy.maxAttempts := by
    intro attempt hAttempt
    obtain ⟨row, hRow, rfl⟩ := List.mem_map.mp hAttempt
    obtain ⟨hRow, hOf⟩ := List.mem_filter.mp hRow
    have hOf : row.Of id stepKey := of_decide_eq_true hOf
    obtain ⟨step', hStep', hPositive, hLe, -⟩ := h.known row hRow
    rw [hOf.1, hOf.2, hStep] at hStep'
    obtain rfl := Option.some.inj hStep'
    rw [List.mem_range'_1]
    omega
  have hLength := (List.subperm_of_subset (attempts_nodup db id stepKey) hSubset).length_le
  rwa [List.length_map, List.length_range'] at hLength

/-- In the runs whose writes all come in time, whatever calls overlap. -/
theorem step_attempts_disciplined {crowd later : Workflows}
    (h : Reaches (Crowd.step stepRules) Timely (Crowd.init .empty) crowd)
    (hLater : Reaches (Crowd.step stepRules) Timely crowd later) : Disciplined crowd.store later.store := by
  have hAdvances := run_advances h hLater
  obtain ⟨hOrderly, -⟩ := run_orderly (h.trans hLater)
  refine ⟨hAdvances.finished, ?_, ?_, ?_, ?_⟩
  · intro row hRow hCompleted later hLater hOf
    rcases hAdvances.fresh later hLater with ⟨earlier, hEarlier, hSame⟩ | hNew
    · exact ⟨earlier, hEarlier, hSame.1⟩
    · exact absurd hCompleted (hNew row hRow ⟨hOf.1.symm, hOf.2.symm⟩)
  · exact fun row hRow other hOther => hOrderly.running_unique hRow hOther
  · intro row hRow hSettled
    obtain ⟨later, hLater, hSame, hStatus⟩ := hAdvances.settled row hRow hSettled
    exact ⟨later, hLater, hSame.1, hStatus⟩
  · intro id run definition stepKey step hRun hDefinition hStep
    refine hOrderly.bounded ?_
    rw [WorkflowDatabase.stepOf?, hRun, Option.bind_some, hDefinition, Option.bind_some, hStep]

end Discipline

section Examples

def draftDefinition : WorkflowDefinition :=
  ⟨[⟨"draft", ⟨"nuru", "drafts.write", "1.0"⟩, [], ⟨2, by decide, by decide⟩, ⟨.none, none⟩⟩], by decide, by decide⟩

def draftScope : RequestedScope := ⟨["write"], ["drafts"]⟩

def draftInput (newId : String) : StepInput :=
  ⟨newId, 0, ⟨some ⟨"workspace", "nuru", "principal"⟩, some "nuru", some "drafts.write",
    some ⟨some [some "write"], some [some "drafts"]⟩⟩⟩

/-- A call that nothing interrupts. -/
def callTurns (index sections : Nat) (newId : String) (request : StepRequest) : List StepTurn :=
  .enter request :: List.replicate sections (.advance index (draftInput newId))

def draftBegin (index : Nat) (newId key : String) : List StepTurn :=
  callTurns index 7 newId (.begin "workspace" "run-1" "draft" draftScope key)

def draftRecord (index : Nat) (stepRunId : String) (outcome : StepOutcome) : List StepTurn :=
  callTurns index 3 "unused" (.record "workspace" "run-1" "draft" stepRunId outcome)

def draftRecover (index : Nat) (stepRunId : String) : List StepTurn :=
  callTurns index 2 "unused" (.recover "workspace" stepRunId)

/-- A first attempt fails, the second completes the step and the run. -/
def retriedTurns : List StepTurn :=
  [.outside ⟨"run-1", "workspace", some draftDefinition⟩] ++ draftBegin 0 "attempt-1" "first-key" ++
    draftRecord 1 "attempt-1" .retryableFailure ++ draftRecover 2 "attempt-1" ++
    draftBegin 3 "attempt-2" "second-key" ++ draftRecord 4 "attempt-2" .completed

def retried : Workflows := runAll (Crowd.step stepRules) (Crowd.init .empty) retriedTurns

def firstAttempt : Workflows :=
  runAll (Crowd.step stepRules) (Crowd.init .empty)
    (.outside ⟨"run-1", "workspace", some draftDefinition⟩ :: draftBegin 0 "attempt-1" "first-key")

theorem step_attempts_disciplined_retried : Disciplined firstAttempt.store retried.store := by
  have hRest : GuardedAll (Crowd.step stepRules) Timely firstAttempt
      (draftRecord 1 "attempt-1" .retryableFailure ++ draftRecover 2 "attempt-1" ++
        draftBegin 3 "attempt-2" "second-key" ++ draftRecord 4 "attempt-2" .completed) := by decide +kernel
  exact step_attempts_disciplined (GuardedAll.reaches (by decide +kernel)) hRest.reaches

/-- The attempt that waited for its retry still lets the completed run be reopened. -/
def reopened : Workflows := runAll (Crowd.step stepRules) retried (draftRecover 5 "attempt-1")

def restarted : Workflows := runAll (Crowd.step stepRules) reopened (draftBegin 6 "attempt-3" "third-key")

def startedTwice : Workflows := runAll (Crowd.step stepRules) firstAttempt (draftBegin 1 "attempt-2" "second-key")

/-- Two calls find the attempt running, and one records its outcome over that of the other. -/
def recordedOnce : Workflows :=
  runAll (Crowd.step stepRules) firstAttempt
    ([.enter (.record "workspace" "run-1" "draft" "attempt-1" .terminalFailure), .advance 1 (draftInput "unused")] ++
      draftRecord 2 "attempt-1" .completed)

def recordedTwice : Workflows :=
  runAll (Crowd.step stepRules) recordedOnce [.advance 1 (draftInput "unused"), .advance 1 (draftInput "unused")]

def runStatusOf (crowd : Workflows) : Option WorkflowRunStatus :=
  (crowd.store.runs.find? "run-1").map WorkflowRun.status

def attemptStatusesOf (crowd : Workflows) : List WorkflowStepRunStatus :=
  (crowd.store.attempts "run-1" "draft").map WorkflowStepRun.status

theorem step_attempts_undisciplined :
    (runStatusOf retried = some .completed ∧ runStatusOf reopened = some .ready) ∧
    (attemptStatusesOf retried = [.retryWait, .completed] ∧
      attemptStatusesOf restarted = [.retryWait, .completed, .running]) ∧
    attemptStatusesOf startedTwice = [.running, .running] ∧
    (attemptStatusesOf recordedOnce = [.completed] ∧ attemptStatusesOf recordedTwice = [.failed]) ∧
    ¬ ∀ crowd later, Reaches (Crowd.step stepRules) (fun _ _ => True) (Crowd.init .empty) crowd →
      Reaches (Crowd.step stepRules) (fun _ _ => True) crowd later → Disciplined crowd.store later.store := by
  refine ⟨by decide +kernel, by decide +kernel, by decide +kernel, by decide +kernel, fun h => ?_⟩
  have hBounded := (h retried restarted (reaches_runAll _ _ _)
    ((reaches_runAll _ _ _).trans (reaches_runAll _ _ _))).bounded "run-1"
  have hRun : restarted.store.runs.find? "run-1" = some ⟨"run-1", "workspace", .running, some draftDefinition⟩ := by
    decide +kernel
  have hLength := hBounded _ draftDefinition "draft" _ hRun rfl rfl
  revert hLength
  decide +kernel

end Examples

end CommandConsole.Workflows
