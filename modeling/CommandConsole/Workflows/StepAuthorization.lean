import CommandConsole.Workflows.Completion

/-! # The authorization of step attempts

What `authorizeWorkflowStep` has found when an attempt is created is kept beside the
attempt. The calls are those of the crowd of steps, and the evidence only looks on. The
checks are made before the attempt is created, so they hold of it in the runs where no
completed attempt is overwritten, and a replay answers with an attempt of its own step in
those where no key of a run is used for two steps.
-/
namespace CommandConsole.Workflows
open Library
set_option autoImplicit false

section Evidence

/-- The evidence that `authorizeWorkflowStep` freezes, with the scope of the grant that it has checked. -/
structure Authorization where
  workflowRunId : String
  stepKey : String
  approvalId : Option String
  scope : RequestedScope
  grant : GrantScope
  deriving DecidableEq

structure AuthorizedCall where
  call : StepCall
  approval : Option WorkflowStepApproval
  authorization : Option Authorization
  deriving DecidableEq

/-- The rows and, for each attempt, its `authorizationSnapshot`. -/
structure AuthorizedStore where
  db : WorkflowDatabase
  authorizations : List (String × Authorization)

def approvedApproval (db : WorkflowDatabase) (run : WorkflowRun) (step : WorkflowStep) :
    Option WorkflowStepApproval :=
  if step.approvalPolicy.mode = .required then
    db.latestApproval run.id step.key .approved fun row => row.approvedAt.getD 0
  else none

namespace AuthorizedCall

def approvalAfter (db : WorkflowDatabase) (c : AuthorizedCall) : Option WorkflowStepApproval :=
  match c.call.stage with
  | .approving run step => approvedApproval db run step
  | _ => c.approval

def authorizationAfter (input : StepInput) (c : AuthorizedCall) : Option Authorization :=
  match c.call.request, c.call.stage with
  | .begin _ _ _ scope _, .admitting run step =>
    input.answers.grant.map fun grant => ⟨run.id, step.key, c.approval.map WorkflowStepApproval.id, scope, grant⟩
  | _, _ => c.authorization

/-- The snapshot of the attempt that the call has just created. -/
def recorded (c : AuthorizedCall) (stage : StepStage) : List (String × Authorization) :=
  match c.call.stage, stage, c.authorization with
  | .starting .., .ended (.attempt stepRunId _ _ true), some authorization => [(stepRunId, authorization)]
  | _, _, _ => []

def advance (input : StepInput) (c : AuthorizedCall) (store : AuthorizedStore) : AuthorizedCall × AuthorizedStore :=
  ({ call := { c.call with stage := (c.call.section input store.db).1 }
     approval := c.approvalAfter store.db
     authorization := c.authorizationAfter input },
   { db := (c.call.section input store.db).2
     authorizations := c.recorded (c.call.section input store.db).1 ++ store.authorizations })

end AuthorizedCall

def authorizedRules : CrowdRules StepRequest AuthorizedCall StepInput AdmittedRun AuthorizedStore where
  start request := ⟨stepRules.start request, none, none⟩
  advance := AuthorizedCall.advance
  outside admitted store := { store with db := admitWorkflowRun admitted store.db }

abbrev AuthorizedWorkflows := Crowd AuthorizedCall AuthorizedStore

def AuthorizedStore.empty : AuthorizedStore := ⟨.empty, []⟩

/-- The crowd without its evidence. -/
def bare (crowd : AuthorizedWorkflows) : Workflows := ⟨crowd.store.db, crowd.calls.map AuthorizedCall.call⟩

theorem bare_step (turn : StepTurn) (crowd : AuthorizedWorkflows) :
    bare (Crowd.step authorizedRules turn crowd) = Crowd.step stepRules turn (bare crowd) := by
  cases turn with
  | enter request => simp only [bare, Crowd.step, authorizedRules, List.map_append, List.map_singleton]
  | outside admitted => rfl
  | advance index input =>
    cases hCall : crowd.calls[index]? with
    | none =>
      have hBare : (bare crowd).calls[index]? = none := by rw [bare, List.getElem?_map, hCall, Option.map_none]
      rw [Crowd.step, hCall, Crowd.step, hBare]
    | some c =>
      have hBare : (bare crowd).calls[index]? = some c.call := by
        rw [bare, List.getElem?_map, hCall, Option.map_some]
      rw [Crowd.step_advance hCall, Crowd.step_advance hBare, bare, List.map_set]
      rfl

end Evidence

section Statement

/-- An approval of the step that someone other than its requester has decided. -/
def WorkflowStepApproval.Independent (approval : WorkflowStepApproval) (workflowRunId stepKey : String) : Prop :=
  approval.workflowRunId = workflowRunId ∧ approval.stepKey = stepKey ∧ approval.status = .approved ∧
    ∃ approver, approval.approvedById = some approver ∧ approver ≠ approval.requestedById

def RequestedScope.Inside (scope : RequestedScope) (grant : GrantScope) : Prop :=
  (∃ granted, grant.operations = some granted ∧ ∀ operation ∈ scope.operations, some operation ∈ granted) ∧
  ∃ granted, grant.resources = some granted ∧ ∀ resource ∈ scope.resources, some resource ∈ granted

structure Authorizes (db : WorkflowDatabase) (row : WorkflowStepRun) (authorization : Authorization) : Prop where
  own : row.Of authorization.workflowRunId authorization.stepKey
  dependencies : ∃ step, db.stepOf? row.workflowRunId row.stepKey = some step ∧
    ∀ dependency ∈ step.dependsOn, ∃ done ∈ db.stepRuns.rows,
      done.Of row.workflowRunId dependency ∧ done.status = .completed
  approval : ∀ step, db.stepOf? row.workflowRunId row.stepKey = some step → step.approvalPolicy.mode = .required →
    ∃ approval ∈ db.approvals.rows, authorization.approvalId = some approval.id ∧
      approval.Independent row.workflowRunId row.stepKey
  inside : authorization.scope.Inside authorization.grant

structure StepsAuthorized (crowd : AuthorizedWorkflows) : Prop where
  evidenced : ∀ row ∈ crowd.store.db.stepRuns.rows,
    ∃ authorization, (row.id, authorization) ∈ crowd.store.authorizations
  authorized : ∀ id authorization, (id, authorization) ∈ crowd.store.authorizations →
    ∃ row ∈ crowd.store.db.stepRuns.rows, row.id = id ∧ Authorizes crowd.store.db row authorization
  returned : ∀ c ∈ crowd.calls, ∀ workspaceId workflowRunId stepKey scope idempotencyKey stepRunId attempt status created,
    c.call = ⟨.begin workspaceId workflowRunId stepKey scope idempotencyKey,
      .ended (.attempt stepRunId attempt status created)⟩ →
    ∃ row ∈ crowd.store.db.stepRuns.rows, row.id = stepRunId ∧ row.Of workflowRunId stepKey ∧
      (created = true → ∃ authorization, (stepRunId, authorization) ∈ crowd.store.authorizations ∧
        authorization.scope = scope)

def InPlace (turn : StepTurn) (crowd : AuthorizedWorkflows) : Prop :=
  match turn with
  | .advance index _ => ∀ c ∈ crowd.calls[index]?, c.call.InPlace crowd.store.db
  | _ => True

instance (turn : StepTurn) (crowd : AuthorizedWorkflows) : Decidable (InPlace turn crowd) :=
  match turn with
  | .advance index _ => inferInstanceAs (Decidable (∀ c ∈ crowd.calls[index]?, _))
  | .enter _ | .outside _ => inferInstanceAs (Decidable True)

end Statement

section Writes

/-- What one section of a call does to the store. -/
inductive Writes (c : AuthorizedCall) (store : AuthorizedStore) : AuthorizedStore → Prop where
  | nothing : Writes c store store
  | attempt (workspaceId workflowRunId stepKey : String) (scope : RequestedScope) (newId idempotencyKey : String)
      (run : WorkflowRun) (step : WorkflowStep) (prior : Nat) (stepRuns : WorkflowStepRuns)
      (hCall : c.call = ⟨.begin workspaceId workflowRunId stepKey scope idempotencyKey, .starting run step prior⟩)
      (hInsert : store.db.stepRuns.insert (newAttempt newId run.id step.key prior idempotencyKey) = some stepRuns) :
      Writes c store ⟨{ store.db with stepRuns }.setRunStatus run.id .running,
        (c.authorization.map fun authorization => (newId, authorization)).toList ++ store.authorizations⟩
  | outcome (workspaceId workflowRunId stepKey stepRunId : String) (outcome : StepOutcome)
      (stepRun : WorkflowStepRun) (step : WorkflowStep) (workflowCompleted : Bool)
      (hCall : c.call = ⟨.record workspaceId workflowRunId stepKey stepRunId outcome,
        .closing stepRun step workflowCompleted⟩) :
      Writes c store { store with
        db := commitOutcome store.db stepRun (outcomeStatus outcome stepRun.attempt step) workflowCompleted }
  | mark (id : String) (status : WorkflowRunStatus) :
      Writes c store { store with db := store.db.setRunStatus id status }
  | ask (id : String) (status : WorkflowRunStatus) (approval : WorkflowStepApproval)
      (approvals : PlainTable WorkflowStepApproval.id) (hNew : approval.status = .requested)
      (hInsert : store.db.approvals.insert approval = some approvals) :
      Writes c store { store with db := { store.db with approvals }.setRunStatus id status }
  | approve (workspaceId approvalId actorId : String) (now : Nat) (approval : WorkflowStepApproval)
      (hCall : c.call = ⟨.approve workspaceId approvalId actorId, .confirming approval⟩) :
      Writes c store { store with db := commitApproved store.db approval actorId now }

theorem advance_writes (input : StepInput) (c : AuthorizedCall) (store : AuthorizedStore) :
    Writes c store (c.advance input store).2 := by
  obtain ⟨⟨request, stage⟩, approval, authorization⟩ := c
  cases request with
  | begin workspaceId workflowRunId stepKey scope idempotencyKey =>
    cases stage with
    | starting run step prior =>
      dsimp only [AuthorizedCall.advance, StepCall.section, beginWorkflowStepAttempt, commitAttempt]
      split
      · exact .nothing
      · rename_i stepRuns hInsert
        cases authorization <;>
        exact .attempt workspaceId workflowRunId stepKey scope input.newId idempotencyKey run step prior stepRuns
          rfl hInsert
    | _ => exact .nothing
  | record workspaceId workflowRunId stepKey stepRunId outcome =>
    cases stage with
    | closing stepRun step workflowCompleted => exact .outcome _ _ _ _ outcome stepRun step workflowCompleted rfl
    | _ => exact .nothing
  | recover workspaceId stepRunId =>
    cases stage with
    | received =>
      dsimp only [AuthorizedCall.advance, StepCall.section, recoverWorkflowStepForRetry]
      split <;> exact .nothing
    | reopening stepRun => exact .mark _ _
    | _ => exact .nothing
  | requestApproval workspaceId actorId workflowRunId stepKey =>
    cases stage with
    | asking run step =>
      dsimp only [AuthorizedCall.advance, StepCall.section, requestWorkflowStepApproval, commitApproval]
      split
      · exact .nothing
      · rename_i approvals hInsert
        exact .ask _ _ (newApproval input actorId run step) approvals rfl hInsert
    | _ => exact .nothing
  | approve workspaceId approvalId actorId =>
    cases stage with
    | confirming approval => exact .approve _ _ actorId input.now approval rfl
    | _ => exact .nothing

theorem find?_commitApproved (db : WorkflowDatabase) (approval : WorkflowStepApproval) (actorId : String) (now : Nat)
    (id : String) : (commitApproved db approval actorId now).approvals.find? id =
      (db.approvals.find? id).map fun row => if row.id = approval.id then row.approvedBy actorId now else row := by
  refine (Table.find?_update db.approvals (fun row => row.id = approval.id) (fun row => row.approvedBy actorId now)
    (fun _ => rfl) (fun _ => rfl) id).trans ?_
  simp only [decide_eq_true_eq]

end Writes

section Persistence

/-- What every section leaves of the rows and the evidence before it. -/
structure Persists (before after : AuthorizedStore) : Prop where
  steps : ∀ id stepKey step, before.db.stepOf? id stepKey = some step → after.db.stepOf? id stepKey = some step
  rows : ∀ row ∈ before.db.stepRuns.rows, ∃ later ∈ after.db.stepRuns.rows,
    later.SameAttempt row ∧ (row.status = .completed → later.status = .completed)
  approvals : ∀ id approval, before.db.approvals.find? id = some approval →
    ∃ later, after.db.approvals.find? id = some later ∧ later.workflowRunId = approval.workflowRunId ∧
      later.stepKey = approval.stepKey ∧ later.requestedById = approval.requestedById ∧
      (approval.status = .approved → later.status = .approved)
  authorizations : before.authorizations ⊆ after.authorizations

variable {before after : AuthorizedStore} {c : AuthorizedCall}

theorem Persists.of_runs
    (hSteps : ∀ id stepKey step, before.db.stepOf? id stepKey = some step → after.db.stepOf? id stepKey = some step)
    (hRows : after.db.stepRuns = before.db.stepRuns) (hApprovals : after.db.approvals = before.db.approvals)
    (hAuthorizations : after.authorizations = before.authorizations) : Persists before after := by
  refine ⟨hSteps, ?_, ?_, hAuthorizations ▸ List.Subset.refl _⟩
  · rw [hRows]
    exact fun row hRow => ⟨row, hRow, .refl _, id⟩
  · rw [hApprovals]
    exact fun _ approval hFind => ⟨approval, hFind, rfl, rfl, rfl, id⟩

/-- Only an outcome could take something back. -/
theorem Writes.persists (h : Writes c before after) (hInPlace : c.call.InPlace before.db) : Persists before after := by
  cases h with
  | nothing => exact .of_runs (fun _ _ _ => id) rfl rfl rfl
  | attempt workspaceId workflowRunId stepKey scope newId idempotencyKey run step prior stepRuns hCall hInsert =>
    refine ⟨fun id stepKey step hStep => ?_, fun row hRow => ⟨row, ?_, .refl _, fun h => h⟩,
      fun _ approval hFind => ⟨approval, hFind, rfl, rfl, rfl, fun h => h⟩, List.subset_append_right _ _⟩
    · rw [stepOf?_setRunStatus]
      exact hStep
    · rw [stepRuns_setRunStatus, (WorkflowStepRuns.insert_eq_some hInsert).2]
      exact List.mem_append_left _ hRow
  | outcome workspaceId workflowRunId stepKey stepRunId outcome stepRun step workflowCompleted hCall =>
    refine ⟨fun id stepKey step hStep => ?_, fun row hRow => ?_,
      fun _ approval hFind => ⟨approval, hFind, rfl, rfl, rfl, fun h => h⟩, List.Subset.refl _⟩
    · rw [commitOutcome, stepOf?_setRunStatus]
      exact hStep
    · refine ⟨_, mem_setStatus.mpr ⟨row, hRow, rfl⟩, sameAttempt_setStatus row _ _, fun hCompleted => ?_⟩
      rw [WorkflowStepRun.status_setStatus]
      split
      · rename_i hId
        rw [StepCall.InPlace, hCall] at hInPlace
        exact outcomeStatus_eq_completed.mpr (hInPlace.resolve_right fun hNot => hNot row hRow hId hCompleted)
      · exact hCompleted
  | mark id status =>
    refine .of_runs (fun id stepKey step hStep => ?_) rfl rfl rfl
    rw [stepOf?_setRunStatus]
    exact hStep
  | ask id status approval approvals hNew hInsert =>
    refine ⟨fun id stepKey step hStep => ?_, fun row hRow => ⟨row, hRow, .refl _, fun h => h⟩,
      fun id old hFind => ⟨old, ?_, rfl, rfl, rfl, fun h => h⟩, List.Subset.refl _⟩
    · rw [stepOf?_setRunStatus]
      exact hStep
    · have hFree := (Table.insert_eq_some hInsert).1
      change approvals.find? id = some old
      rw [Table.find?_insert hInsert, if_neg]
      · exact hFind
      · rintro rfl
        rw [hFree] at hFind
        cases hFind
  | approve workspaceId approvalId actorId now approval hCall =>
    refine ⟨fun id stepKey step hStep => ?_, fun row hRow => ⟨row, hRow, .refl _, fun h => h⟩,
      fun id old hFind => ?_, List.Subset.refl _⟩
    · rw [commitApproved, stepOf?_setRunStatus]
      exact hStep
    · rw [find?_commitApproved, hFind]
      refine ⟨_, rfl, ?_⟩
      dsimp only
      split
      · exact ⟨rfl, rfl, rfl, fun _ => rfl⟩
      · exact ⟨rfl, rfl, rfl, fun h => h⟩

theorem admission_persists (admitted : AdmittedRun) (store : AuthorizedStore) :
    Persists store { store with db := admitWorkflowRun admitted store.db } := by
  refine .of_runs (fun _ _ _ => stepOf?_admit) (stepRuns_admission admitted store.db) ?_ rfl
  change (admitWorkflowRun admitted store.db).approvals = store.db.approvals
  unfold admitWorkflowRun
  split <;> rfl

end Persistence

section Checks

def ApprovedFor (db : WorkflowDatabase) (approvalId : Option String) (workflowRunId stepKey : String) : Prop :=
  ∃ id approval, approvalId = some id ∧ db.approvals.find? id = some approval ∧
    approval.workflowRunId = workflowRunId ∧ approval.stepKey = stepKey ∧ approval.status = .approved

/-- What `authorizeWorkflowStep` has found of a step. -/
structure Cleared (db : WorkflowDatabase) (step : WorkflowStep) (authorization : Authorization) : Prop where
  known : db.stepOf? authorization.workflowRunId authorization.stepKey = some step
  dependencies : ∀ dependency ∈ step.dependsOn, dependency ∈ db.completedSteps authorization.workflowRunId
  approval : step.approvalPolicy.mode = .required →
    ApprovedFor db authorization.approvalId authorization.workflowRunId authorization.stepKey
  inside : authorization.scope.Inside authorization.grant

/-- The step is that of the request. -/
def Asked (db : WorkflowDatabase) (workflowRunId stepKey : String) (run : WorkflowRun) (step : WorkflowStep) : Prop :=
  run.id = workflowRunId ∧ step.key = stepKey ∧ db.stepOf? workflowRunId stepKey = some step

def Admitted (db : WorkflowDatabase) (authorization : Option Authorization) (workflowRunId stepKey : String)
    (scope : RequestedScope) (run : WorkflowRun) (step : WorkflowStep) : Prop :=
  run.id = workflowRunId ∧ step.key = stepKey ∧ ∃ evidence, authorization = some evidence ∧
    evidence.workflowRunId = workflowRunId ∧ evidence.stepKey = stepKey ∧ evidence.scope = scope ∧
    Cleared db step evidence

def Returned (store : AuthorizedStore) (workflowRunId stepKey : String) (scope : RequestedScope) (stepRunId : String)
    (created : Bool) : Prop :=
  ∃ row ∈ store.db.stepRuns.rows, row.id = stepRunId ∧ row.Of workflowRunId stepKey ∧
    (created = true → ∃ authorization, (stepRunId, authorization) ∈ store.authorizations ∧
      authorization.scope = scope)

/-- What a call that begins an attempt has checked, from one of its sections to the next. -/
def AuthorizedCall.Begun (store : AuthorizedStore) (c : AuthorizedCall) (workflowRunId stepKey : String)
    (scope : RequestedScope) : Prop :=
  match c.call.stage with
  | .authorizing run step => Asked store.db workflowRunId stepKey run step
  | .approving run step =>
    Asked store.db workflowRunId stepKey run step ∧
      ∀ dependency ∈ step.dependsOn, dependency ∈ store.db.completedSteps workflowRunId
  | .admitting run step =>
    Asked store.db workflowRunId stepKey run step ∧
      (∀ dependency ∈ step.dependsOn, dependency ∈ store.db.completedSteps workflowRunId) ∧
      (step.approvalPolicy.mode = .required →
        ApprovedFor store.db (c.approval.map WorkflowStepApproval.id) workflowRunId stepKey)
  | .replaying run step | .counting run step | .starting run step _ =>
    Admitted store.db c.authorization workflowRunId stepKey scope run step
  | .ended (.attempt stepRunId _ _ created) => Returned store workflowRunId stepKey scope stepRunId created
  | _ => True

def StepStage.Confirms (db : WorkflowDatabase) (actorId : String) (stage : StepStage) : Prop :=
  match stage with
  | .confirming approval =>
    approval.requestedById ≠ actorId ∧
      ∃ row, db.approvals.find? approval.id = some row ∧ row.requestedById = approval.requestedById
  | _ => True

def AuthorizedCall.Checked (store : AuthorizedStore) (c : AuthorizedCall) : Prop :=
  match c.call.request with
  | .begin _ workflowRunId stepKey scope _ => c.Begun store workflowRunId stepKey scope
  | .approve _ _ actorId => c.call.stage.Confirms store.db actorId
  | _ => True

section Later

variable {before after : AuthorizedStore} (h : Persists before after)
include h

theorem Persists.completed {id key : String} (hKey : key ∈ before.db.completedSteps id) :
    key ∈ after.db.completedSteps id := by
  obtain ⟨row, hRow, hOf, hCompleted⟩ := mem_completedSteps.mp hKey
  obtain ⟨later, hLater, hSame, hStays⟩ := h.rows row hRow
  exact mem_completedSteps.mpr ⟨later, hLater, ⟨hSame.2.1.1.trans hOf.1, hSame.2.1.2.trans hOf.2⟩, hStays hCompleted⟩

theorem Persists.approved {approvalId : Option String} {workflowRunId stepKey : String}
    (hApproved : ApprovedFor before.db approvalId workflowRunId stepKey) :
    ApprovedFor after.db approvalId workflowRunId stepKey := by
  obtain ⟨id, approval, rfl, hFind, hRun, hStep, hStatus⟩ := hApproved
  obtain ⟨later, hLater, hRun', hStep', -, hStays⟩ := h.approvals id approval hFind
  exact ⟨id, later, rfl, hLater, hRun'.trans hRun, hStep'.trans hStep, hStays hStatus⟩

theorem Persists.cleared {step : WorkflowStep} {authorization : Authorization}
    (hCleared : Cleared before.db step authorization) : Cleared after.db step authorization where
  known := h.steps _ _ _ hCleared.known
  dependencies dependency hDependency := h.completed (hCleared.dependencies dependency hDependency)
  approval hRequired := h.approved (hCleared.approval hRequired)
  inside := hCleared.inside

theorem Persists.admitted {authorization : Option Authorization} {workflowRunId stepKey : String}
    {scope : RequestedScope} {run : WorkflowRun} {step : WorkflowStep}
    (hAdmitted : Admitted before.db authorization workflowRunId stepKey scope run step) :
    Admitted after.db authorization workflowRunId stepKey scope run step := by
  obtain ⟨hRun, hStep, evidence, hEvidence, hOfRun, hOfStep, hScope, hCleared⟩ := hAdmitted
  exact ⟨hRun, hStep, evidence, hEvidence, hOfRun, hOfStep, hScope, h.cleared hCleared⟩

theorem Persists.asked {workflowRunId stepKey : String} {run : WorkflowRun} {step : WorkflowStep}
    (hAsked : Asked before.db workflowRunId stepKey run step) : Asked after.db workflowRunId stepKey run step :=
  ⟨hAsked.1, hAsked.2.1, h.steps _ _ _ hAsked.2.2⟩

theorem Persists.returned {workflowRunId stepKey stepRunId : String} {scope : RequestedScope} {created : Bool}
    (hReturned : Returned before workflowRunId stepKey scope stepRunId created) :
    Returned after workflowRunId stepKey scope stepRunId created := by
  obtain ⟨row, hRow, hId, hOf, hCreated⟩ := hReturned
  obtain ⟨later, hLater, hSame, -⟩ := h.rows row hRow
  refine ⟨later, hLater, hSame.1.trans hId, ⟨hSame.2.1.1.trans hOf.1, hSame.2.1.2.trans hOf.2⟩, fun hNew => ?_⟩
  obtain ⟨authorization, hMem, hScope⟩ := hCreated hNew
  exact ⟨authorization, h.authorizations hMem, hScope⟩

theorem Persists.checked {c : AuthorizedCall} (hChecked : c.Checked before) : c.Checked after := by
  obtain ⟨⟨request, stage⟩, approval, authorization⟩ := c
  cases request with
  | begin workspaceId workflowRunId stepKey scope idempotencyKey =>
    cases stage with
    | authorizing run step => exact h.asked hChecked
    | approving run step =>
      exact ⟨h.asked hChecked.1, fun dependency hDependency => h.completed (hChecked.2 dependency hDependency)⟩
    | admitting run step =>
      exact ⟨h.asked hChecked.1, fun dependency hDependency => h.completed (hChecked.2.1 dependency hDependency),
        fun hRequired => h.approved (hChecked.2.2 hRequired)⟩
    | replaying run step => exact h.admitted hChecked
    | counting run step => exact h.admitted hChecked
    | starting run step prior => exact h.admitted hChecked
    | ended reply =>
      cases reply with
      | attempt stepRunId attempt status created => exact h.returned hChecked
      | _ => trivial
    | _ => trivial
  | approve workspaceId approvalId actorId =>
    cases stage with
    | confirming approval =>
      obtain ⟨hOther, row, hFind, hRequester⟩ := hChecked
      obtain ⟨later, hLater, -, -, hSame, -⟩ := h.approvals approval.id row hFind
      exact ⟨hOther, later, hLater, hSame.trans hRequester⟩
    | _ => trivial
  | _ => trivial

end Later

section Reading

variable {db : WorkflowDatabase} {run : WorkflowRun} {step : WorkflowStep}

theorem foldl_pick_mem {α : Type} {pick : Option α → α → Option α}
    (hPick : ∀ latest row best, pick latest row = some best → latest = some best ∨ row = best) {rows : List α}
    {latest : Option α} {best : α} (h : rows.foldl pick latest = some best) : latest = some best ∨ best ∈ rows := by
  induction rows generalizing latest with
  | nil => exact .inl h
  | cons row rows ih =>
    rcases ih h with hPicked | hMem
    · rcases hPick _ _ _ hPicked with hLatest | rfl
      · exact .inl hLatest
      · exact .inr List.mem_cons_self
    · exact .inr (List.mem_cons_of_mem _ hMem)

theorem latestApproval_eq_some {workflowRunId stepKey : String} {status : WorkflowStepApprovalStatus}
    {date : WorkflowStepApproval → Nat} {approval : WorkflowStepApproval}
    (h : db.latestApproval workflowRunId stepKey status date = some approval) :
    approval ∈ db.approvals.rows ∧ approval.workflowRunId = workflowRunId ∧ approval.stepKey = stepKey ∧
      approval.status = status := by
  have hMem := (foldl_pick_mem ?_ h).resolve_left nofun
  · simpa only [List.mem_filter, decide_eq_true_eq] using hMem
  · rintro latest row best hBest
    split at hBest
    · exact .inr (Option.some.inj hBest)
    · split at hBest
      · exact .inr (Option.some.inj hBest)
      · exact .inl hBest

theorem approvedFor_latest {workflowRunId stepKey : String} {date : WorkflowStepApproval → Nat}
    {approval : WorkflowStepApproval} (h : db.latestApproval workflowRunId stepKey .approved date = some approval) :
    ApprovedFor db (some approval.id) workflowRunId stepKey := by
  obtain ⟨hMem, hRun, hStep, hStatus⟩ := latestApproval_eq_some h
  exact ⟨approval.id, approval, rfl, (Table.find?_eq_some _ _ _).mpr ⟨hMem, rfl⟩, hRun, hStep, hStatus⟩

theorem authorizeRun_cases (db : WorkflowDatabase) (workspaceId workflowRunId stepKey : String) :
    (∃ error, authorizeRun db workspaceId workflowRunId stepKey = .throw error) ∨
    ∃ run step, authorizeRun db workspaceId workflowRunId stepKey = .authorizing run step ∧
      Asked db workflowRunId stepKey run step := by
  unfold authorizeRun
  split
  · exact .inl ⟨_, rfl⟩
  · rename_i run hRun
    split
    · exact .inl ⟨_, rfl⟩
    · rename_i definition hDefinition
      split
      · exact .inl ⟨_, rfl⟩
      · rename_i step hStep
        have hFound : (run.definition.bind fun definition => definition.step? stepKey) = some step := by
          rw [hDefinition, Option.bind_some, hStep]
        have hId : run.id = workflowRunId := Table.find?_key (Option.filter_eq_some_iff.mp hRun).1
        have hKey : step.key = stepKey := (key_mem_of_step? hStep).2
        have hKnown := stepOf?_of_findRun hRun hFound
        rw [hId, hKey] at hKnown
        exact .inr ⟨run, step, rfl, hId, hKey, hKnown⟩

theorem missingDependencies_eq_nil {workflowRunId : String} :
    db.missingDependencies workflowRunId step = [] ↔
      ∀ dependency ∈ step.dependsOn, dependency ∈ db.completedSteps workflowRunId := by
  simp only [WorkflowDatabase.missingDependencies, List.filter_eq_nil_iff, decide_eq_true_eq, not_not]

theorem covers_eq_true {granted : Option (List (Option String))} {asked : List String}
    (h : covers granted asked = true) :
    ∃ values, granted = some values ∧ ∀ value ∈ asked, some value ∈ values := by
  unfold covers at h
  split at h
  · cases h
  · rename_i values
    obtain ⟨-, hAll⟩ := Bool.and_eq_true_iff.mp h
    exact ⟨values, rfl, by simpa using hAll⟩

theorem refuses_eq_none {answers : DirectoryAnswers} {workspaceId : String} {scope : RequestedScope}
    (h : answers.refuses workspaceId scope = none) : ∃ grant, answers.grant = some grant ∧ scope.Inside grant := by
  unfold DirectoryAnswers.refuses at h
  iterate 3
    split at h
    · cases h
  split at h
  · cases h
  · rename_i hGranted
    rw [not_not, Option.any_eq_true] at hGranted
    obtain ⟨grant, hGrant, hCovers⟩ := hGranted
    obtain ⟨hOperations, hResources⟩ := Bool.and_eq_true_iff.mp hCovers
    exact ⟨grant, hGrant, covers_eq_true hOperations, covers_eq_true hResources⟩

end Reading

section Advancing

variable {store : AuthorizedStore}

theorem commitAttempt_returned {input : StepInput} {run : WorkflowRun} {step : WorkflowStep} {prior : Nat}
    {workflowRunId stepKey idempotencyKey : String} {scope : RequestedScope} {authorization : Authorization}
    {stepRuns : WorkflowStepRuns} (hRun : run.id = workflowRunId) (hStep : step.key = stepKey)
    (hScope : authorization.scope = scope)
    (hInsert : store.db.stepRuns.insert (newAttempt input.newId run.id step.key prior idempotencyKey) = some stepRuns) :
    Returned ⟨{ store.db with stepRuns }.setRunStatus run.id .running,
      (input.newId, authorization) :: store.authorizations⟩ workflowRunId stepKey scope input.newId true := by
  have hMem : newAttempt input.newId run.id step.key prior idempotencyKey ∈ stepRuns.rows := by
    rw [(WorkflowStepRuns.insert_eq_some hInsert).2]
    exact List.mem_append_right _ (List.mem_singleton_self _)
  exact ⟨_, hMem, rfl, ⟨hRun, hStep⟩, fun _ => ⟨authorization, List.mem_cons_self, hScope⟩⟩

theorem begin_checked {input : StepInput} {c : AuthorizedCall}
    {workspaceId workflowRunId stepKey idempotencyKey : String} {scope : RequestedScope}
    (hRequest : c.call.request = .begin workspaceId workflowRunId stepKey scope idempotencyKey)
    (hInPlace : c.call.InPlace store.db) (hBegun : c.Begun store workflowRunId stepKey scope) :
    (c.advance input store).1.Begun (c.advance input store).2 workflowRunId stepKey scope := by
  obtain ⟨⟨request, stage⟩, approval, authorization⟩ := c
  dsimp only at hRequest
  subst hRequest
  cases stage with
  | received =>
    rcases authorizeRun_cases store.db workspaceId workflowRunId stepKey with ⟨error, hNext⟩ | ⟨run, step, hNext, hAsked⟩
    · simp only [AuthorizedCall.advance, StepCall.section, beginWorkflowStepAttempt, AuthorizedCall.Begun, hNext,
        StepStage.throw]
    · simp only [AuthorizedCall.advance, StepCall.section, beginWorkflowStepAttempt, AuthorizedCall.Begun, hNext]
      exact hAsked
  | authorizing run step =>
    dsimp only [AuthorizedCall.advance, StepCall.section, beginWorkflowStepAttempt, authorizeDependencies]
    split
    · rename_i hNone
      obtain ⟨rfl, hKey, hKnown⟩ := hBegun
      exact ⟨⟨rfl, hKey, hKnown⟩, missingDependencies_eq_nil.mp hNone⟩
    · trivial
  | approving run step =>
    obtain ⟨⟨rfl, rfl, hKnown⟩, hDependencies⟩ := hBegun
    dsimp only [AuthorizedCall.advance, StepCall.section, beginWorkflowStepAttempt, authorizeApproval]
    split
    · trivial
    · rename_i hApproval
      refine ⟨⟨rfl, rfl, hKnown⟩, hDependencies, fun hRequired => ?_⟩
      obtain ⟨approval, hLatest⟩ := Option.ne_none_iff_exists'.mp fun hNone => hApproval ⟨hRequired, hNone⟩
      simp only [AuthorizedCall.approvalAfter, approvedApproval, if_pos hRequired, hLatest, Option.map_some]
      exact approvedFor_latest hLatest
  | admitting run step =>
    obtain ⟨⟨rfl, rfl, hKnown⟩, hDependencies, hApproval⟩ := hBegun
    dsimp only [AuthorizedCall.advance, StepCall.section, beginWorkflowStepAttempt, authorizePrincipal]
    split
    · trivial
    · rename_i hAccepts
      obtain ⟨grant, hGrant, hInside⟩ := refuses_eq_none hAccepts
      refine ⟨rfl, rfl, ⟨run.id, step.key, approval.map WorkflowStepApproval.id, scope, grant⟩, ?_, rfl, rfl, rfl,
        hKnown, hDependencies, hApproval, hInside⟩
      simp only [AuthorizedCall.authorizationAfter, hGrant, Option.map_some]
  | replaying run step =>
    dsimp only [AuthorizedCall.advance, StepCall.section, beginWorkflowStepAttempt, replayAttempt]
    split
    · rename_i existing hFind
      obtain ⟨hRun, hKey⟩ : existing.workflowRunId = run.id ∧ existing.idempotencyKey = idempotencyKey := by
        simpa using List.find?_some hFind
      have hMem := List.mem_of_find?_eq_some hFind
      exact ⟨existing, hMem, rfl, ⟨hRun.trans hBegun.1, (hInPlace existing hMem hRun hKey).trans hBegun.2.1⟩, nofun⟩
    · exact hBegun
  | counting run step => exact hBegun
  | starting run step prior =>
    obtain ⟨hRun, hStep, evidence, rfl, -, -, hScope, -⟩ := hBegun
    dsimp only [AuthorizedCall.advance, StepCall.section, beginWorkflowStepAttempt, commitAttempt]
    split
    · trivial
    · rename_i stepRuns hInsert
      exact commitAttempt_returned hRun hStep hScope hInsert
  | ended reply =>
    cases reply with
    | attempt stepRunId attempt status created => exact hBegun
    | _ => trivial
  | _ => trivial

theorem findPending_confirms (workspaceId approvalId actorId : String) :
    (findPending store.db workspaceId approvalId actorId).Confirms store.db actorId := by
  unfold findPending
  split
  · trivial
  · rename_i approval hFind
    split
    · trivial
    · split
      · trivial
      · rename_i hOther
        obtain ⟨hStored, -⟩ := Option.filter_eq_some_iff.mp hFind
        exact ⟨hOther, approval, (Table.find?_key hStored).symm ▸ hStored, rfl⟩

theorem advance_checked {input : StepInput} {c : AuthorizedCall} (hInPlace : c.call.InPlace store.db)
    (hChecked : c.Checked store) : (c.advance input store).1.Checked (c.advance input store).2 := by
  obtain ⟨⟨request, stage⟩, approval, authorization⟩ := c
  cases request with
  | begin workspaceId workflowRunId stepKey scope idempotencyKey => exact begin_checked rfl hInPlace hChecked
  | approve workspaceId approvalId actorId =>
    cases stage with
    | received => exact findPending_confirms workspaceId approvalId actorId
    | confirming approval => trivial
    | _ => exact hChecked
  | _ => trivial

end Advancing

end Checks

section Soundness

/-- Every attempt has evidence, all evidence is of an attempt and has been checked, and no approval was decided by
its requester. -/
structure SoundEvidence (store : AuthorizedStore) : Prop where
  evidenced : ∀ row ∈ store.db.stepRuns.rows, ∃ authorization, (row.id, authorization) ∈ store.authorizations
  checked : ∀ id authorization, (id, authorization) ∈ store.authorizations →
    ∃ row ∈ store.db.stepRuns.rows, row.id = id ∧
      row.Of authorization.workflowRunId authorization.stepKey ∧ ∃ step, Cleared store.db step authorization
  independent : ∀ approval ∈ store.db.approvals.rows, approval.status = .approved →
    ∃ approver, approval.approvedById = some approver ∧ approver ≠ approval.requestedById

variable {before after : AuthorizedStore} {c : AuthorizedCall}

/-- What was checked stays so, so only what a section adds is to be looked at. -/
theorem SoundEvidence.later (h : SoundEvidence before) (hPersists : Persists before after)
    (hRows : ∀ later ∈ after.db.stepRuns.rows, (∃ row ∈ before.db.stepRuns.rows, row.id = later.id) ∨
      ∃ authorization, (later.id, authorization) ∈ after.authorizations)
    (hAuthorizations : ∀ id authorization, (id, authorization) ∈ after.authorizations →
      (id, authorization) ∈ before.authorizations ∨ ∃ row ∈ after.db.stepRuns.rows, row.id = id ∧
        row.Of authorization.workflowRunId authorization.stepKey ∧ ∃ step, Cleared after.db step authorization)
    (hApprovals : ∀ approval ∈ after.db.approvals.rows, approval ∈ before.db.approvals.rows ∨
      (approval.status = .approved → ∃ approver, approval.approvedById = some approver ∧
        approver ≠ approval.requestedById)) : SoundEvidence after := by
  refine ⟨fun later hLater => ?_, fun id authorization hMem => ?_, fun approval hMem hApproved => ?_⟩
  · rcases hRows later hLater with ⟨row, hRow, hId⟩ | hNew
    · obtain ⟨authorization, hMem⟩ := h.evidenced row hRow
      exact ⟨authorization, hId ▸ hPersists.authorizations hMem⟩
    · exact hNew
  · rcases hAuthorizations id authorization hMem with hOld | hNew
    · obtain ⟨row, hRow, hId, hOf, step, hCleared⟩ := h.checked id authorization hOld
      obtain ⟨later, hLater, hSame, -⟩ := hPersists.rows row hRow
      exact ⟨later, hLater, hSame.1.trans hId, ⟨hSame.2.1.1.trans hOf.1, hSame.2.1.2.trans hOf.2⟩, step,
        hPersists.cleared hCleared⟩
    · exact hNew
  · rcases hApprovals approval hMem with hOld | hNew
    · exact h.independent approval hOld hApproved
    · exact hNew hApproved

theorem Writes.sound (h : Writes c before after) (hPersists : Persists before after) (hChecked : c.Checked before)
    (hSound : SoundEvidence before) : SoundEvidence after := by
  cases h with
  | nothing => exact hSound
  | attempt workspaceId workflowRunId stepKey scope newId idempotencyKey run step prior stepRuns hCall hInsert =>
    rw [AuthorizedCall.Checked, hCall] at hChecked
    dsimp only [AuthorizedCall.Begun] at hChecked
    rw [hCall] at hChecked
    obtain ⟨hRun, hStep, evidence, hEvidence, hOfRun, hOfStep, -, hCleared⟩ := hChecked
    have hStored := (WorkflowStepRuns.insert_eq_some hInsert).2
    rw [hEvidence] at hPersists ⊢
    refine hSound.later hPersists (fun later hLater => ?_) (fun id authorization hMem => ?_) fun _ => .inl
    · rw [stepRuns_setRunStatus, hStored] at hLater
      rcases List.mem_append.mp hLater with hOld | hNew
      · exact .inl ⟨later, hOld, rfl⟩
      · obtain rfl := List.mem_singleton.mp hNew
        exact .inr ⟨evidence, List.mem_cons_self⟩
    · rcases List.mem_cons.mp hMem with hNew | hOld
      · cases hNew
        refine .inr ⟨newAttempt newId run.id step.key prior idempotencyKey, ?_, rfl,
          ⟨hRun.trans hOfRun.symm, hStep.trans hOfStep.symm⟩, step, hPersists.cleared hCleared⟩
        rw [stepRuns_setRunStatus, hStored]
        exact List.mem_append_right _ (List.mem_singleton_self _)
      · exact .inl hOld
  | outcome workspaceId workflowRunId stepKey stepRunId outcome stepRun step workflowCompleted hCall =>
    refine hSound.later hPersists (fun later hLater => ?_) (fun _ _ => .inl) fun _ => .inl
    obtain ⟨row, hRow, rfl⟩ := mem_setStatus.mp hLater
    exact .inl ⟨row, hRow, (WorkflowStepRun.id_setStatus row _ _).symm⟩
  | mark id status =>
    exact hSound.later hPersists (fun later hLater => .inl ⟨later, hLater, rfl⟩) (fun _ _ => .inl) fun _ => .inl
  | ask id status approval approvals hNew hInsert =>
    refine hSound.later hPersists (fun later hLater => .inl ⟨later, hLater, rfl⟩) (fun _ _ => .inl) ?_
    intro other hOther
    have hRows : other ∈ before.db.approvals.rows ++ [approval] := (Table.insert_eq_some hInsert).2.2 ▸ hOther
    rcases List.mem_append.mp hRows with hOld | hLast
    · exact .inl hOld
    · obtain rfl := List.mem_singleton.mp hLast
      exact .inr fun hApproved => absurd (hNew.symm.trans hApproved) nofun
  | approve workspaceId approvalId actorId now approval hCall =>
    rw [AuthorizedCall.Checked, hCall] at hChecked
    obtain ⟨hOther, stored, hStored, hRequester⟩ := hChecked
    refine hSound.later hPersists (fun later hLater => .inl ⟨later, hLater, rfl⟩) (fun _ _ => .inl) ?_
    intro other hMem
    have hMapped : other ∈ before.db.approvals.rows.map fun row =>
        if decide (row.id = approval.id) then row.approvedBy actorId now else row := hMem
    obtain ⟨row, hRow, rfl⟩ := List.mem_map.mp hMapped
    split
    · rename_i hSame
      have hId : row.id = approval.id := of_decide_eq_true hSame
      obtain rfl := Table.eq_of_key_eq _ hRow (Table.find?_mem hStored) (hId.trans (Table.find?_key hStored).symm)
      exact .inr fun _ => ⟨actorId, rfl, fun hSame => hOther (hRequester.symm.trans hSame.symm)⟩
    · exact .inl hRow

theorem SoundEvidence.admission (h : SoundEvidence before) (admitted : AdmittedRun) :
    SoundEvidence { before with db := admitWorkflowRun admitted before.db } := by
  have hRows := stepRuns_admission admitted before.db
  have hPersists := admission_persists admitted before
  refine h.later hPersists (fun later hLater => .inl ⟨later, hRows ▸ hLater, rfl⟩) (fun _ _ => .inl) fun _ hMem => .inl ?_
  have hApprovals : (admitWorkflowRun admitted before.db).approvals = before.db.approvals := by
    unfold admitWorkflowRun
    split <;> rfl
  exact hApprovals ▸ hMem

theorem soundEvidence_empty : SoundEvidence .empty := by
  constructor
  · intro row hRow
    cases hRow
  · intro id authorization hMem
    cases hMem
  · intro approval hMem
    cases hMem

variable {crowd : AuthorizedWorkflows}

theorem run_sound (h : Reaches (Crowd.step authorizedRules) InPlace (Crowd.init .empty) crowd) :
    SoundEvidence crowd.store ∧ ∀ c ∈ crowd.calls, c.Checked crowd.store := by
  refine Crowd.invariant (P := SoundEvidence) (Q := fun c store => c.Checked store) (R := Persists) h
    soundEvidence_empty ?_ ?_ ?_ ?_
  · rintro (_ | _ | _ | _ | _) store _ <;> trivial
  · intro index input c crowd hInPlace hCall hSound hChecked
    have hWrites := advance_writes input c crowd.store
    have hPersists := hWrites.persists (hInPlace c hCall)
    exact ⟨hWrites.sound hPersists hChecked hSound, hPersists, advance_checked (hInPlace c hCall) hChecked⟩
  · exact fun admitted crowd _ hSound => ⟨hSound.admission admitted, admission_persists admitted _⟩
  · exact fun c _ _ hPersists hChecked => hPersists.checked hChecked

theorem SoundEvidence.authorizes (h : SoundEvidence after) {row : WorkflowStepRun} {step : WorkflowStep}
    {authorization : Authorization} (hOf : row.Of authorization.workflowRunId authorization.stepKey)
    (hCleared : Cleared after.db step authorization) : Authorizes after.db row authorization := by
  have hStep : after.db.stepOf? row.workflowRunId row.stepKey = some step := by
    rw [hOf.1, hOf.2]
    exact hCleared.known
  refine ⟨hOf, ⟨step, hStep, fun dependency hDependency => ?_⟩, fun declared hDeclared hRequired => ?_, hCleared.inside⟩
  · rw [hOf.1]
    exact mem_completedSteps.mp (hCleared.dependencies dependency hDependency)
  · obtain rfl := Option.some.inj (hStep.symm.trans hDeclared)
    obtain ⟨id, approval, hApproval, hFind, hRun, hKey, hStatus⟩ := hCleared.approval hRequired
    have hMem := Table.find?_mem hFind
    refine ⟨approval, hMem, hApproval.trans (congrArg some (Table.find?_key hFind).symm), hRun.trans hOf.1.symm,
      hKey.trans hOf.2.symm, hStatus, h.independent approval hMem hStatus⟩

/-- In the runs that overwrite no completed attempt and share no key between steps, whatever calls overlap. -/
theorem workflow_steps_authorized (h : Reaches (Crowd.step authorizedRules) InPlace (Crowd.init .empty) crowd) :
    StepsAuthorized crowd := by
  obtain ⟨hSound, hChecked⟩ := run_sound h
  refine ⟨hSound.evidenced, fun id authorization hMem => ?_, ?_⟩
  · obtain ⟨row, hRow, hId, hOf, step, hCleared⟩ := hSound.checked id authorization hMem
    exact ⟨row, hRow, hId, hSound.authorizes hOf hCleared⟩
  · intro c hMem workspaceId workflowRunId stepKey scope idempotencyKey stepRunId attempt status created hCall
    have hReturned := hChecked c hMem
    rw [AuthorizedCall.Checked, hCall] at hReturned
    dsimp only [AuthorizedCall.Begun] at hReturned
    rw [hCall] at hReturned
    exact hReturned

end Soundness

section Examples

def letterSteps : WorkflowDefinition := ⟨[plainStep "draft", sendStep], by decide, by decide⟩

def approvalTurns (index : Nat) : List StepTurn :=
  callTurns index 4 "approval-1" (.requestApproval "workspace" "alice" "run-1" "send") ++
    callTurns (index + 1) 2 "unused" (.approve "workspace" "approval-1" "bob")

def runAuthorized (turns : List StepTurn) : AuthorizedWorkflows :=
  runAll (Crowd.step authorizedRules) (Crowd.init .empty) turns

/-- The draft is completed and the sending approved, then sent, and the sending is asked for again. -/
def sentTurns : List StepTurn :=
  [.outside ⟨"run-1", "workspace", some letterSteps⟩] ++ stepBegin 0 "draft" ++
    callTurns 1 3 "unused" (recordCompleted "draft") ++ approvalTurns 2 ++ stepBegin 4 "send" ++ stepBegin 5 "send"

theorem workflow_steps_authorized_sent :
    StepsAuthorized (runAuthorized sentTurns) ∧
    (runAuthorized sentTurns).store.authorizations.map (fun entry => (entry.1, entry.2.approvalId)) =
      [("send", some "approval-1"), ("draft", none)] :=
  ⟨workflow_steps_authorized (GuardedAll.reaches (by decide +kernel)), by decide +kernel⟩

/-- The other step is begun under the key of the first. -/
def misdirected : AuthorizedWorkflows :=
  runAuthorized ([.outside ⟨"run-1", "workspace", some twoSteps⟩] ++ stepBegin 0 "left" ++
    callTurns 1 7 "right" (.begin "workspace" "run-1" "right" draftScope "key of left"))

/-- A failure that was found in time is written over the completed draft while the sending is being authorized. -/
def unfounded : AuthorizedWorkflows :=
  runAuthorized ([.outside ⟨"run-1", "workspace", some letterSteps⟩] ++ stepBegin 0 "draft" ++
    callTurns 1 1 "unused" (.record "workspace" "run-1" "draft" "draft" .terminalFailure) ++
    callTurns 2 3 "unused" (recordCompleted "draft") ++ approvalTurns 3 ++
    callTurns 5 6 "unused" (.begin "workspace" "run-1" "send" draftScope "key of send") ++
    turnsOf [1, 1] ++ [.advance 5 (draftInput "send")])

theorem workflow_steps_unauthorized :
    ((misdirected.calls[1]?).map AuthorizedCall.call =
        some ⟨.begin "workspace" "run-1" "right" draftScope "key of left", .ended (.attempt "left" 1 .running false)⟩ ∧
      misdirected.store.db.attempts "run-1" "right" = []) ∧
    ((unfounded.calls[5]?).map (fun c => c.call.stage) = some (.ended (.attempt "send" 1 .running true)) ∧
      unfounded.store.db.completedSteps "run-1" = []) ∧
    ¬ ∀ crowd, Reaches (Crowd.step authorizedRules) (fun _ _ => True) (Crowd.init .empty) crowd →
      StepsAuthorized crowd := by
  have hCall : (misdirected.calls[1]?).map AuthorizedCall.call =
      some ⟨.begin "workspace" "run-1" "right" draftScope "key of left", .ended (.attempt "left" 1 .running false)⟩ := by
    decide +kernel
  have hNone : misdirected.store.db.attempts "run-1" "right" = [] := by decide +kernel
  refine ⟨⟨hCall, hNone⟩, ⟨by decide +kernel, by decide +kernel⟩, fun h => ?_⟩
  obtain ⟨c, hFind, hStage⟩ := Option.map_eq_some_iff.mp hCall
  obtain ⟨row, hRow, -, hOf, -⟩ :=
    (h misdirected (reaches_runAll _ _ _)).returned c (List.mem_of_getElem? hFind) _ _ _ _ _ _ _ _ _ hStage
  have hAttempt : row ∈ misdirected.store.db.attempts "run-1" "right" :=
    List.mem_filter.mpr ⟨hRow, decide_eq_true hOf⟩
  rw [hNone] at hAttempt
  cases hAttempt

end Examples

end CommandConsole.Workflows
