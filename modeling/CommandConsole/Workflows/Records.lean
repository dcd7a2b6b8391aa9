import CommandConsole.Library.Table

/-! # Workflow runs, step attempts and step approvals

The rows that the workflow services read and write. A run keeps the definition that the
contract accepted of its immutable snapshot, none where the contract refuses it.
-/
namespace CommandConsole.Workflows
open Library
set_option autoImplicit false

section Definitions

inductive ApprovalMode where
  | none
  | required
  deriving DecidableEq

structure ApprovalPolicy where
  mode : ApprovalMode
  reason : Option String
  deriving DecidableEq

structure FailurePolicy where
  maxAttempts : Nat
  atLeastOne : 1 ≤ maxAttempts
  atMostTen : maxAttempts ≤ 10
  deriving DecidableEq

structure CapabilityReference where
  applicationSlug : String
  capabilityKey : String
  version : String
  deriving DecidableEq

structure WorkflowStep where
  key : String
  capability : CapabilityReference
  dependsOn : List String
  failurePolicy : FailurePolicy
  approvalPolicy : ApprovalPolicy
  deriving DecidableEq

structure WorkflowDefinition where
  steps : List WorkflowStep
  someStep : steps ≠ []
  keys : (steps.map WorkflowStep.key).Nodup
  deriving DecidableEq

def WorkflowDefinition.step? (definition : WorkflowDefinition) (stepKey : String) : Option WorkflowStep :=
  definition.steps.find? fun candidate => candidate.key = stepKey

end Definitions

section Rows

inductive WorkflowRunStatus where
  | created
  | validating
  | ready
  | running
  | waitingApproval
  | retryWait
  | completed
  | failed
  | cancelled
  deriving DecidableEq

/-- `COMPLETED` or `FAILED`. -/
def WorkflowRunStatus.finished : WorkflowRunStatus → Bool
  | .completed | .failed => true
  | _ => false

inductive WorkflowStepRunStatus where
  | pending
  | running
  | waitingApproval
  | retryWait
  | completed
  | failed
  | skipped
  | cancelled
  deriving DecidableEq

inductive WorkflowStepApprovalStatus where
  | requested
  | approved
  | rejected
  | cancelled
  deriving DecidableEq

structure WorkflowRun where
  id : String
  workspaceId : String
  status : WorkflowRunStatus
  definition : Option WorkflowDefinition
  deriving DecidableEq

structure WorkflowStepRun where
  id : String
  workflowRunId : String
  stepKey : String
  attempt : Nat
  status : WorkflowStepRunStatus
  idempotencyKey : String
  deriving DecidableEq

structure WorkflowStepApproval where
  id : String
  workflowRunId : String
  stepKey : String
  status : WorkflowStepApprovalStatus
  reason : String
  requestedById : String
  requestedAt : Nat
  approvedById : Option String
  approvedAt : Option Nat
  deriving DecidableEq

namespace WorkflowStepRun

def Of (row : WorkflowStepRun) (workflowRunId stepKey : String) : Prop :=
  row.workflowRunId = workflowRunId ∧ row.stepKey = stepKey

instance (row : WorkflowStepRun) (workflowRunId stepKey : String) : Decidable (row.Of workflowRunId stepKey) :=
  inferInstanceAs (Decidable (_ ∧ _))

/-- The primary key and the two unique indexes. -/
def Apart (left right : WorkflowStepRun) : Prop :=
  left.id ≠ right.id ∧
  ¬(left.workflowRunId = right.workflowRunId ∧ left.idempotencyKey = right.idempotencyKey) ∧
  ¬(left.workflowRunId = right.workflowRunId ∧ left.stepKey = right.stepKey ∧ left.attempt = right.attempt)

instance (left right : WorkflowStepRun) : Decidable (Apart left right) := inferInstanceAs (Decidable (_ ∧ _))

instance : Std.Symm Apart where
  symm _ _ h := ⟨fun hId => h.1 hId.symm, fun ⟨hRun, hKey⟩ => h.2.1 ⟨hRun.symm, hKey.symm⟩,
    fun ⟨hRun, hStep, hAttempt⟩ => h.2.2 ⟨hRun.symm, hStep.symm, hAttempt.symm⟩⟩

def setStatus (row : WorkflowStepRun) (id : String) (status : WorkflowStepRunStatus) : WorkflowStepRun :=
  if row.id = id then { row with status } else row

section SetStatus

variable (row : WorkflowStepRun) (id : String) (status : WorkflowStepRunStatus)

@[simp] theorem id_setStatus : (row.setStatus id status).id = row.id := by
  unfold setStatus
  split <;> rfl

@[simp] theorem workflowRunId_setStatus : (row.setStatus id status).workflowRunId = row.workflowRunId := by
  unfold setStatus
  split <;> rfl

@[simp] theorem stepKey_setStatus : (row.setStatus id status).stepKey = row.stepKey := by
  unfold setStatus
  split <;> rfl

@[simp] theorem attempt_setStatus : (row.setStatus id status).attempt = row.attempt := by
  unfold setStatus
  split <;> rfl

@[simp] theorem idempotencyKey_setStatus : (row.setStatus id status).idempotencyKey = row.idempotencyKey := by
  unfold setStatus
  split <;> rfl

theorem status_setStatus : (row.setStatus id status).status = if row.id = id then status else row.status := by
  unfold setStatus
  split <;> rfl

theorem apart_setStatus {left right : WorkflowStepRun} (h : Apart left right) :
    Apart (left.setStatus id status) (right.setStatus id status) := by
  simpa only [Apart, id_setStatus, workflowRunId_setStatus, stepKey_setStatus, attempt_setStatus,
    idempotencyKey_setStatus] using h

end SetStatus

end WorkflowStepRun

structure WorkflowStepRuns where
  rows : List WorkflowStepRun
  unique : rows.Pairwise WorkflowStepRun.Apart

namespace WorkflowStepRuns

def empty : WorkflowStepRuns := ⟨[], .nil⟩

/-- An INSERT, which the primary key and the unique indexes may refuse. -/
def insert (table : WorkflowStepRuns) (row : WorkflowStepRun) : Option WorkflowStepRuns :=
  if h : ∀ other ∈ table.rows, other.Apart row then
    some ⟨table.rows ++ [row], List.pairwise_append.mpr
      ⟨table.unique, List.pairwise_singleton _ _, fun other hOther _ hLast =>
        List.mem_singleton.mp hLast ▸ h other hOther⟩⟩
  else none

def setStatus (table : WorkflowStepRuns) (id : String) (status : WorkflowStepRunStatus) : WorkflowStepRuns where
  rows := table.rows.map fun row => row.setStatus id status
  unique := List.pairwise_map.mpr (table.unique.imp fun h => WorkflowStepRun.apart_setStatus id status h)

variable {table next : WorkflowStepRuns} {row other : WorkflowStepRun}

theorem eq_of_id_eq (hRow : row ∈ table.rows) (hOther : other ∈ table.rows) (hId : row.id = other.id) :
    row = other := by
  by_contra hNe
  exact (table.unique.forall hRow hOther hNe).1 hId

theorem eq_of_attempt_eq (hRow : row ∈ table.rows) (hOther : other ∈ table.rows)
    (hOf : other.Of row.workflowRunId row.stepKey) (hAttempt : row.attempt = other.attempt) : row = other := by
  by_contra hNe
  exact (table.unique.forall hRow hOther hNe).2.2 ⟨hOf.1.symm, hOf.2.symm, hAttempt⟩

theorem insert_eq_some (h : table.insert row = some next) :
    (∀ other ∈ table.rows, other.Apart row) ∧ next.rows = table.rows ++ [row] := by
  unfold insert at h
  split at h
  · rename_i hApart
    exact ⟨hApart, Option.some.inj h ▸ rfl⟩
  · cases h

end WorkflowStepRuns

end Rows

section Database

structure WorkflowDatabase where
  runs : PlainTable WorkflowRun.id
  stepRuns : WorkflowStepRuns
  approvals : PlainTable WorkflowStepApproval.id

namespace WorkflowDatabase

def empty : WorkflowDatabase := ⟨.empty, .empty, .empty⟩

def setRunStatus (db : WorkflowDatabase) (id : String) (status : WorkflowRunStatus) : WorkflowDatabase :=
  { db with runs := db.runs.update (fun run => run.id = id) fun run => { run with status } }

/-- `findFirst({ where: { id, workspaceId, status: { in: statuses } } })` -/
def findRun (db : WorkflowDatabase) (id workspaceId : String) (statuses : List WorkflowRunStatus) :
    Option WorkflowRun :=
  (db.runs.find? id).filter fun run => run.workspaceId = workspaceId ∧ run.status ∈ statuses

def inWorkspace (db : WorkflowDatabase) (workflowRunId workspaceId : String) : Bool :=
  (db.runs.find? workflowRunId).any fun run => run.workspaceId = workspaceId

def attempts (db : WorkflowDatabase) (workflowRunId stepKey : String) : List WorkflowStepRun :=
  db.stepRuns.rows.filter fun row => row.Of workflowRunId stepKey

/-- The keys of the run's completed steps. -/
def completedSteps (db : WorkflowDatabase) (workflowRunId : String) : List String :=
  (db.stepRuns.rows.filter fun row => row.workflowRunId = workflowRunId ∧ row.status = .completed).map
    WorkflowStepRun.stepKey

def missingDependencies (db : WorkflowDatabase) (workflowRunId : String) (step : WorkflowStep) : List String :=
  step.dependsOn.filter fun dependency => dependency ∉ db.completedSteps workflowRunId

/-- `aggregate({ _max: { attempt } })`, 0 where there is none. -/
def lastAttempt (db : WorkflowDatabase) (workflowRunId stepKey : String) : Nat :=
  (db.attempts workflowRunId stepKey).foldr (fun row last => max row.attempt last) 0

/-- `findFirst` of the step's approvals with a status, the one with the greatest date. -/
def latestApproval (db : WorkflowDatabase) (workflowRunId stepKey : String) (status : WorkflowStepApprovalStatus)
    (date : WorkflowStepApproval → Nat) : Option WorkflowStepApproval :=
  (db.approvals.rows.filter fun row =>
    row.workflowRunId = workflowRunId ∧ row.stepKey = stepKey ∧ row.status = status).foldl
      (fun latest row =>
        match latest with
        | none => some row
        | some best => if date best < date row then some row else some best) none

end WorkflowDatabase

end Database

end CommandConsole.Workflows
