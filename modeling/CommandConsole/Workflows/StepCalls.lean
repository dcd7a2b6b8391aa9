import CommandConsole.Library.Crowd
import CommandConsole.Workflows.Records

/-! # The calls that work on the steps of a run

Each call takes turns from one await to the next. The reads of a transaction see what is
committed when they are made, and its writes are applied together when it commits.
-/
namespace CommandConsole.Workflows
open Library
set_option autoImplicit false

section Errors

structure AppError where
  status : Nat
  code : String
  message : String
  details : List String
  deriving DecidableEq

def runNotAuthorizable : AppError :=
  ⟨404, "workflow_run_not_authorizable", "Workflow run was not found or is not eligible for step authorization.", []⟩

def snapshotInvalid : AppError :=
  ⟨409, "workflow_snapshot_invalid", "Stored workflow snapshot no longer meets the workflow contract.", []⟩

def stepNotFound : AppError :=
  ⟨404, "workflow_step_not_found", "Workflow step was not found in this immutable run snapshot.", []⟩

def dependenciesIncomplete (message : String) (missingDependencies : List String) : AppError :=
  ⟨409, "workflow_step_dependencies_incomplete", message, missingDependencies⟩

def approvalRequired (reason : Option String) : AppError :=
  ⟨409, "workflow_step_approval_required", "This step requires durable approval before it can be authorized.",
    reason.toList⟩

def credentialInvalid : AppError :=
  ⟨401, "application_credential_invalid", "Application credential is invalid or inactive.", []⟩

def applicationIneligible : AppError :=
  ⟨403, "workflow_step_application_ineligible",
    "The target application is not active or does not match this workflow step.", []⟩

def capabilityUndeclared : AppError :=
  ⟨403, "workflow_step_capability_undeclared",
    "The workflow step capability is not declared by the target application.", []⟩

def scopeDenied : AppError :=
  ⟨403, "workflow_step_scope_denied", "The requested step scope is outside the active capability grant.", []⟩

def outcomeInvalid : AppError :=
  ⟨409, "workflow_step_outcome_invalid", "Only a running workflow step attempt can record an outcome.", []⟩

def stepSnapshotInvalid : AppError :=
  ⟨409, "workflow_step_snapshot_invalid",
    "The persisted workflow step cannot be recovered from its immutable snapshot.", []⟩

def notRetryable : AppError := ⟨409, "workflow_step_not_retryable", "Workflow step is not waiting for retry.", []⟩

def runNotApprovable : AppError :=
  ⟨404, "workflow_run_not_approvable", "Workflow run was not found or is not eligible for step approval.", []⟩

def approvalNotRequired : AppError :=
  ⟨409, "workflow_step_approval_not_required", "This workflow step does not require approval.", []⟩

def approvalNotFound : AppError :=
  ⟨404, "workflow_step_approval_not_found", "Workflow step approval was not found.", []⟩

def approvalNotPending : AppError :=
  ⟨409, "workflow_step_approval_not_pending", "Only requested workflow step approvals can be approved.", []⟩

def selfApproval : AppError :=
  ⟨403, "workflow_step_approval_self_approval",
    "A different workspace authority must approve this workflow step.", []⟩

end Errors

section Directory

structure RequestedScope where
  operations : List String
  resources : List String
  deriving DecidableEq

structure ApplicationIdentity where
  workspaceId : String
  applicationId : String
  principalId : String
  deriving DecidableEq

/-- The scope column of a grant; an element that is no string is none. -/
structure GrantScope where
  operations : Option (List (Option String))
  resources : Option (List (Option String))
  deriving DecidableEq

/-- What the credential, application, capability and grant look-ups of one call answer. -/
structure DirectoryAnswers where
  identity : Option ApplicationIdentity
  application : Option String
  capability : Option String
  grant : Option GrantScope
  deriving DecidableEq

def covers (granted : Option (List (Option String))) (asked : List String) : Bool :=
  match granted with
  | none => false
  | some values => values.all Option.isSome && asked.all fun value => some value ∈ values

def RequestedScope.grantedBy (scope : RequestedScope) (granted : GrantScope) : Bool :=
  covers granted.operations scope.operations && covers granted.resources scope.resources

def DirectoryAnswers.refuses (answers : DirectoryAnswers) (workspaceId : String) (scope : RequestedScope) :
    Option AppError :=
  if ¬answers.identity.any fun identity => identity.workspaceId = workspaceId then some credentialInvalid
  else if answers.application.isNone then some applicationIneligible
  else if answers.capability.isNone then some capabilityUndeclared
  else if ¬answers.grant.any scope.grantedBy then some scopeDenied
  else none

end Directory

section Requests

inductive StepOutcome where
  | completed
  | retryableFailure
  | terminalFailure
  deriving DecidableEq

inductive StepRequest where
  | begin (workspaceId workflowRunId stepKey : String) (scope : RequestedScope) (idempotencyKey : String)
  | record (workspaceId workflowRunId stepKey stepRunId : String) (outcome : StepOutcome)
  | recover (workspaceId stepRunId : String)
  | requestApproval (workspaceId actorId workflowRunId stepKey : String)
  | approve (workspaceId approvalId actorId : String)
  deriving DecidableEq

inductive StepReply where
  | attempt (stepRunId : String) (attempt : Nat) (status : WorkflowStepRunStatus) (created : Bool)
  | outcome (stepRunId : String) (status : WorkflowStepRunStatus) (retryEligible : Bool)
  | retry (workflowRunId stepKey previousStepRunId : String) (nextAttempt : Nat)
  | approval (view : WorkflowStepApproval) (created : Bool)
  | approved (view : WorkflowStepApproval)
  | threw (error : AppError)
  | refused
  deriving DecidableEq

/-- What a call has read, between two of its awaits. -/
inductive StepStage where
  | received
  | authorizing (run : WorkflowRun) (step : WorkflowStep)
  | approving (run : WorkflowRun) (step : WorkflowStep)
  | admitting (run : WorkflowRun) (step : WorkflowStep)
  | replaying (run : WorkflowRun) (step : WorkflowStep)
  | counting (run : WorkflowRun) (step : WorkflowStep)
  | starting (run : WorkflowRun) (step : WorkflowStep) (prior : Nat)
  | recording (stepRun : WorkflowStepRun) (definition : WorkflowDefinition) (step : WorkflowStep)
  | closing (stepRun : WorkflowStepRun) (step : WorkflowStep) (workflowCompleted : Bool)
  | reopening (stepRun : WorkflowStepRun)
  | requesting (run : WorkflowRun) (step : WorkflowStep)
  | finding (run : WorkflowRun) (step : WorkflowStep)
  | asking (run : WorkflowRun) (step : WorkflowStep)
  | confirming (approval : WorkflowStepApproval)
  | ended (reply : StepReply)
  deriving DecidableEq

structure StepCall where
  request : StepRequest
  stage : StepStage
  deriving DecidableEq

/-- The id and the date that the database gives, and the directory's answers. -/
structure StepInput where
  newId : String
  now : Nat
  answers : DirectoryAnswers
  deriving DecidableEq

def StepStage.throw (error : AppError) : StepStage := .ended (.threw error)

end Requests

section Begin

/-- `authorizeWorkflowStep` up to its first read of step runs. -/
def authorizeRun (db : WorkflowDatabase) (workspaceId workflowRunId stepKey : String) : StepStage :=
  match db.findRun workflowRunId workspaceId [.ready, .running] with
  | none => .throw runNotAuthorizable
  | some run =>
    match run.definition with
    | none => .throw snapshotInvalid
    | some definition =>
      match definition.step? stepKey with
      | none => .throw stepNotFound
      | some step => .authorizing run step

def authorizeDependencies (db : WorkflowDatabase) (run : WorkflowRun) (step : WorkflowStep) : StepStage :=
  if db.missingDependencies run.id step = [] then .approving run step
  else .throw (dependenciesIncomplete
    "All declared workflow dependencies must complete before this step can be authorized."
    (db.missingDependencies run.id step))

def authorizeApproval (db : WorkflowDatabase) (run : WorkflowRun) (step : WorkflowStep) : StepStage :=
  if step.approvalPolicy.mode = .required ∧
      db.latestApproval run.id step.key .approved (fun row => row.approvedAt.getD 0) = none then
    .throw (approvalRequired step.approvalPolicy.reason)
  else .admitting run step

def authorizePrincipal (answers : DirectoryAnswers) (workspaceId : String) (scope : RequestedScope)
    (run : WorkflowRun) (step : WorkflowStep) : StepStage :=
  match answers.refuses workspaceId scope with
  | some error => .throw error
  | none => .replaying run step

/-- `findUnique({ where: { workflowRunId_idempotencyKey } })` -/
def replayAttempt (db : WorkflowDatabase) (run : WorkflowRun) (step : WorkflowStep) (idempotencyKey : String) :
    StepStage :=
  match db.stepRuns.rows.find? fun row => row.workflowRunId = run.id ∧ row.idempotencyKey = idempotencyKey with
  | some existing => .ended (.attempt existing.id existing.attempt existing.status false)
  | none => .counting run step

def newAttempt (newId workflowRunId stepKey : String) (prior : Nat) (idempotencyKey : String) : WorkflowStepRun :=
  ⟨newId, workflowRunId, stepKey, prior + 1, .running, idempotencyKey⟩

/-- The commit of `beginWorkflowStepAttempt`. -/
def commitAttempt (db : WorkflowDatabase) (row : WorkflowStepRun) : StepStage × WorkflowDatabase :=
  match db.stepRuns.insert row with
  | none => (.ended .refused, db)
  | some stepRuns =>
    (.ended (.attempt row.id row.attempt row.status true),
      { db with stepRuns }.setRunStatus row.workflowRunId .running)

def beginWorkflowStepAttempt (input : StepInput) (workspaceId workflowRunId stepKey : String)
    (scope : RequestedScope) (idempotencyKey : String) (stage : StepStage) (db : WorkflowDatabase) :
    StepStage × WorkflowDatabase :=
  match stage with
  | .received => (authorizeRun db workspaceId workflowRunId stepKey, db)
  | .authorizing run step => (authorizeDependencies db run step, db)
  | .approving run step => (authorizeApproval db run step, db)
  | .admitting run step => (authorizePrincipal input.answers workspaceId scope run step, db)
  | .replaying run step => (replayAttempt db run step idempotencyKey, db)
  | .counting run step => (.starting run step (db.lastAttempt run.id step.key), db)
  | .starting run step prior => commitAttempt db (newAttempt input.newId run.id step.key prior idempotencyKey)
  | _ => (stage, db)

end Begin

section Record

/-- `retry`, and the status that the attempt gets. -/
def retries (outcome : StepOutcome) (attempt : Nat) (step : WorkflowStep) : Bool :=
  outcome = .retryableFailure && attempt < step.failurePolicy.maxAttempts

def outcomeStatus (outcome : StepOutcome) (attempt : Nat) (step : WorkflowStep) : WorkflowStepRunStatus :=
  if outcome = .completed then .completed
  else if retries outcome attempt step then .retryWait
  else .failed

def runStatusAfter (status : WorkflowStepRunStatus) (workflowCompleted : Bool) : WorkflowRunStatus :=
  if status = .retryWait then .retryWait
  else if status = .failed then .failed
  else if workflowCompleted then .completed
  else .running

def findOutcomeTarget (db : WorkflowDatabase) (workspaceId workflowRunId stepKey stepRunId : String) : StepStage :=
  match db.stepRuns.rows.find? fun row => row.id = stepRunId ∧ row.Of workflowRunId stepKey with
  | none => .throw outcomeInvalid
  | some stepRun =>
    if ¬db.inWorkspace workflowRunId workspaceId ∨ stepRun.status ≠ .running then .throw outcomeInvalid
    else
      match (db.runs.find? workflowRunId).bind WorkflowRun.definition with
      | none => .throw stepSnapshotInvalid
      | some definition =>
        match definition.step? stepRun.stepKey with
        | none => .throw stepSnapshotInvalid
        | some step => .recording stepRun definition step

/-- What the transaction sees after its own update of the attempt. -/
def allCompleted (db : WorkflowDatabase) (stepRun : WorkflowStepRun) (definition : WorkflowDefinition)
    (status : WorkflowStepRunStatus) : Bool :=
  definition.steps.all fun step =>
    step.key ∈ { db with stepRuns := db.stepRuns.setStatus stepRun.id status }.completedSteps stepRun.workflowRunId

/-- The commit of `recordWorkflowStepOutcome`. -/
def commitOutcome (db : WorkflowDatabase) (stepRun : WorkflowStepRun) (status : WorkflowStepRunStatus)
    (workflowCompleted : Bool) : WorkflowDatabase :=
  { db with stepRuns := db.stepRuns.setStatus stepRun.id status }.setRunStatus stepRun.workflowRunId
    (runStatusAfter status workflowCompleted)

def recordWorkflowStepOutcome (workspaceId workflowRunId stepKey stepRunId : String) (outcome : StepOutcome)
    (stage : StepStage) (db : WorkflowDatabase) : StepStage × WorkflowDatabase :=
  match stage with
  | .received => (findOutcomeTarget db workspaceId workflowRunId stepKey stepRunId, db)
  | .recording stepRun definition step =>
    let status := outcomeStatus outcome stepRun.attempt step
    (.closing stepRun step (status = .completed ∧ allCompleted db stepRun definition status), db)
  | .closing stepRun step workflowCompleted =>
    let status := outcomeStatus outcome stepRun.attempt step
    (.ended (.outcome stepRun.id status (status = .retryWait)), commitOutcome db stepRun status workflowCompleted)
  | _ => (stage, db)

def recoverWorkflowStepForRetry (workspaceId stepRunId : String) (stage : StepStage) (db : WorkflowDatabase) :
    StepStage × WorkflowDatabase :=
  match stage with
  | .received =>
    match db.stepRuns.rows.find? fun row => row.id = stepRunId ∧ row.status = .retryWait ∧
        db.inWorkspace row.workflowRunId workspaceId with
    | none => (.throw notRetryable, db)
    | some stepRun => (.reopening stepRun, db)
  | .reopening stepRun =>
    (.ended (.retry stepRun.workflowRunId stepRun.stepKey stepRun.id (stepRun.attempt + 1)),
      db.setRunStatus stepRun.workflowRunId .ready)
  | _ => (stage, db)

end Record

section Approvals

/-- `approvalRequiredStep` up to its read of the completed dependencies. -/
def approvableRun (db : WorkflowDatabase) (workspaceId workflowRunId stepKey : String) : StepStage :=
  match db.findRun workflowRunId workspaceId [.ready, .running, .waitingApproval] with
  | none => .throw runNotApprovable
  | some run =>
    match run.definition.bind fun definition => definition.step? stepKey with
    | none => .throw stepNotFound
    | some step => if step.approvalPolicy.mode ≠ .required then .throw approvalNotRequired else .requesting run step

def approvableDependencies (db : WorkflowDatabase) (run : WorkflowRun) (step : WorkflowStep) : StepStage :=
  if db.missingDependencies run.id step = [] then .finding run step
  else .throw (dependenciesIncomplete
    "Workflow step dependencies must complete before approval can be requested."
    (db.missingDependencies run.id step))

def pendingApproval (db : WorkflowDatabase) (run : WorkflowRun) (step : WorkflowStep) : StepStage :=
  match db.latestApproval run.id step.key .requested WorkflowStepApproval.requestedAt with
  | some existing => .ended (.approval existing false)
  | none => .asking run step

def newApproval (input : StepInput) (actorId : String) (run : WorkflowRun) (step : WorkflowStep) :
    WorkflowStepApproval :=
  ⟨input.newId, run.id, step.key, .requested,
    step.approvalPolicy.reason.getD "Workflow step requires approval.", actorId, input.now, none, none⟩

/-- The commit of `requestWorkflowStepApproval`. -/
def commitApproval (db : WorkflowDatabase) (approval : WorkflowStepApproval) : StepStage × WorkflowDatabase :=
  match db.approvals.insert approval with
  | none => (.ended .refused, db)
  | some approvals =>
    (.ended (.approval approval true), { db with approvals }.setRunStatus approval.workflowRunId .waitingApproval)

def requestWorkflowStepApproval (input : StepInput) (workspaceId actorId workflowRunId stepKey : String)
    (stage : StepStage) (db : WorkflowDatabase) : StepStage × WorkflowDatabase :=
  match stage with
  | .received => (approvableRun db workspaceId workflowRunId stepKey, db)
  | .requesting run step => (approvableDependencies db run step, db)
  | .finding run step => (pendingApproval db run step, db)
  | .asking run step => commitApproval db (newApproval input actorId run step)
  | _ => (stage, db)

def findPending (db : WorkflowDatabase) (workspaceId approvalId actorId : String) : StepStage :=
  match (db.approvals.find? approvalId).filter fun row => db.inWorkspace row.workflowRunId workspaceId with
  | none => .throw approvalNotFound
  | some approval =>
    if approval.status ≠ .requested then .throw approvalNotPending
    else if approval.requestedById = actorId then .throw selfApproval
    else .confirming approval

def WorkflowStepApproval.approvedBy (approval : WorkflowStepApproval) (actorId : String) (now : Nat) :
    WorkflowStepApproval :=
  { approval with status := .approved, approvedById := some actorId, approvedAt := some now }

/-- The commit of `approveWorkflowStepApproval`. -/
def commitApproved (db : WorkflowDatabase) (approval : WorkflowStepApproval) (actorId : String) (now : Nat) :
    WorkflowDatabase :=
  { db with
      approvals := db.approvals.update (fun row => row.id = approval.id) fun row => row.approvedBy actorId now
    }.setRunStatus approval.workflowRunId .ready

def approveWorkflowStepApproval (input : StepInput) (workspaceId approvalId actorId : String) (stage : StepStage)
    (db : WorkflowDatabase) : StepStage × WorkflowDatabase :=
  match stage with
  | .received => (findPending db workspaceId approvalId actorId, db)
  | .confirming approval =>
    (.ended (.approved (approval.approvedBy actorId input.now)), commitApproved db approval actorId input.now)
  | _ => (stage, db)

end Approvals

section Turns

def StepCall.section (input : StepInput) (call : StepCall) (db : WorkflowDatabase) : StepStage × WorkflowDatabase :=
  match call.request with
  | .begin workspaceId workflowRunId stepKey scope idempotencyKey =>
    beginWorkflowStepAttempt input workspaceId workflowRunId stepKey scope idempotencyKey call.stage db
  | .record workspaceId workflowRunId stepKey stepRunId outcome =>
    recordWorkflowStepOutcome workspaceId workflowRunId stepKey stepRunId outcome call.stage db
  | .recover workspaceId stepRunId => recoverWorkflowStepForRetry workspaceId stepRunId call.stage db
  | .requestApproval workspaceId actorId workflowRunId stepKey =>
    requestWorkflowStepApproval input workspaceId actorId workflowRunId stepKey call.stage db
  | .approve workspaceId approvalId actorId =>
    approveWorkflowStepApproval input workspaceId approvalId actorId call.stage db

/-- A run as `admitWorkflowRun` creates it. -/
structure AdmittedRun where
  id : String
  workspaceId : String
  definition : Option WorkflowDefinition
  deriving DecidableEq

def admitWorkflowRun (admitted : AdmittedRun) (db : WorkflowDatabase) : WorkflowDatabase :=
  match db.runs.insert ⟨admitted.id, admitted.workspaceId, .ready, admitted.definition⟩ with
  | none => db
  | some runs => { db with runs }

def stepRules : CrowdRules StepRequest StepCall StepInput AdmittedRun WorkflowDatabase where
  start request := ⟨request, .received⟩
  advance input call db := ({ call with stage := (call.section input db).1 }, (call.section input db).2)
  outside := admitWorkflowRun

abbrev StepTurn := CrowdTurn StepRequest StepInput AdmittedRun

abbrev Workflows := Crowd StepCall WorkflowDatabase

end Turns

end CommandConsole.Workflows
