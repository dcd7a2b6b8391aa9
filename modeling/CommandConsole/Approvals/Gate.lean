import Mathlib.Data.List.Sort
import CommandConsole.Execution.Text
import CommandConsole.Library.Crowd

/-! # The two-person gate of sensitive terminal actions

Requests are kept in one document that is read and written as a whole. A rejection is one
section of a call; an approval first checks that the request is pending, waits for the
execution of the action, and then rewrites the request, whatever it has become.
-/
namespace CommandConsole.Approvals
open Library
open Execution (trimmed truthy wordIs)
set_option autoImplicit false

section Errors

structure AppError where
  status : Nat
  code : String
  message : String
  deriving DecidableEq

end Errors

section Roles

inductive Role where
  | viewer
  | operator
  | approver
  | admin
  deriving DecidableEq

/-- `normalizeRole(text)`. -/
def Role.ofText (text : String) : Role :=
  if text = "viewer" then .viewer
  else if text = "approver" then .approver
  else if text = "admin" then .admin
  else .operator

def roleRank : Role → Nat
  | .viewer => 0
  | .operator => 1
  | .approver => 2
  | .admin => 3

def hasAtLeastRole (role minimumRole : Role) : Bool := roleRank minimumRole ≤ roleRank role

/-- The fields of a policy that the gate reads; an absent text is none. -/
structure EnvironmentPolicy where
  environment : Option String
  minimumRoleForApprovals : Option String
  deriving DecidableEq

structure Governance where
  currentEnvironment : Option String
  environmentPolicies : List (String × EnvironmentPolicy)
  workspacePolicyOverrides : List (String × EnvironmentPolicy)
  deriving DecidableEq

def Governance.override (governance : Governance) (workspaceId : String) : Option EnvironmentPolicy :=
  governance.workspacePolicyOverrides.lookup workspaceId

/-- `text || other`. -/
def orText (text : Option String) (other : String) : String := (truthy text).getD other

/-- `getEnvironmentPolicy(governance, workspaceId).minimumRoleForApprovals || "approver"`. -/
def minimumRoleForApprovals (governance : Governance) (workspaceId : String) : Role :=
  let override := governance.override workspaceId
  let environment := orText (override.bind EnvironmentPolicy.environment)
    (orText governance.currentEnvironment "development")
  let ofEnvironment := (governance.environmentPolicies.lookup environment).bind
    EnvironmentPolicy.minimumRoleForApprovals
  .ofText (orText ((override.bind EnvironmentPolicy.minimumRoleForApprovals) <|> ofEnvironment) "approver")

def canApproveInEnvironment (role : Role) (governance : Governance) (workspaceId : String) : Bool :=
  hasAtLeastRole role (minimumRoleForApprovals governance workspaceId)

end Roles

section Environments

inductive OperationalEnvironment where
  | development
  | staging
  | production
  deriving DecidableEq

def OperationalEnvironment.text : OperationalEnvironment → String
  | .development => "development"
  | .staging => "staging"
  | .production => "production"

def environmentOfText (text : String) : Option OperationalEnvironment :=
  if wordIs text "development" then some .development
  else if wordIs text "staging" then some .staging
  else if wordIs text "production" then some .production
  else none

def normalizeOperationalEnvironment (text : Option String) (fallback : OperationalEnvironment) :
    OperationalEnvironment :=
  (text.bind environmentOfText).getD fallback

def requireOperationalEnvironment (text fieldName : String) : Except AppError OperationalEnvironment :=
  match environmentOfText text with
  | none => .error ⟨400, "environment_invalid", fieldName ++ " must be development, staging, or production."⟩
  | some environment => .ok environment

def resolveWorkspaceEnvironment (governance : Governance) (workspaceId : String) : OperationalEnvironment :=
  normalizeOperationalEnvironment ((governance.override workspaceId).bind EnvironmentPolicy.environment)
    (normalizeOperationalEnvironment governance.currentEnvironment .development)

/-- The texts of the fields that declare a target, none where they are absent, null or empty. -/
structure ActionPayload where
  environment : Option String
  targetEnvironment : Option String
  overrideEnvironment : Option String
  rest : String
  deriving DecidableEq

def declaredField (field : Option String) (fieldName : String) : Except AppError (List OperationalEnvironment) :=
  match truthy field with
  | none => .ok []
  | some text => do return [← requireOperationalEnvironment text fieldName]

def getDeclaredTargetEnvironment (payload : ActionPayload) : Except AppError (Option OperationalEnvironment) := do
  let environment ← declaredField payload.environment "environment"
  let target ← declaredField payload.targetEnvironment "targetEnvironment"
  let override ← declaredField payload.overrideEnvironment "overrideEnvironment"
  match (environment ++ target ++ override).dedup with
  | [] => return none
  | [only] => return some only
  | _ => throw ⟨400, "environment_target_conflict", "The request declares conflicting target environments."⟩

def boundaryViolation (action workspaceId : String) (target workspace : OperationalEnvironment) : AppError :=
  ⟨409, "environment_boundary_violation", "Action " ++ action ++ " targets " ++ target.text ++ ", but workspace " ++
    workspaceId ++ " is isolated to " ++ workspace.text ++ "."⟩

def environmentChanged (approved : String) (workspace : OperationalEnvironment) : AppError :=
  ⟨409, "approval_environment_changed", "The approval was requested for " ++ approved ++
    ", but the workspace is now isolated to " ++ workspace.text ++ ". Request a new approval."⟩

def assertTerminalEnvironmentBoundary (action : String) (payload : ActionPayload) (workspaceId : String)
    (governance : Governance) (approvedEnvironment : String) : Except AppError Unit := do
  let workspaceEnvironment := resolveWorkspaceEnvironment governance workspaceId
  let targetEnvironment ← getDeclaredTargetEnvironment payload
  match targetEnvironment with
  | none => pure ()
  | some target =>
    if target ≠ workspaceEnvironment then
      throw (boundaryViolation action workspaceId target workspaceEnvironment)
  if approvedEnvironment ≠ "" ∧
      normalizeOperationalEnvironment (some approvedEnvironment) .development ≠ workspaceEnvironment then
    throw (environmentChanged approvedEnvironment workspaceEnvironment)

end Environments

section Document

inductive ApprovalStatus where
  | pending
  | approved
  | rejected
  deriving DecidableEq

structure ApprovalRequest where
  id : String
  kind : String
  workspaceId : Option String
  environment : String
  action : String
  payload : ActionPayload
  label : String
  approverTarget : String
  requiredRole : String
  risk : String
  requestKey : String
  requestedById : String
  requestedByName : String
  requestedByEmail : Option String
  requestedByRole : Role
  status : ApprovalStatus
  createdAt : Nat
  resolvedAt : Option Nat := none
  approvedById : Option String := none
  approvedByName : Option String := none
  executedAt : Option Nat := none
  rejectedById : Option String := none
  rejectedByName : Option String := none
  rejectionNote : Option String := none
  lastExecutionAttemptAt : Option Nat := none
  lastExecutionError : Option String := none
  deriving DecidableEq

/-- The requests, newest first; a document that was saved has no more than a hundred. -/
structure ApprovalDocument where
  approvals : List ApprovalRequest
  bounded : approvals.length ≤ 100

/-- `saveCollaborationState`, which keeps the last hundred of the list. -/
def saveApprovals (approvals : List ApprovalRequest) : ApprovalDocument where
  approvals := approvals.drop (approvals.length - 100)
  bounded := by
    rw [List.length_drop]
    omega

def getApprovalRequest (document : ApprovalDocument) (approvalId : String) : Option ApprovalRequest :=
  document.approvals.find? fun item => item.id = approvalId

def changeFirst (approvalId : String) (change : ApprovalRequest → ApprovalRequest) :
    List ApprovalRequest → List ApprovalRequest
  | [] => []
  | item :: items => if item.id = approvalId then change item :: items else item :: changeFirst approvalId change items

/-- The request with the updates, none where it is not stored. -/
def updateApprovalRequest (document : ApprovalDocument) (approvalId : String)
    (change : ApprovalRequest → ApprovalRequest) : Option ApprovalRequest × ApprovalDocument :=
  match getApprovalRequest document approvalId with
  | none => (none, document)
  | some item => (some (change item), saveApprovals (changeFirst approvalId change document.approvals))

def resolveApprovalRequest (document : ApprovalDocument) (approvalId : String) (now : Nat)
    (change : ApprovalRequest → ApprovalRequest) : Option ApprovalRequest × ApprovalDocument :=
  updateApprovalRequest document approvalId fun item => { change item with resolvedAt := some now }

def createApprovalRequest (document : ApprovalDocument) (next : ApprovalRequest) : ApprovalDocument :=
  saveApprovals (next :: document.approvals)

end Document

section Gate

/-- A session user, whose ids are never empty. -/
structure ApprovalActor where
  id : String
  workspaceId : String
  name : String
  email : String
  role : Role
  named : id ≠ ""
  placed : workspaceId ≠ ""
  deriving DecidableEq

def ApprovalActor.display (actor : ApprovalActor) : String := if actor.name = "" then actor.email else actor.name

def sensitiveActionLabel (action : String) : Option String :=
  [("job:cancel", "Cancel background job"),
   ("watcher:stop", "Stop the watcher"),
   ("watcher:rule-delete", "Delete watcher rule"),
   ("alert:resolve", "Resolve active alert"),
   ("agent:update-config", "Change agent runtime configuration"),
   ("policy:update-thresholds", "Change alert thresholds"),
   ("policy:update-automation", "Change automation policy"),
   ("automation-template:delete", "Delete automation template"),
   ("collaboration:update-governance", "Change collaboration governance"),
   ("collaboration:delete-policy-playbook", "Delete policy playbook"),
   ("collaboration:rollback-approval-policy", "Roll back approval policy"),
   ("collaboration:archive-session", "Archive shared session"),
   ("collaboration:archive-shared-macro", "Archive shared macro"),
   ("collaboration:close-handoff", "Close operator handoff"),
   ("ownership:release-item", "Release work ownership"),
   ("ownership:assign-item", "Reassign work ownership")].lookup action

/-- What the request key is the digest of. -/
structure RequestIdentity where
  workspaceId : String
  environment : OperationalEnvironment
  actorId : String
  action : String
  payload : ActionPayload
  deriving DecidableEq

def ApprovalRequest.sensitive (request : ApprovalRequest) : Bool := request.kind = "terminal-sensitive-action"

/-- Newest first. -/
def listSensitiveApprovalRequests (document : ApprovalDocument) (workspaceId : String)
    (environment : OperationalEnvironment) : List ApprovalRequest :=
  (document.approvals.filter fun request =>
    request.sensitive && request.workspaceId = some workspaceId &&
      normalizeOperationalEnvironment (some request.environment) .development = environment).insertionSort
    fun left right => right.createdAt ≤ left.createdAt

def getSensitiveApprovalRequest (document : ApprovalDocument) (approvalId workspaceId : String) :
    Option ApprovalRequest :=
  (getApprovalRequest document approvalId).filter fun request =>
    request.sensitive && request.workspaceId = some workspaceId

def newRequest (newId : String) (now : Nat) (action : String) (payload : ActionPayload) (actor : ApprovalActor)
    (environment : OperationalEnvironment) (label requestKey : String) : ApprovalRequest where
  id := newId
  kind := "terminal-sensitive-action"
  workspaceId := truthy (some actor.workspaceId)
  environment := environment.text
  action
  payload
  label
  approverTarget := "role:approver,role:admin"
  requiredRole := "approver"
  risk := "sensitive"
  requestKey
  requestedById := orText (some actor.id) "demo"
  requestedByName := orText (some actor.display) "Demo User"
  requestedByEmail := truthy (some actor.email)
  requestedByRole := actor.role
  status := .pending
  createdAt := now

inductive ExecutionResult where
  | succeeded (output : String)
  | failed (error : Option String)
  | threw
  deriving DecidableEq

inductive GateRequest where
  | ask (action : String) (payload : ActionPayload) (actor : ApprovalActor) (environment : String)
  | reject (approvalId note : String) (actor : ApprovalActor) (governance : Governance)
  | approve (approvalId : String) (actor : ApprovalActor) (governance : Governance)
  deriving DecidableEq

inductive GateReply where
  | asked (request : ApprovalRequest) (created : Bool)
  | rejected (resolved : Option ApprovalRequest)
  | approved (resolved : Option ApprovalRequest) (output : String)
  | threw (error : AppError)
  | executionThrew
  deriving DecidableEq

inductive GateStage where
  | received
  | executing (request : ApprovalRequest)
  | ended (reply : GateReply)
  deriving DecidableEq

structure GateCall where
  request : GateRequest
  stage : GateStage
  deriving DecidableEq

/-- What has happened to the requests so far; a failed execution with the request before and after it. -/
inductive GateEvent where
  | executed (approvalId actorId : String)
  | failed (before after : Option ApprovalRequest)
  | rejected (approvalId : String)
  deriving DecidableEq

structure GateStore where
  document : ApprovalDocument
  history : List GateEvent

/-- The id and the clock of a section, and how the execution that it waited for ended. -/
structure GateInput where
  newId : String
  now : Nat
  result : ExecutionResult
  deriving DecidableEq

def notSensitive (action : String) : AppError :=
  ⟨400, "approval_gate_action_not_sensitive", "Action " ++ action ++ " is not configured as sensitive."⟩

def viewerForbidden : AppError :=
  ⟨403, "approval_gate_forbidden", "Viewer accounts cannot request sensitive actions."⟩

def approvalNotFound : AppError :=
  ⟨404, "sensitive_approval_not_found", "Sensitive action approval request not found."⟩

def ApprovalStatus.text : ApprovalStatus → String
  | .pending => "pending"
  | .approved => "approved"
  | .rejected => "rejected"

def approvalResolved (status : ApprovalStatus) : AppError :=
  ⟨409, "sensitive_approval_resolved", "Approval request is already " ++ status.text ++ "."⟩

def selfDecision : AppError :=
  ⟨403, "sensitive_approval_self_decision", "The requester cannot approve or reject their own sensitive action."⟩

def decisionForbidden : AppError :=
  ⟨403, "sensitive_approval_forbidden", "An approver or admin must decide this sensitive action."⟩

def executionError (error : Option String) : String := orText error "Approved action execution failed."

def executionFailed (error : Option String) : AppError :=
  ⟨409, "sensitive_approval_execution_failed", executionError error⟩

def requestSensitiveActionApproval (keyOf : RequestIdentity → String) (input : GateInput) (action : String)
    (payload : ActionPayload) (actor : ApprovalActor) (environmentText : String) (document : ApprovalDocument) :
    GateReply × ApprovalDocument :=
  match sensitiveActionLabel action with
  | none => (.threw (notSensitive action), document)
  | some label =>
    if actor.role = .viewer then (.threw viewerForbidden, document)
    else
      match requireOperationalEnvironment environmentText "environment" with
      | .error error => (.threw error, document)
      | .ok environment =>
        let requestKey := keyOf ⟨actor.workspaceId, environment, actor.id, action, payload⟩
        match (listSensitiveApprovalRequests document actor.workspaceId environment).find? fun request =>
            request.status = .pending ∧ request.requestKey = requestKey with
        | some existing => (.asked existing false, document)
        | none =>
          let request := newRequest input.newId input.now action payload actor environment label requestKey
          (.asked request true, createApprovalRequest document request)

def requirePendingDecision (document : ApprovalDocument) (approvalId : String) (actor : ApprovalActor)
    (governance : Governance) : Except AppError ApprovalRequest :=
  match getSensitiveApprovalRequest document approvalId actor.workspaceId with
  | none => .error approvalNotFound
  | some request =>
    if request.status ≠ .pending then .error (approvalResolved request.status)
    else if request.requestedById = actor.id then .error selfDecision
    else if ¬canApproveInEnvironment actor.role governance actor.workspaceId then .error decisionForbidden
    else do
      assertTerminalEnvironmentBoundary request.action request.payload actor.workspaceId governance request.environment
      return request

def ApprovalRequest.rejectedBy (request : ApprovalRequest) (actor : ApprovalActor) (note : String) :
    ApprovalRequest :=
  { request with
    status := .rejected
    rejectedById := some actor.id
    rejectedByName := some actor.display
    rejectionNote := some (trimmed note) }

def ApprovalRequest.approvedBy (request : ApprovalRequest) (actor : ApprovalActor) (now : Nat) : ApprovalRequest :=
  { request with
    status := .approved
    approvedById := some actor.id
    approvedByName := some actor.display
    executedAt := some now }

def ApprovalRequest.attempted (request : ApprovalRequest) (now : Nat) (error : Option String) : ApprovalRequest :=
  { request with
    lastExecutionAttemptAt := some now
    lastExecutionError := some (executionError error) }

def rejectSensitiveActionApproval (input : GateInput) (approvalId note : String) (actor : ApprovalActor)
    (governance : Governance) (store : GateStore) : GateReply × GateStore :=
  match requirePendingDecision store.document approvalId actor governance with
  | .error error => (.threw error, store)
  | .ok request =>
    let resolved := resolveApprovalRequest store.document request.id input.now fun item => item.rejectedBy actor note
    (.rejected resolved.1, ⟨resolved.2, store.history ++ [.rejected request.id]⟩)

/-- `approveSensitiveActionApproval` before and after its await. -/
def approveSensitiveActionApproval (input : GateInput) (approvalId : String) (actor : ApprovalActor)
    (governance : Governance) (stage : GateStage) (store : GateStore) : GateStage × GateStore :=
  match stage with
  | .received =>
    match requirePendingDecision store.document approvalId actor governance with
    | .error error => (.ended (.threw error), store)
    | .ok request => (.executing request, store)
  | .executing request =>
    let before := getApprovalRequest store.document request.id
    match input.result with
    | .threw => (.ended .executionThrew, { store with history := store.history ++ [.failed before before] })
    | .failed error =>
      let updated := updateApprovalRequest store.document request.id fun item => item.attempted input.now error
      (.ended (.threw (executionFailed error)), ⟨updated.2, store.history ++ [.failed before updated.1]⟩)
    | .succeeded output =>
      let resolved := resolveApprovalRequest store.document request.id input.now fun item =>
        item.approvedBy actor input.now
      (.ended (.approved resolved.1 output), ⟨resolved.2, store.history ++ [.executed request.id actor.id]⟩)
  | .ended _ => (stage, store)

def GateCall.section (keyOf : RequestIdentity → String) (input : GateInput) (call : GateCall) (store : GateStore) :
    GateStage × GateStore :=
  match call.request, call.stage with
  | .ask action payload actor environment, .received =>
    let asked := requestSensitiveActionApproval keyOf input action payload actor environment store.document
    (.ended asked.1, { store with document := asked.2 })
  | .reject approvalId note actor governance, .received =>
    let rejected := rejectSensitiveActionApproval input approvalId note actor governance store
    (.ended rejected.1, rejected.2)
  | .approve approvalId actor governance, stage =>
    approveSensitiveActionApproval input approvalId actor governance stage store
  | _, stage => (stage, store)

def gateRules (keyOf : RequestIdentity → String) : CrowdRules GateRequest GateCall GateInput Empty GateStore where
  start request := ⟨request, .received⟩
  advance input call store :=
    ({ call with stage := (call.section keyOf input store).1 }, (call.section keyOf input store).2)
  outside op := nomatch op

abbrev GateTurn := CrowdTurn GateRequest GateInput Empty

abbrev Gate := Crowd GateCall GateStore

end Gate

end CommandConsole.Approvals
