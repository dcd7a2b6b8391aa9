import CommandConsole.Execution.ReplayClassification
import CommandConsole.Library.EventLog

/-! # Recovery requests in the audit log

A recovery request has no row of its own: it is what its events of the audit log replay
to, through the transition table of the recovery lifecycle. Only the newest lines of the
log are read, and one event that has no transition makes the request unreadable.
-/
namespace CommandConsole.Recovery
open Library
open Execution (trimmed StaleToken ReplayReading ReplayCandidate ReplayPolicy)
set_option autoImplicit false

section Lifecycle

inductive RecoveryStatus where
  | requested
  | previewed
  | awaitingApproval
  | approved
  | committed
  | blocked
  | failed
  | cancelled
  deriving DecidableEq

inductive LifecycleEvent where
  | createRequest
  | markPreviewed
  | markAwaitingApproval
  | markBlocked
  | approve
  | commitSuccess
  | commitBlock
  | fail
  | cancel
  deriving DecidableEq

/-- `TRANSITIONS`; the start has no status. -/
def transitionState : Option RecoveryStatus → LifecycleEvent → Option RecoveryStatus
  | none, .createRequest => some .requested
  | some .requested, .markPreviewed => some .previewed
  | some .requested, .markAwaitingApproval => some .awaitingApproval
  | some .requested, .markBlocked => some .blocked
  | some .requested, .fail => some .failed
  | some .requested, .cancel => some .cancelled
  | some .previewed, .commitSuccess => some .committed
  | some .previewed, .commitBlock => some .blocked
  | some .previewed, .fail => some .failed
  | some .previewed, .cancel => some .cancelled
  | some .awaitingApproval, .approve => some .approved
  | some .awaitingApproval, .commitBlock => some .blocked
  | some .awaitingApproval, .fail => some .failed
  | some .awaitingApproval, .cancel => some .cancelled
  | some .approved, .commitSuccess => some .committed
  | some .approved, .commitBlock => some .blocked
  | some .approved, .fail => some .failed
  | some .approved, .cancel => some .cancelled
  | _, _ => none

/-- `TERMINAL_STATES`. -/
def RecoveryStatus.terminal (status : RecoveryStatus) : Bool :=
  status ∈ [.committed, .blocked, .failed, .cancelled]

theorem transitionState_terminal {status : RecoveryStatus} (h : status.terminal = true) (event : LifecycleEvent) :
    transitionState (some status) event = none := by
  cases status <;> cases event <;> first | rfl | cases h

end Lifecycle

section Records

/-- A plan as it is recorded, with the reading that its preview classifies and the token of its hash. -/
structure PlanRecord where
  executionId : String
  planId : String
  recoveryMode : String
  reading : ReplayReading
  staleToken : StaleToken
  nextStepId : Option String
  deriving DecidableEq

structure RecoveryPreview where
  executionId : String
  planId : String
  recoveryMode : String
  staleToken : StaleToken
  replayCandidates : List ReplayCandidate
  blocked : Bool
  nextStepId : Option String
  deriving DecidableEq

def previewRecoveryPlan (plan : PlanRecord) : RecoveryPreview where
  executionId := plan.executionId
  planId := plan.planId
  recoveryMode := plan.recoveryMode
  staleToken := plan.staleToken
  replayCandidates := plan.reading.replayCandidates
  blocked := plan.reading.blocked
  nextStepId := plan.nextStepId

inductive CommitResult where
  | ok
  | failed (code message : String)
  deriving DecidableEq

inductive RecoveryAuditType where
  | requested
  | previewed
  | policyDecision
  | approved
  | commitAttempt
  | committed
  | blocked
  | failed
  | cancelled
  deriving DecidableEq

structure AuditPayload where
  recoveryRequestId : String
  executionId : String
  recoveryMode : String := ""
  requestedBy : String := ""
  approvedBy : String := ""
  plan : Option PlanRecord := none
  planHash : Option StaleToken := none
  preview : Option RecoveryPreview := none
  policy : Option ReplayPolicy := none
  dryRun : Option Bool := none
  result : Option CommitResult := none
  status : Option RecoveryStatus := none
  deriving DecidableEq

structure RecoveryEvent where
  type : RecoveryAuditType
  payload : AuditPayload
  deriving DecidableEq

def RecoveryEvent.requestId (event : RecoveryEvent) : String := event.payload.recoveryRequestId

/-- A line of the audit log; none stands for one of another kind. -/
abbrev AuditLine := Option RecoveryEvent

structure RecoveryRequest where
  recoveryRequestId : String := ""
  executionId : String := ""
  recoveryMode : String := ""
  requestedBy : String := ""
  approvedBy : String := ""
  plan : Option PlanRecord := none
  planHash : Option StaleToken := none
  preview : Option RecoveryPreview := none
  policy : Option ReplayPolicy := none
  status : Option RecoveryStatus := none
  deriving DecidableEq

end Records

section Reading

/-- The last `limit` lines, newest first. -/
def listAuditEvents (limit : Nat) (log : List AuditLine) : List AuditLine :=
  (log.drop (log.length - max 1 limit)).reverse

def listRecoveryAuditEvents (log : List AuditLine) : List RecoveryEvent :=
  (listAuditEvents 5000 log).filterMap id

def getTransitionEventForAudit (event : RecoveryEvent) : Option LifecycleEvent :=
  match event.type with
  | .requested => some .createRequest
  | .policyDecision =>
    match event.payload.status with
    | some .awaitingApproval => some .markAwaitingApproval
    | some .previewed => some .markPreviewed
    | some .blocked => some .markBlocked
    | _ => none
  | .approved => some .approve
  | .committed => some .commitSuccess
  | .blocked => some .commitBlock
  | .failed => some .fail
  | .cancelled => some .cancel
  | .previewed | .commitAttempt => none

/-- `text || other`. -/
def orText (text other : String) : String := if text = "" then other else text

/-- The fields of a payload over those of the request so far. -/
def RecoveryRequest.merge (request : RecoveryRequest) (payload : AuditPayload) (status : Option RecoveryStatus) :
    RecoveryRequest where
  recoveryRequestId := orText payload.recoveryRequestId request.recoveryRequestId
  executionId := orText payload.executionId request.executionId
  recoveryMode := orText payload.recoveryMode request.recoveryMode
  requestedBy := orText payload.requestedBy request.requestedBy
  approvedBy := orText payload.approvedBy request.approvedBy
  plan := payload.plan <|> request.plan
  planHash := payload.planHash <|> request.planHash
  preview := payload.preview <|> request.preview
  policy := payload.policy <|> request.policy
  status := status

def absorb (request : RecoveryRequest) (event : RecoveryEvent) : Option RecoveryRequest :=
  match getTransitionEventForAudit event with
  | some transition =>
    (transitionState request.status transition).map fun next => request.merge event.payload (some next)
  | none => some (request.merge event.payload request.status)

/-- The request that events, oldest first, replay to. -/
def requestOf (history : List RecoveryEvent) : Option RecoveryRequest :=
  if history = [] then none else replay absorb {} history

def buildRequestFromEvents (events : List RecoveryEvent) : Option RecoveryRequest := requestOf events.reverse

def getRecoveryRequest (log : List AuditLine) (recoveryRequestId : String) : Option RecoveryRequest :=
  if trimmed recoveryRequestId = "" then none
  else buildRequestFromEvents
    ((listRecoveryAuditEvents log).filter fun event => event.requestId = trimmed recoveryRequestId)

def listRecoveryRequestsForExecution (log : List AuditLine) (executionId : String) : List RecoveryRequest :=
  if trimmed executionId = "" then []
  else
    let events := (listRecoveryAuditEvents log).filter fun event =>
      event.payload.executionId = trimmed executionId && trimmed event.requestId ≠ ""
    ((events.map fun event => trimmed event.requestId).eraseDups).filterMap fun recoveryRequestId =>
      buildRequestFromEvents (events.filter fun event => trimmed event.requestId = recoveryRequestId)

def RecoveryRequest.active (request : RecoveryRequest) : Bool := request.status.any fun status => !status.terminal

def findActiveRecoveryForExecution (log : List AuditLine) (executionId : String) : Option RecoveryRequest :=
  (listRecoveryRequestsForExecution log executionId).find? RecoveryRequest.active

end Reading

section Writing

def recordRecoveryRequest (recoveryRequestId executionId recoveryMode requestedBy : String) (plan : PlanRecord) :
    RecoveryEvent where
  type := .requested
  payload := {
    recoveryRequestId, executionId, recoveryMode, requestedBy
    plan := some plan, planHash := some plan.staleToken, status := some .requested }

def recordPreview (request : RecoveryRequest) (preview : RecoveryPreview) : RecoveryEvent where
  type := .previewed
  payload := {
    recoveryRequestId := request.recoveryRequestId, executionId := request.executionId
    requestedBy := request.requestedBy, preview := some preview }

def policyStatus (policy : ReplayPolicy) : RecoveryStatus :=
  if policy.allowed then if policy.requiresApproval then .awaitingApproval else .previewed
  else .blocked

def recordPolicyDecision (request : RecoveryRequest) (policy : ReplayPolicy) : RecoveryEvent where
  type := .policyDecision
  payload := {
    recoveryRequestId := request.recoveryRequestId, executionId := request.executionId
    requestedBy := request.requestedBy, policy := some policy, status := some (policyStatus policy) }

def recordApproval (request : RecoveryRequest) (approvedBy : String) : RecoveryEvent where
  type := .approved
  payload := {
    recoveryRequestId := request.recoveryRequestId, executionId := request.executionId
    approvedBy, status := some .approved }

def recordCommitAttempt (request : RecoveryRequest) (requestedBy : String) (dryRun : Bool) : RecoveryEvent where
  type := .commitAttempt
  payload := {
    recoveryRequestId := request.recoveryRequestId, executionId := request.executionId
    requestedBy, dryRun := some dryRun }

def commitResultType : CommitResult → RecoveryAuditType
  | .ok => .committed
  | .failed code _ => if code = "STALE_RECOVERY_PLAN" then .blocked else .failed

def commitResultStatus (result : CommitResult) : RecoveryStatus :=
  match commitResultType result with
  | .committed => .committed
  | .blocked => .blocked
  | _ => .failed

def recordCommitResult (recoveryRequestId executionId requestedBy : String) (result : CommitResult) :
    RecoveryEvent where
  type := commitResultType result
  payload := {
    recoveryRequestId, executionId, requestedBy
    result := some result, status := some (commitResultStatus result) }

def recordCancellation (request : RecoveryRequest) : RecoveryEvent where
  type := .cancelled
  payload := {
    recoveryRequestId := request.recoveryRequestId, executionId := request.executionId
    status := some .cancelled }

end Writing

end CommandConsole.Recovery
