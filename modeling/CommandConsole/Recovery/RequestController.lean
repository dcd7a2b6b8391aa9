import CommandConsole.Recovery.RequestAudit
import CommandConsole.Library.Run

/-! # The recovery controller

Each operation reads the request from the audit log and appends its events. A request
awaits its plan between the test for an active request and its first event, and a commit
awaits the committer between its tests and the event of its result; everything else of an
operation is one turn.
-/
namespace CommandConsole.Recovery
open Library
open Execution (trimmed isBlank isSpace evaluateRecoveryPolicy)
set_option autoImplicit false

structure Refusal where
  message : String
  recoveryRequestId : Option String := none
  deriving DecidableEq

structure Acceptance where
  recoveryRequestId : String
  executionId : String
  status : RecoveryStatus
  deriving DecidableEq

/-- `Math.random().toString(36).slice(2, 8)`. -/
structure RandomText where
  text : String
  digits : ∀ c ∈ text.toList, c.isDigit = true ∨ c.isLower = true

def createRecoveryRequestId (now : Nat) (random : RandomText) : String := "recovery_" ++ toString now ++ "_" ++ random.text

def orOperator (requestedBy : String) : String := orText (trimmed requestedBy) "operator"

/-- A request that awaits its plan. -/
structure PendingRequest where
  executionId : String
  recoveryMode : String
  requestedBy : String
  deriving DecidableEq

/-- A writing call of `commitRecoveryPlan` whose result is not recorded. -/
structure PendingCommit where
  recoveryRequestId : String
  executionId : String
  requestedBy : String
  plan : Option PlanRecord
  staleToken : Execution.StaleToken
  deriving DecidableEq

def requestRecovery (log : List AuditLine) (executionId recoveryMode requestedBy : String) :
    Except Refusal PendingRequest :=
  if trimmed executionId = "" || trimmed recoveryMode = "" then
    .error { message := "Recovery request requires executionId and recoveryMode." }
  else
    match findActiveRecoveryForExecution log (trimmed executionId) with
    | some existing => .error {
        message := "Only one active recovery request is allowed per execution."
        recoveryRequestId := some existing.recoveryRequestId }
    | none => .ok ⟨trimmed executionId, recoveryMode, orOperator requestedBy⟩

/-- `requestRecovery` after the plan is built; a builder that fails gives its message. -/
def recordRequest (pending : PendingRequest) (built : Except String PlanRecord) (recoveryRequestId : String) :
    Except Refusal (Acceptance × List RecoveryEvent) :=
  match built with
  | .error message => .error { message := orText message "Recovery plan could not be built." }
  | .ok plan => .ok (⟨recoveryRequestId, pending.executionId, .requested⟩,
      [recordRecoveryRequest recoveryRequestId pending.executionId pending.recoveryMode pending.requestedBy plan])

def previewRecovery (log : List AuditLine) (recoveryRequestId : String) :
    Except Refusal (Acceptance × List RecoveryEvent) :=
  match getRecoveryRequest log recoveryRequestId with
  | none => .error { message := "Recovery request was not found." }
  | some request =>
    match request.plan with
    | none => .error { message := "Recovery plan object is required for preview." }
    | some plan =>
      let preview := previewRecoveryPlan plan
      let policy := evaluateRecoveryPolicy preview.replayCandidates
      .ok (⟨request.recoveryRequestId, request.executionId, policyStatus policy⟩,
        [recordPreview request preview, recordPolicyDecision request policy])

def RecoveryRequest.requiresApproval (request : RecoveryRequest) : Bool :=
  request.policy.any fun policy => policy.requiresApproval

def validateApproval (request : Option RecoveryRequest) (approvedBy : String) :
    Except Refusal (RecoveryRequest × String) :=
  match request with
  | none => .error { message := "Recovery request is required for approval." }
  | some request =>
    if trimmed request.recoveryRequestId = "" then
      .error { message := "Recovery request is required for approval." }
    else if request.status ≠ some .awaitingApproval then
      .error { message := "Recovery request is not awaiting approval." }
    else if !request.requiresApproval then
      .error { message := "Recovery request does not require approval." }
    else if trimmed approvedBy = "" then .error { message := "Approver identity is required." }
    else .ok (request, trimmed approvedBy)

def approveRecovery (log : List AuditLine) (recoveryRequestId approvedBy : String) :
    Except Refusal (Acceptance × List RecoveryEvent) :=
  (validateApproval (getRecoveryRequest log recoveryRequestId) approvedBy).map fun (request, approver) =>
    (⟨request.recoveryRequestId, request.executionId, .approved⟩, [recordApproval request approver])

/-- `commitRecovery` up to the call of the committer. -/
def commitRecovery (log : List AuditLine) (recoveryRequestId requestedBy : String) (dryRun : Bool) :
    Except Refusal (PendingCommit × List RecoveryEvent) :=
  match getRecoveryRequest log recoveryRequestId with
  | none => .error { message := "Recovery request was not found." }
  | some request =>
    if !dryRun && request.requiresApproval && request.status ≠ some .approved then
      .error { message := "Recovery approval is required before commit." }
    else
      match request.preview with
      | none => .error { message := "Recovery preview is required before commit." }
      | some preview => .ok (
          ⟨request.recoveryRequestId, request.executionId, orOperator requestedBy, request.plan, preview.staleToken⟩,
          [recordCommitAttempt request (orOperator requestedBy) dryRun])

def cancelRecovery (log : List AuditLine) (recoveryRequestId : String) :
    Except Refusal (Acceptance × List RecoveryEvent) :=
  match getRecoveryRequest log recoveryRequestId with
  | none => .error { message := "Recovery request was not found." }
  | some request => .ok (⟨request.recoveryRequestId, request.executionId, .cancelled⟩, [recordCancellation request])

/-- A writing call of the committer, with the events that its request had by then. -/
structure Invocation where
  recoveryRequestId : String
  history : List RecoveryEvent
  deriving DecidableEq

/-- The log and the calls in flight; `invoked` keeps the writing calls. -/
structure RecoverySystem where
  log : List AuditLine
  requests : List PendingRequest
  commits : List PendingCommit
  invoked : List Invocation
  deriving DecidableEq

namespace RecoverySystem

def initial : RecoverySystem := ⟨[], [], [], []⟩

def record (system : RecoverySystem) (events : List RecoveryEvent) : RecoverySystem :=
  { system with log := system.log ++ events.map some }

end RecoverySystem

def history (log : List AuditLine) (recoveryRequestId : String) : List RecoveryEvent :=
  eventsOf RecoveryEvent.requestId recoveryRequestId (log.filterMap id)

/-- The turns of the calls: each begins a call or ends an await. -/
inductive RecoveryTurn where
  | requestRecovery (executionId recoveryMode requestedBy : String)
  | planBuilt (index : Nat) (built : Except String PlanRecord) (now : Nat) (random : RandomText)
  | previewRecovery (recoveryRequestId : String)
  | approveRecovery (recoveryRequestId approvedBy : String)
  | commitRecovery (recoveryRequestId requestedBy : String) (dryRun : Bool)
  | committed (index : Nat) (result : CommitResult)
  | cancelRecovery (recoveryRequestId : String)
  | otherLine

namespace RecoverySystem

def recordAnswer (system : RecoverySystem) (answer : Except Refusal (Acceptance × List RecoveryEvent)) :
    RecoverySystem :=
  match answer with
  | .error _ => system
  | .ok (_, events) => system.record events

def take (turn : RecoveryTurn) (system : RecoverySystem) : RecoverySystem :=
  match turn with
  | .requestRecovery executionId recoveryMode requestedBy =>
    match Recovery.requestRecovery system.log executionId recoveryMode requestedBy with
    | .error _ => system
    | .ok pending => { system with requests := system.requests ++ [pending] }
  | .planBuilt index built now random =>
    match system.requests[index]? with
    | none => system
    | some pending =>
      let resumed : RecoverySystem := { system with requests := system.requests.eraseIdx index }
      resumed.recordAnswer (recordRequest pending built (createRecoveryRequestId now random))
  | .previewRecovery recoveryRequestId => system.recordAnswer (Recovery.previewRecovery system.log recoveryRequestId)
  | .approveRecovery recoveryRequestId approvedBy =>
    system.recordAnswer (Recovery.approveRecovery system.log recoveryRequestId approvedBy)
  | .commitRecovery recoveryRequestId requestedBy dryRun =>
    match Recovery.commitRecovery system.log recoveryRequestId requestedBy dryRun with
    | .error _ => system
    | .ok (pending, events) =>
      if dryRun then system.record events
      else
        let begun : RecoverySystem := { system with
          commits := system.commits ++ [pending]
          invoked := system.invoked ++ [⟨pending.recoveryRequestId, history system.log pending.recoveryRequestId⟩] }
        begun.record events
  | .committed index result =>
    match system.commits[index]? with
    | none => system
    | some pending =>
      let returned : RecoverySystem := { system with commits := system.commits.eraseIdx index }
      returned.record [recordCommitResult pending.recoveryRequestId pending.executionId pending.requestedBy result]
  | .cancelRecovery recoveryRequestId => system.recordAnswer (Recovery.cancelRecovery system.log recoveryRequestId)
  | .otherLine => { system with log := system.log ++ [none] }

end RecoverySystem

end CommandConsole.Recovery
