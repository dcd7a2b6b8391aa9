import CommandConsole.Library.Crowd
import CommandConsole.Sam.Idempotency

/-! # The calls of the S.A.M. bridge

`runSamBridge` from one await to the next, for a valid proposal while idempotency and
retry safety are on. An audit takes two turns after its event is appended: one that
remembers the event and one in which the bridge goes on.
-/
namespace CommandConsole.Sam
open Library
set_option autoImplicit false

section Constants

def defaultSamPreflight : SamPreflightResult :=
  ⟨false, true, some "SAM_PREFLIGHT_FAILED", ⟨false, false, false, false, false, true⟩, ⟨none, none, none, none⟩⟩

def defaultSamApproval : SamApprovalResult := ⟨true, false, false, .required, none, some "SAM_APPROVAL_REQUIRED"⟩

def defaultSamDryRun : SamDryRunResult := ⟨false, .unknown, "dry-run unavailable", [], []⟩

/-- `text || other` -/
def orElse (text : Option String) (other : String) : String := (text.filter fun value => value ≠ "").getD other

def skippedAudit (reason : String) : SamAuditResult := ⟨false, false, none, true, some reason⟩

end Constants

section Requests

/-- A call of the bridge with the flags that it loads. -/
structure SamRequest where
  proposal : SamProposal
  approval : Option SamApprovalInput
  enabled : Bool
  requireApproval : Bool

variable (hashSamProposal : SamHashInput → String)

def SamRequest.input (request : SamRequest) : SamIdempotencyInput where
  tenantId := request.proposal.tenantId
  workspaceId := request.proposal.workspaceId
  executionId := request.proposal.executionId
  attemptId := request.proposal.attemptId
  idempotencyKey := createSamIdempotencyKey hashSamProposal request.proposal request.approval
  actionType := request.proposal.actionType
  proposalHash := proposalHash hashSamProposal request.proposal

def readOnly (actionType : SamActionType) : Bool := actionType = .exportEvidence || actionType = .inspectState

def evaluateSamApproval (actionType : SamActionType) (requireApproval : Bool) (approval : Option SamApprovalInput) :
    SamApprovalResult :=
  let approvedBy := approval.bind SamApprovalInput.approvedBy
  let reason := approval.bind SamApprovalInput.reason
  let status := approval.map SamApprovalInput.status
  if readOnly actionType ∧ status = some .notApplicable then ⟨false, true, false, .notApplicable, approvedBy, reason⟩
  else if ¬requireApproval then ⟨false, true, false, .granted, approvedBy, reason⟩
  else if status = none ∨ status = some .required then defaultSamApproval
  else if status = some .denied then ⟨true, false, true, .denied, approvedBy, some "SAM_APPROVAL_DENIED"⟩
  else if status = some .granted then ⟨true, true, false, .granted, approvedBy, reason⟩
  else defaultSamApproval

/-- What a blocked result says of the way that the call went. -/
structure SamExit where
  reason : String
  preflight : SamPreflightResult
  approval : SamApprovalResult
  dryRun : SamDryRunResult
  deriving DecidableEq

/-- The audit event that a call is about to have appended, with what it needs afterwards. -/
inductive SamPoint where
  | duplicateReturned (result : SamBridgeResult)
  | replayReturned (result : SamBridgeResult)
  | refused (conflict : Bool) (reason : String)
  | accepted
  | created
  | preflighted (preflight : SamPreflightResult)
  | stopped (exit : SamExit)
  | decided (preflight : SamPreflightResult) (approval : SamApprovalResult)
  | generated (preflight : SamPreflightResult) (approval : SamApprovalResult) (dryRun : SamDryRunResult)
  | completed (preflight : SamPreflightResult) (approval : SamApprovalResult) (dryRun : SamDryRunResult)
  deriving DecidableEq

def SamPoint.auditType : SamPoint → String
  | .duplicateReturned _ => "sam.idempotency.duplicate_returned"
  | .replayReturned _ => "sam.retry.replay_returned"
  | .refused conflict _ => if conflict then "sam.idempotency.conflict_blocked" else "sam.retry.blocked"
  | .accepted => "sam.idempotency.accepted"
  | .created => "sam.proposal.created"
  | .preflighted preflight => if preflight.allowed then "sam.preflight.passed" else "sam.preflight.failed"
  | .stopped _ => "sam.bridge.blocked"
  | .decided _ approval =>
    match approval.status with
    | .granted => "sam.approval.granted"
    | .denied => "sam.approval.denied"
    | _ => "sam.approval.required"
  | .generated _ _ _ => "sam.dry_run.generated"
  | .completed _ _ _ => "sam.bridge.completed"

inductive SamCallStage where
  | received
  | auditing (point : SamPoint) (errors : List SamError) (audit : SamAuditResult)
  | resuming (point : SamPoint) (errors : List SamError) (audit : SamAuditResult)
  | preflighting (errors : List SamError)
  | dryRunning (preflight : SamPreflightResult) (approval : SamApprovalResult) (errors : List SamError)
  | ended (result : SamBridgeResult)
  deriving DecidableEq

/-- A call, and whether it was admitted as a new attempt. -/
structure SamCall where
  request : SamRequest
  admitted : Bool
  stage : SamCallStage

structure SamBridgeState where
  records : SamIdempotencyStore
  audited : List String

def SamBridgeState.empty : SamBridgeState := ⟨.empty, []⟩

/-- What the audit trail, the queue governor, the preflight and the dry run answer in one turn. -/
structure SamTurnInput where
  audit : SamAuditResult
  queueRejects : Bool
  preflight : SamPreflightResult
  dryRun : Except String SamDryRunResult

end Requests

section Results

variable (hashSamProposal : SamHashInput → String) (request : SamRequest)

/-- `buildBlockedResult` as every exit of the bridge calls it, with its idempotency context. -/
def buildBlockedResult (outcome : SamExit) (audit : SamAuditResult) (errors : List SamError) : SamBridgeResult where
  ok := false
  proposalId := request.proposal.proposalId
  executionId := request.proposal.executionId
  tenantId := none
  workspaceId := none
  attemptId := some request.proposal.attemptId
  idempotencyKey := some (request.input hashSamProposal).idempotencyKey
  stage := .blocked
  blocked := true
  reason := some outcome.reason
  preflight := outcome.preflight
  approval := outcome.approval
  dryRun := outcome.dryRun
  audit := audit
  errors := errors

def plainExit (reason : String) : SamExit := ⟨reason, defaultSamPreflight, defaultSamApproval, defaultSamDryRun⟩

def completedResult (preflight : SamPreflightResult) (approval : SamApprovalResult) (dryRun : SamDryRunResult)
    (audit : SamAuditResult) (errors : List SamError) : SamBridgeResult where
  ok := errors.all SamError.recoverable
  proposalId := request.proposal.proposalId
  executionId := request.proposal.executionId
  tenantId := request.proposal.tenantId
  workspaceId := request.proposal.workspaceId
  attemptId := some request.proposal.attemptId
  idempotencyKey := some (request.input hashSamProposal).idempotencyKey
  stage := .completed
  blocked := false
  reason := none
  preflight := preflight
  approval := approval
  dryRun := dryRun
  audit := audit
  errors := errors

/-- What the `catch` of the bridge returns. -/
def failedResult (message : String) (errors : List SamError) : SamBridgeResult where
  ok := false
  proposalId := request.proposal.proposalId
  executionId := request.proposal.executionId
  tenantId := request.proposal.tenantId
  workspaceId := request.proposal.workspaceId
  attemptId := some request.proposal.attemptId
  idempotencyKey := none
  stage := .blocked
  blocked := true
  reason := some "SAM_IDEMPOTENCY_AMBIGUOUS"
  preflight := defaultSamPreflight
  approval := defaultSamApproval
  dryRun := defaultSamDryRun
  audit := skippedAudit "SAM_BRIDGE_UNEXPECTED_FAILURE"
  errors := errors ++ [⟨"SAM_IDEMPOTENCY_AMBIGUOUS", message, .blocked, false⟩]

def finalizeStoredResult (result : SamBridgeResult) (status : SamRecordStatus) (replayable : Bool)
    (store : SamIdempotencyStore) : SamIdempotencyStore :=
  match result.attemptId, result.idempotencyKey with
  | some attemptId, some idempotencyKey =>
    if attemptId = "" ∨ idempotencyKey = "" then store
    else
      storeSamIdempotencyResult
        { tenantId := result.tenantId
          workspaceId := result.workspaceId
          executionId := result.executionId
          attemptId := attemptId
          idempotencyKey := idempotencyKey
          actionType := result.dryRun.actionType
          proposalHash := proposalHash hashSamProposal request.proposal
          result := some result
          status := status
          replayable := replayable } store
  | _, _ => store

end Results

section Audits

variable (hashSamProposal : SamHashInput → String) (request : SamRequest)

def auditDeduplicationKey (type : String) : String :=
  request.proposal.tenantId.getD "__global__" ++ "::" ++ request.proposal.executionId ++ "::" ++
    (request.input hashSamProposal).idempotencyKey ++ "::" ++ type

/-- `appendDeduplicatedSamAuditEvent` up to its first await. -/
def startAudit (input : SamTurnInput) (state : SamBridgeState) (point : SamPoint) (errors : List SamError) :
    SamCallStage :=
  if auditDeduplicationKey hashSamProposal request point.auditType ∈ state.audited then
    .auditing point errors ⟨true, false, none, true, some "SAM_DUPLICATE_AUDIT_SUPPRESSED"⟩
  else .auditing point errors input.audit

def rememberAudit (state : SamBridgeState) (point : SamPoint) (audit : SamAuditResult) : SamBridgeState :=
  if audit.appended then
    { state with audited := auditDeduplicationKey hashSamProposal request point.auditType :: state.audited }
  else state

def noteSkipped (audit : SamAuditResult) (errors : List SamError) : List SamError :=
  if audit.skipped then errors ++ [⟨"SAM_AUDIT_SKIPPED", orElse audit.reason "Audit skipped.", .audit, true⟩] else errors

end Audits

section Sections

variable (hashSamProposal : SamHashInput → String) (request : SamRequest) (input : SamTurnInput)
  (state : SamBridgeState)

/-- The call is not a new attempt and its result is not to be had. -/
def refuse (conflict : Bool) (reason : String) : SamCallStage :=
  startAudit hashSamProposal request input state (.refused conflict reason)
    [⟨reason, "S.A.M. idempotency blocked the proposal.", .blocked, false⟩]

def enterQueue : SamCallStage :=
  if input.queueRejects then
    .ended (buildBlockedResult hashSamProposal request (plainExit "SAM_QUEUE_PRESSURE_REJECTED")
      (skippedAudit "SAM_QUEUE_PRESSURE_REJECTED")
      [⟨"SAM_QUEUE_PRESSURE_REJECTED", "Queue pressure rejected the proposal.", .blocked, false⟩])
  else startAudit hashSamProposal request input state .accepted []

/-- From the loading of the flags to the first await. -/
def decide : Bool × SamCallStage × SamBridgeState :=
  if ¬request.enabled then
    (false, .ended (buildBlockedResult hashSamProposal request (plainExit "SAM_DISABLED") (skippedAudit "SAM_DISABLED")
      [⟨"SAM_DISABLED", "S.A.M. bridge mode is disabled.", .proposal, false⟩]), state)
  else
    match ensureIdempotentExecution (request.input hashSamProposal) state.records with
    | (.newAttempt _, records) =>
      (true, enterQueue hashSamProposal request input state, { state with records })
    | (.duplicateReturned (some result) _, _) =>
      (false, startAudit hashSamProposal request input state (.duplicateReturned result) [], state)
    | (.duplicateReturned none reason, _) => (false, refuse hashSamProposal request input state true reason, state)
    | (.blockedConflict reason, _) => (false, refuse hashSamProposal request input state true reason, state)
    | (.unsafeRetry reason, _) => (false, refuse hashSamProposal request input state false reason, state)
    | (.blockedAmbiguous reason, _) => (false, refuse hashSamProposal request input state false reason, state)

def stop (outcome : SamExit) (errors : List SamError) (message : String) (stage : SamStage) : SamCallStage :=
  startAudit hashSamProposal request input state (.stopped outcome) (errors ++ [⟨outcome.reason, message, stage, false⟩])

def afterPreflight (preflight : SamPreflightResult) (errors : List SamError) : SamCallStage :=
  if request.proposal.realExecution then
    stop hashSamProposal request input state
      ⟨"SAM_REAL_EXECUTION_FORBIDDEN", preflight, defaultSamApproval,
        { defaultSamDryRun with blockedEffects := ["real execution blocked in 3.6A"] }⟩
      errors "Real execution is forbidden in 3.6A bridge mode." .blocked
  else if preflight.blocked ∨ ¬preflight.allowed then
    stop hashSamProposal request input state
      ⟨orElse preflight.reason "SAM_PREFLIGHT_FAILED", preflight, defaultSamApproval, defaultSamDryRun⟩
      errors "S.A.M. preflight blocked the proposal." .preflight
  else
    startAudit hashSamProposal request input state
      (.decided preflight
        (evaluateSamApproval request.proposal.actionType request.requireApproval request.approval)) errors

def afterApproval (preflight : SamPreflightResult) (approval : SamApprovalResult) (errors : List SamError) :
    SamCallStage :=
  if ¬approval.granted then
    stop hashSamProposal request input state
      ⟨orElse approval.reason "SAM_APPROVAL_REQUIRED", preflight, approval, defaultSamDryRun⟩ errors
      (if approval.denied then "S.A.M. approval denied." else "S.A.M. approval required.") .approval
  else .dryRunning preflight approval errors

/-- The result is stored and returned. -/
def finish (result : SamBridgeResult) (status : SamRecordStatus) (replayable : Bool) :
    SamCallStage × SamBridgeState :=
  (.ended result,
    { state with records := finalizeStoredResult hashSamProposal request result status replayable state.records })

/-- The bridge goes on after an audit. -/
def resume (point : SamPoint) (errors : List SamError) (audit : SamAuditResult) : SamCallStage × SamBridgeState :=
  match point with
  | .duplicateReturned result =>
    (startAudit hashSamProposal request input state (.replayReturned result) errors, state)
  | .replayReturned result => (.ended result, state)
  | .refused _ reason =>
    finish hashSamProposal request state (buildBlockedResult hashSamProposal request (plainExit reason) audit errors)
      .blocked false
  | .accepted => (startAudit hashSamProposal request input state .created (noteSkipped audit errors), state)
  | .created => (.preflighting (noteSkipped audit errors), state)
  | .preflighted preflight =>
    (afterPreflight hashSamProposal request input state preflight (noteSkipped audit errors), state)
  | .stopped outcome =>
    finish hashSamProposal request state
      (buildBlockedResult hashSamProposal request outcome audit (noteSkipped audit errors)) .blocked false
  | .decided preflight approval =>
    (afterApproval hashSamProposal request input state preflight approval (noteSkipped audit errors), state)
  | .generated preflight approval dryRun =>
    (startAudit hashSamProposal request input state (.completed preflight approval dryRun) (noteSkipped audit errors),
      state)
  | .completed preflight approval dryRun =>
    finish hashSamProposal request state
      (completedResult hashSamProposal request preflight approval dryRun audit (noteSkipped audit errors))
      .completed true

end Sections

section Turns

variable (hashSamProposal : SamHashInput → String)

/-- One section of `runSamBridge`. -/
def SamCall.advance (input : SamTurnInput) (call : SamCall) (state : SamBridgeState) : SamCall × SamBridgeState :=
  match call.stage with
  | .received =>
    let next := decide hashSamProposal call.request input state
    ({ call with admitted := next.1, stage := next.2.1 }, next.2.2)
  | .auditing point errors audit =>
    ({ call with stage := .resuming point errors audit },
      rememberAudit hashSamProposal call.request state point audit)
  | .resuming point errors audit =>
    let next := resume hashSamProposal call.request input state point errors audit
    ({ call with stage := next.1 }, next.2)
  | .preflighting errors =>
    ({ call with stage := startAudit hashSamProposal call.request input state (.preflighted input.preflight) errors },
      state)
  | .dryRunning preflight approval errors =>
    match input.dryRun with
    | .error message => ({ call with stage := .ended (failedResult call.request message errors) }, state)
    | .ok dryRun =>
      ({ call with
          stage := startAudit hashSamProposal call.request input state (.generated preflight approval dryRun) errors },
        state)
  | .ended _ => (call, state)

def bridgeRules : CrowdRules SamRequest SamCall SamTurnInput Empty SamBridgeState where
  start request := ⟨request, false, .received⟩
  advance := SamCall.advance hashSamProposal
  outside op := nomatch op

abbrev SamTurn := CrowdTurn SamRequest SamTurnInput Empty

abbrev Bridge := Crowd SamCall SamBridgeState

def bridgeStep : SamTurn → Bridge → Bridge := Crowd.step (bridgeRules hashSamProposal)

end Turns

end CommandConsole.Sam
