import CommandConsole.Proposals.Records
import Mathlib.Data.List.Infix

/-! # The proposal state engine

A declared transition is checked against the matrix, the bindings of the proposal and its
lineage. Every error of every check is kept; a transition without errors is entered into the
lineage, and in either case the audit ledger grows.
-/
namespace CommandConsole.Proposals
open Library Value Audit
set_option autoImplicit false

section Input

structure ProposalIntegrityResult where
  governanceSnapshotId : Text
  createdAt : Text
  approvalDependencyIds : List Text
  approvalHash : Text
  recommendationLineageHash : Text

structure RecommendationReplayResult where
  status : Text
  lineageHashes : List Text

structure ConstitutionalEnforcementResult where
  status : Text
  verdictStatus : Text
  governanceSnapshotId : Text

structure ProposalStateEngineInput where
  stateEngineRunId : Text
  evaluatedAt : Text
  governancePolicyVersion : Text
  constitutionalRuleSetVersion : Text
  currentState : ProposalLifecycleState
  transition : ProposalTransitionDeclaration
  proposalIntegrityResult : ProposalIntegrityResult
  recommendationReplayResult : RecommendationReplayResult
  immutableRecommendationLedgerStatus : Text
  constitutionalEnforcementResult : ConstitutionalEnforcementResult
  existingLineage : Option ProposalLifecycleLineage
  existingAuditLedger : Option (List ImmutableAuditLedgerEntry)

end Input

section Checks

/-- The one error where the condition holds. -/
def errorIf (condition : Prop) [Decidable condition] (code : ProposalStateErrorCode) (message path : String) :
    List ProposalStateError := if condition then [⟨code, message, path⟩] else []

def validateRootInput (input : ProposalStateEngineInput) : List ProposalStateError :=
  errorIf (input.stateEngineRunId = [] ∨ input.evaluatedAt = [] ∨ input.governancePolicyVersion = [] ∨
      input.constitutionalRuleSetVersion = []) .ambiguousTransition
    "Proposal state evaluation requires deterministic run, governance, and constitutional version identifiers." "input" ++
  errorIf (verifyImmutableLedgerChain (input.existingAuditLedger.getD []) = false) .auditAppendFailed
    "Existing proposal state audit ledger chain is invalid." "existingAuditLedger"

def governanceErrors (input : ProposalStateEngineInput) : List ProposalStateError :=
  let snapshot := input.transition.governanceSnapshotId
  errorIf (snapshot = [] ∨ snapshot ≠ input.proposalIntegrityResult.governanceSnapshotId ∨
      snapshot ≠ input.constitutionalEnforcementResult.governanceSnapshotId) .governanceBindingMissing
    "Transition governance snapshot does not match immutable proposal and enforcement governance bindings."
    "transition.governanceSnapshotId"

def buildGovernanceBindingRecord (input : ProposalStateEngineInput) :
    GovernanceBindingRecord × List ProposalStateError :=
  let errors := governanceErrors input
  let enforcementResult : EnforcementResult :=
    if input.transition.targetState = .revoked then .revoked
    else if errors ≠ [] then .blocked
    else if input.transition.targetState = .frozen then .frozen
    else .allowed
  (⟨units "governance-binding:" ++ input.transition.transitionId, input.transition.proposalId,
    input.transition.transitionId, input.transition.governanceSnapshotId, input.governancePolicyVersion,
    input.constitutionalRuleSetVersion, input.transition.governanceAuthorityId, enforcementResult, input.evaluatedAt⟩,
    errors)

/-- `recommendationReplayResult.lineageRecords[0]?.lineageHash ?? ""`. -/
def ProposalStateEngineInput.replayLineageId (input : ProposalStateEngineInput) : Text :=
  input.recommendationReplayResult.lineageHashes.head?.getD []

def ProposalStateEngineInput.replayAdmissible (input : ProposalStateEngineInput) : Bool :=
  input.recommendationReplayResult.status = units "COMPLETED" ∧
    input.immutableRecommendationLedgerStatus = units "COMPLETED" ∧
      input.constitutionalEnforcementResult.status = units "COMPLETED" ∧
        input.constitutionalEnforcementResult.verdictStatus = units "APPROVED"

def validateProposalReplayAdmissibility (platform : Platform) (input : ProposalStateEngineInput) :
    ProposalReplayAdmissibilityRecord × List ProposalStateError :=
  let errors :=
    errorIf (input.replayLineageId = [] ∨ input.transition.replayLineageId ≠ input.replayLineageId)
      .replayLineageMissing "Transition replay lineage does not match the immutable replay lineage."
      "transition.replayLineageId" ++
    errorIf (input.replayAdmissible = false) .replayLineageMissing
      "Replay admissibility requires completed replay, ledger, and constitutional enforcement results."
      "replayAdmissibility"
  let replayAdmissible := input.replayAdmissible && errors.isEmpty
  let replayLineageId := if input.replayLineageId = [] then input.transition.replayLineageId else input.replayLineageId
  let governanceSnapshotId := input.constitutionalEnforcementResult.governanceSnapshotId
  (⟨input.transition.proposalId, replayAdmissible, replayLineageId, governanceSnapshotId,
    hashRecommendationValue platform (units "proposal-state-replay-admissibility")
      (object [(units "proposalId", string input.transition.proposalId), (units "replayAdmissible", .bool replayAdmissible),
        (units "replayLineageId", string replayLineageId),
        (units "governanceSnapshotId", string governanceSnapshotId)])⟩, errors)

def ProposalLifecycleLineage.Aligned (lineage : ProposalLifecycleLineage) : Prop :=
  lineage.governanceSnapshotIds.length = lineage.transitionIds.length ∧
    lineage.replayLineageIds.length = lineage.transitionIds.length ∧
      lineage.auditEventIds.length = lineage.transitionIds.length ∧
        lineage.approvalLineageIds.length ≤ lineage.transitionIds.length ∧
          lineage.dependencyLineageIds.length ≤ lineage.transitionIds.length

instance (lineage : ProposalLifecycleLineage) : Decidable lineage.Aligned :=
  inferInstanceAs (Decidable (_ ∧ _))

def validateProposalLineageIntegrity (proposalId : Text) (currentState : ProposalLifecycleState)
    (existingLineage : Option ProposalLifecycleLineage) : List ProposalStateError :=
  match existingLineage with
  | none => []
  | some lineage =>
    errorIf (lineage.proposalId ≠ proposalId) .lineageDisputed
      "Existing proposal lineage belongs to a different proposal." "existingLineage.proposalId" ++
    errorIf (lineage.currentState ≠ currentState) .sourceMismatch
      "Existing lineage current state diverges from the declared current state." "existingLineage.currentState" ++
    errorIf (¬lineage.Aligned) .lineageDisputed
      "Existing proposal lineage arrays are no longer append-only aligned." "existingLineage"

def validateProposalFreezeState (currentState targetState : ProposalLifecycleState) : List ProposalStateError :=
  errorIf (currentState = .frozen ∧ ¬(targetState = .archived ∨ targetState = .revoked ∨ targetState = .disputed)) .frozen
    "Frozen proposals may only transition to archived, revoked, or disputed." "transition.targetState"

def validateProposalRevocationState (currentState targetState : ProposalLifecycleState) : List ProposalStateError :=
  if currentState = .revoked ∧ targetState ≠ .archived then
    [⟨.revoked, "Revoked proposals may only transition to archived.", "transition.targetState"⟩]
  else errorIf (currentState = .archived) .archived "Archived proposals may not transition further."
    "transition.targetState"

def AMBIGUOUS_PATTERNS : List String :=
  ["automatic", "auto-", "retry", "schedule", "cron", "queue", "dispatch", "execute", "orchestrate", "worker",
    "self-heal", "self-correct", "infer", "implicitly", "autonomous", "without review", "grant authority"]

/-- `text.toLowerCase()`, up to the letters that the lower case of a unit outside ASCII can equal. -/
def toLowerCase (text : Text) : Text :=
  text.map fun unit => if unit = 0x212A then 0x6B else if 0x41 ≤ unit ∧ unit ≤ 0x5A then unit + 32 else unit

def includes (text part : Text) : Bool := decide (part <:+: text)

def approvalErrors (transition : ProposalTransitionDeclaration) (approvalHash : Text) : List ProposalStateError :=
  let approvalRequired := transition.targetState = .reviewed ∨ transition.targetState = .approved ∨
    transition.targetState = .denied
  let approval := transition.approvalLineageId.getD []
  if approvalRequired ∧ approval = [] then
    [⟨.approvalLineageMissing, "Approval lineage is required for reviewed, approved, or denied transitions.",
      "transition.approvalLineageId"⟩]
  else errorIf (approval ≠ [] ∧ approval ≠ approvalHash) .approvalLineageMissing
    "Approval lineage does not match the immutable proposal approval lineage." "transition.approvalLineageId"

def validateProposalTransition (input : ProposalStateEngineInput)
    (replayAdmissibility : ProposalReplayAdmissibilityRecord) : List ProposalStateError :=
  let transition := input.transition
  let dependency := transition.dependencyLineageId.getD []
  validateProposalLineageIntegrity transition.proposalId input.currentState input.existingLineage ++
  errorIf (transition.sourceState ≠ input.currentState) .sourceMismatch
    "Transition source state does not match the declared current state." "transition.sourceState" ++
  errorIf (isProposalTransitionAllowed transition.sourceState transition.targetState = false) .targetIllegal
    "Target lifecycle state is illegal for the declared source state." "transition.targetState" ++
  errorIf (transition.governanceAuthorityId = [] ∨ transition.governanceSnapshotId = []) .governanceBindingMissing
    "Transition must explicitly declare governance authority and governance snapshot."
    "transition.governanceSnapshotId" ++
  errorIf (transition.replayLineageId = [] ∨ transition.replayLineageId ≠ replayAdmissibility.replayLineageId)
    .replayLineageMissing "Transition replay lineage is missing or not replay-admissible."
    "transition.replayLineageId" ++
  approvalErrors transition input.proposalIntegrityResult.approvalHash ++
  errorIf (input.proposalIntegrityResult.approvalDependencyIds ≠ [] ∧
      (dependency = [] ∨ dependency ≠ input.proposalIntegrityResult.recommendationLineageHash)) .dependencyLineageInvalid
    "Dependency lineage is missing or does not match the immutable proposal lineage binding."
    "transition.dependencyLineageId" ++
  errorIf (transition.auditLineageId = []) .auditAppendFailed
    "Audit lineage identifier is required for append-only transition recording." "transition.auditLineageId" ++
  validateProposalFreezeState input.currentState transition.targetState ++
  validateProposalRevocationState input.currentState transition.targetState ++
  errorIf (input.currentState = .revoked) .revoked "Revoked proposals remain operator-blocked except for archival."
    "currentState" ++
  errorIf (input.currentState = .archived) .archived "Archived proposals are immutable historical records."
    "currentState" ++
  (AMBIGUOUS_PATTERNS.filter fun pattern => includes (toLowerCase transition.reason) (units pattern)).map (fun pattern =>
    ⟨.ambiguousTransition, "Transition reason contains forbidden or inferred semantic: \"" ++ pattern ++ "\".",
      "transition.reason"⟩) ++
  errorIf (transition.requestedBy = .proposalSystem ∧ transition.targetState = .approved) .ambiguousTransition
    "Proposal-system initiated approval would imply hidden autonomy." "transition.requestedBy"

end Checks

section Lineages

def applyProposalLineageTransition (lineage : ProposalLifecycleLineage) (transition : ProposalTransitionDeclaration)
    (resultingState : ProposalLifecycleState) (governanceBinding : GovernanceBindingRecord)
    (replayLineageId auditEventId updatedAt : Text) : ProposalLifecycleLineage where
  lineageId := lineage.lineageId
  proposalId := transition.proposalId
  currentState := resultingState
  transitionIds := lineage.transitionIds ++ [transition.transitionId]
  governanceSnapshotIds := lineage.governanceSnapshotIds ++ [governanceBinding.governanceSnapshotId]
  replayLineageIds := lineage.replayLineageIds ++ [replayLineageId]
  approvalLineageIds := lineage.approvalLineageIds ++
    (transition.approvalLineageId.filter fun approval => approval ≠ []).toList
  dependencyLineageIds := lineage.dependencyLineageIds ++
    (transition.dependencyLineageId.filter fun dependency => dependency ≠ []).toList
  auditEventIds := lineage.auditEventIds ++ [auditEventId]
  createdAt := lineage.createdAt
  updatedAt := updatedAt

def buildInitialProposalLineage (platform : Platform) (proposalId : Text) (currentState : ProposalLifecycleState)
    (createdAt : Text) : ProposalLifecycleLineage where
  lineageId := units "proposal-lineage:" ++ proposalId ++ units ":" ++
    (hashRecommendationValue platform (units "proposal-state-lineage-id")
      (object [(units "proposalId", string proposalId), (units "currentState", string currentState.text),
        (units "createdAt", string createdAt)])).take 12
  proposalId := proposalId
  currentState := currentState
  transitionIds := []
  governanceSnapshotIds := []
  replayLineageIds := []
  approvalLineageIds := []
  dependencyLineageIds := []
  auditEventIds := []
  createdAt := createdAt
  updatedAt := createdAt

end Lineages

section Audit

variable (platform : Platform)

/-- The numbers of the audit events of one transition, of which there are at most four. -/
def eventNumber : Nat → Value
  | 0 => number ⟨units "0", by decide⟩
  | 1 => number ⟨units "1", by decide⟩
  | 2 => number ⟨units "2", by decide⟩
  | _ => number ⟨units "3", by decide⟩

def buildProposalStateAuditRecord (proposalId transitionId : Text) (eventType : ProposalStateAuditEventType)
    (timestamp inputHash outputHash : Text) (previousEntryHash : Option Text) : ProposalStateAuditRecord :=
  ⟨transitionId ++ units ":" ++ eventType.text, proposalId, transitionId, eventType, timestamp, inputHash, outputHash,
    previousEntryHash,
    hashRecommendationValue platform (units "proposal-state-audit-record")
      (object [(units "proposalId", string proposalId), (units "transitionId", string transitionId),
        (units "eventType", string eventType.text), (units "timestamp", string timestamp),
        (units "inputHash", string inputHash), (units "outputHash", string outputHash),
        (units "previousEntryHash", nullable previousEntryHash)])⟩

def auditEventTypes (targetState : ProposalLifecycleState) (accepted : Bool) : List ProposalStateAuditEventType :=
  [.requested, .validated, if accepted then .applied else .rejected] ++
  (if targetState = .frozen then [.frozen] else []) ++
  (if targetState = .revoked then [.revoked] else []) ++
  (if targetState = .disputed then [.disputed] else []) ++
  (if targetState = .archived then [.archived] else [])

def buildAuditRecords (input : ProposalStateEngineInput) (accepted : Bool) (transitionResultHash : Text) :
    List ProposalStateAuditRecord :=
  let transition := input.transition
  (auditEventTypes transition.targetState accepted).zipIdx.map fun (eventType, index) =>
    buildProposalStateAuditRecord platform transition.proposalId transition.transitionId eventType input.evaluatedAt
      (hashRecommendationValue platform (units "proposal-state-audit-input")
        (object [(units "eventType", string eventType.text), (units "transitionId", string transition.transitionId),
          (units "index", eventNumber index)]))
      transitionResultHash none

/-- `appendProposalStateAuditEntry`. -/
def appendProposalStateAuditEntry (existing : List ImmutableAuditLedgerEntry) (record : Evidence) :
    Option (List ImmutableAuditLedgerEntry) :=
  appendAuditEntry platform.localeCompare platform.sha256 (units "proposal-state-engine") existing record

end Audit

section Determinism

variable (platform : Platform)

def determinismInput (transition : ProposalTransitionDeclaration) (result : ProposalTransitionResult)
    (lineage : ProposalLifecycleLineage) (governanceBinding : GovernanceBindingRecord) : Value :=
  object [(units "transition", transition.toValue), (units "result", result.toValue),
    (units "lineage", lineage.toValue), (units "governanceBinding", governanceBinding.toValue)]

/-- The serializers that it compares with the canonicalizer are the canonicalizer itself. -/
def validateProposalStateDeterminism (transition : ProposalTransitionDeclaration) (result : ProposalTransitionResult)
    (lineage : ProposalLifecycleLineage) (governanceBinding : GovernanceBindingRecord) : List ProposalStateError :=
  let canonicalString :=
    canonicalizeRecommendationToString platform (determinismInput transition result lineage governanceBinding)
  let hashOf (canonical : Text) := hashRecommendationValue platform (units "proposal-state-determinism") (string canonical)
  errorIf ((parse canonicalString).map (fun value => hashOf (canonicalizeRecommendationToString platform value)) ≠
      some (hashOf canonicalString)) .ambiguousTransition
    "Proposal state hashing drifted under deterministic validation." "determinism"

end Determinism

section Engine

variable (platform : Platform)

def buildProposalStateFreezeRecord (errors : List ProposalStateError) : ProposalStateFreezeRecord :=
  let reasons := (errors.map ProposalStateError.code).reverse.dedup.reverse
  ⟨decide (.frozen ∈ reasons ∨ .lineageDisputed ∈ reasons), decide (reasons ≠ []), reasons,
    hashRecommendationValue platform (units "proposal-state-freeze")
      (texts (reasons.map ProposalStateErrorCode.text))⟩

def buildStages (errors : List ProposalStateError) : List ProposalStateStageRecord :=
  let reasons := errors.map ProposalStateError.code
  ["transition_validation", "governance_binding", "replay_admissibility", "lineage_registry", "audit_append",
    "determinism_validation", "fail_closed"].map fun stage =>
      ⟨units stage, errors.isEmpty, reasons, hashRecommendationValue platform (units "proposal-state-stage")
        (object [(units "stage", string (units stage)),
          (units "reasons", texts (reasons.map ProposalStateErrorCode.text))])⟩

inductive EngineStatus where
  | completed
  | frozen
  | failedClosed
  deriving DecidableEq

structure ProposalStateEngineResult where
  status : EngineStatus
  transitionResult : ProposalTransitionResult
  lineage : ProposalLifecycleLineage
  governanceBinding : GovernanceBindingRecord
  replayAdmissibility : ProposalReplayAdmissibilityRecord
  auditRecords : List ProposalStateAuditRecord
  auditLedger : List ImmutableAuditLedgerEntry
  freeze : ProposalStateFreezeRecord
  stages : List ProposalStateStageRecord
  errors : List ProposalStateError
  warnings : List String
  deterministicHash : Text

def buildTransitionResult (transition : ProposalTransitionDeclaration) (accepted : Bool)
    (rejectionCode : Option ProposalStateErrorCode) (replayLineageId auditEventId : Text) : ProposalTransitionResult :=
  ⟨accepted, if accepted then some transition.targetState else none, rejectionCode, transition.transitionId,
    transition.proposalId, transition.governanceSnapshotId, replayLineageId, auditEventId⟩

/-- The errors of all checks that come before the lineage is touched. -/
def checkErrors (input : ProposalStateEngineInput) : List ProposalStateError :=
  validateRootInput input ++ (buildGovernanceBindingRecord input).2 ++
    (validateProposalReplayAdmissibility platform input).2 ++
      validateProposalTransition input (validateProposalReplayAdmissibility platform input).1

def initialLineage (input : ProposalStateEngineInput) : ProposalLifecycleLineage :=
  input.existingLineage.getD (buildInitialProposalLineage platform input.transition.proposalId input.currentState
    input.proposalIntegrityResult.createdAt)

/-- None where it throws. -/
def evaluateProposalStateTransition (input : ProposalStateEngineInput) : Option ProposalStateEngineResult :=
  let transition := input.transition
  let governanceBinding := (buildGovernanceBindingRecord input).1
  let replayAdmissibility := (validateProposalReplayAdmissibility platform input).1
  let checked := checkErrors platform input
  let accepted := checked.isEmpty
  let eventType : ProposalStateAuditEventType := if accepted then .applied else .rejected
  let auditEventId := transition.transitionId ++ units ":" ++ eventType.text
  let seed := buildTransitionResult transition accepted (checked.head?.map ProposalStateError.code)
    replayAdmissibility.replayLineageId auditEventId
  let lineage :=
    if accepted then
      applyProposalLineageTransition (initialLineage platform input) transition transition.targetState governanceBinding
        replayAdmissibility.replayLineageId auditEventId input.evaluatedAt
    else initialLineage platform input
  let errors := checked ++ validateProposalStateDeterminism platform transition seed lineage governanceBinding
  let freeze := buildProposalStateFreezeRecord platform errors
  let status : EngineStatus :=
    if freeze.failedClosed then .failedClosed else if freeze.frozen then .frozen else .completed
  let transitionResult := buildTransitionResult transition (accepted && !freeze.failedClosed)
    (errors.head?.map ProposalStateError.code) replayAdmissibility.replayLineageId auditEventId
  let auditRecords := buildAuditRecords platform input transitionResult.accepted
    (hashRecommendationValue platform (units "proposal-state-transition-result") transitionResult.toValue)
  ((auditRecords.map ProposalStateAuditRecord.evidence).foldlM (appendProposalStateAuditEntry platform)
    (input.existingAuditLedger.getD [])).map fun auditLedger =>
      let errors := errors ++ errorIf (verifyImmutableLedgerChain auditLedger = false) .auditAppendFailed
        "Proposal state audit ledger append did not preserve immutable chain integrity." "auditLedger"
      { status, transitionResult, lineage, governanceBinding, replayAdmissibility, auditRecords, auditLedger
        freeze := buildProposalStateFreezeRecord platform errors
        stages := buildStages platform errors
        errors
        warnings :=
          if transitionResult.accepted then
            ["Proposal transition applied deterministically with append-only lineage preservation."]
          else ["Proposal transition failed closed under constitutional state enforcement."]
        deterministicHash := hashRecommendationValue platform (units "proposal-state-engine-result")
          (object [(units "transitionResult", transitionResult.toValue), (units "lineage", lineage.toValue),
            (units "governanceBinding", governanceBinding.toValue),
            (units "replayAdmissibility", replayAdmissibility.toValue),
            (units "auditHashes", texts (auditRecords.map ProposalStateAuditRecord.entryHash)),
            (units "errorCodes", texts (errors.map fun error => error.code.text))]) }

end Engine

end CommandConsole.Proposals
