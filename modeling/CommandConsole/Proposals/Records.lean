import CommandConsole.Audit.ImmutableLedger
import CommandConsole.Proposals.Canonicalizer

/-! # Records of the proposal state engine

The states of a proposal, the transitions that are declared for it, and what the engine writes
about them.
-/
namespace CommandConsole.Proposals
open Library Value Audit
set_option autoImplicit false

section States

inductive ProposalLifecycleState where
  | generated
  | validated
  | governed
  | reviewed
  | approved
  | denied
  | frozen
  | revoked
  | disputed
  | archived
  deriving DecidableEq

def ProposalLifecycleState.text : ProposalLifecycleState → Text
  | .generated => units "generated"
  | .validated => units "validated"
  | .governed => units "governed"
  | .reviewed => units "reviewed"
  | .approved => units "approved"
  | .denied => units "denied"
  | .frozen => units "frozen"
  | .revoked => units "revoked"
  | .disputed => units "disputed"
  | .archived => units "archived"

def PROPOSAL_TRANSITION_MATRIX : ProposalLifecycleState → List ProposalLifecycleState
  | .generated => [.validated, .frozen, .revoked, .archived]
  | .validated => [.governed, .frozen, .revoked, .archived]
  | .governed => [.reviewed, .frozen, .revoked, .disputed, .archived]
  | .reviewed => [.approved, .denied, .frozen, .revoked, .disputed, .archived]
  | .approved => [.archived, .revoked, .frozen]
  | .denied => [.archived, .revoked]
  | .frozen => [.archived, .revoked, .disputed]
  | .revoked => [.archived]
  | .disputed => [.frozen, .revoked, .archived]
  | .archived => []

def isProposalTransitionAllowed (sourceState targetState : ProposalLifecycleState) : Bool :=
  targetState ∈ PROPOSAL_TRANSITION_MATRIX sourceState

end States

section Declarations

inductive Requester where
  | operator
  | governanceSystem
  | proposalSystem
  deriving DecidableEq

def Requester.text : Requester → Text
  | .operator => units "operator"
  | .governanceSystem => units "governance-system"
  | .proposalSystem => units "proposal-system"

structure ProposalTransitionDeclaration where
  transitionId : Text
  proposalId : Text
  sourceState : ProposalLifecycleState
  targetState : ProposalLifecycleState
  governanceAuthorityId : Text
  governanceSnapshotId : Text
  replayLineageId : Text
  approvalLineageId : Option Text
  dependencyLineageId : Option Text
  auditLineageId : Text
  requestedBy : Requester
  requestedAt : Text
  reason : Text
  deriving DecidableEq

inductive ProposalStateErrorCode where
  | sourceMismatch
  | targetIllegal
  | governanceBindingMissing
  | replayLineageMissing
  | approvalLineageMissing
  | dependencyLineageInvalid
  | auditAppendFailed
  | frozen
  | revoked
  | archived
  | ambiguousTransition
  | lineageDisputed
  deriving DecidableEq

def ProposalStateErrorCode.text : ProposalStateErrorCode → Text
  | .sourceMismatch => units "PROPOSAL_STATE_SOURCE_MISMATCH"
  | .targetIllegal => units "PROPOSAL_STATE_TARGET_ILLEGAL"
  | .governanceBindingMissing => units "PROPOSAL_STATE_GOVERNANCE_BINDING_MISSING"
  | .replayLineageMissing => units "PROPOSAL_STATE_REPLAY_LINEAGE_MISSING"
  | .approvalLineageMissing => units "PROPOSAL_STATE_APPROVAL_LINEAGE_MISSING"
  | .dependencyLineageInvalid => units "PROPOSAL_STATE_DEPENDENCY_LINEAGE_INVALID"
  | .auditAppendFailed => units "PROPOSAL_STATE_AUDIT_APPEND_FAILED"
  | .frozen => units "PROPOSAL_STATE_FROZEN"
  | .revoked => units "PROPOSAL_STATE_REVOKED"
  | .archived => units "PROPOSAL_STATE_ARCHIVED"
  | .ambiguousTransition => units "PROPOSAL_STATE_AMBIGUOUS_TRANSITION"
  | .lineageDisputed => units "PROPOSAL_STATE_LINEAGE_DISPUTED"

structure ProposalStateError where
  code : ProposalStateErrorCode
  message : String
  path : String
  deriving DecidableEq

end Declarations

section Outcomes

structure ProposalTransitionResult where
  accepted : Bool
  resultingState : Option ProposalLifecycleState
  rejectionCode : Option ProposalStateErrorCode
  transitionId : Text
  proposalId : Text
  governanceSnapshotId : Text
  replayLineageId : Text
  auditEventId : Text
  deriving DecidableEq

structure ProposalLifecycleLineage where
  lineageId : Text
  proposalId : Text
  currentState : ProposalLifecycleState
  transitionIds : List Text
  governanceSnapshotIds : List Text
  replayLineageIds : List Text
  approvalLineageIds : List Text
  dependencyLineageIds : List Text
  auditEventIds : List Text
  createdAt : Text
  updatedAt : Text
  deriving DecidableEq

inductive EnforcementResult where
  | allowed
  | blocked
  | frozen
  | revoked
  deriving DecidableEq

def EnforcementResult.text : EnforcementResult → Text
  | .allowed => units "allowed"
  | .blocked => units "blocked"
  | .frozen => units "frozen"
  | .revoked => units "revoked"

structure GovernanceBindingRecord where
  bindingId : Text
  proposalId : Text
  transitionId : Text
  governanceSnapshotId : Text
  governancePolicyVersion : Text
  constitutionalRuleSetVersion : Text
  authorityBasis : Text
  enforcementResult : EnforcementResult
  boundAt : Text
  deriving DecidableEq

structure ProposalReplayAdmissibilityRecord where
  proposalId : Text
  replayAdmissible : Bool
  replayLineageId : Text
  governanceSnapshotId : Text
  admissibilityHash : Text
  deriving DecidableEq

inductive ProposalStateAuditEventType where
  | requested
  | validated
  | rejected
  | applied
  | frozen
  | revoked
  | disputed
  | archived
  deriving DecidableEq

def ProposalStateAuditEventType.text : ProposalStateAuditEventType → Text
  | .requested => units "proposal.state.transition.requested"
  | .validated => units "proposal.state.transition.validated"
  | .rejected => units "proposal.state.transition.rejected"
  | .applied => units "proposal.state.transition.applied"
  | .frozen => units "proposal.state.frozen"
  | .revoked => units "proposal.state.revoked"
  | .disputed => units "proposal.state.disputed"
  | .archived => units "proposal.state.archived"

structure ProposalStateAuditRecord where
  auditEventId : Text
  proposalId : Text
  transitionId : Text
  eventType : ProposalStateAuditEventType
  timestamp : Text
  inputHash : Text
  outputHash : Text
  previousEntryHash : Option Text
  entryHash : Text
  deriving DecidableEq

structure ProposalStateFreezeRecord where
  frozen : Bool
  failedClosed : Bool
  reasons : List ProposalStateErrorCode
  freezeHash : Text
  deriving DecidableEq

structure ProposalStateStageRecord where
  stage : Text
  passed : Bool
  reasons : List ProposalStateErrorCode
  deterministicHash : Text
  deriving DecidableEq

end Outcomes

section Values

/-- A property that may be undefined. -/
def optional (text : Option Text) : Value := text.elim undefined string

def texts (items : List Text) : Value := array (items.map string)

def present (key : String) (text : Option Text) : Members := text.toList.map fun value => (units key, string value)

def ProposalTransitionDeclaration.toValue (transition : ProposalTransitionDeclaration) : Value :=
  object ([(units "transitionId", string transition.transitionId), (units "proposalId", string transition.proposalId),
    (units "sourceState", string transition.sourceState.text), (units "targetState", string transition.targetState.text),
    (units "governanceAuthorityId", string transition.governanceAuthorityId),
    (units "governanceSnapshotId", string transition.governanceSnapshotId),
    (units "replayLineageId", string transition.replayLineageId)] ++
    present "approvalLineageId" transition.approvalLineageId ++
    present "dependencyLineageId" transition.dependencyLineageId ++
    [(units "auditLineageId", string transition.auditLineageId), (units "requestedBy", string transition.requestedBy.text),
      (units "requestedAt", string transition.requestedAt), (units "reason", string transition.reason)])

def ProposalTransitionResult.toValue (result : ProposalTransitionResult) : Value :=
  object [(units "accepted", .bool result.accepted),
    (units "resultingState", optional (result.resultingState.map ProposalLifecycleState.text)),
    (units "rejectionCode", optional (result.rejectionCode.map ProposalStateErrorCode.text)),
    (units "transitionId", string result.transitionId), (units "proposalId", string result.proposalId),
    (units "governanceSnapshotId", string result.governanceSnapshotId),
    (units "replayLineageId", string result.replayLineageId), (units "auditEventId", string result.auditEventId),
    (units "executionAuthorized", .bool false), (units "runtimeMutationOccurred", .bool false),
    (units "scheduledActionCreated", .bool false), (units "authorityChanged", .bool false),
    (units "transitionInferred", .bool false)]

def ProposalLifecycleLineage.toValue (lineage : ProposalLifecycleLineage) : Value :=
  object [(units "lineageId", string lineage.lineageId), (units "proposalId", string lineage.proposalId),
    (units "currentState", string lineage.currentState.text), (units "transitionIds", texts lineage.transitionIds),
    (units "governanceSnapshotIds", texts lineage.governanceSnapshotIds),
    (units "replayLineageIds", texts lineage.replayLineageIds),
    (units "approvalLineageIds", texts lineage.approvalLineageIds),
    (units "dependencyLineageIds", texts lineage.dependencyLineageIds),
    (units "auditEventIds", texts lineage.auditEventIds), (units "createdAt", string lineage.createdAt),
    (units "updatedAt", string lineage.updatedAt)]

def GovernanceBindingRecord.toValue (record : GovernanceBindingRecord) : Value :=
  object [(units "bindingId", string record.bindingId), (units "proposalId", string record.proposalId),
    (units "transitionId", string record.transitionId), (units "governanceSnapshotId", string record.governanceSnapshotId),
    (units "governancePolicyVersion", string record.governancePolicyVersion),
    (units "constitutionalRuleSetVersion", string record.constitutionalRuleSetVersion),
    (units "authorityBasis", string record.authorityBasis),
    (units "enforcementResult", string record.enforcementResult.text), (units "boundAt", string record.boundAt)]

def ProposalReplayAdmissibilityRecord.toValue (record : ProposalReplayAdmissibilityRecord) : Value :=
  object [(units "proposalId", string record.proposalId), (units "replayAdmissible", .bool record.replayAdmissible),
    (units "replayLineageId", string record.replayLineageId),
    (units "governanceSnapshotId", string record.governanceSnapshotId),
    (units "admissibilityHash", string record.admissibilityHash)]

def ProposalStateAuditRecord.toValue (record : ProposalStateAuditRecord) : Value :=
  object [(units "auditEventId", string record.auditEventId), (units "proposalId", string record.proposalId),
    (units "transitionId", string record.transitionId), (units "eventType", string record.eventType.text),
    (units "timestamp", string record.timestamp), (units "inputHash", string record.inputHash),
    (units "outputHash", string record.outputHash), (units "previousEntryHash", optional record.previousEntryHash),
    (units "entryHash", string record.entryHash), (units "appendOnly", .bool true),
    (units "replayCompatible", .bool true), (units "executionAuthorized", .bool false),
    (units "runtimeMutationOccurred", .bool false), (units "scheduledActionCreated", .bool false),
    (units "authorityChanged", .bool false), (units "operatorReviewRequired", .bool true)]

end Values

section Shapes

def plainKeys (keys : List Text) : Bool := decide keys.Nodup && keys.all fun key => decide (arrayIndex? key = none)

theorem isRecord_object {members : Members} (hKeys : plainKeys (members.map Prod.fst) = true)
    (hMembers : ∀ member ∈ members, isRecord member.2 = true) : isRecord (object members) = true :=
  every_object.mpr ⟨hKeys, hMembers⟩

theorem isRecord_string (text : Text) : isRecord (string text) = true := every_atom rfl

theorem isRecord_bool (truth : Bool) : isRecord (.bool truth) = true := every_atom rfl

theorem isRecord_optional (text : Option Text) : isRecord (optional text) = true := by
  cases text <;> exact every_atom rfl

theorem isRecord_texts (items : List Text) : isRecord (texts items) = true :=
  every_array.mpr (List.forall_mem_map.mpr fun item _ => isRecord_string item)

theorem distinctKeys_of_isRecord {value : Value} (h : isRecord value) : distinctKeys value := by
  induction value using Value.induction with
  | atom value hAtom => exact every_atom hAtom
  | array items ih => exact every_array.mpr fun item hItem => ih item hItem (every_array.mp h item hItem)
  | object members ih =>
    obtain ⟨hKeys, hMembers⟩ := every_object.mp h
    rw [Bool.and_eq_true] at hKeys
    exact every_object.mpr ⟨hKeys.1, fun member hMember => ih member hMember (hMembers member hMember)⟩

theorem ProposalTransitionDeclaration.isRecord (transition : ProposalTransitionDeclaration) :
    isRecord transition.toValue = true := by
  refine isRecord_object ?_ ?_
  · obtain ⟨_, _, _, _, _, _, _, approval, dependency, _, _, _, _⟩ := transition
    cases approval <;> cases dependency <;>
      simp only [present, Option.toList_none, Option.toList_some, List.map_append, List.map_cons, List.map_nil,
        List.append_nil] <;> decide +kernel
  · simp only [List.forall_mem_append, List.forall_mem_cons, present, List.forall_mem_map, isRecord_string, true_and,
      implies_true, List.not_mem_nil, false_implies]

theorem ProposalTransitionResult.isRecord (result : ProposalTransitionResult) : isRecord result.toValue = true := by
  refine isRecord_object ?_ ?_
  · simp only [List.map_cons, List.map_nil]
    decide +kernel
  · simp only [List.forall_mem_cons, isRecord_string, isRecord_bool, isRecord_optional, true_and, List.not_mem_nil,
      false_implies, implies_true]

theorem ProposalLifecycleLineage.isRecord (lineage : ProposalLifecycleLineage) : isRecord lineage.toValue = true := by
  refine isRecord_object ?_ ?_
  · simp only [List.map_cons, List.map_nil]
    decide +kernel
  · simp only [List.forall_mem_cons, isRecord_string, isRecord_texts, true_and, List.not_mem_nil, false_implies,
      implies_true]

theorem GovernanceBindingRecord.isRecord (record : GovernanceBindingRecord) : isRecord record.toValue = true := by
  refine isRecord_object ?_ ?_
  · simp only [List.map_cons, List.map_nil]
    decide +kernel
  · simp only [List.forall_mem_cons, isRecord_string, true_and, List.not_mem_nil, false_implies, implies_true]

theorem ProposalStateAuditRecord.isRecord (record : ProposalStateAuditRecord) : isRecord record.toValue = true := by
  refine isRecord_object ?_ ?_
  · simp only [List.map_cons, List.map_nil]
    decide +kernel
  · simp only [List.forall_mem_cons, isRecord_string, isRecord_bool, isRecord_optional, true_and, List.not_mem_nil,
      false_implies, implies_true]

def ProposalStateAuditRecord.evidence (record : ProposalStateAuditRecord) : Evidence :=
  ⟨record.toValue, distinctKeys_of_isRecord record.isRecord⟩

end Shapes

end CommandConsole.Proposals
