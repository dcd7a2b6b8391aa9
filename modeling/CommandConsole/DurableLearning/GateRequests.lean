import CommandConsole.Library.JsonText
import CommandConsole.Knowledge.Records

/-! # Requests of the durable learning gate

What the gate reads of a request, and the part of the request that its fingerprint covers as a
JavaScript value. The properties that only the fingerprint reads are kept as they are.
-/
namespace CommandConsole.DurableLearning
open Library Library.Value
open CommandConsole.Learning (KnowledgeScope KnowledgeScopeReference)
open CommandConsole.Knowledge
set_option autoImplicit false

section Vocabulary

inductive ClassificationStatus where
  | classified
  | proposed
  | ambiguous
  deriving DecidableEq

inductive ProposedDurability where
  | none
  | session
  | workspace
  | durableCandidate
  deriving DecidableEq

inductive LearningIntent where
  | explicit
  | approved
  | implicit
  | none
  | unknown
  deriving DecidableEq

inductive TeachBackRequirement where
  | notRequired
  | optional
  | required
  deriving DecidableEq

inductive TeachBackOutcome where
  | pass
  | passWithUncertainty
  | partiallyPassed
  | clarificationRequired
  | fail
  deriving DecidableEq

inductive AuthorityGateDecision where
  | allow
  | review
  | deny
  deriving DecidableEq

inductive ConflictGateDecision where
  | allow
  | block
  deriving DecidableEq

inductive EvidenceStatus where
  | supported
  | provisionallySupported
  | mixed
  | conflicting
  | weaklySupported
  | insufficientEvidence
  | unsupported
  | refuted
  | unresolved
  deriving DecidableEq

inductive EpistemicStatus where
  | unassessed
  | insufficientEvidence
  | provisionallySupported
  | supported
  | stronglySupported
  | mixed
  | conflicting
  | suspendedJudgment
  | unsupported
  | rejected
  | refuted
  | unresolved
  deriving DecidableEq

end Vocabulary

section Requests

structure ScopeDetails where
  displayName : Option String := none
  parentScope : Option KnowledgeScopeReference := none
  deriving DecidableEq

structure GateScope where
  reference : KnowledgeScopeReference
  details : ScopeDetails
  deriving DecidableEq

structure ClassificationResult where
  classification : Option KnowledgeClassification
  status : ClassificationStatus
  proposedDurability : ProposedDurability
  rest : Members

structure ScopeResolutionResult where
  scope : Option GateScope
  status : ScopeResolutionStatus
  rest : Members

structure SourceCriticismDecision where
  status : EvidenceStatus
  excludedOutOfScopeSourceIds : List String
  rest : Members

structure EpistemicPosition where
  status : EpistemicStatus
  rest : Members

structure ConstitutionalAdmissionDecision where
  disposition : KnowledgeDisposition
  durableAdmissionEligible : Bool
  deriving DecidableEq

structure TeachBack where
  requirement : TeachBackRequirement
  outcome : Option TeachBackOutcome
  deriving DecidableEq

structure GateContext where
  gateVersion : String
  constitutionVersion : String
  taxonomyVersion : String
  authorityPolicyVersion : String
  validationPolicyVersion : String
  conflictEngineVersion : String
  registryVersion : String
  learningIntent : LearningIntent
  decisionActorId : String
  teachBack : Option TeachBack
  deriving DecidableEq

structure DurableLearningGateRequest where
  evaluationId : String
  candidate : DurableKnowledgeCandidate
  classification : ClassificationResult
  scope : ScopeResolutionResult
  authority : AuthorityGateDecision
  conflict : ConflictGateDecision
  validation : ValidationOutcome
  constitution : ConstitutionalAdmissionDecision
  sourceCriticism : Option SourceCriticismDecision
  epistemicPosition : Option EpistemicPosition
  context : GateContext

end Requests

section Texts

def classificationText : KnowledgeClassification → String
  | .conversation => "CONVERSATION"
  | .brainstorming => "BRAINSTORMING"
  | .suggestion => "SUGGESTION"
  | .fact => "FACT"
  | .preference => "PREFERENCE"
  | .instruction => "INSTRUCTION"
  | .projectDecision => "PROJECT_DECISION"
  | .principle => "PRINCIPLE"
  | .procedure => "PROCEDURE"
  | .correction => "CORRECTION"
  | .exception => "EXCEPTION"
  | .authoritativeRule => "AUTHORITATIVE_RULE"

def sourceTypeText : ClassificationSourceType → String
  | .operatorStatement => "OPERATOR_STATEMENT"
  | .conversation => "CONVERSATION"
  | .agentOutput => "AGENT_OUTPUT"
  | .document => "DOCUMENT"
  | .repository => "REPOSITORY"
  | .toolResult => "TOOL_RESULT"
  | .externalSource => "EXTERNAL_SOURCE"
  | .systemConfiguration => "SYSTEM_CONFIGURATION"

def ClassificationStatus.text : ClassificationStatus → String
  | classified => "CLASSIFIED"
  | proposed => "PROPOSED"
  | ambiguous => "AMBIGUOUS"

def ProposedDurability.text : ProposedDurability → String
  | none => "NONE"
  | session => "SESSION"
  | workspace => "WORKSPACE"
  | durableCandidate => "DURABLE_CANDIDATE"

def scopeStatusText : ScopeResolutionStatus → String
  | .resolved => "RESOLVED"
  | .ambiguous => "AMBIGUOUS"
  | .unresolved => "UNRESOLVED"
  | .conflicting => "CONFLICTING"

def LearningIntent.text : LearningIntent → String
  | explicit => "EXPLICIT"
  | approved => "APPROVED"
  | implicit => "IMPLICIT"
  | none => "NONE"
  | unknown => "UNKNOWN"

def TeachBackRequirement.text : TeachBackRequirement → String
  | notRequired => "NOT_REQUIRED"
  | optional => "OPTIONAL"
  | required => "REQUIRED"

def TeachBackOutcome.text : TeachBackOutcome → String
  | pass => "PASS"
  | passWithUncertainty => "PASS_WITH_UNCERTAINTY"
  | partiallyPassed => "PARTIAL"
  | clarificationRequired => "CLARIFICATION_REQUIRED"
  | fail => "FAIL"

def EvidenceStatus.text : EvidenceStatus → String
  | supported => "SUPPORTED"
  | provisionallySupported => "PROVISIONALLY_SUPPORTED"
  | mixed => "MIXED"
  | conflicting => "CONFLICTING"
  | weaklySupported => "WEAKLY_SUPPORTED"
  | insufficientEvidence => "INSUFFICIENT_EVIDENCE"
  | unsupported => "UNSUPPORTED"
  | refuted => "REFUTED"
  | unresolved => "UNRESOLVED"

def EpistemicStatus.text : EpistemicStatus → String
  | unassessed => "UNASSESSED"
  | insufficientEvidence => "INSUFFICIENT_EVIDENCE"
  | provisionallySupported => "PROVISIONALLY_SUPPORTED"
  | supported => "SUPPORTED"
  | stronglySupported => "STRONGLY_SUPPORTED"
  | mixed => "MIXED"
  | conflicting => "CONFLICTING"
  | suspendedJudgment => "SUSPENDED_JUDGMENT"
  | unsupported => "UNSUPPORTED"
  | rejected => "REJECTED"
  | refuted => "REFUTED"
  | unresolved => "UNRESOLVED"

end Texts

section Values

/-- The UTF-16 code units of a text. -/
def codeUnits (text : String) : Text :=
  text.toList.flatMap fun c =>
    if c.toNat < 0x10000 then [c.toNat]
    else [0xD800 + (c.toNat - 0x10000) / 0x400, 0xDC00 + (c.toNat - 0x10000) % 0x400]

def textValue (text : String) : Value := string (codeUnits text)

def optionValue {α : Type} (f : α → Value) (value : Option α) : Value := (value.map f).getD undefined

def referenceMembers (reference : KnowledgeScopeReference) : Members :=
  [(units "type", textValue reference.type.text), (units "id", optionValue textValue reference.id)]

def GateScope.toValue (scope : GateScope) : Value :=
  object (referenceMembers scope.reference ++
    [(units "displayName", optionValue textValue scope.details.displayName),
     (units "parentScope", optionValue (fun parent => object (referenceMembers parent)) scope.details.parentScope)])

def provenanceValue (provenance : ClassificationProvenance) : Value :=
  object
    [(units "observationId", textValue provenance.observationId),
     (units "sourceId", textValue provenance.sourceId),
     (units "sourceType", textValue (sourceTypeText provenance.sourceType)),
     (units "originatingActorId", textValue provenance.originatingActorId),
     (units "observedAt", textValue provenance.observedAt),
     (units "correlationId", optionValue textValue provenance.correlationId)]

def candidateValue (candidate : DurableKnowledgeCandidate) : Value :=
  object
    [(units "candidateId", textValue candidate.candidateId),
     (units "content", textValue candidate.content),
     (units "classification", textValue (classificationText candidate.classification)),
     (units "provenance", provenanceValue candidate.provenance)]

def ClassificationResult.toValue (result : ClassificationResult) : Value :=
  object
    ([(units "classification", optionValue (fun classification => textValue (classificationText classification))
        result.classification),
      (units "status", textValue result.status.text),
      (units "proposedDurability", textValue result.proposedDurability.text)] ++ result.rest)

def ScopeResolutionResult.toValue (result : ScopeResolutionResult) : Value :=
  object
    ([(units "scope", optionValue GateScope.toValue result.scope),
      (units "status", textValue (scopeStatusText result.status))] ++ result.rest)

def SourceCriticismDecision.toValue (decision : SourceCriticismDecision) : Value :=
  object
    ([(units "status", textValue decision.status.text),
      (units "excludedOutOfScopeSourceIds", array (decision.excludedOutOfScopeSourceIds.map textValue))] ++
        decision.rest)

def EpistemicPosition.toValue (position : EpistemicPosition) : Value :=
  object ((units "status", textValue position.status.text) :: position.rest)

def TeachBack.toValue (teachBack : TeachBack) : Value :=
  object
    [(units "requirement", textValue teachBack.requirement.text),
     (units "outcome", optionValue (fun outcome => textValue outcome.text) teachBack.outcome)]

def GateContext.toValue (context : GateContext) : Value :=
  object
    [(units "gateVersion", textValue context.gateVersion),
     (units "constitutionVersion", textValue context.constitutionVersion),
     (units "taxonomyVersion", textValue context.taxonomyVersion),
     (units "authorityPolicyVersion", textValue context.authorityPolicyVersion),
     (units "validationPolicyVersion", textValue context.validationPolicyVersion),
     (units "conflictEngineVersion", textValue context.conflictEngineVersion),
     (units "registryVersion", textValue context.registryVersion),
     (units "learningIntent", textValue context.learningIntent.text),
     (units "decisionActorId", textValue context.decisionActorId),
     (units "teachBack", optionValue TeachBack.toValue context.teachBack)]

/-- The part of the request that the fingerprint is taken of. -/
def DurableLearningGateRequest.fingerprinted (request : DurableLearningGateRequest) : Value :=
  object
    [(units "candidate", candidateValue request.candidate),
     (units "classification", request.classification.toValue),
     (units "scope", request.scope.toValue),
     (units "sourceCriticism", optionValue SourceCriticismDecision.toValue request.sourceCriticism),
     (units "epistemicPosition", optionValue EpistemicPosition.toValue request.epistemicPosition),
     (units "context", request.context.toValue)]

end Values

end CommandConsole.DurableLearning
