import CommandConsole.Governance.SemanticKeys

/-! # Conflicts of knowledge and authority

A submission is compared with an entry: in one scope and under one semantic key the normalized
values decide. A second detector says what the comparison means for the authorities of the two,
and a gate that fails closed decides whether the submission is admitted.
-/
namespace CommandConsole.Governance
open Library
open Execution (isBlank truthy)
set_option autoImplicit false

section Vocabulary

inductive KnowledgeScopeType where
  | conversation
  | session
  | user
  | agent
  | project
  | workspace
  | organization
  | domain
  | component
  | task
  | system
  | global
  deriving DecidableEq

inductive KnowledgeClassification where
  | conversation
  | brainstorming
  | suggestion
  | fact
  | preference
  | instruction
  | projectDecision
  | principle
  | procedure
  | correction
  | exception
  | authoritativeRule
  deriving DecidableEq

inductive ConflictRelationship where
  | agrees
  | duplicates
  | reinforces
  | extends
  | refines
  | qualifies
  | narrows
  | contradicts
  | corrects
  | createsException
  | unrelated
  | uncertain
  deriving DecidableEq

inductive AuthorityType where
  | humanDirective
  | humanDecision
  | humanCorrection
  | humanPreference
  | approvedPolicy
  | approvedReference
  | verifiedExternalInformation
  | agentDerived
  | agentInferred
  | agentHypothesis
  deriving DecidableEq

structure ParentScopeReference where
  type : KnowledgeScopeType
  id : Option String
  deriving DecidableEq

structure KnowledgeScopeReference where
  type : KnowledgeScopeType
  id : Option String
  parentScope : Option ParentScopeReference
  deriving DecidableEq

/-- What the code gets from its platform. `normalize` is `normalizeSemanticIdentity`, that is
`value.trim().replace(/\s+/g, " ").toLocaleLowerCase()`. -/
structure Platform where
  normalize : String → String
  normalize_normalize : ∀ text, normalize (normalize text) = normalize text
  isHttpUrl : String → Bool

/-- The text `authority:` followed by the id of the knowledge. -/
structure AuthorityId where
  knowledgeId : String
  deriving DecidableEq

def AuthorityId.text (id : AuthorityId) : String := "authority:" ++ id.knowledgeId

structure AuthorityProvenance where
  observationId : String
  sourceId : String
  originatingActorId : String
  deriving DecidableEq

structure AuthorityRecord where
  authorityId : AuthorityId
  authorityType : AuthorityType
  authoritySource : String
  sourceIdentity : String
  scope : KnowledgeScopeReference
  establishedAt : Nat
  effectiveFrom : Nat
  effectiveUntil : Option Nat
  supersedes : List AuthorityId
  approvedBy : Option String
  approvalRecord : Option String
  delegatedFrom : Option String
  provenance : AuthorityProvenance
  deriving DecidableEq

end Vocabulary

section Scopes

/-- The text of `type` and `id`, or of the type alone where there is no id. -/
def KnowledgeScopeReference.identity (scope : KnowledgeScopeReference) : KnowledgeScopeType × Option String :=
  (scope.type, truthy scope.id)

def ParentScopeReference.identity (scope : ParentScopeReference) : KnowledgeScopeType × Option String :=
  (scope.type, truthy scope.id)

def isValidKnowledgeScopeReference (scope : KnowledgeScopeReference) : Bool :=
  match scope.type with
  | .system => true
  | .global => true
  | _ => scope.id.any fun id => !isBlank id

inductive ScopeCompatibility where
  | compatible
  | incompatible
  | unknown
  deriving DecidableEq

def evaluateScopeCompatibility (knowledgeScope contextScope : KnowledgeScopeReference) : ScopeCompatibility :=
  if !isValidKnowledgeScopeReference knowledgeScope || !isValidKnowledgeScopeReference contextScope then .unknown
  else if knowledgeScope.identity = contextScope.identity then .compatible
  else .incompatible

theorem evaluateScopeCompatibility_eq_compatible {left right : KnowledgeScopeReference}
    (hLeft : isValidKnowledgeScopeReference left = true) (hRight : isValidKnowledgeScopeReference right = true)
    (hIdentity : left.identity = right.identity) : evaluateScopeCompatibility left right = .compatible := by
  simp only [evaluateScopeCompatibility, hLeft, hRight, hIdentity, Bool.not_true, Bool.or_self, Bool.false_eq_true,
    if_false, if_true]

end Scopes

section Knowledge

structure KnowledgeComparisonSubject where
  knowledgeId : String
  content : String
  classification : KnowledgeClassification
  scope : KnowledgeScopeReference
  semanticKey : Option String
  value : Option String
  qualifiers : List String
  supersedesKnowledgeIds : List String
  exceptionToKnowledgeIds : List String
  deriving DecidableEq

inductive ConflictDetectionStatus where
  | assessed
  | uncertain
  | outOfScope
  deriving DecidableEq

/-- The confidence is in percent. -/
structure ConflictDetectionResult where
  relationship : ConflictRelationship
  confidence : Nat
  status : ConflictDetectionStatus
  rationaleCode : String
  matchedFields : List String
  requiresValidation : Bool
  requiresClarification : Bool
  requiresApproval : Bool
  deriving DecidableEq

variable (platform : Platform)

def isSuperset (candidate existing : List String) : Bool :=
  existing.all fun value => platform.normalize value ∈ candidate.map platform.normalize

def hasAdditionalValues (candidate existing : List String) : Bool :=
  (existing.map platform.normalize).eraseDups.length < (candidate.map platform.normalize).eraseDups.length

/-- `/^word/i` for a word in lower case. -/
def startsWithWord (word text : String) : Bool := word.toList.isPrefixOf (text.toList.map Char.toLower)

def qualifierRelationship (candidate existing : KnowledgeComparisonSubject) : Option ConflictRelationship :=
  if !isSuperset platform candidate.qualifiers existing.qualifiers ||
      !hasAdditionalValues platform candidate.qualifiers existing.qualifiers then none
  else if candidate.qualifiers.any fun qualifier =>
      startsWithWord "when:" qualifier || startsWithWord "only:" qualifier || startsWithWord "if:" qualifier then
    some .qualifies
  else if candidate.qualifiers.any (startsWithWord "constraint:") then some .narrows
  else some .refines

def detectConflictConservatively (candidate existing : KnowledgeComparisonSubject) : ConflictDetectionResult :=
  if evaluateScopeCompatibility candidate.scope existing.scope ≠ .compatible then
    ⟨.unrelated, 100, .outOfScope, "INCOMPATIBLE_SCOPE", ["scope"], false, false, false⟩
  else if candidate.classification = .correction ∧ existing.knowledgeId ∈ candidate.supersedesKnowledgeIds then
    ⟨.corrects, 98, .assessed, "EXPLICIT_CORRECTION_REFERENCE", ["supersedesKnowledgeIds"], true, false, true⟩
  else if candidate.classification = .exception ∧ existing.knowledgeId ∈ candidate.exceptionToKnowledgeIds then
    ⟨.createsException, 98, .assessed, "EXPLICIT_EXCEPTION_REFERENCE", ["exceptionToKnowledgeIds"], true, false, true⟩
  else match truthy candidate.semanticKey, truthy existing.semanticKey with
    | some key, some key' =>
      if platform.normalize key ≠ platform.normalize key' then
        ⟨.unrelated, 90, .assessed, "DIFFERENT_SEMANTIC_KEY", ["semanticKey"], false, false, false⟩
      else match truthy candidate.value, truthy existing.value with
        | some value, some value' =>
          if platform.normalize value ≠ platform.normalize value' then
            ⟨.contradicts, 95, .assessed, "EXCLUSIVE_VALUE_MISMATCH", ["semanticKey", "value"], true, false, true⟩
          else match qualifierRelationship platform candidate existing with
            | some relationship =>
              ⟨relationship, 90, .assessed, "ADDITIONAL_QUALIFIERS", ["semanticKey", "value", "qualifiers"], true,
                false, false⟩
            | none =>
              if platform.normalize candidate.content = platform.normalize existing.content then
                ⟨.duplicates, 100, .assessed, "EXACT_CONTENT_MATCH", ["content"], false, false, false⟩
              else
                ⟨.agrees, 90, .assessed, "MATCHING_SEMANTIC_VALUE", ["semanticKey", "value"], false, false, false⟩
        | _, _ =>
          ⟨.uncertain, 0, .uncertain, "MISSING_COMPARISON_VALUE", ["semanticKey"], true, true, false⟩
    | _, _ =>
      if platform.normalize candidate.content = platform.normalize existing.content then
        ⟨.duplicates, 100, .assessed, "EXACT_CONTENT_MATCH", ["content"], false, false, false⟩
      else ⟨.uncertain, 0, .uncertain, "MISSING_SEMANTIC_KEY", [], true, true, false⟩

end Knowledge

section Authority

inductive AuthorityRelationshipIntent where
  | coexist
  | supersede
  | correct
  | revoke
  deriving DecidableEq

inductive AuthorityPrecedenceOutcome where
  | coexist
  | supersede
  | correct
  | requireReview
  deriving DecidableEq

structure AuthorityPrecedenceResult where
  outcome : AuthorityPrecedenceOutcome
  reasonCode : String
  deriving DecidableEq

/-- `ScopeAwareAuthorityPrecedenceEvaluator.evaluate`. -/
def evaluatePrecedence (existing incoming : AuthorityRecord) (relationshipIntent : AuthorityRelationshipIntent) :
    AuthorityPrecedenceResult :=
  if evaluateScopeCompatibility existing.scope incoming.scope ≠ .compatible then
    ⟨.coexist, "SCOPES_DO_NOT_OVERLAP"⟩
  else if existing.effectiveUntil.any fun expiresAt => expiresAt < incoming.effectiveFrom then
    ⟨.coexist, "EXISTING_AUTHORITY_ALREADY_EXPIRED"⟩
  else if relationshipIntent = .coexist then ⟨.coexist, "NO_REPLACEMENT_CLAIM"⟩
  else if relationshipIntent = .revoke then ⟨.requireReview, "EXPLICIT_REVOCATION_REQUIRES_REVIEW"⟩
  else if existing.authorityId ∉ incoming.supersedes then ⟨.requireReview, "SUPERSESSION_REFERENCE_MISSING"⟩
  else if existing.sourceIdentity ≠ incoming.sourceIdentity then ⟨.requireReview, "SOURCE_IDENTITY_MISMATCH"⟩
  else if incoming.effectiveFrom < existing.effectiveFrom then
    ⟨.requireReview, "REPLACEMENT_PREDATES_EXISTING_AUTHORITY"⟩
  else if relationshipIntent = .correct ∧ incoming.authorityType = .humanCorrection then
    ⟨.correct, "EXPLICIT_CORRECTION_CANDIDATE"⟩
  else ⟨.supersede, "EXPLICIT_SUPERSESSION_CANDIDATE"⟩

inductive AuthorityConflictOutcome where
  | noConflict
  | coexist
  | supersedeExisting
  | rejectIncoming
  | requireValidation
  | requireHumanReview
  deriving DecidableEq

structure AuthorityConflictResult where
  outcome : AuthorityConflictOutcome
  reasonCode : String
  deriving DecidableEq

def noConflict : AuthorityConflictResult := ⟨.noConflict, "KNOWLEDGE_COMPATIBLE"⟩

def reviewConflict : AuthorityConflictResult := ⟨.requireHumanReview, "CONFLICT_REQUIRES_HUMAN_REVIEW"⟩

def agentAuthorityTypes : List AuthorityType := [.agentDerived, .agentInferred, .agentHypothesis]

def humanAuthorityTypes : List AuthorityType :=
  [.humanDirective, .humanDecision, .humanCorrection, .humanPreference]

def compatibleKnowledgeRelationships : List ConflictRelationship :=
  [.agrees, .duplicates, .reinforces, .extends, .refines, .qualifies, .narrows]

/-- `ConservativeAuthorityConflictDetector.detect`. -/
def detectAuthorityConflict (existingAuthority incomingAuthority : AuthorityRecord)
    (knowledgeConflict : ConflictDetectionResult) (precedence : AuthorityPrecedenceResult) : AuthorityConflictResult :=
  if knowledgeConflict.status = .outOfScope then ⟨.coexist, "SCOPES_DO_NOT_OVERLAP"⟩
  else if knowledgeConflict.relationship = .uncertain ∨ knowledgeConflict.status = .uncertain then
    ⟨.requireValidation, "KNOWLEDGE_RELATIONSHIP_UNCERTAIN"⟩
  else if knowledgeConflict.relationship ∈ compatibleKnowledgeRelationships then noConflict
  else if incomingAuthority.authorityType ∈ agentAuthorityTypes ∧
      existingAuthority.authorityType ∈ humanAuthorityTypes then
    ⟨.rejectIncoming, "AGENT_CLAIM_CANNOT_OVERRIDE_HUMAN_AUTHORITY"⟩
  else if incomingAuthority.authorityType = .humanPreference ∧ existingAuthority.authorityType = .approvedPolicy then
    ⟨.rejectIncoming, "PREFERENCE_CANNOT_OVERRIDE_APPROVED_POLICY"⟩
  else if incomingAuthority.authorityType = .verifiedExternalInformation ∧
      existingAuthority.authorityType = .approvedReference then
    ⟨.requireValidation, "VERIFIED_EXTERNAL_INFORMATION_CHALLENGES_APPROVED_REFERENCE"⟩
  else if (precedence.outcome = .correct ∨ precedence.outcome = .supersede) ∧
      knowledgeConflict.relationship ∈ [ConflictRelationship.corrects, .contradicts] then
    ⟨.supersedeExisting, "EXPLICIT_AUTHORITY_SUPERSESSION"⟩
  else if precedence.outcome = .requireReview then ⟨.requireHumanReview, "PRECEDENCE_REQUIRES_REVIEW"⟩
  else reviewConflict

/-- The outcomes that let a submission through. -/
def AuthorityConflictOutcome.passes (outcome : AuthorityConflictOutcome) : Bool :=
  outcome = .noConflict ∨ outcome = .coexist

def validateAuthorityRecord (record : AuthorityRecord) : Except String Unit :=
  if isBlank record.authorityId.text then .error "authority record authorityId is required"
  else if isBlank record.authoritySource then .error "authority record authoritySource is required"
  else if isBlank record.sourceIdentity then .error "authority record sourceIdentity is required"
  else if record.scope.type ≠ .system ∧ record.scope.type ≠ .global ∧ isBlank (record.scope.id.getD "") then
    .error "identified authority scope requires an identity"
  else if record.effectiveUntil.any fun expiresAt => expiresAt < record.effectiveFrom then
    .error "authority record effectiveUntil must not precede effectiveFrom"
  else if (record.authorityType = .approvedPolicy ∨ record.authorityType = .approvedReference) ∧
      (truthy record.approvedBy = none ∨ truthy record.approvalRecord = none) then
    .error "approved authority requires approver and approval record"
  else if record.provenance.observationId = "" ∨ record.provenance.sourceId = "" then
    .error "authority record provenance requires observation and source identities"
  else .ok ()

end Authority

section Gate

inductive AuthoritySourceClass where
  | human
  | governance
  | reference
  | external
  | agent
  deriving DecidableEq

inductive AgentKnowledgeKind where
  | derived
  | inferred
  | hypothesis
  deriving DecidableEq

structure AuthorityApproval where
  approvedBy : String
  approvalRecord : String
  deriving DecidableEq

structure AuthoritySourceDescriptor where
  sourceClass : AuthoritySourceClass
  sourceIdentity : String
  sourceReference : String
  approval : Option AuthorityApproval
  referenceDesignated : Bool
  externallyVerified : Bool
  agentKnowledgeKind : Option AgentKnowledgeKind
  deriving DecidableEq

/-- An assigned type, or the status REQUIRE_REVIEW. -/
structure AuthorityResolutionResult where
  reasonCode : String
  authorityType : Option AuthorityType
  source : AuthoritySourceDescriptor
  deriving DecidableEq

/-- `ConservativeAuthorityResolver.resolve` of what is classified and whose scope is resolved. -/
def resolveAuthority (classification : KnowledgeClassification) (source : AuthoritySourceDescriptor) :
    AuthorityResolutionResult :=
  match source.sourceClass with
  | .human => match classification with
    | .instruction => ⟨"HUMAN_DIRECTIVE_IDENTIFIED", some .humanDirective, source⟩
    | .projectDecision => ⟨"HUMAN_DECISION_IDENTIFIED", some .humanDecision, source⟩
    | .correction => ⟨"HUMAN_CORRECTION_IDENTIFIED", some .humanCorrection, source⟩
    | .preference => ⟨"HUMAN_PREFERENCE_IDENTIFIED", some .humanPreference, source⟩
    | _ => ⟨"SEMANTICS_DO_NOT_ESTABLISH_AUTHORITY", none, source⟩
  | .governance =>
    if classification = .authoritativeRule ∧
        source.approval.any (fun approval => approval.approvedBy ≠ "" && approval.approvalRecord ≠ "") then
      ⟨"APPROVED_POLICY_IDENTIFIED", some .approvedPolicy, source⟩
    else ⟨"APPROVAL_MISSING", none, source⟩
  | .reference =>
    if source.referenceDesignated then ⟨"APPROVED_REFERENCE_IDENTIFIED", some .approvedReference, source⟩
    else ⟨"REFERENCE_DESIGNATION_MISSING", none, source⟩
  | .external =>
    if source.externallyVerified then
      ⟨"VERIFIED_EXTERNAL_INFORMATION_IDENTIFIED", some .verifiedExternalInformation, source⟩
    else ⟨"EXTERNAL_VERIFICATION_MISSING", none, source⟩
  | .agent => match source.agentKnowledgeKind with
    | none => ⟨"AGENT_KNOWLEDGE_KIND_MISSING", none, source⟩
    | some .derived => ⟨"AGENT_DERIVATION_IDENTIFIED", some .agentDerived, source⟩
    | some .inferred => ⟨"AGENT_INFERENCE_IDENTIFIED", some .agentInferred, source⟩
    | some .hypothesis => ⟨"AGENT_HYPOTHESIS_IDENTIFIED", some .agentHypothesis, source⟩

inductive AuthorityBoundaryOutcome where
  | applies
  | outOfScope
  | requireReview
  deriving DecidableEq

structure AuthorityBoundaryResult where
  outcome : AuthorityBoundaryOutcome
  reasonCode : String
  deriving DecidableEq

/-- `ScopeBoundAuthorityBoundaryEvaluator.evaluate`. -/
def evaluateBoundary (authority : AuthorityRecord) (subjectScope : KnowledgeScopeReference) :
    AuthorityBoundaryResult :=
  if authority.scope.type = .global then ⟨.applies, "GLOBAL_SCOPE"⟩
  else if authority.scope.identity = subjectScope.identity then ⟨.applies, "EXACT_SCOPE_MATCH"⟩
  else if some authority.scope.identity = subjectScope.parentScope.map ParentScopeReference.identity then
    ⟨.applies, "EXPLICIT_DESCENDANT_SCOPE"⟩
  else if authority.scope.type = subjectScope.type then ⟨.outOfScope, "SCOPE_IDENTITY_MISMATCH"⟩
  else ⟨.requireReview, "SCOPE_HIERARCHY_UNRESOLVED"⟩

inductive AuthorityGateDecision where
  | allow
  | review
  | deny
  deriving DecidableEq

structure AuthorityGateResult where
  decision : AuthorityGateDecision
  reasonCode : String
  deriving DecidableEq

/-- `FailClosedAuthorityGate.evaluate`. -/
def evaluateGate (resolution : AuthorityResolutionResult) (authorityRecord : AuthorityRecord)
    (boundary : AuthorityBoundaryResult) (conflict : AuthorityConflictResult) (delegationValid : Bool) :
    AuthorityGateResult :=
  if resolution.authorityType = none then ⟨.review, "UNKNOWN_AUTHORITY"⟩
  else if isBlank resolution.source.sourceIdentity ∨ isBlank resolution.source.sourceReference then
    ⟨.deny, "AMBIGUOUS_SOURCE"⟩
  else if some authorityRecord.authorityType ≠ resolution.authorityType then ⟨.deny, "AUTHORITY_RECORD_MISMATCH"⟩
  else if authorityRecord.authoritySource ≠ resolution.source.sourceReference ∨
      authorityRecord.sourceIdentity ≠ resolution.source.sourceIdentity then
    ⟨.deny, "SOURCE_LINEAGE_MISMATCH"⟩
  else match validateAuthorityRecord authorityRecord with
    | .error _ =>
      if authorityRecord.authorityType = .approvedPolicy ∨ authorityRecord.authorityType = .approvedReference then
        ⟨.deny, "MISSING_APPROVAL"⟩
      else ⟨.deny, "INVALID_AUTHORITY_RECORD"⟩
    | .ok () =>
      if (truthy authorityRecord.delegatedFrom).isSome && !delegationValid then ⟨.deny, "INVALID_DELEGATION"⟩
      else if boundary.outcome = .requireReview then ⟨.review, "UNRESOLVED_SCOPE_BOUNDARY"⟩
      else if boundary.outcome = .outOfScope then ⟨.deny, "OUT_OF_SCOPE_AUTHORITY"⟩
      else if conflict.outcome = .rejectIncoming then ⟨.deny, "CONFLICT_REJECTED"⟩
      else if conflict.outcome = .supersedeExisting then ⟨.review, "SUPERSESSION_REQUIRES_LIFECYCLE"⟩
      else if !conflict.outcome.passes then ⟨.review, "UNRESOLVED_CONFLICT"⟩
      else ⟨.allow, "AUTHORITY_ACCEPTED"⟩

end Gate

section Soundness

variable {platform : Platform} {candidate existing : KnowledgeComparisonSubject}
  {existingAuthority incomingAuthority : AuthorityRecord} {precedence : AuthorityPrecedenceResult}

theorem validateAuthorityRecord_scope {record : AuthorityRecord} (h : validateAuthorityRecord record = .ok ()) :
    isValidKnowledgeScopeReference record.scope = true := by
  have hNamed : ¬(record.scope.type ≠ .system ∧ record.scope.type ≠ .global ∧
      isBlank (record.scope.id.getD "") = true) := by
    intro hBlank
    simp only [validateAuthorityRecord, if_pos hBlank] at h
    repeat' split at h
    all_goals cases h
  cases hScope : record.scope with
  | mk type id parentScope =>
    rw [hScope] at hNamed
    cases type
    case system | global => rfl
    all_goals
      cases id with
      | none => exact absurd ⟨nofun, nofun, rfl⟩ hNamed
      | some text => simpa [isValidKnowledgeScopeReference] using hNamed

/-- What passes the detector of authority conflicts is out of scope or compatible. -/
theorem detectAuthorityConflict_passes {conflict : ConflictDetectionResult}
    (h : (detectAuthorityConflict existingAuthority incomingAuthority conflict precedence).outcome.passes = true) :
    conflict.status = .outOfScope ∨ conflict.relationship ∈ compatibleKnowledgeRelationships := by
  unfold detectAuthorityConflict at h
  repeat' split at h
  case isTrue hStatus => exact .inl hStatus
  case isFalse.isFalse.isTrue hCompatible => exact .inr hCompatible
  all_goals cases h

/-- Knowledge in one scope under one key is compatible only if the values agree. -/
theorem detectConflictConservatively_compatible {key : String}
    (hScope : evaluateScopeCompatibility candidate.scope existing.scope = .compatible)
    (hDecision : candidate.classification = .projectDecision) (hThere : key ≠ "")
    (hKey : candidate.semanticKey = some key) (hKey' : existing.semanticKey = some key)
    (h : (detectConflictConservatively platform candidate existing).status = .outOfScope ∨
      (detectConflictConservatively platform candidate existing).relationship ∈ compatibleKnowledgeRelationships) :
    candidate.value.map platform.normalize = existing.value.map platform.normalize := by
  have hTruthy : truthy (some key) = some key := Option.filter_some_pos (by simpa using hThere)
  unfold detectConflictConservatively at h
  simp only [hScope, hDecision, hKey, hKey', hTruthy, ne_eq, not_true_eq_false, if_false, reduceCtorEq, false_and]
    at h
  cases hValue : truthy candidate.value with
  | none => simp [hValue, compatibleKnowledgeRelationships] at h
  | some value =>
    cases hValue' : truthy existing.value with
    | none => simp [hValue, hValue', compatibleKnowledgeRelationships] at h
    | some value' =>
      have hSame : platform.normalize value = platform.normalize value' := by
        by_contra hNe
        simp [hValue, hValue', hNe, compatibleKnowledgeRelationships] at h
      rw [(Option.filter_eq_some_iff.mp hValue).1, (Option.filter_eq_some_iff.mp hValue').1, Option.map_some,
        Option.map_some, hSame]

/-- The gate lets nothing through but a valid authority without a conflict. -/
theorem evaluateGate_allow {resolution : AuthorityResolutionResult} {record : AuthorityRecord}
    {boundary : AuthorityBoundaryResult} {conflict : AuthorityConflictResult} {delegationValid : Bool}
    (h : (evaluateGate resolution record boundary conflict delegationValid).decision = .allow) :
    validateAuthorityRecord record = .ok () ∧ conflict.outcome.passes = true := by
  unfold evaluateGate at h
  cases hValid : validateAuthorityRecord record with
  | error message =>
    simp only [hValid] at h
    repeat' split at h
    all_goals cases h
  | ok =>
    refine ⟨rfl, ?_⟩
    by_contra hStops
    simp only [hValid, eq_false_of_ne_true hStops, Bool.not_false, if_true] at h
    repeat' split at h
    all_goals cases h

end Soundness

end CommandConsole.Governance
