import CommandConsole.Learning.ProvenanceLedger

/-! # Durable knowledge

The records of the knowledge repository, their relationships and audit events, and
the requests and results of the four services that change them.
-/
namespace CommandConsole.Knowledge
open CommandConsole.Execution (isBlank trimmed)
open CommandConsole.Learning (KnowledgeScope KnowledgeScopeReference)
set_option autoImplicit false

section Vocabulary

inductive KnowledgeLifecycleState where
  | active
  | superseded
  | archived
  | quarantined
  deriving DecidableEq

inductive KnowledgeClassification where
  | conversation
  | brainstorming
  | suggestion
  | fact
  | preference
  | instruction
  | projectDecision
  | principle
  | procedure
  | correction
  | exception
  | authoritativeRule
  deriving DecidableEq

inductive KnowledgeDisposition where
  | accept
  | reject
  | defer
  | requireValidation
  | requireApproval
  | conflict
  | quarantine
  deriving DecidableEq

inductive ConflictRelationship where
  | agrees
  | duplicates
  | reinforces
  | extends
  | refines
  | qualifies
  | narrows
  | contradicts
  | corrects
  | createsException
  | unrelated
  | uncertain
  deriving DecidableEq

inductive ValidationOutcome where
  | valid
  | invalid
  | requiresClarification
  | requiresEvidence
  | requiresApproval
  | conflictReviewRequired
  | quarantined
  deriving DecidableEq

inductive LearningDecisionReasonCode where
  | acceptedForAdmission
  | validationRequiresCompletion
  | conflictReviewRequired
  | validationQuarantined
  | validationRejected
  | approvalPending
  | approvalRejected
  | approvalExpired
  | approvalScopeIncompatible
  | approvalContextIncomplete
  | upstreamResultInconsistent
  | policyContextIncomplete
  | constitutionalMutationProhibited
  | authorityMutationProhibited
  | automaticConversationLearningProhibited
  | unknownScopePromotionProhibited
  | silentConflictResolutionProhibited
  | procedurePermissionEscalationProhibited
  | agentEvidenceSelfValidationProhibited
  deriving DecidableEq

inductive ScopeResolutionStatus where
  | resolved
  | ambiguous
  | unresolved
  | conflicting
  deriving DecidableEq

inductive ClassificationSourceType where
  | operatorStatement
  | conversation
  | agentOutput
  | document
  | repository
  | toolResult
  | externalSource
  | systemConfiguration
  deriving DecidableEq

end Vocabulary

section Records

structure ClassificationProvenance where
  observationId : String
  sourceId : String
  sourceType : ClassificationSourceType
  originatingActorId : String
  observedAt : String
  correlationId : Option String
  deriving DecidableEq

structure KnowledgeLineage where
  candidateId : String
  observationId : String
  classificationRationaleCode : String
  scopeRationaleCode : String
  conflictRelationship : ConflictRelationship
  validationOutcome : ValidationOutcome
  decisionReasonCode : LearningDecisionReasonCode
  deriving DecidableEq

structure DurableKnowledgeRecord where
  knowledgeId : String
  candidateId : String
  content : String
  classification : KnowledgeClassification
  scope : KnowledgeScopeReference
  lifecycleState : KnowledgeLifecycleState
  createdAt : String
  effectiveFrom : String
  provenance : ClassificationProvenance
  lineage : KnowledgeLineage
  policyVersion : String
  constitutionVersion : String
  deriving DecidableEq

structure KnowledgeSupersession where
  supersessionId : String
  priorKnowledgeId : String
  replacementKnowledgeId : String
  reason : String
  occurredAt : String
  provenance : ClassificationProvenance
  policyVersion : String
  constitutionVersion : String
  deriving DecidableEq

structure KnowledgeException where
  exceptionId : String
  baseKnowledgeId : String
  exceptionKnowledgeId : String
  applicabilityCondition : String
  reason : String
  occurredAt : String
  provenance : ClassificationProvenance
  policyVersion : String
  constitutionVersion : String
  deriving DecidableEq

/-- The two states that a record can be retired to. -/
inductive RetiredState where
  | archived
  | quarantined
  deriving DecidableEq

def RetiredState.state : RetiredState → KnowledgeLifecycleState
  | archived => .archived
  | quarantined => .quarantined

def RetiredState.text : RetiredState → String
  | archived => "ARCHIVED"
  | quarantined => "QUARANTINED"

def RetiredState.lowerText : RetiredState → String
  | archived => "archived"
  | quarantined => "quarantined"

inductive KnowledgeAuditEvent where
  | admitted (eventId knowledgeId candidateId occurredAt : String) (decisionReasonCode : LearningDecisionReasonCode)
      (policyVersion constitutionVersion : String) (provenance : ClassificationProvenance)
  | superseded (eventId supersessionId priorKnowledgeId replacementKnowledgeId occurredAt policyVersion
      constitutionVersion : String) (provenance : ClassificationProvenance)
  | exceptionRegistered (eventId exceptionId baseKnowledgeId exceptionKnowledgeId occurredAt policyVersion
      constitutionVersion : String) (provenance : ClassificationProvenance)
  | lifecycleChanged (eventId knowledgeId : String) (newLifecycleState : RetiredState)
      (reason occurredAt policyVersion constitutionVersion : String) (provenance : ClassificationProvenance)
  deriving DecidableEq

end Records

section Scopes

def isIdentified : KnowledgeScope → Bool
  | .system | .global => false
  | _ => true

def isValidKnowledgeScopeReference (scope : KnowledgeScopeReference) : Bool :=
  if isIdentified scope.type then scope.id.any fun id => !isBlank id else true

def scopeIdentity (scope : KnowledgeScopeReference) : String :=
  match scope.id with
  | some id => if id = "" then scope.type.text else scope.type.text ++ ":" ++ id
  | none => scope.type.text

inductive ScopeCompatibilityOutcome where
  | compatible
  | incompatible
  | unknown
  deriving DecidableEq

def evaluateScopeCompatibility (knowledgeScope contextScope : KnowledgeScopeReference) : ScopeCompatibilityOutcome :=
  if !isValidKnowledgeScopeReference knowledgeScope || !isValidKnowledgeScopeReference contextScope then .unknown
  else if scopeIdentity knowledgeScope = scopeIdentity contextScope then .compatible
  else .incompatible

end Scopes

section Requests

structure DurableKnowledgeCandidate where
  candidateId : String
  content : String
  classification : KnowledgeClassification
  provenance : ClassificationProvenance
  deriving DecidableEq

structure InformationClassificationResult where
  classification : Option KnowledgeClassification
  provenance : ClassificationProvenance
  rationaleCode : String
  authorityEffect : String
  executionPermissionGranted : Bool
  deriving DecidableEq

structure KnowledgeScopeResolutionResult where
  scope : Option KnowledgeScopeReference
  status : ScopeResolutionStatus
  provenance : ClassificationProvenance
  rationaleCode : String
  authorityEffect : String
  deriving DecidableEq

structure ConflictDetectionResult where
  candidateId : String
  existingKnowledgeId : String
  relationship : ConflictRelationship
  correctionTargetKnowledgeId : Option String
  exceptionTargetKnowledgeId : Option String
  authorityEffect : String
  deriving DecidableEq

structure KnowledgeValidationResult where
  candidateId : String
  outcome : ValidationOutcome
  provenance : ClassificationProvenance
  authorityEffect : String
  executionPermissionGranted : Bool
  deriving DecidableEq

structure LearningDecisionResult where
  candidateId : String
  disposition : KnowledgeDisposition
  reasonCode : LearningDecisionReasonCode
  durableAdmissionEligible : Bool
  policyVersion : String
  constitutionVersion : String
  provenance : ClassificationProvenance
  authorityEffect : String
  executionPermissionGranted : Bool
  deriving DecidableEq

structure KnowledgeAdmissionRequest where
  candidate : DurableKnowledgeCandidate
  classification : InformationClassificationResult
  scopeResolution : KnowledgeScopeResolutionResult
  conflictDetection : ConflictDetectionResult
  validation : KnowledgeValidationResult
  decision : LearningDecisionResult
  deriving DecidableEq

structure KnowledgeSupersessionRequest where
  priorKnowledgeId : String
  replacementKnowledgeId : String
  reason : String
  conflictDetection : ConflictDetectionResult
  deriving DecidableEq

structure KnowledgeExceptionRegistrationRequest where
  baseKnowledgeId : String
  exceptionKnowledgeId : String
  applicabilityCondition : String
  reason : String
  conflictDetection : ConflictDetectionResult
  deriving DecidableEq

structure KnowledgeRetirementRequest where
  knowledgeId : String
  targetLifecycleState : RetiredState
  reason : String
  deriving DecidableEq

end Requests

section Results

inductive PersistenceEffect where
  | created
  | updated
  | none
  deriving DecidableEq

inductive KnowledgeAdmissionReasonCode where
  | knowledgeAdmitted
  | idempotentReplay
  | decisionNotAccepted
  | admissionNotEligible
  | scopeUnresolved
  | lineageInconsistent
  | policyVersionMissing
  | constitutionVersionMissing
  | authorityEffectViolation
  | persistenceFailed
  deriving DecidableEq

inductive KnowledgeAdmissionStatus where
  | admitted
  | rejected
  | persistenceFailed
  deriving DecidableEq

structure KnowledgeAdmissionResult where
  status : KnowledgeAdmissionStatus
  reasonCode : KnowledgeAdmissionReasonCode
  knowledgeRecord : Option DurableKnowledgeRecord := none
  auditEvent : Option KnowledgeAuditEvent := none
  created : Bool := false
  idempotentReplay : Bool := false
  persistenceEffect : PersistenceEffect := .none
  deriving DecidableEq

inductive KnowledgeSupersessionReasonCode where
  | knowledgeSuperseded
  | idempotentReplay
  | priorKnowledgeNotFound
  | replacementKnowledgeNotFound
  | priorKnowledgeNotActive
  | replacementKnowledgeNotActive
  | replacementNotCorrection
  | correctionReferenceMismatch
  | scopeIncompatible
  | lineageInconsistent
  | authorityEffectViolation
  | persistenceFailed
  deriving DecidableEq

inductive KnowledgeSupersessionStatus where
  | superseded
  | rejected
  | persistenceFailed
  deriving DecidableEq

structure KnowledgeSupersessionResult where
  status : KnowledgeSupersessionStatus
  reasonCode : KnowledgeSupersessionReasonCode
  priorRecord : Option DurableKnowledgeRecord := none
  replacementRecord : Option DurableKnowledgeRecord := none
  relationship : Option KnowledgeSupersession := none
  auditEvent : Option KnowledgeAuditEvent := none
  created : Bool := false
  idempotentReplay : Bool := false
  persistenceEffect : PersistenceEffect := .none
  deriving DecidableEq

inductive KnowledgeExceptionReasonCode where
  | knowledgeExceptionRegistered
  | idempotentReplay
  | baseKnowledgeNotFound
  | exceptionKnowledgeNotFound
  | baseKnowledgeNotActive
  | exceptionKnowledgeNotActive
  | exceptionNotClassified
  | exceptionReferenceMismatch
  | applicabilityConditionMissing
  | scopeIncompatible
  | lineageInconsistent
  | authorityEffectViolation
  | persistenceFailed
  deriving DecidableEq

inductive KnowledgeExceptionStatus where
  | registered
  | rejected
  | persistenceFailed
  deriving DecidableEq

structure KnowledgeExceptionResult where
  status : KnowledgeExceptionStatus
  reasonCode : KnowledgeExceptionReasonCode
  baseRecord : Option DurableKnowledgeRecord := none
  exceptionRecord : Option DurableKnowledgeRecord := none
  relationship : Option KnowledgeException := none
  auditEvent : Option KnowledgeAuditEvent := none
  created : Bool := false
  idempotentReplay : Bool := false
  persistenceEffect : PersistenceEffect := .none
  deriving DecidableEq

inductive KnowledgeRetirementReasonCode where
  | knowledgeArchived
  | knowledgeQuarantined
  | idempotentReplay
  | knowledgeNotFound
  | knowledgeNotActive
  | retirementReasonMissing
  | lineageInconsistent
  | persistenceFailed
  deriving DecidableEq

inductive KnowledgeRetirementStatus where
  | transitioned
  | rejected
  | persistenceFailed
  deriving DecidableEq

structure KnowledgeRetirementResult where
  status : KnowledgeRetirementStatus
  reasonCode : KnowledgeRetirementReasonCode
  priorRecord : Option DurableKnowledgeRecord := none
  updatedRecord : Option DurableKnowledgeRecord := none
  auditEvent : Option KnowledgeAuditEvent := none
  created : Bool := false
  idempotentReplay : Bool := false
  persistenceEffect : PersistenceEffect := .none
  deriving DecidableEq

end Results

end CommandConsole.Knowledge
