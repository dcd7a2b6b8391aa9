import CommandConsole.Knowledge.Repository

/-! # Admission, supersession, exception registration and retirement

Each service checks its request, writes the repository and then appends to the audit
ledger, and maps what either of the two throws to PERSISTENCE_FAILED. A call joins the
operation of its map that is in flight under its key.
-/
namespace CommandConsole.Knowledge
open Library
open CommandConsole.Execution (isBlank trimmed)
open CommandConsole.Learning (KnowledgeScopeReference)
set_option autoImplicit false

/-- How the services make up ids. Two candidates never get the same knowledge id. -/
structure KnowledgeIds where
  createKnowledgeId : String → String
  createAdmissionAuditEventId : String → String
  createSupersessionId : String → String
  createSupersessionAuditEventId : String → String
  createExceptionId : String → String
  createExceptionAuditEventId : String → String
  createRetirementAuditEventId : String → RetiredState → String
  createKnowledgeId_injective : Function.Injective createKnowledgeId

def KnowledgeIds.default : KnowledgeIds where
  createKnowledgeId candidateId := "knowledge:" ++ candidateId
  createAdmissionAuditEventId knowledgeId := "audit:" ++ knowledgeId
  createSupersessionId id := "supersession:" ++ id
  createSupersessionAuditEventId id := "audit:" ++ id
  createExceptionId id := "exception:" ++ id
  createExceptionAuditEventId id := "audit:" ++ id
  createRetirementAuditEventId id state := "audit:" ++ state.lowerText ++ ":" ++ id
  createKnowledgeId_injective _ _ h := String.append_right_inj _ |>.mp h

abbrev Action (α : Type) : Type := Script Command Command.Answer α

def failedUnless {α : Type} (failed : α) (body : Action α) : Action α := do
  let outcome ← body.attempt
  pure (outcome.getD failed)

section Admission

def sameProvenance (left right : ClassificationProvenance) : Bool :=
  left.observationId = right.observationId ∧ left.sourceId = right.sourceId ∧
    left.sourceType = right.sourceType ∧ left.originatingActorId = right.originatingActorId ∧
    left.observedAt = right.observedAt

def admissionRejection (reasonCode : KnowledgeAdmissionReasonCode) : KnowledgeAdmissionResult where
  status := .rejected
  reasonCode := reasonCode

def admissionFailed : KnowledgeAdmissionResult where
  status := .persistenceFailed
  reasonCode := .persistenceFailed

/-- The scope of the new record, or the reason to refuse the request. -/
def verifyAdmission (request : KnowledgeAdmissionRequest) :
    Except KnowledgeAdmissionReasonCode KnowledgeScopeReference :=
  if request.decision.disposition ≠ .accept then .error .decisionNotAccepted
  else if !request.decision.durableAdmissionEligible then .error .admissionNotEligible
  else
    match request.scopeResolution.scope with
    | none => .error .scopeUnresolved
    | some scope =>
      if request.scopeResolution.status ≠ .resolved then .error .scopeUnresolved
      else if request.decision.policyVersion = "" then .error .policyVersionMissing
      else if request.decision.constitutionVersion = "" then .error .constitutionVersionMissing
      else if request.classification.authorityEffect ≠ "UNCHANGED" ∨
          request.scopeResolution.authorityEffect ≠ "UNCHANGED" ∨
          request.conflictDetection.authorityEffect ≠ "UNCHANGED" ∨
          request.validation.authorityEffect ≠ "UNCHANGED" ∨
          request.decision.authorityEffect ≠ "UNCHANGED" ∨
          request.classification.executionPermissionGranted ∨
          request.validation.executionPermissionGranted ∨
          request.decision.executionPermissionGranted then .error .authorityEffectViolation
      else if request.candidate.candidateId ≠ request.decision.candidateId ∨
          request.candidate.candidateId ≠ request.validation.candidateId ∨
          request.candidate.candidateId ≠ request.conflictDetection.candidateId ∨
          some request.candidate.classification ≠ request.classification.classification ∨
          !sameProvenance request.candidate.provenance request.classification.provenance ∨
          !sameProvenance request.candidate.provenance request.scopeResolution.provenance ∨
          !sameProvenance request.candidate.provenance request.validation.provenance ∨
          !sameProvenance request.candidate.provenance request.decision.provenance then
        .error .lineageInconsistent
      else .ok scope

variable (ids : KnowledgeIds) (now : String) (request : KnowledgeAdmissionRequest)

def admittedRecord (scope : KnowledgeScopeReference) : DurableKnowledgeRecord where
  knowledgeId := ids.createKnowledgeId request.candidate.candidateId
  candidateId := request.candidate.candidateId
  content := request.candidate.content
  classification := request.candidate.classification
  scope := scope
  lifecycleState := .active
  createdAt := now
  effectiveFrom := now
  provenance := request.candidate.provenance
  lineage :=
    { candidateId := request.candidate.candidateId
      observationId := request.candidate.provenance.observationId
      classificationRationaleCode := request.classification.rationaleCode
      scopeRationaleCode := request.scopeResolution.rationaleCode
      conflictRelationship := request.conflictDetection.relationship
      validationOutcome := request.validation.outcome
      decisionReasonCode := request.decision.reasonCode }
  policyVersion := request.decision.policyVersion
  constitutionVersion := request.decision.constitutionVersion

def admittedEvent (persisted : DurableKnowledgeRecord) : KnowledgeAuditEvent :=
  .admitted (ids.createAdmissionAuditEventId persisted.knowledgeId) persisted.knowledgeId persisted.candidateId
    now request.decision.reasonCode persisted.policyVersion persisted.constitutionVersion persisted.provenance

def admitOnce : Action KnowledgeAdmissionResult :=
  match verifyAdmission request with
  | .error reasonCode => pure (admissionRejection reasonCode)
  | .ok scope => do
    let existing? ← Script.ask (Command.findByCandidateId request.candidate.candidateId)
    match existing? with
    | some existing =>
      pure { status := .admitted, reasonCode := .idempotentReplay, knowledgeRecord := some existing,
             idempotentReplay := true }
    | none =>
      failedUnless admissionFailed do
        let persisted ← Script.ask (Command.create (admittedRecord ids now request scope))
        let auditEvent ← Script.ask (Command.append (admittedEvent ids now request persisted))
        pure { status := .admitted, reasonCode := .knowledgeAdmitted, knowledgeRecord := some persisted,
               auditEvent := some auditEvent, created := true, persistenceEffect := .created }

end Admission

section Supersession

def supersessionRejected (reasonCode : KnowledgeSupersessionReasonCode) : KnowledgeSupersessionResult where
  status := .rejected
  reasonCode := reasonCode

def supersessionFailed : KnowledgeSupersessionResult where
  status := .persistenceFailed
  reasonCode := .persistenceFailed

variable (ids : KnowledgeIds) (now : String) (request : KnowledgeSupersessionRequest)
  (prior replacement : DurableKnowledgeRecord)

/-- Why the replacement may not supersede the prior record. -/
def supersessionRefusal : Option KnowledgeSupersessionReasonCode :=
  if prior.lifecycleState ≠ .active then some .priorKnowledgeNotActive
  else if replacement.lifecycleState ≠ .active then some .replacementKnowledgeNotActive
  else if replacement.classification ≠ .correction then some .replacementNotCorrection
  else if request.conflictDetection.candidateId ≠ replacement.candidateId ∨
      request.conflictDetection.existingKnowledgeId ≠ prior.knowledgeId ∨
      request.conflictDetection.relationship ≠ .corrects ∨
      request.conflictDetection.correctionTargetKnowledgeId ≠ some prior.knowledgeId then
    some .correctionReferenceMismatch
  else if request.conflictDetection.authorityEffect ≠ "UNCHANGED" then some .authorityEffectViolation
  else if evaluateScopeCompatibility prior.scope replacement.scope ≠ .compatible then some .scopeIncompatible
  else if replacement.lineage.conflictRelationship ≠ .corrects ∨
      replacement.lineage.decisionReasonCode ≠ .acceptedForAdmission ∨
      prior.policyVersion = "" ∨ prior.constitutionVersion = "" ∨
      replacement.policyVersion = "" ∨ replacement.constitutionVersion = "" then some .lineageInconsistent
  else none

def supersessionOf : KnowledgeSupersession where
  supersessionId := ids.createSupersessionId replacement.knowledgeId
  priorKnowledgeId := prior.knowledgeId
  replacementKnowledgeId := replacement.knowledgeId
  reason := request.reason
  occurredAt := now
  provenance := replacement.provenance
  policyVersion := replacement.policyVersion
  constitutionVersion := replacement.constitutionVersion

def supersededEvent (relationship : KnowledgeSupersession) (transition : SupersessionTransition) :
    KnowledgeAuditEvent :=
  .superseded (ids.createSupersessionAuditEventId relationship.supersessionId) relationship.supersessionId
    transition.priorRecord.knowledgeId transition.replacementRecord.knowledgeId now
    relationship.policyVersion relationship.constitutionVersion relationship.provenance

def supersedeOnce : Action KnowledgeSupersessionResult := do
  let prior? ← Script.ask (Command.getById request.priorKnowledgeId)
  match prior? with
  | none => pure (supersessionRejected .priorKnowledgeNotFound)
  | some prior =>
    let replacement? ← Script.ask (Command.getById request.replacementKnowledgeId)
    match replacement? with
    | none => pure (supersessionRejected .replacementKnowledgeNotFound)
    | some replacement =>
      let existing? ← Script.ask (Command.findSupersessionByReplacementId request.replacementKnowledgeId)
      match existing? with
      | some existing =>
        if existing.priorKnowledgeId ≠ request.priorKnowledgeId then
          pure (supersessionRejected .correctionReferenceMismatch)
        else
          pure { status := .superseded, reasonCode := .idempotentReplay, priorRecord := some prior,
                 replacementRecord := some replacement, relationship := some existing, idempotentReplay := true }
      | none =>
        match supersessionRefusal request prior replacement with
        | some reasonCode => pure (supersessionRejected reasonCode)
        | none =>
          let relationship := supersessionOf ids now request prior replacement
          failedUnless supersessionFailed do
            let transition ← Script.ask (Command.supersede prior.knowledgeId replacement.knowledgeId relationship)
            let auditEvent ← Script.ask (Command.append (supersededEvent ids now relationship transition))
            pure { status := .superseded, reasonCode := .knowledgeSuperseded,
                   priorRecord := some transition.priorRecord,
                   replacementRecord := some transition.replacementRecord,
                   relationship := some transition.relationship, auditEvent := some auditEvent,
                   created := true, persistenceEffect := .updated }

end Supersession

section Exceptions

def exceptionRejected (reasonCode : KnowledgeExceptionReasonCode) : KnowledgeExceptionResult where
  status := .rejected
  reasonCode := reasonCode

def exceptionFailed : KnowledgeExceptionResult where
  status := .persistenceFailed
  reasonCode := .persistenceFailed

variable (ids : KnowledgeIds) (now : String) (request : KnowledgeExceptionRegistrationRequest)
  (base exception : DurableKnowledgeRecord)

/-- Why the record may not be registered as an exception to the base record. -/
def exceptionRefusal : Option KnowledgeExceptionReasonCode :=
  if base.lifecycleState ≠ .active then some .baseKnowledgeNotActive
  else if exception.lifecycleState ≠ .active then some .exceptionKnowledgeNotActive
  else if exception.classification ≠ .exception then some .exceptionNotClassified
  else if isBlank request.applicabilityCondition then some .applicabilityConditionMissing
  else if request.conflictDetection.candidateId ≠ exception.candidateId ∨
      request.conflictDetection.existingKnowledgeId ≠ base.knowledgeId ∨
      request.conflictDetection.relationship ≠ .createsException ∨
      request.conflictDetection.exceptionTargetKnowledgeId ≠ some base.knowledgeId then
    some .exceptionReferenceMismatch
  else if request.conflictDetection.authorityEffect ≠ "UNCHANGED" then some .authorityEffectViolation
  else if evaluateScopeCompatibility base.scope exception.scope ≠ .compatible then some .scopeIncompatible
  else if exception.lineage.conflictRelationship ≠ .createsException ∨
      exception.lineage.decisionReasonCode ≠ .acceptedForAdmission ∨
      base.policyVersion = "" ∨ base.constitutionVersion = "" ∨
      exception.policyVersion = "" ∨ exception.constitutionVersion = "" then some .lineageInconsistent
  else none

def exceptionOf : KnowledgeException where
  exceptionId := ids.createExceptionId exception.knowledgeId
  baseKnowledgeId := base.knowledgeId
  exceptionKnowledgeId := exception.knowledgeId
  applicabilityCondition := trimmed request.applicabilityCondition
  reason := request.reason
  occurredAt := now
  provenance := exception.provenance
  policyVersion := exception.policyVersion
  constitutionVersion := exception.constitutionVersion

def exceptionRegisteredEvent (relationship : KnowledgeException) (registration : ExceptionRegistration) :
    KnowledgeAuditEvent :=
  .exceptionRegistered (ids.createExceptionAuditEventId relationship.exceptionId) relationship.exceptionId
    registration.baseRecord.knowledgeId registration.exceptionRecord.knowledgeId now
    relationship.policyVersion relationship.constitutionVersion relationship.provenance

def registerOnce : Action KnowledgeExceptionResult := do
  let base? ← Script.ask (Command.getById request.baseKnowledgeId)
  match base? with
  | none => pure (exceptionRejected .baseKnowledgeNotFound)
  | some base =>
    let exception? ← Script.ask (Command.getById request.exceptionKnowledgeId)
    match exception? with
    | none => pure (exceptionRejected .exceptionKnowledgeNotFound)
    | some exception =>
      let existing? ← Script.ask (Command.findExceptionByKnowledgeId request.exceptionKnowledgeId)
      match existing? with
      | some existing =>
        if existing.baseKnowledgeId ≠ request.baseKnowledgeId then
          pure (exceptionRejected .exceptionReferenceMismatch)
        else
          pure { status := .registered, reasonCode := .idempotentReplay, baseRecord := some base,
                 exceptionRecord := some exception, relationship := some existing, idempotentReplay := true }
      | none =>
        match exceptionRefusal request base exception with
        | some reasonCode => pure (exceptionRejected reasonCode)
        | none =>
          let relationship := exceptionOf ids now request base exception
          failedUnless exceptionFailed do
            let registration ← Script.ask (Command.registerException base.knowledgeId exception.knowledgeId relationship)
            let auditEvent ← Script.ask (Command.append (exceptionRegisteredEvent ids now relationship registration))
            pure { status := .registered, reasonCode := .knowledgeExceptionRegistered,
                   baseRecord := some registration.baseRecord,
                   exceptionRecord := some registration.exceptionRecord,
                   relationship := some registration.relationship, auditEvent := some auditEvent,
                   created := true, persistenceEffect := .created }

end Exceptions

section Retirement

def retirementRejected (reasonCode : KnowledgeRetirementReasonCode) : KnowledgeRetirementResult where
  status := .rejected
  reasonCode := reasonCode

def retirementFailed : KnowledgeRetirementResult where
  status := .persistenceFailed
  reasonCode := .persistenceFailed

def retiredReasonCode : RetiredState → KnowledgeRetirementReasonCode
  | .archived => .knowledgeArchived
  | .quarantined => .knowledgeQuarantined

variable (ids : KnowledgeIds) (now : String) (request : KnowledgeRetirementRequest)

def lifecycleChangedEvent (record : DurableKnowledgeRecord) : KnowledgeAuditEvent :=
  .lifecycleChanged (ids.createRetirementAuditEventId record.knowledgeId request.targetLifecycleState)
    record.knowledgeId request.targetLifecycleState (trimmed request.reason) now
    record.policyVersion record.constitutionVersion record.provenance

def transitionOnce : Action KnowledgeRetirementResult := do
  let record? ← Script.ask (Command.getById request.knowledgeId)
  match record? with
  | none => pure (retirementRejected .knowledgeNotFound)
  | some record =>
    if isBlank request.reason then pure (retirementRejected .retirementReasonMissing)
    else if record.policyVersion = "" ∨ record.constitutionVersion = "" ∨ record.lineage.candidateId = "" then
      pure (retirementRejected .lineageInconsistent)
    else if record.lifecycleState = request.targetLifecycleState.state then
      pure { status := .transitioned, reasonCode := .idempotentReplay, priorRecord := some record,
             updatedRecord := some record, idempotentReplay := true }
    else if record.lifecycleState ≠ .active then pure (retirementRejected .knowledgeNotActive)
    else
      failedUnless retirementFailed do
        let transition ← Script.ask (Command.transitionLifecycle record.knowledgeId request.targetLifecycleState)
        let auditEvent ← Script.ask (Command.append (lifecycleChangedEvent ids now request record))
        pure { status := .transitioned, reasonCode := retiredReasonCode request.targetLifecycleState,
               priorRecord := some transition.priorRecord, updatedRecord := some transition.updatedRecord,
               auditEvent := some auditEvent, created := true, persistenceEffect := .updated }

end Retirement

section Calls

/-- A call with the instant that its clock gives it. -/
structure KnowledgeCall where
  request : KnowledgeRequest
  now : String
  deriving DecidableEq

def operationOf (ids : KnowledgeIds) (call : KnowledgeCall) : Action KnowledgeResult :=
  match call.request with
  | .admission request => KnowledgeResult.admission <$> admitOnce ids call.now request
  | .supersede request => KnowledgeResult.supersession <$> supersedeOnce ids call.now request
  | .register request => KnowledgeResult.exception <$> registerOnce ids call.now request
  | .transition request => KnowledgeResult.retirement <$> transitionOnce ids call.now request

/-- `admit`, `supersede`, `register` and `transition`. -/
def serve (ids : KnowledgeIds) (call : KnowledgeCall) : Action KnowledgeResult := do
  let entry ← Script.ask (Command.enter call.request)
  match entry with
  | .joined operation =>
    let outcome ← Script.ask (Command.join operation)
    Script.ofOption outcome
  | .started operation =>
    let outcome ← (operationOf ids call).attempt
    Script.ask (Command.settle operation outcome)
    Script.ask (Command.leave call.request.flight)
    Script.ofOption outcome

end Calls

end CommandConsole.Knowledge
