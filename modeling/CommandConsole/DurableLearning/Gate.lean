import CommandConsole.DurableLearning.GateRequests

/-! # The durable learning gate

The checks of a request, the decision they lead to, and the authorization to commit that comes with
an acceptance whose audit event was appended.
-/
namespace CommandConsole.DurableLearning
open Library Library.Value
open CommandConsole.Execution (isBlank)
open CommandConsole.Knowledge
set_option autoImplicit false

section Fingerprint

variable (localeCompare : Text → Text → Int)

/-- `canonicalize`, which sorts the properties of every object and leaves dates as empty objects. -/
def canonicalize : Value → Value
  | array items => array (items.map canonicalize)
  | object members => object
      (defineAll ((members.map fun member => (member.1, canonicalize member.2)).insertionSort
        fun a b => localeCompare a.1 b.1 ≤ 0))
  | date _ => object []
  | value => value
termination_by value => sizeOf value
decreasing_by
  · exact sizeOf_item ‹_›
  · exact sizeOf_member ‹_›

/-- The loop of `createGateInputFingerprint` over the code units. -/
def fnv1a (text : Text) : UInt32 :=
  text.foldl (fun hash unit => (hash ^^^ UInt32.ofNat unit) * 16777619) 2166136261

def createGateInputFingerprint (request : DurableLearningGateRequest) : String :=
  "gate-fnv1a:" ++ String.ofList (Nat.toDigits 16
    (fnv1a ((stringify (canonicalize localeCompare request.fingerprinted)).getD [])).toNat)

end Fingerprint

section Checks

inductive GateOutcome where
  | accept
  | defer
  | reject
  deriving DecidableEq

inductive GateReasonCode where
  | gateAccepted
  | candidateIdMissing
  | candidateContentMissing
  | provenanceMissing
  | classificationInconsistent
  | classificationAmbiguous
  | notDurableClassification
  | intentNotEstablished
  | scopeUnresolved
  | authorityInsufficient
  | authorityUncertain
  | conflictUnresolved
  | validationIncomplete
  | validationFailed
  | constitutionalVeto
  | constitutionalReviewRequired
  | policyContextIncomplete
  | auditPersistenceFailed
  | teachBackRequired
  | teachBackInsufficient
  | sourceInsufficient
  | sourceOutOfScope
  | sourceConflictUnresolved
  | epistemicPositionInsufficient
  | epistemicPositionSuspended
  | epistemicPositionRefuted
  deriving DecidableEq

inductive GateCheckStage where
  | integrity
  | classification
  | intent
  | scope
  | authority
  | conflict
  | validation
  | constitution
  | teachBack
  | sourceCriticism
  | epistemicSynthesis
  deriving DecidableEq

inductive GateCheckStatus where
  | pass
  | defer
  | reject
  deriving DecidableEq

structure GateCheck where
  stage : GateCheckStage
  status : GateCheckStatus
  reasonCode : GateReasonCode
  deriving DecidableEq

def passed (stage : GateCheckStage) : GateCheck := ⟨stage, .pass, .gateAccepted⟩

def integrityCheck (candidate : DurableKnowledgeCandidate) : GateCheck :=
  if isBlank candidate.candidateId then ⟨.integrity, .reject, .candidateIdMissing⟩
  else if isBlank candidate.content then ⟨.integrity, .reject, .candidateContentMissing⟩
  else if isBlank candidate.provenance.observationId ∨ isBlank candidate.provenance.sourceId ∨
      isBlank candidate.provenance.originatingActorId ∨ isBlank candidate.provenance.observedAt then
    ⟨.integrity, .defer, .provenanceMissing⟩
  else passed .integrity

def classificationCheck (candidate : DurableKnowledgeCandidate) (result : ClassificationResult) : GateCheck :=
  if result.classification ≠ some candidate.classification then ⟨.classification, .reject, .classificationInconsistent⟩
  else if result.status ≠ .classified then ⟨.classification, .defer, .classificationAmbiguous⟩
  else if result.proposedDurability ≠ .durableCandidate then ⟨.classification, .defer, .notDurableClassification⟩
  else passed .classification

def intentCheck : LearningIntent → GateCheck
  | .explicit | .approved => passed .intent
  | _ => ⟨.intent, .defer, .intentNotEstablished⟩

def scopeCheck (result : ScopeResolutionResult) : GateCheck :=
  if result.status = .resolved ∧ result.scope.isSome then passed .scope
  else ⟨.scope, .defer, .scopeUnresolved⟩

def authorityCheck : AuthorityGateDecision → GateCheck
  | .allow => passed .authority
  | .deny => ⟨.authority, .reject, .authorityInsufficient⟩
  | .review => ⟨.authority, .defer, .authorityUncertain⟩

def conflictCheck : ConflictGateDecision → GateCheck
  | .allow => passed .conflict
  | .block => ⟨.conflict, .defer, .conflictUnresolved⟩

def sourceCheck (source : SourceCriticismDecision) : GateCheck :=
  if source.excludedOutOfScopeSourceIds ≠ [] then ⟨.sourceCriticism, .defer, .sourceOutOfScope⟩
  else
    match source.status with
    | .conflicting | .unresolved => ⟨.sourceCriticism, .defer, .sourceConflictUnresolved⟩
    | .supported => passed .sourceCriticism
    | .refuted | .unsupported => ⟨.sourceCriticism, .reject, .sourceInsufficient⟩
    | _ => ⟨.sourceCriticism, .defer, .sourceInsufficient⟩

def epistemicCheck (position : EpistemicPosition) : GateCheck :=
  match position.status with
  | .supported | .stronglySupported => passed .epistemicSynthesis
  | .refuted | .rejected => ⟨.epistemicSynthesis, .reject, .epistemicPositionRefuted⟩
  | .suspendedJudgment | .conflicting | .unresolved => ⟨.epistemicSynthesis, .defer, .epistemicPositionSuspended⟩
  | _ => ⟨.epistemicSynthesis, .defer, .epistemicPositionInsufficient⟩

def validationCheck : ValidationOutcome → GateCheck
  | .valid => passed .validation
  | .invalid | .quarantined => ⟨.validation, .reject, .validationFailed⟩
  | _ => ⟨.validation, .defer, .validationIncomplete⟩

def constitutionCheck (decision : ConstitutionalAdmissionDecision) : GateCheck :=
  if decision.disposition = .accept ∧ decision.durableAdmissionEligible then passed .constitution
  else if decision.disposition = .reject ∨ decision.disposition = .quarantine then
    ⟨.constitution, .reject, .constitutionalVeto⟩
  else ⟨.constitution, .defer, .constitutionalReviewRequired⟩

def teachBackChecks (teachBack : Option TeachBack) : List GateCheck :=
  match teachBack with
  | some ⟨.required, some .pass⟩ | some ⟨.required, some .passWithUncertainty⟩ => [passed .teachBack]
  | some ⟨.required, some _⟩ => [⟨.teachBack, .defer, .teachBackInsufficient⟩]
  | some ⟨.required, none⟩ => [⟨.teachBack, .defer, .teachBackRequired⟩]
  | _ => []

/-- The texts of the context, the learning intent apart, which is never blank. -/
def GateContext.texts (context : GateContext) : List String :=
  [context.gateVersion, context.constitutionVersion, context.taxonomyVersion, context.authorityPolicyVersion,
    context.validationPolicyVersion, context.conflictEngineVersion, context.registryVersion, context.decisionActorId]

def allVersionsPresent (context : GateContext) : Bool := context.texts.all fun text => !isBlank text

def versionChecks (context : GateContext) : List GateCheck :=
  if allVersionsPresent context then [] else [⟨.integrity, .defer, .policyContextIncomplete⟩]

def checksOf (request : DurableLearningGateRequest) : List GateCheck :=
  [integrityCheck request.candidate,
    classificationCheck request.candidate request.classification,
    intentCheck request.context.learningIntent,
    scopeCheck request.scope,
    authorityCheck request.authority,
    conflictCheck request.conflict] ++
  (request.sourceCriticism.map sourceCheck).toList ++
  (request.epistemicPosition.map epistemicCheck).toList ++
  [validationCheck request.validation, constitutionCheck request.constitution] ++
  teachBackChecks request.context.teachBack ++
  versionChecks request.context

def outcomeFor (checks : List GateCheck) : GateOutcome :=
  if checks.any fun item => item.status = .reject then .reject
  else if checks.any fun item => item.status = .defer then .defer
  else .accept

theorem outcomeFor_accept {checks : List GateCheck} :
    outcomeFor checks = .accept ↔ ∀ check ∈ checks, check.status = .pass := by
  simp only [outcomeFor, List.any_eq_true, decide_eq_true_eq]
  constructor
  · intro h check hMem
    split_ifs at h with hReject hDefer
    cases hStatus : check.status with
    | pass => rfl
    | defer => exact absurd ⟨check, hMem, hStatus⟩ hDefer
    | reject => exact absurd ⟨check, hMem, hStatus⟩ hReject
  · intro h
    rw [if_neg, if_neg]
    all_goals
      rintro ⟨check, hMem, hStatus⟩
      rw [h check hMem] at hStatus
      cases hStatus

end Checks

section Decisions

structure CommitAuthorization where
  authorizationId : String
  evaluationId : String
  candidateId : String
  candidateFingerprint : String
  classification : KnowledgeClassification
  scope : Option GateScope
  registryVersion : String
  gateVersion : String
  deriving DecidableEq

structure GateDecision where
  evaluationId : String
  candidateId : String
  outcome : GateOutcome
  reasonCodes : List GateReasonCode
  checks : List GateCheck
  inputFingerprint : String
  context : GateContext
  commitAuthorization : Option CommitAuthorization
  deriving DecidableEq

def authorization (request : DurableLearningGateRequest) (candidateFingerprint : String) : CommitAuthorization where
  authorizationId := "commit:" ++ request.evaluationId
  evaluationId := request.evaluationId
  candidateId := request.candidate.candidateId
  candidateFingerprint := candidateFingerprint
  classification := request.candidate.classification
  scope := request.scope.scope
  registryVersion := request.context.registryVersion
  gateVersion := request.context.gateVersion

def decisionOf (localeCompare : Text → Text → Int) (request : DurableLearningGateRequest) : GateDecision where
  evaluationId := request.evaluationId
  candidateId := request.candidate.candidateId
  outcome := outcomeFor (checksOf request)
  reasonCodes := (((checksOf request).filter fun item => item.status ≠ .pass).map GateCheck.reasonCode).eraseDups
  checks := checksOf request
  inputFingerprint := createGateInputFingerprint localeCompare request
  context := request.context
  commitAuthorization :=
    if outcomeFor (checksOf request) = .accept then
      some (authorization request (createGateInputFingerprint localeCompare request))
    else none

/-- `evaluate`, where `appended` tells whether the audit ledger took the event of the decision. -/
def evaluate (localeCompare : Text → Text → Int) (appended : Bool) (request : DurableLearningGateRequest) :
    GateDecision :=
  let decision := decisionOf localeCompare request
  if appended then decision
  else
    { decision with
      outcome := .defer
      reasonCodes := decision.reasonCodes ++ [.auditPersistenceFailed]
      commitAuthorization := none }

variable {localeCompare : Text → Text → Int} {appended : Bool} {request : DurableLearningGateRequest}

/-- An authorization is given for a request all of whose checks passed, and says what was evaluated. -/
theorem evaluate_authorization {given : CommitAuthorization}
    (h : (evaluate localeCompare appended request).commitAuthorization = some given) :
    (∀ check ∈ checksOf request, check.status = .pass) ∧
      given = authorization request (createGateInputFingerprint localeCompare request) := by
  cases appended with
  | false => cases h
  | true =>
    change (if outcomeFor (checksOf request) = .accept then some _ else none) = some given at h
    split_ifs at h with hAccept
    exact ⟨outcomeFor_accept.mp hAccept, (Option.some.inj h).symm⟩

theorem evaluate_accepts (localeCompare : Text → Text → Int) (h : ∀ check ∈ checksOf request, check.status = .pass) :
    (evaluate localeCompare true request).outcome = .accept ∧
      (evaluate localeCompare true request).evaluationId = request.evaluationId ∧
      (evaluate localeCompare true request).commitAuthorization =
        some (authorization request (createGateInputFingerprint localeCompare request)) :=
  ⟨outcomeFor_accept.mpr h, rfl, if_pos (outcomeFor_accept.mpr h)⟩

end Decisions

end CommandConsole.DurableLearning
