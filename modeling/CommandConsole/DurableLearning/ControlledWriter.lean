import CommandConsole.Library.Crowd
import CommandConsole.DurableLearning.Gate
import CommandConsole.Knowledge.Services

/-! # The controlled registry writer

A commit checks its authorization, awaits the registry version and hands its own admission request to
the admission service, which it shares with the other commits. The service keeps the admissions in
flight by candidate, and a commit that finds one joins it.
-/
namespace CommandConsole.DurableLearning
open Library
open CommandConsole.Learning (KnowledgeScopeReference)
open CommandConsole.Knowledge
set_option autoImplicit false

section Authorization

/-- An admission request, with the details of the scope that its resolution found. -/
structure RegistryAdmission where
  request : KnowledgeAdmissionRequest
  scopeDetails : ScopeDetails
  deriving DecidableEq

def RegistryAdmission.scope (admission : RegistryAdmission) : Option GateScope :=
  admission.request.scopeResolution.scope.map fun reference => ⟨reference, admission.scopeDetails⟩

structure CommitInput where
  gateRequest : DurableLearningGateRequest
  decision : GateDecision
  admission : RegistryAdmission

def sameScope (left right : Option GateScope) : Bool :=
  match left, right with
  | some left, some right => left.reference.type = right.reference.type ∧ left.reference.id = right.reference.id
  | _, _ => false

theorem sameScope_iff {left right : GateScope} :
    sameScope (some left) (some right) ↔ left.reference = right.reference := by
  obtain ⟨⟨type, id⟩, details⟩ := left
  obtain ⟨⟨type', id'⟩, details'⟩ := right
  simp only [sameScope, decide_eq_true_eq, KnowledgeScopeReference.mk.injEq]

def authorizationIsBound (localeCompare : Text → Text → Int) (input : CommitInput) : Bool :=
  match input.decision.commitAuthorization with
  | none => false
  | some authorization =>
    input.decision.outcome = .accept ∧
    authorization.evaluationId = input.decision.evaluationId ∧
    authorization.candidateId = input.gateRequest.candidate.candidateId ∧
    authorization.candidateFingerprint = createGateInputFingerprint localeCompare input.gateRequest ∧
    authorization.classification = input.gateRequest.candidate.classification ∧
    sameScope authorization.scope input.gateRequest.scope.scope ∧
    authorization.gateVersion = input.gateRequest.context.gateVersion ∧
    authorization.registryVersion = input.gateRequest.context.registryVersion ∧
    input.admission.request.candidate.candidateId = authorization.candidateId ∧
    input.admission.request.candidate.classification = authorization.classification ∧
    sameScope input.admission.scope authorization.scope

end Authorization

section World

/-- A record of the registry, with the details of its scope. -/
structure RegistryRecord where
  record : DurableKnowledgeRecord
  scopeDetails : ScopeDetails
  deriving DecidableEq

def RegistryRecord.scope (stored : RegistryRecord) : GateScope := ⟨stored.record.scope, stored.scopeDetails⟩

/-- The result of an admission, with the details of the scope of its record. -/
structure RegistryAdmissionResult where
  result : KnowledgeAdmissionResult
  scopeDetails : Option ScopeDetails := none
  deriving DecidableEq

def RegistryAdmissionResult.knowledgeRecord (admission : RegistryAdmissionResult) : Option RegistryRecord :=
  match admission.result.knowledgeRecord, admission.scopeDetails with
  | some record, some details => some ⟨record, details⟩
  | _, _ => none

/-- The repository by candidate, the audit ledger, the admissions in flight by candidate, and how their
promises have settled, none inside for one that is rejected. -/
structure RegistryWorld where
  recordsByCandidateId : String → Option RegistryRecord
  auditEvents : List KnowledgeAuditEvent
  inFlightAdmissions : String → Option Nat
  operations : List (Option (Option RegistryAdmissionResult))

namespace RegistryWorld

def holding (records : String → Option RegistryRecord) : RegistryWorld := ⟨records, [], fun _ => none, []⟩

def create (world : RegistryWorld) (record : RegistryRecord) : RegistryWorld :=
  { world with
    recordsByCandidateId := Function.update world.recordsByCandidateId record.record.candidateId (some record) }

def start (world : RegistryWorld) (candidateId : String) : RegistryWorld :=
  { world with
    inFlightAdmissions := Function.update world.inFlightAdmissions candidateId (some world.operations.length)
    operations := world.operations ++ [none] }

def settle (world : RegistryWorld) (operation : Nat) (outcome : Option RegistryAdmissionResult) : RegistryWorld :=
  { world with operations := world.operations.set operation (some outcome) }

def leave (world : RegistryWorld) (candidateId : String) : RegistryWorld :=
  { world with inFlightAdmissions := Function.update world.inFlightAdmissions candidateId none }

def append (world : RegistryWorld) (event : KnowledgeAuditEvent) : RegistryWorld :=
  { world with auditEvents := world.auditEvents ++ [event] }

end RegistryWorld

end World

section Commits

inductive WriteStatus where
  | committed
  | rejected
  | reEvaluationRequired
  deriving DecidableEq

inductive WriteReasonCode where
  | durableKnowledgeCommitted
  | idempotentReplay
  | commitAuthorizationInvalid
  | registryVersionChanged
  deriving DecidableEq

structure ControlledRegistryWriteResult where
  status : WriteStatus
  reasonCode : WriteReasonCode
  admission : Option RegistryAdmissionResult := none
  persistenceEffect : PersistenceEffect := .none
  deriving DecidableEq

def authorizationInvalid : ControlledRegistryWriteResult := { status := .rejected, reasonCode := .commitAuthorizationInvalid }

def versionChanged : ControlledRegistryWriteResult :=
  { status := .reEvaluationRequired, reasonCode := .registryVersionChanged }

def admissionWritten (admission : RegistryAdmissionResult) : ControlledRegistryWriteResult where
  status := if admission.result.status = .admitted then .committed else .rejected
  reasonCode := if admission.result.status = .admitted then .durableKnowledgeCommitted else .commitAuthorizationInvalid
  admission := some admission
  persistenceEffect := admission.result.persistenceEffect

/-- What a commit awaits next. From `finding` to `leaving` it runs the admission of the operation. -/
inductive CommitStage where
  | starting
  | awaitingVersion
  | admitting
  | joined (operation : Nat)
  | finding (operation : Nat) (scope : KnowledgeScopeReference)
  | creating (operation : Nat) (scope : KnowledgeScopeReference) (now : String)
  | appending (operation : Nat) (now : String) (persisted : RegistryRecord)
  | settling (operation : Nat) (outcome : Option RegistryAdmissionResult)
  | leaving (outcome : Option RegistryAdmissionResult)
  | ended (result : Option ControlledRegistryWriteResult)
  deriving DecidableEq

/-- A commit, with the record that it has written. -/
structure CommitCall where
  input : CommitInput
  stage : CommitStage := .starting
  written : Option RegistryRecord := none

/-- What the next answer brings: the registry version if the provider gives one, the instant of the
clock, and whether the command fails. -/
structure CommitTurn where
  version : Option String := none
  now : String := ""
  fault : Fault := .works
  deriving DecidableEq

namespace CommitCall

def candidateId (call : CommitCall) : String := call.input.admission.request.candidate.candidateId

/-- The registry version of the authorization. -/
def version? (call : CommitCall) : Option String :=
  call.input.decision.commitAuthorization.map CommitAuthorization.registryVersion

def goTo (call : CommitCall) (stage : CommitStage) : CommitCall := { call with stage }

def writes (call : CommitCall) (record : RegistryRecord) : CommitCall := { call with written := some record }

end CommitCall

variable (localeCompare : Text → Text → Int) (ids : KnowledgeIds)

def rejectedAdmission (reasonCode : KnowledgeAdmissionReasonCode) : RegistryAdmissionResult :=
  ⟨admissionRejection reasonCode, none⟩

def failedAdmission : RegistryAdmissionResult := ⟨admissionFailed, none⟩

def replayedAdmission (existing : RegistryRecord) : RegistryAdmissionResult :=
  ⟨{ status := .admitted, reasonCode := .idempotentReplay, knowledgeRecord := some existing.record,
     idempotentReplay := true }, some existing.scopeDetails⟩

def createdAdmission (persisted : RegistryRecord) (auditEvent : KnowledgeAuditEvent) : RegistryAdmissionResult :=
  ⟨{ status := .admitted, reasonCode := .knowledgeAdmitted, knowledgeRecord := some persisted.record,
     auditEvent := some auditEvent, created := true, persistenceEffect := .created }, some persisted.scopeDetails⟩

def newRecord (input : CommitInput) (scope : KnowledgeScopeReference) (now : String) : RegistryRecord :=
  ⟨admittedRecord ids now input.admission.request scope, input.admission.scopeDetails⟩

/-- The repository returns the record that it has for the candidate. -/
def createRecord (operation : Nat) (scope : KnowledgeScopeReference) (now : String) (fault : Fault) (call : CommitCall)
    (world : RegistryWorld) : CommitCall × RegistryWorld :=
  match fault, world.recordsByCandidateId call.candidateId with
  | .fails, _ => (call.goTo (.settling operation (some failedAdmission)), world)
  | .works, some existing => (call.goTo (.appending operation now existing), world)
  | .failsAfter, some _ => (call.goTo (.settling operation (some failedAdmission)), world)
  | .works, none =>
    ((call.writes (newRecord ids call.input scope now)).goTo
      (.appending operation now (newRecord ids call.input scope now)), world.create (newRecord ids call.input scope now))
  | .failsAfter, none =>
    ((call.writes (newRecord ids call.input scope now)).goTo (.settling operation (some failedAdmission)),
      world.create (newRecord ids call.input scope now))

def appendEvent (operation : Nat) (now : String) (persisted : RegistryRecord) (fault : Fault) (call : CommitCall)
    (world : RegistryWorld) : CommitCall × RegistryWorld :=
  let event := admittedEvent ids now call.input.admission.request persisted.record
  match fault with
  | .works => (call.goTo (.settling operation (some (createdAdmission persisted event))), world.append event)
  | .fails => (call.goTo (.settling operation (some failedAdmission)), world)
  | .failsAfter => (call.goTo (.settling operation (some failedAdmission)), world.append event)

def advanceCommit (turn : CommitTurn) (call : CommitCall) (world : RegistryWorld) : CommitCall × RegistryWorld :=
  match call.stage with
  | .starting =>
    if authorizationIsBound localeCompare call.input then (call.goTo .awaitingVersion, world)
    else (call.goTo (.ended (some authorizationInvalid)), world)
  | .awaitingVersion =>
    match turn.version with
    | none => (call.goTo (.ended none), world)
    | some version =>
      if call.version? = some version then (call.goTo .admitting, world)
      else (call.goTo (.ended (some versionChanged)), world)
  | .admitting =>
    match world.inFlightAdmissions call.candidateId with
    | some operation => (call.goTo (.joined operation), world)
    | none =>
      match verifyAdmission call.input.admission.request with
      | .error reasonCode =>
        (call.goTo (.settling world.operations.length (some (rejectedAdmission reasonCode))), world.start call.candidateId)
      | .ok scope => (call.goTo (.finding world.operations.length scope), world.start call.candidateId)
  | .joined operation =>
    match world.operations[operation]? with
    | some (some outcome) => (call.goTo (.ended (outcome.map admissionWritten)), world)
    | _ => (call, world)
  | .finding operation scope =>
    match turn.fault, world.recordsByCandidateId call.candidateId with
    | .works, some existing => (call.goTo (.settling operation (some (replayedAdmission existing))), world)
    | .works, none => (call.goTo (.creating operation scope turn.now), world)
    | _, _ => (call.goTo (.settling operation none), world)
  | .creating operation scope now => createRecord ids operation scope now turn.fault call world
  | .appending operation now persisted => appendEvent ids operation now persisted turn.fault call world
  | .settling operation outcome => (call.goTo (.leaving outcome), world.settle operation outcome)
  | .leaving outcome => (call.goTo (.ended (outcome.map admissionWritten)), world.leave call.candidateId)
  | .ended _ => (call, world)

def commitRules : CrowdRules CommitInput CommitCall CommitTurn Empty RegistryWorld where
  start input := { input }
  advance := advanceCommit localeCompare ids
  outside op := op.elim

end Commits

end CommandConsole.DurableLearning
