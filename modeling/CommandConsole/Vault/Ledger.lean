import CommandConsole.Library.Crowd
import CommandConsole.Library.InsertionMap
import CommandConsole.Library.Lineage

/-! # The vault ledger

Candidates, decisions and records are appended as snapshots and the last snapshot of an id
counts. Each service reads the whole ledger, decides, and appends its rows in one transaction
later; in between the others may append theirs.
-/
namespace CommandConsole.Vault
open Library
set_option autoImplicit false

section Records

inductive DataClassification where
  | publicData
  | personal
  | privateData
  | confidential
  | restricted
  | system
  deriving DecidableEq

structure Envelope where
  id : String
  classification : DataClassification
  createdAt : String
  correlationId : String
  deriving DecidableEq

inductive CandidateStatus where
  | proposed
  | held
  | rejected
  | approved
  deriving DecidableEq

inductive GovernanceOutcome where
  | approved
  | rejected
  | hold
  | moreEvidenceRequired
  | requestChanges
  deriving DecidableEq

/-- The status of a project decision or requirement. -/
inductive RecordStatus where
  | current
  | superseded (successor : String)
  deriving DecidableEq

def RecordStatus.standing : RecordStatus → Standing String
  | .current => .current
  | .superseded successor => .superseded successor

structure VaultCandidate extends Envelope where
  status : CandidateStatus
  deriving DecidableEq

structure GovernanceDecision extends Envelope where
  candidateId : String
  outcome : GovernanceOutcome
  decidedBy : String
  decidedAt : String
  rationale : String
  requiredHumanReview : Bool
  humanApprovalId : Option String
  retained : requiredHumanReview = true ∨ outcome = .approved → humanApprovalId ≠ none
  deriving DecidableEq

structure CanonicalRecord extends Envelope where
  candidateId : String
  governanceDecisionId : String
  version : Nat
  status : Standing String
  deriving DecidableEq

structure ProjectDecision extends Envelope where
  project : String
  question : String
  decision : String
  rationale : String
  alternatives : List String
  candidateId : String
  governanceDecisionId : String
  decidedAt : String
  version : Nat
  status : RecordStatus
  deriving DecidableEq

inductive RequirementPriority where
  | low
  | medium
  | high
  | critical
  deriving DecidableEq

inductive ImplementationStatus where
  | planned
  | inProgress
  | implemented
  | qualified
  | deprecated
  deriving DecidableEq

structure ProjectRequirement extends Envelope where
  project : String
  title : String
  description : String
  priority : RequirementPriority
  acceptanceCriteria : List String
  projectDecisionId : String
  implementationRefs : List String
  testRefs : List String
  implementationStatus : ImplementationStatus
  candidateId : String
  governanceDecisionId : String
  version : Nat
  status : RecordStatus
  deriving DecidableEq

inductive AuditEventType where
  | decisionRecorded
  | canonicalPromoted
  | recordSuperseded
  deriving DecidableEq

structure VaultAuditEvent extends Envelope where
  eventType : AuditEventType
  actor : String
  resourceId : String
  occurredAt : String
  reason : String
  deriving DecidableEq

inductive VaultRecord where
  | candidate (record : VaultCandidate)
  | governance (record : GovernanceDecision)
  | canonical (record : CanonicalRecord)
  | decision (record : ProjectDecision)
  | requirement (record : ProjectRequirement)
  | audit (record : VaultAuditEvent)
  | other (record : Envelope)
  deriving DecidableEq

/-- The rows in the order of their sequence. -/
abbrev VaultLedger := List VaultRecord

def candidates (ledger : VaultLedger) : List VaultCandidate :=
  ledger.filterMap fun row => match row with
    | .candidate record => some record
    | _ => none

def governanceDecisions (ledger : VaultLedger) : List GovernanceDecision :=
  ledger.filterMap fun row => match row with
    | .governance record => some record
    | _ => none

def canonicalRecords (ledger : VaultLedger) : List CanonicalRecord :=
  ledger.filterMap fun row => match row with
    | .canonical record => some record
    | _ => none

def projectDecisions (ledger : VaultLedger) : List ProjectDecision :=
  ledger.filterMap fun row => match row with
    | .decision record => some record
    | _ => none

def projectRequirements (ledger : VaultLedger) : List ProjectRequirement :=
  ledger.filterMap fun row => match row with
    | .requirement record => some record
    | _ => none

/-- A map from ids that every row is set into, in order. -/
def latestMap {α : Type} (idOf : α → String) (rows : List α) : List (String × α) :=
  rows.foldl (fun entries row => InsertionMap.set (idOf row) row entries) []

end Records

section Errors

inductive VaultErrorCode where
  | candidateNotFound
  | alreadyPromoted
  | currentRecordNotFound
  | candidateNotProposed
  | decisionNotApproved
  | decisionNotGovernance
  | decisionCandidateMismatch
  | invalidCurrentRecord
  | selfSupersession
  | governanceDecisionNotFound
  | governanceNotApproved
  | governanceCandidateMismatch
  | currentDecisionNotFound
  | projectMismatch
  | projectDecisionNotFound
  | currentRequirementNotFound
  | invalidSnapshot
  deriving DecidableEq

structure VaultError where
  code : VaultErrorCode
  message : String
  deriving DecidableEq

end Errors

section Appends

/-- What one transaction of the adapter appends. -/
inductive VaultAppend where
  | promotion (decision : GovernanceDecision) (record : CanonicalRecord) (auditEvent : VaultAuditEvent)
  | supersession (decision : GovernanceDecision) (previous supersededSnapshot successor : CanonicalRecord)
      (auditEvent : VaultAuditEvent)
  | projectDecision (record : ProjectDecision) (supersededSnapshot : Option ProjectDecision)
      (auditEvent : VaultAuditEvent)
  | projectRequirement (record : ProjectRequirement) (supersededSnapshot : Option ProjectRequirement)
      (auditEvent : VaultAuditEvent)
  deriving DecidableEq

def VaultAppend.rows : VaultAppend → List VaultRecord
  | .promotion decision record auditEvent => [.governance decision, .canonical record, .audit auditEvent]
  | .supersession decision _ supersededSnapshot successor auditEvent =>
    [.governance decision, .canonical supersededSnapshot, .canonical successor, .audit auditEvent]
  | .projectDecision record supersededSnapshot auditEvent =>
    (supersededSnapshot.map VaultRecord.decision).toList ++ [.decision record, .audit auditEvent]
  | .projectRequirement record supersededSnapshot auditEvent =>
    (supersededSnapshot.map VaultRecord.requirement).toList ++ [.requirement record, .audit auditEvent]

/-- What the adapter refuses before its transaction. -/
def VaultAppend.refused : VaultAppend → Option VaultError
  | .promotion .. => none
  | .supersession _ previous supersededSnapshot successor _ =>
    if previous.id ≠ supersededSnapshot.id ∨ successor.id = previous.id then
      some ⟨.invalidSnapshot, "Invalid immutable supersession snapshot."⟩
    else none
  | .projectDecision record supersededSnapshot _ =>
    if supersededSnapshot.any fun snapshot => snapshot.id = record.id ∨ snapshot.status ≠ .superseded record.id then
      some ⟨.invalidSnapshot, "Invalid immutable project-decision supersession snapshot."⟩
    else none
  | .projectRequirement record supersededSnapshot _ =>
    if supersededSnapshot.any fun snapshot => snapshot.id = record.id ∨ snapshot.status ≠ .superseded record.id then
      some ⟨.invalidSnapshot, "Invalid immutable project-requirement supersession snapshot."⟩
    else none

end Appends

section Review

/-- The ids and the clock that one call is given. -/
structure VaultInput where
  decisionUuid : String
  approvalUuid : String
  recordUuid : String
  now : String
  deriving DecidableEq

def approvedDecision (input : VaultInput) (candidate : VaultCandidate) (rationale actor correlationId : String) :
    GovernanceDecision where
  id := "decision:" ++ input.decisionUuid
  classification := candidate.classification
  createdAt := input.now
  correlationId
  candidateId := candidate.id
  outcome := .approved
  decidedBy := "nuru.governance.v1"
  decidedAt := input.now
  rationale
  requiredHumanReview := true
  humanApprovalId := some ("approval:" ++ actor ++ ":" ++ input.approvalUuid)
  retained _ := nofun

def assertApprovedDecision (candidate : VaultCandidate) (decision : GovernanceDecision) : Except VaultError Unit :=
  if candidate.status ≠ .proposed then
    .error ⟨.candidateNotProposed, "Only a proposed candidate may enter canonical promotion."⟩
  else if decision.outcome ≠ .approved then
    .error ⟨.decisionNotApproved, "Only an approved governance decision can promote a canonical record."⟩
  else if decision.decidedBy ≠ "nuru.governance.v1" then
    .error ⟨.decisionNotGovernance, "Canonical promotion requires a decision issued by the governance authority."⟩
  else if decision.candidateId ≠ candidate.id then
    .error ⟨.decisionCandidateMismatch, "The governance decision must reference the candidate being promoted."⟩
  else .ok ()

def AuditEventType.suffix : AuditEventType → String
  | .decisionRecorded => "decision_recorded"
  | .canonicalPromoted => "canonical_promoted"
  | .recordSuperseded => "record_superseded"

def promotionAudit (record : CanonicalRecord) (eventType : AuditEventType) (reason : String) : VaultAuditEvent where
  id := "audit:" ++ record.id ++ ":" ++ eventType.suffix
  classification := record.classification
  createdAt := record.createdAt
  correlationId := record.correlationId
  eventType
  actor := "nuru.vault.governance.v1"
  resourceId := record.id
  occurredAt := record.createdAt
  reason

def promotedRecord (candidate : VaultCandidate) (decision : GovernanceDecision) (canonicalRecordId : String)
    (version : Nat) : CanonicalRecord where
  id := canonicalRecordId
  classification := candidate.classification
  createdAt := decision.decidedAt
  correlationId := candidate.correlationId
  candidateId := candidate.id
  governanceDecisionId := decision.id
  version
  status := .current

def promote (candidate : VaultCandidate) (decision : GovernanceDecision) (canonicalRecordId : String) :
    Except VaultError VaultAppend := do
  assertApprovedDecision candidate decision
  let record := promotedRecord candidate decision canonicalRecordId 1
  return .promotion decision record (promotionAudit record .canonicalPromoted
    "Promoted after an approved governance decision with retained human approval evidence.")

def CanonicalRecord.supersededBy (record : CanonicalRecord) (successor : String) : CanonicalRecord :=
  { record with status := .superseded successor }

def supersede (candidate : VaultCandidate) (decision : GovernanceDecision) (currentRecord : CanonicalRecord)
    (canonicalRecordId : String) : Except VaultError VaultAppend := do
  assertApprovedDecision candidate decision
  if currentRecord.status ≠ .current then
    throw ⟨.invalidCurrentRecord, "Only a current canonical record can be superseded."⟩
  if currentRecord.id = canonicalRecordId then
    throw ⟨.selfSupersession, "A canonical record cannot supersede itself."⟩
  let successor := promotedRecord candidate decision canonicalRecordId (currentRecord.version + 1)
  return .supersession decision currentRecord (currentRecord.supersededBy successor.id) successor
    (promotionAudit successor .recordSuperseded
      ("Superseded canonical record " ++ currentRecord.id ++ " after an approved governance decision."))

/-- `NuruVaultReviewService.approve`, between its read and its append. -/
def approve (input : VaultInput) (candidateId rationale : String) (supersedesRecordId : Option String)
    (actor correlationId : String) (ledger : VaultLedger) : Except VaultError VaultAppend :=
  let records := (latestMap (fun record : CanonicalRecord => record.id) (canonicalRecords ledger)).map Prod.snd
  match InsertionMap.get candidateId (latestMap (fun candidate : VaultCandidate => candidate.id) (candidates ledger)) with
  | none => .error ⟨.candidateNotFound, "The Vault candidate was not found."⟩
  | some candidate =>
    if records.any fun record => record.candidateId = candidate.id then
      .error ⟨.alreadyPromoted, "The Vault candidate already has a canonical record."⟩
    else
      let decision := approvedDecision input candidate rationale actor correlationId
      let canonicalRecordId := "canonical:" ++ input.recordUuid
      match supersedesRecordId with
      | none => promote candidate decision canonicalRecordId
      | some recordId =>
        match records.find? fun record => record.id = recordId ∧ record.status = .current with
        | none => .error ⟨.currentRecordNotFound, "The selected current canonical record was not found."⟩
        | some currentRecord => supersede candidate decision currentRecord canonicalRecordId

end Review

section Projects

structure ProjectDecisionInput where
  project : String
  question : String
  decision : String
  rationale : String
  alternatives : List String
  candidateId : String
  governanceDecisionId : String
  supersedesDecisionId : Option String
  deriving DecidableEq

structure ProjectRequirementInput where
  project : String
  title : String
  description : String
  priority : RequirementPriority
  acceptanceCriteria : List String
  projectDecisionId : String
  implementationRefs : List String
  testRefs : List String
  implementationStatus : ImplementationStatus
  candidateId : String
  governanceDecisionId : String
  supersedesRequirementId : Option String
  deriving DecidableEq

def approvalFor (given : ProjectDecisionInput) (ledger : VaultLedger) :
    Except VaultError (VaultCandidate × GovernanceDecision) :=
  match (candidates ledger).find? fun candidate => candidate.id = given.candidateId with
  | none => .error ⟨.candidateNotFound, "The evidence-backed candidate for this project decision was not found."⟩
  | some candidate =>
    match (governanceDecisions ledger).find? fun decision => decision.id = given.governanceDecisionId with
    | none =>
      .error ⟨.governanceDecisionNotFound, "The governance decision for this project decision was not found."⟩
    | some decision =>
      if decision.outcome ≠ .approved ∨ decision.humanApprovalId = none then
        .error ⟨.governanceNotApproved,
          "A project decision requires an approved governance decision with recorded human approval."⟩
      else if decision.candidateId ≠ candidate.id then
        .error ⟨.governanceCandidateMismatch,
          "The governance decision must approve the candidate cited by this project decision."⟩
      else .ok (candidate, decision)

def ProjectDecision.supersededBy (record : ProjectDecision) (successor : String) : ProjectDecision :=
  { record with status := .superseded successor }

def supersededReason (word : String) (snapshotId : Option String) : String :=
  match snapshotId with
  | some id => "Superseded project " ++ word ++ " " ++ id ++ "."
  | none => "Recorded human-approved project " ++ word ++ "."

/-- `NuruProjectDecisionService.record`, between its read and its append. -/
def recordDecision (input : VaultInput) (given : ProjectDecisionInput) (ledger : VaultLedger) :
    Except VaultError VaultAppend := do
  let (candidate, decision) ← approvalFor given ledger
  let current := given.supersedesDecisionId.bind fun id =>
    InsertionMap.get id (latestMap (fun record : ProjectDecision => record.id) (projectDecisions ledger))
  if given.supersedesDecisionId.isSome ∧ ¬current.any fun record => record.status = .current then
    throw ⟨.currentDecisionNotFound,
      "The project decision selected for supersession was not found or is no longer current."⟩
  if current.any fun record => record.project ≠ given.project then
    throw ⟨.projectMismatch, "A project decision may supersede only a current decision in the same project."⟩
  let record : ProjectDecision :=
    { id := "project-decision:" ++ input.recordUuid
      classification := candidate.classification
      createdAt := decision.decidedAt
      correlationId := candidate.correlationId
      project := given.project
      question := given.question
      decision := given.decision
      rationale := given.rationale
      alternatives := given.alternatives
      candidateId := candidate.id
      governanceDecisionId := decision.id
      decidedAt := decision.decidedAt
      version := (current.map ProjectDecision.version).getD 0 + 1
      status := .current }
  let supersededSnapshot := current.map fun previous => previous.supersededBy record.id
  return .projectDecision record supersededSnapshot
    { id := "audit:" ++ record.id ++ ":decision-recorded"
      classification := record.classification
      createdAt := record.decidedAt
      correlationId := record.correlationId
      eventType := .decisionRecorded
      actor := "nuru.project-memory.v1"
      resourceId := record.id
      occurredAt := record.decidedAt
      reason := supersededReason "decision" (supersededSnapshot.map fun snapshot => snapshot.id) }

/-- Any current snapshot of the decision will do, also one that is not the last. -/
def requirementApproval (given : ProjectRequirementInput) (ledger : VaultLedger) :
    Except VaultError (VaultCandidate × GovernanceDecision × ProjectDecision) :=
  match (candidates ledger).find? fun candidate => candidate.id = given.candidateId with
  | none => .error ⟨.candidateNotFound, "The evidence-backed candidate for this requirement was not found."⟩
  | some candidate =>
    match (governanceDecisions ledger).find? fun decision => decision.id = given.governanceDecisionId with
    | none => .error ⟨.governanceNotApproved, "A requirement requires recorded human governance approval."⟩
    | some governance =>
      if governance.outcome ≠ .approved ∨ governance.humanApprovalId = none then
        .error ⟨.governanceNotApproved, "A requirement requires recorded human governance approval."⟩
      else if governance.candidateId ≠ candidate.id then
        .error ⟨.governanceCandidateMismatch, "The governance decision must approve the cited candidate."⟩
      else
        match (projectDecisions ledger).find? fun decision =>
            decision.id = given.projectDecisionId ∧ decision.status = .current with
        | none =>
          .error ⟨.projectDecisionNotFound, "The requirement must trace to a current project decision."⟩
        | some architecture =>
          if architecture.project ≠ given.project then
            .error ⟨.projectMismatch, "The requirement and its project decision must belong to the same project."⟩
          else .ok (candidate, governance, architecture)

def ProjectRequirement.supersededBy (record : ProjectRequirement) (successor : String) : ProjectRequirement :=
  { record with status := .superseded successor }

/-- `NuruProjectRequirementService.record`, between its read and its append. -/
def recordRequirement (input : VaultInput) (given : ProjectRequirementInput) (ledger : VaultLedger) :
    Except VaultError VaultAppend := do
  let (candidate, governance, architecture) ← requirementApproval given ledger
  let current := given.supersedesRequirementId.bind fun id =>
    InsertionMap.get id (latestMap (fun record : ProjectRequirement => record.id) (projectRequirements ledger))
  if given.supersedesRequirementId.isSome ∧ ¬current.any fun record => record.status = .current then
    throw ⟨.currentRequirementNotFound,
      "The requirement selected for supersession was not found or is no longer current."⟩
  if current.any fun record => record.project ≠ given.project then
    throw ⟨.projectMismatch, "A requirement may supersede only a requirement in the same project."⟩
  let record : ProjectRequirement :=
    { id := "project-requirement:" ++ input.recordUuid
      classification := candidate.classification
      createdAt := governance.decidedAt
      correlationId := candidate.correlationId
      project := given.project
      title := given.title
      description := given.description
      priority := given.priority
      acceptanceCriteria := given.acceptanceCriteria
      projectDecisionId := architecture.id
      implementationRefs := given.implementationRefs
      testRefs := given.testRefs
      implementationStatus := given.implementationStatus
      candidateId := candidate.id
      governanceDecisionId := governance.id
      version := (current.map ProjectRequirement.version).getD 0 + 1
      status := .current }
  let supersededSnapshot := current.map fun previous => previous.supersededBy record.id
  return .projectRequirement record supersededSnapshot
    { id := "audit:" ++ record.id ++ ":requirement-recorded"
      classification := record.classification
      createdAt := record.createdAt
      correlationId := record.correlationId
      eventType := .decisionRecorded
      actor := "nuru.project-memory.v1"
      resourceId := record.id
      occurredAt := record.createdAt
      reason := supersededReason "requirement" (supersededSnapshot.map fun snapshot => snapshot.id) }

end Projects

section Turns

inductive VaultRequest where
  | approve (candidateId rationale : String) (supersedesRecordId : Option String) (actor correlationId : String)
  | recordDecision (given : ProjectDecisionInput)
  | recordRequirement (given : ProjectRequirementInput)
  deriving DecidableEq

inductive VaultStage where
  | received
  | appending (rows : VaultAppend)
  | ended (result : Except VaultError VaultAppend)

structure VaultCall where
  request : VaultRequest
  stage : VaultStage

def VaultRequest.decide (input : VaultInput) (request : VaultRequest) (ledger : VaultLedger) :
    Except VaultError VaultAppend :=
  match request with
  | .approve candidateId rationale supersedesRecordId actor correlationId =>
    Vault.approve input candidateId rationale supersedesRecordId actor correlationId ledger
  | .recordDecision given => Vault.recordDecision input given ledger
  | .recordRequirement given => Vault.recordRequirement input given ledger

def VaultCall.section (input : VaultInput) (call : VaultCall) (ledger : VaultLedger) : VaultStage × VaultLedger :=
  match call.stage with
  | .received =>
    match call.request.decide input ledger with
    | .error error => (.ended (.error error), ledger)
    | .ok rows =>
      match rows.refused with
      | some error => (.ended (.error error), ledger)
      | none => (.appending rows, ledger)
  | .appending rows => (.ended (.ok rows), ledger ++ rows.rows)
  | .ended result => (.ended result, ledger)

/-- What the other services append: candidates, and records that have no versions. -/
inductive OtherAppend where
  | candidate (record : VaultCandidate)
  | audit (record : VaultAuditEvent)
  | other (record : Envelope)
  deriving DecidableEq

def OtherAppend.row : OtherAppend → VaultRecord
  | .candidate record => .candidate record
  | .audit record => .audit record
  | .other record => .other record

def vaultRules : CrowdRules VaultRequest VaultCall VaultInput OtherAppend VaultLedger where
  start request := ⟨request, .received⟩
  advance input call ledger := ({ call with stage := (call.section input ledger).1 }, (call.section input ledger).2)
  outside appended ledger := ledger ++ [appended.row]

abbrev VaultTurn := CrowdTurn VaultRequest VaultInput OtherAppend

abbrev Vaults := Crowd VaultCall VaultLedger

end Turns

end CommandConsole.Vault
