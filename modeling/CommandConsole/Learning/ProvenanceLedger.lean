import CommandConsole.Library.Digraph
import CommandConsole.Execution.Text

/-! # Provenance ledger

Records and the links between them are appended and never rewritten. Appending
what the ledger already holds changes nothing; appending something else under the
same id, or a link to a record that is not there, is an error.
-/
namespace CommandConsole.Learning
open Library
open CommandConsole.Execution (isBlank)
set_option autoImplicit false

section Records

inductive ActorType where
  | human
  | agent
  | system
  | external
  deriving DecidableEq

structure ProvenanceActor where
  actorId : String
  actorType : ActorType
  deriving DecidableEq

inductive KnowledgeScope where
  | conversation
  | session
  | user
  | agent
  | project
  | workspace
  | organization
  | domain
  | component
  | task
  | system
  | global
  deriving DecidableEq

def KnowledgeScope.text : KnowledgeScope → String
  | conversation => "CONVERSATION"
  | session => "SESSION"
  | user => "USER"
  | agent => "AGENT"
  | project => "PROJECT"
  | workspace => "WORKSPACE"
  | organization => "ORGANIZATION"
  | domain => "DOMAIN"
  | component => "COMPONENT"
  | task => "TASK"
  | system => "SYSTEM"
  | global => "GLOBAL"

structure KnowledgeScopeReference where
  type : KnowledgeScope
  id : Option String
  deriving DecidableEq

def scopeKey (scope : KnowledgeScopeReference) : String :=
  match scope.id with
  | some id => scope.type.text ++ ":" ++ id
  | none => scope.type.text

inductive ApprovalDecision where
  | approved
  | rejected
  deriving DecidableEq

inductive KnowledgeStatus where
  | active
  | superseded
  | quarantined
  | unverified
  | invalid
  | requiresRepair
  deriving DecidableEq

structure DurableKnowledge where
  scope : KnowledgeScopeReference
  authority : String
  candidateId : String
  approvalId : String
  evidenceRefs : List String
  status : KnowledgeStatus
  deriving DecidableEq

inductive OtherRecordType where
  | evidenceSet
  | teachBack
  | teachBackEvaluation
  | conflict
  | conflictSet
  | conflictResolutionProposal
  | resolutionEvidencePackage
  | conflictEvent
  | conflictClarificationRequest
  | conflictEscalation
  | conflictReassessmentTrigger
  | conflictResolutionDecision
  | conflictResolution
  deriving DecidableEq

/-- The record types, each with the fields that a reader looks at. -/
inductive RecordContent where
  | teachingEvent (sourceActor : ProvenanceActor)
  | extraction (sourceRefs : List String) (interpretedBy : ProvenanceActor) (scope : KnowledgeScopeReference)
  | candidateKnowledge (scope : KnowledgeScopeReference) (extractionRefs : List String)
  | humanApproval (candidateId : String) (decision : ApprovalDecision) (actor : ProvenanceActor)
  | durableKnowledge (knowledge : DurableKnowledge)
  | other (recordType : OtherRecordType)
  deriving DecidableEq

/-- The `body` is the text of the fields that only the comparison of whole records reads. -/
structure ProvenanceRecord where
  id : String
  content : RecordContent
  body : String
  immutable : Bool
  deriving DecidableEq

inductive RelationshipType where
  | derivedFrom
  | extractedFrom
  | interpretedAs
  | supportedBy
  | contradictedBy
  | approvedBy
  | rejectedBy
  | corrects
  | correctedBy
  | supersedes
  | supersededBy
  | refines
  | mergedFrom
  | splitFrom
  | references
  | invalidatedBy
  | conflictsExisting
  | conflictsCandidate
  | proposedForConflict
  | evidenceSnapshotFor
  | auditsConflictProposal
  | conflictSetMember
  | clarificationRequestFor
  | escalatedFromConflict
  | reassessmentTriggerFor
  | reassessmentEvidence
  | decidesProposal
  | decidesConflict
  | executesConflictDecision
  | exceptionOf
  | narrowsScopeOf
  | teachBackFor
  | evaluatesTeachBack
  deriving DecidableEq

structure ProvenanceRelationship where
  id : String
  fromId : String
  toId : String
  type : RelationshipType
  createdAt : String
  actor : ProvenanceActor
  immutable : Bool
  deriving DecidableEq

/-- The types that link a durable record to what it replaces and to what replaces it. -/
def RelationshipType.isSupersession (type : RelationshipType) : Bool :=
  type = .supersedes || type = .supersededBy

end Records

section Ledger

structure ProvenanceLedger where
  records : PlainTable ProvenanceRecord.id
  relationships : PlainTable ProvenanceRelationship.id
  endpoints : ∀ link ∈ relationships.rows,
    (records.find? link.fromId).isSome ∧ (records.find? link.toId).isSome

namespace ProvenanceLedger

def empty : ProvenanceLedger := ⟨.empty, .empty, fun _ h => by cases h⟩

def get (ledger : ProvenanceLedger) (recordId : String) : Option ProvenanceRecord :=
  ledger.records.find? recordId

def getRelationships (ledger : ProvenanceLedger) (recordId : String) : List ProvenanceRelationship :=
  ledger.relationships.rows.filter fun item => item.fromId = recordId || item.toId = recordId

def withRecord (ledger : ProvenanceLedger) (record : ProvenanceRecord) : ProvenanceLedger where
  records := ledger.records.put record
  relationships := ledger.relationships
  endpoints link hLink := by
    have hEnds := ledger.endpoints link hLink
    rw [PlainTable.find?_put, PlainTable.find?_put]
    constructor
    · split
      · rfl
      · exact hEnds.1
    · split
      · rfl
      · exact hEnds.2

def append (ledger : ProvenanceLedger) (record : ProvenanceRecord) : Except String ProvenanceLedger :=
  match ledger.records.find? record.id with
  | some existing =>
    if existing ≠ record then .error "immutable provenance record cannot be rewritten" else .ok ledger
  | none =>
    if !record.immutable then .error "provenance records must be immutable"
    else .ok (ledger.withRecord record)

def relate (ledger : ProvenanceLedger) (relationship : ProvenanceRelationship) :
    Except String ProvenanceLedger :=
  match ledger.relationships.find? relationship.id with
  | some existing =>
    if existing ≠ relationship then .error "immutable provenance relationship cannot be rewritten"
    else .ok ledger
  | none =>
    if !relationship.immutable then .error "provenance relationships must be immutable"
    else if h : (ledger.records.find? relationship.fromId).isSome ∧
        (ledger.records.find? relationship.toId).isSome then
      .ok {
        ledger with
        relationships := ledger.relationships.put relationship
        endpoints := fun link hLink => by
          rcases (PlainTable.mem_put _ _ _).mp hLink with rfl | ⟨hOld, _⟩
          · exact h
          · exact ledger.endpoints link hOld }
    else .error "provenance relationship endpoint is missing"

def durable (ledger : ProvenanceLedger) (recordId : String) : Option DurableKnowledge :=
  match ledger.get recordId with
  | some ⟨_, .durableKnowledge knowledge, _, _⟩ => some knowledge
  | _ => none

theorem append_relationships {ledger ledger' : ProvenanceLedger} {record : ProvenanceRecord}
    (h : ledger.append record = .ok ledger') : ledger'.relationships = ledger.relationships := by
  rw [append] at h
  split at h
  · split at h
    · cases h
    · cases h
      rfl
  · split at h
    · cases h
    · cases h
      rfl

/-- A link that is accepted stands in the ledger, at its end or where it stood before. -/
theorem relate_eq_ok {ledger ledger' : ProvenanceLedger} {link : ProvenanceRelationship}
    (h : ledger.relate link = .ok ledger') :
    ledger'.records = ledger.records ∧
      (ledger' = ledger ∧ link ∈ ledger.relationships.rows ∨
        ledger'.relationships.rows = ledger.relationships.rows ++ [link]) := by
  rw [relate] at h
  split at h
  · rename_i existing hFind
    split at h
    · cases h
    · rename_i hSame
      cases h
      refine ⟨rfl, .inl ⟨rfl, ?_⟩⟩
      rw [← Classical.not_not.mp hSame]
      exact Table.find?_mem hFind
  · rename_i hNew
    split at h
    · cases h
    · split at h
      · cases h
        exact ⟨rfl, .inr (PlainTable.rows_put hNew)⟩
      · cases h

end ProvenanceLedger
end Ledger

section Links

/-- Some link of the type leads from the first record to the second. -/
def ProvenanceLedger.Links (ledger : ProvenanceLedger) (type : RelationshipType) (a b : String) : Prop :=
  ∃ link ∈ ledger.relationships.rows, link.type = type ∧ link.fromId = a ∧ link.toId = b

/-- The targets of the outgoing links of some types, as the walks over a ledger read them. -/
def outgoing (ledger : ProvenanceLedger) (follows : RelationshipType → Bool) (id : String) : List String :=
  ((ledger.getRelationships id).filter fun link => link.fromId = id && follows link.type).map (·.toId)

theorem mem_outgoing (ledger : ProvenanceLedger) (follows : RelationshipType → Bool) (a b : String) :
    b ∈ outgoing ledger follows a ↔ ∃ type, follows type = true ∧ ledger.Links type a b := by
  simp only [outgoing, ProvenanceLedger.getRelationships, List.mem_map, List.mem_filter, Bool.or_eq_true,
    Bool.and_eq_true, decide_eq_true_iff]
  constructor
  · rintro ⟨link, ⟨⟨hMem, _⟩, hFrom, hType⟩, hTo⟩
    exact ⟨link.type, hType, link, hMem, rfl, hFrom, hTo⟩
  · rintro ⟨_, hType, link, hMem, rfl, hFrom, hTo⟩
    exact ⟨link, ⟨⟨hMem, .inl hFrom⟩, hFrom, hType⟩, hTo⟩

def lineage (ledger : ProvenanceLedger) (follows : RelationshipType → Bool) : Library.Digraph String where
  next := outgoing ledger follows
  sources := ledger.relationships.rows.map (·.fromId)
  next_eq_nil id hOut := by
    refine List.eq_nil_iff_forall_not_mem.mpr fun target hTarget => hOut ?_
    obtain ⟨_, _, link, hMem, _, hFrom, _⟩ := (mem_outgoing ledger follows id target).mp hTarget
    exact List.mem_map.mpr ⟨link, hMem, hFrom⟩

theorem lineage_leads (ledger : ProvenanceLedger) (follows : RelationshipType → Bool) (a b : String) :
    (lineage ledger follows).Leads a b ↔ ∃ type, follows type = true ∧ ledger.Links type a b :=
  mem_outgoing ledger follows a b

/-- The graph of one link type. -/
abbrev along (ledger : ProvenanceLedger) (type : RelationshipType) : Library.Digraph String :=
  lineage ledger (· = type)

theorem along_leads (ledger : ProvenanceLedger) (type : RelationshipType) (a b : String) :
    (along ledger type).Leads a b ↔ ledger.Links type a b := by
  rw [lineage_leads]
  simp only [decide_eq_true_iff, exists_eq_left]

/-- What an accepted link adds to the links of its type; those of the other types stay. -/
theorem ProvenanceLedger.links_relate {ledger ledger' : ProvenanceLedger} {link : ProvenanceRelationship}
    (h : ledger.relate link = .ok ledger') (type : RelationshipType) (a b : String) :
    ledger'.Links type a b ↔
      ledger.Links type a b ∨ link.type = type ∧ link.fromId = a ∧ link.toId = b := by
  rcases (relate_eq_ok h).2 with ⟨rfl, hMem⟩ | hRows
  · constructor
    · exact .inl
    · rintro (hOld | hNew)
      · exact hOld
      · exact ⟨link, hMem, hNew⟩
  · simp only [Links, hRows, List.mem_append, List.mem_singleton]
    constructor
    · rintro ⟨other, hOld | rfl, hOther⟩
      · exact .inl ⟨other, hOld, hOther⟩
      · exact .inr hOther
    · rintro (⟨other, hOld, hOther⟩ | hNew)
      · exact ⟨other, .inl hOld, hOther⟩
      · exact ⟨link, .inr rfl, hNew⟩

theorem ProvenanceLedger.links_append {ledger ledger' : ProvenanceLedger} {record : ProvenanceRecord}
    (h : ledger.append record = .ok ledger') (type : RelationshipType) (a b : String) :
    ledger'.Links type a b ↔ ledger.Links type a b := by
  rw [Links, Links, append_relationships h]

end Links
end CommandConsole.Learning
