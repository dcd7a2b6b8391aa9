import Mathlib.Data.List.Sort
import CommandConsole.Learning.ProvenanceLedger

/-! # Integrity of durable knowledge

The validator collects what is wrong with the lineage of one durable record: its
candidate, approval, evidence and sources, the supersession links on both sides,
and a walk over all supersession links that looks for a cycle.
-/
namespace CommandConsole.Learning
open Library
open CommandConsole.Execution (isBlank)
set_option autoImplicit false

inductive ViolationCode where
  | orphanKnowledge
  | missingSource
  | missingInterpretation
  | missingApproval
  | invalidAuthority
  | brokenLineage
  | missingRequiredEvidence
  | unknownActor
  | circularLineage
  | invalidSupersession
  | missingPredecessor
  | missingSuccessor
  deriving DecidableEq

def ViolationCode.text : ViolationCode → String
  | orphanKnowledge => "ORPHAN_KNOWLEDGE"
  | missingSource => "MISSING_SOURCE"
  | missingInterpretation => "MISSING_INTERPRETATION"
  | missingApproval => "MISSING_APPROVAL"
  | invalidAuthority => "INVALID_AUTHORITY"
  | brokenLineage => "BROKEN_LINEAGE"
  | missingRequiredEvidence => "MISSING_REQUIRED_EVIDENCE"
  | unknownActor => "UNKNOWN_ACTOR"
  | circularLineage => "CIRCULAR_LINEAGE"
  | invalidSupersession => "INVALID_SUPERSESSION"
  | missingPredecessor => "MISSING_PREDECESSOR"
  | missingSuccessor => "MISSING_SUCCESSOR"

structure IntegrityResult where
  valid : Bool
  violations : List ViolationCode
  deriving DecidableEq

inductive TrustState where
  | trusted
  | quarantined
  | unverified
  | invalid
  | requiresRepair
  deriving DecidableEq

def flag (condition : Bool) (code : ViolationCode) : List ViolationCode :=
  if condition then [code] else []

theorem mem_flag (condition : Bool) (code code' : ViolationCode) :
    code' ∈ flag condition code ↔ condition = true ∧ code' = code := by
  cases condition with
  | false => simp [flag]
  | true => simp [flag]

section Validator

variable (ledger : ProvenanceLedger)

def isTeachingEvent : Option ProvenanceRecord → Bool
  | some ⟨_, .teachingEvent _, _, _⟩ => true
  | _ => false

def isUnattributedTeaching : Option ProvenanceRecord → Bool
  | some ⟨_, .teachingEvent sourceActor, _, _⟩ => isBlank sourceActor.actorId
  | _ => false

def approvalViolations (knowledge : DurableKnowledge) : List ViolationCode :=
  match ledger.get knowledge.approvalId with
  | some ⟨_, .humanApproval candidateId decision actor, _, _⟩ =>
    flag (candidateId ≠ knowledge.candidateId || decision ≠ .approved) .missingApproval ++
      flag (isBlank actor.actorId) .unknownActor
  | _ => [.missingApproval]

def extractionViolations (knowledge : DurableKnowledge) (extractionId : String) : List ViolationCode :=
  match ledger.get extractionId with
  | some ⟨_, .extraction sourceRefs interpretedBy scope, _, _⟩ =>
    flag (isBlank interpretedBy.actorId) .unknownActor ++
      flag (sourceRefs.isEmpty || sourceRefs.any fun id => !isTeachingEvent (ledger.get id)) .missingSource ++
      flag (sourceRefs.any fun id => isUnattributedTeaching (ledger.get id)) .unknownActor ++
      flag (scopeKey scope ≠ scopeKey knowledge.scope) .brokenLineage
  | _ => [.missingInterpretation]

def candidateViolations (knowledge : DurableKnowledge) : List ViolationCode :=
  match ledger.get knowledge.candidateId with
  | some ⟨_, .candidateKnowledge scope extractionRefs, _, _⟩ =>
    flag extractionRefs.isEmpty .missingInterpretation ++
      extractionRefs.flatMap (extractionViolations ledger knowledge) ++
      flag (scopeKey scope ≠ scopeKey knowledge.scope) .brokenLineage
  | _ => [.missingInterpretation]

/-- Some predecessor of the record has no link back to it. -/
def hasUnansweredPredecessor (knowledgeId : String) : Bool :=
  ((ledger.getRelationships knowledgeId).filter fun link =>
    link.type = .supersedes && link.fromId = knowledgeId).any fun predecessor =>
      !(ledger.getRelationships predecessor.toId).any fun link =>
        link.type = .supersededBy && link.fromId = predecessor.toId && link.toId = knowledgeId

def supersessionViolations (knowledgeId : String) (knowledge : DurableKnowledge) : List ViolationCode :=
  flag (knowledge.status = .superseded &&
      ((ledger.getRelationships knowledgeId).filter fun link =>
        link.type = .supersededBy && link.fromId = knowledgeId).isEmpty) .missingSuccessor ++
    flag (hasUnansweredPredecessor ledger knowledgeId) .invalidSupersession

/-- `visit(knowledgeId)`: an inner call that answers false takes its record out of `visited` again. -/
def hasCircularLineage (knowledgeId : String) : Bool :=
  (lineage ledger RelationshipType.isSupersession).visit [] knowledgeId

def knowledgeViolations (knowledgeId : String) (knowledge : DurableKnowledge) : List ViolationCode :=
  approvalViolations ledger knowledge ++
    flag (knowledge.authority = "") .invalidAuthority ++
    flag (knowledge.evidenceRefs.any fun id => (ledger.get id).isNone) .missingRequiredEvidence ++
    candidateViolations ledger knowledge ++
    supersessionViolations ledger knowledgeId knowledge ++
    flag (hasCircularLineage ledger knowledgeId) .circularLineage

def validateProvenance (knowledgeId : String) : IntegrityResult :=
  match ledger.durable knowledgeId with
  | none => ⟨false, [.orphanKnowledge]⟩
  | some knowledge =>
    let violations := (knowledgeViolations ledger knowledgeId knowledge).eraseDups.insertionSort
      fun left right => left.text ≤ right.text
    ⟨violations.isEmpty, violations⟩

end Validator

def provenanceTrustState (integrity : IntegrityResult) : TrustState :=
  if integrity.valid then .trusted
  else if integrity.violations.contains .circularLineage || integrity.violations.contains .invalidSupersession then
    .invalid
  else if integrity.violations.contains .missingSource || integrity.violations.contains .missingApproval ||
      integrity.violations.contains .missingInterpretation then .quarantined
  else .requiresRepair

section Reports

variable {ledger : ProvenanceLedger} {knowledgeId : String}

theorem mem_violations {knowledge : DurableKnowledge} (h : ledger.durable knowledgeId = some knowledge)
    (code : ViolationCode) :
    code ∈ (validateProvenance ledger knowledgeId).violations ↔
      code ∈ knowledgeViolations ledger knowledgeId knowledge := by
  simp only [validateProvenance, h, List.mem_insertionSort, List.mem_eraseDups]

theorem lineage_notMem_approval (knowledge : DurableKnowledge) {code : ViolationCode}
    (hCode : code = .circularLineage ∨ code = .invalidSupersession) :
    code ∉ approvalViolations ledger knowledge := by
  rw [approvalViolations]
  split
  · rcases hCode with rfl | rfl <;> simp [mem_flag]
  · rcases hCode with rfl | rfl <;> simp

theorem lineage_notMem_extraction (knowledge : DurableKnowledge) (extractionId : String) {code : ViolationCode}
    (hCode : code = .circularLineage ∨ code = .invalidSupersession) :
    code ∉ extractionViolations ledger knowledge extractionId := by
  rw [extractionViolations]
  split
  · rcases hCode with rfl | rfl <;> simp [mem_flag]
  · rcases hCode with rfl | rfl <;> simp

theorem lineage_notMem_candidate (knowledge : DurableKnowledge) {code : ViolationCode}
    (hCode : code = .circularLineage ∨ code = .invalidSupersession) :
    code ∉ candidateViolations ledger knowledge := by
  rw [candidateViolations]
  split
  · simp only [List.mem_append, List.mem_flatMap, mem_flag, not_or, not_exists, not_and]
    refine ⟨⟨?_, fun id _ => lineage_notMem_extraction knowledge id hCode⟩, ?_⟩
    · rcases hCode with rfl | rfl <;> simp
    · rcases hCode with rfl | rfl <;> simp
  · rcases hCode with rfl | rfl <;> simp

theorem hasUnansweredPredecessor_iff :
    hasUnansweredPredecessor ledger knowledgeId = true ↔
      ∃ prior, ledger.Links .supersedes knowledgeId prior ∧ ¬ ledger.Links .supersededBy prior knowledgeId := by
  simp only [hasUnansweredPredecessor, ProvenanceLedger.getRelationships, List.any_eq_true, List.mem_filter,
    Bool.not_eq_true', List.any_eq_false, Bool.and_eq_true, Bool.or_eq_true, decide_eq_true_iff,
    ProvenanceLedger.Links]
  constructor
  · rintro ⟨link, ⟨⟨hMem, _⟩, hType, hFrom⟩, hNone⟩
    refine ⟨link.toId, ⟨link, hMem, hType, hFrom, rfl⟩, ?_⟩
    rintro ⟨back, hBack, hBackType, hBackFrom, hBackTo⟩
    exact hNone back ⟨hBack, .inl hBackFrom⟩ ⟨⟨hBackType, hBackFrom⟩, hBackTo⟩
  · rintro ⟨_, ⟨link, hMem, hType, hFrom, rfl⟩, hNone⟩
    refine ⟨link, ⟨⟨hMem, .inl hFrom⟩, hType, hFrom⟩, ?_⟩
    rintro back ⟨hBack, _⟩ ⟨⟨hBackType, hBackFrom⟩, hBackTo⟩
    exact hNone ⟨back, hBack, hBackType, hBackFrom, hBackTo⟩

/-- The walk reports every record from which a cycle of links of both directions can be reached. -/
theorem circularLineage_mem_iff {knowledge : DurableKnowledge}
    (h : ledger.durable knowledgeId = some knowledge) :
    .circularLineage ∈ (validateProvenance ledger knowledgeId).violations ↔
      (lineage ledger RelationshipType.isSupersession).CyclicFrom knowledgeId := by
  rw [mem_violations h, ← Library.Digraph.visit_iff]
  simp only [knowledgeViolations, supersessionViolations, List.mem_append, mem_flag,
    lineage_notMem_approval knowledge (.inl rfl), lineage_notMem_candidate knowledge (.inl rfl),
    hasCircularLineage, reduceCtorEq, and_false, or_false, false_or, and_true]

theorem invalidSupersession_mem_iff {knowledge : DurableKnowledge}
    (h : ledger.durable knowledgeId = some knowledge) :
    .invalidSupersession ∈ (validateProvenance ledger knowledgeId).violations ↔
      ∃ prior, ledger.Links .supersedes knowledgeId prior ∧
        ¬ ledger.Links .supersededBy prior knowledgeId := by
  rw [mem_violations h, ← hasUnansweredPredecessor_iff]
  simp only [knowledgeViolations, supersessionViolations, List.mem_append, mem_flag,
    lineage_notMem_approval knowledge (.inr rfl), lineage_notMem_candidate knowledge (.inr rfl),
    reduceCtorEq, and_false, or_false, false_or, and_true]

end Reports
end CommandConsole.Learning
