import CommandConsole.Library.Run
import CommandConsole.Learning.ProvenanceIntegrity

/-! # Supersession of durable knowledge

A supersession links a durable record and its successor in both directions and
rewrites neither. The service refuses one whose successor already leads back to
the prior record. The integrity walk follows both directions of the links.
-/
namespace CommandConsole.Learning
open Library Relation
open CommandConsole.Execution (isBlank)
set_option autoImplicit false

structure SupersessionRequest where
  priorKnowledgeId : String
  successorKnowledgeId : String
  reason : String
  actor : ProvenanceActor
  occurredAt : Option String
  deriving DecidableEq

inductive SupersessionStatus where
  | superseded
  | rejected
  | persistenceFailed
  deriving DecidableEq

inductive SupersessionReason where
  | knowledgeSuperseded
  | priorKnowledgeMissing
  | successorKnowledgeMissing
  | scopeIncompatible
  | reasonMissing
  | actorNotHuman
  | circularSupersession
  | persistenceFailed
  deriving DecidableEq

inductive PersistenceEffect where
  | created
  | none
  deriving DecidableEq

structure SupersessionResult where
  status : SupersessionStatus
  reasonCode : SupersessionReason
  predecessor : Option DurableKnowledge := .none
  successor : Option DurableKnowledge := .none
  relationships : List ProvenanceRelationship := []
  created : Bool := false
  persistenceEffect : PersistenceEffect := .none
  deriving DecidableEq

/-- A request with what the clock and the id generator answer during its call. -/
structure SupersessionCall extends SupersessionRequest where
  now : String
  supersedesId : String
  supersededById : String
  deriving DecidableEq

namespace SupersessionCall

variable (call : SupersessionCall)

def createdAt : String := call.occurredAt.getD call.now

def supersedesLink : ProvenanceRelationship where
  id := call.supersedesId
  fromId := call.successorKnowledgeId
  toId := call.priorKnowledgeId
  type := .supersedes
  actor := call.actor
  createdAt := call.createdAt
  immutable := true

def supersededByLink : ProvenanceRelationship where
  id := call.supersededById
  fromId := call.priorKnowledgeId
  toId := call.successorKnowledgeId
  type := .supersededBy
  actor := call.actor
  createdAt := call.createdAt
  immutable := true

def names (id : String) : Prop := call.priorKnowledgeId = id ∨ call.successorKnowledgeId = id

end SupersessionCall

def rejected (reasonCode : SupersessionReason) : SupersessionResult := { status := .rejected, reasonCode }

def supersessionFailed : SupersessionResult := { status := .persistenceFailed, reasonCode := .persistenceFailed }

def superseded (call : SupersessionCall) (prior successor : DurableKnowledge) : SupersessionResult where
  status := .superseded
  reasonCode := .knowledgeSuperseded
  predecessor := some prior
  successor := some successor
  relationships := [call.supersedesLink, call.supersededByLink]
  created := true
  persistenceEffect := .created

/-- What the call checks before it looks at the lineage: the two records, or the refusal. -/
def checkRequest (ledger : ProvenanceLedger) (request : SupersessionRequest) :
    Except SupersessionReason (DurableKnowledge × DurableKnowledge) :=
  if isBlank request.reason then .error .reasonMissing
  else if request.actor.actorType ≠ .human || isBlank request.actor.actorId then .error .actorNotHuman
  else
    match ledger.durable request.priorKnowledgeId, ledger.durable request.successorKnowledgeId with
    | none, _ => .error .priorKnowledgeMissing
    | some _, none => .error .successorKnowledgeMissing
    | some prior, some successor =>
      if scopeKey prior.scope ≠ scopeKey successor.scope then .error .scopeIncompatible
      else .ok (prior, successor)

def reaches (ledger : ProvenanceLedger) (fromId targetId : String) : Bool :=
  (along ledger .supersededBy).search fromId targetId

/-- The two links, one after the other; an error of the second leaves the first in the ledger. -/
def relateBoth (ledger : ProvenanceLedger) (call : SupersessionCall) : ProvenanceLedger × Bool :=
  match ledger.relate call.supersedesLink with
  | .error _ => (ledger, false)
  | .ok ledger₁ =>
    match ledger₁.relate call.supersededByLink with
    | .error _ => (ledger₁, false)
    | .ok ledger₂ => (ledger₂, true)

def supersede (ledger : ProvenanceLedger) (call : SupersessionCall) : SupersessionResult × ProvenanceLedger :=
  match checkRequest ledger call.toSupersessionRequest with
  | .error reason => (rejected reason, ledger)
  | .ok (prior, successor) =>
    if reaches ledger call.successorKnowledgeId call.priorKnowledgeId then
      (rejected .circularSupersession, ledger)
    else
      match relateBoth ledger call with
      | (ledger', true) => (superseded call prior successor, ledger')
      | (ledger', false) => (supersessionFailed, ledger')

section Sequences

/-- What the other services do to a ledger. -/
inductive LedgerWrite where
  | append (record : ProvenanceRecord)
  | relate (relationship : ProvenanceRelationship)

def LedgerWrite.apply (write : LedgerWrite) (ledger : ProvenanceLedger) : ProvenanceLedger :=
  match write with
  | append record => (ledger.append record).toOption.getD ledger
  | relate relationship => (ledger.relate relationship).toOption.getD ledger

/-- The write links no supersession. -/
def LedgerWrite.unrelated : LedgerWrite → Bool
  | append _ => true
  | relate relationship => !relationship.type.isSupersession

theorem LedgerWrite.links_apply {write : LedgerWrite} (h : write.unrelated = true) {type : RelationshipType}
    (hType : type.isSupersession = true) (ledger : ProvenanceLedger) (a b : String) :
    (write.apply ledger).Links type a b ↔ ledger.Links type a b := by
  cases write with
  | append record =>
    dsimp only [apply]
    cases hAppend : ledger.append record with
    | error _ => exact Iff.rfl
    | ok ledger' => exact ProvenanceLedger.links_append hAppend type a b
  | relate link =>
    dsimp only [apply]
    cases hRelate : ledger.relate link with
    | error _ => exact Iff.rfl
    | ok ledger' =>
      refine (ProvenanceLedger.links_relate hRelate type a b).trans (or_iff_left ?_)
      rintro ⟨rfl, _⟩
      rw [unrelated, hType] at h
      cases h

inductive LedgerOp where
  | write (change : LedgerWrite)
  | supersede (call : SupersessionCall)

def ledgerStep (op : LedgerOp) (ledger : ProvenanceLedger) : ProvenanceLedger :=
  match op with
  | .write change => change.apply ledger
  | .supersede call => (supersede ledger call).2

/-- Supersession links come from successful supersessions only. -/
def Superseding (op : LedgerOp) (ledger : ProvenanceLedger) : Prop :=
  match op with
  | .write change => change.unrelated = true
  | .supersede call => (supersede ledger call).1.status = .superseded

instance (op : LedgerOp) (ledger : ProvenanceLedger) : Decidable (Superseding op ledger) :=
  match op with
  | .write change => inferInstanceAs (Decidable (change.unrelated = true))
  | .supersede call => inferInstanceAs (Decidable ((supersede ledger call).1.status = .superseded))

theorem supersede_ok {ledger : ProvenanceLedger} {call : SupersessionCall}
    (h : (supersede ledger call).1.status = .superseded) :
    ∃ ledger₁, ledger.relate call.supersedesLink = .ok ledger₁ ∧
      ledger₁.relate call.supersededByLink = .ok (supersede ledger call).2 := by
  rw [supersede] at h ⊢
  split at h
  · cases h
  · rename_i prior successor hCheck
    split at h
    · cases h
    · rename_i hReach
      rw [relateBoth] at h ⊢
      simp only [hReach]
      cases hFirst : ledger.relate call.supersedesLink with
      | error _ =>
        rw [hFirst] at h
        cases h
      | ok ledger₁ =>
        rw [hFirst] at h
        dsimp only at h ⊢
        cases hSecond : ledger₁.relate call.supersededByLink with
        | error _ =>
          rw [hSecond] at h
          cases h
        | ok ledger₂ => exact ⟨ledger₁, rfl, hSecond⟩

/-- The links that a successful supersession adds. -/
theorem links_supersede {ledger : ProvenanceLedger} {call : SupersessionCall}
    (h : (supersede ledger call).1.status = .superseded) (type : RelationshipType) (a b : String) :
    (supersede ledger call).2.Links type a b ↔ ledger.Links type a b ∨
      (type = .supersedes ∧ call.successorKnowledgeId = a ∧ call.priorKnowledgeId = b) ∨
      (type = .supersededBy ∧ call.priorKnowledgeId = a ∧ call.successorKnowledgeId = b) := by
  obtain ⟨ledger₁, hFirst, hSecond⟩ := supersede_ok h
  rw [ProvenanceLedger.links_relate hSecond, ProvenanceLedger.links_relate hFirst, or_assoc]
  simp only [SupersessionCall.supersedesLink, SupersessionCall.supersededByLink, eq_comm (a := type)]

/-- Operations that link no supersession leave the supersession links as they are. -/
theorem links_ledgerStep {op : LedgerOp} {ledger : ProvenanceLedger} (hOp : Superseding op ledger)
    {type : RelationshipType} (hType : type.isSupersession = true) (a b : String) :
    (ledgerStep op ledger).Links type a b ↔ ledger.Links type a b ∨ ∃ call, op = .supersede call ∧
      ((type = .supersedes ∧ call.successorKnowledgeId = a ∧ call.priorKnowledgeId = b) ∨
        (type = .supersededBy ∧ call.priorKnowledgeId = a ∧ call.successorKnowledgeId = b)) := by
  cases op with
  | write change =>
    simp only [ledgerStep, reduceCtorEq, false_and, exists_false, or_false]
    exact change.links_apply hOp hType ledger a b
  | supersede call =>
    refine (links_supersede hOp type a b).trans (or_congr_right ?_)
    simp only [LedgerOp.supersede.injEq, exists_eq_left']

/-- The supersession links of a ledger are those of the supersessions that made it. -/
theorem links_runAll {type : RelationshipType} (hType : type.isSupersession = true) (ops : List LedgerOp)
    (ledger : ProvenanceLedger) (h : GuardedAll ledgerStep Superseding ledger ops) (a b : String) :
    (runAll ledgerStep ledger ops).Links type a b ↔ ledger.Links type a b ∨
      ∃ call, .supersede call ∈ ops ∧
        ((type = .supersedes ∧ call.successorKnowledgeId = a ∧ call.priorKnowledgeId = b) ∨
          (type = .supersededBy ∧ call.priorKnowledgeId = a ∧ call.successorKnowledgeId = b)) := by
  induction ops generalizing ledger with
  | nil => simp only [runAll, List.foldl_nil, List.not_mem_nil, false_and, exists_false, or_false]
  | cons op ops ih =>
    refine (ih (ledgerStep op ledger) h.2).trans ?_
    rw [links_ledgerStep h.1 hType, or_assoc, ← exists_or]
    simp only [List.mem_cons, ← or_and_right, eq_comm (a := op)]

theorem links_empty (type : RelationshipType) (a b : String) : ¬ ProvenanceLedger.empty.Links type a b := by
  rintro ⟨link, hMem, _⟩
  cases hMem

end Sequences

section Agreement

/-- A cycle of links of one direction can be reached along that direction. -/
def OneWayCycle (ledger : ProvenanceLedger) (id : String) : Prop :=
  (along ledger .supersededBy).CyclicFrom id ∨ (along ledger .supersedes).CyclicFrom id

/-- A cycle that needs links of both directions can be reached, and no other one. -/
def MixedCycleOnly (ledger : ProvenanceLedger) (id : String) : Prop :=
  (lineage ledger RelationshipType.isSupersession).CyclicFrom id ∧ ¬ OneWayCycle ledger id

theorem OneWayCycle.mixed {ledger : ProvenanceLedger} {id : String} (h : OneWayCycle ledger id) :
    (lineage ledger RelationshipType.isSupersession).CyclicFrom id := by
  have hSub : ∀ type, type.isSupersession = true → ∀ a b, (along ledger type).Leads a b →
      (lineage ledger RelationshipType.isSupersession).Leads a b := by
    intro type hType a b hLeads
    exact (lineage_leads ledger _ a b).mpr ⟨type, hType, (along_leads ledger type a b).mp hLeads⟩
  rcases h with h | h
  · exact h.mono (hSub .supersededBy rfl)
  · exact h.mono (hSub .supersedes rfl)

theorem circularLineage_agrees_iff {ledger : ProvenanceLedger} {id : String} {knowledge : DurableKnowledge}
    (h : ledger.durable id = some knowledge) :
    (.circularLineage ∈ (validateProvenance ledger id).violations ↔ OneWayCycle ledger id) ↔
      ¬ MixedCycleOnly ledger id := by
  rw [circularLineage_mem_iff h, MixedCycleOnly, not_and, Classical.not_not]
  exact ⟨fun hIff => hIff.mp, fun hCycle => ⟨hCycle, OneWayCycle.mixed⟩⟩

/-- Two links that answer each other are a cycle for the walk. -/
theorem cyclicFrom_of_reciprocal {ledger : ProvenanceLedger} {id other : String}
    (hTo : (lineage ledger RelationshipType.isSupersession).Leads id other)
    (hBack : (lineage ledger RelationshipType.isSupersession).Leads other id) :
    (lineage ledger RelationshipType.isSupersession).CyclicFrom id :=
  ⟨id, .refl, .head hTo (.single hBack)⟩

variable {ops : List LedgerOp}

theorem leads_runAll (h : GuardedAll ledgerStep Superseding .empty ops) (a b : String) :
    (lineage (runAll ledgerStep .empty ops) RelationshipType.isSupersession).Leads a b ↔
      ∃ call, .supersede call ∈ ops ∧
        (call.successorKnowledgeId = a ∧ call.priorKnowledgeId = b ∨
          call.priorKnowledgeId = a ∧ call.successorKnowledgeId = b) := by
  rw [lineage_leads]
  constructor
  · rintro ⟨type, hType, hLinks⟩
    rcases (links_runAll hType ops .empty h a b).mp hLinks with hOld | ⟨call, hMem, hCall⟩
    · exact absurd hOld (links_empty type a b)
    · exact ⟨call, hMem, hCall.imp And.right And.right⟩
  · rintro ⟨call, hMem, hCall | hCall⟩
    · exact ⟨.supersedes, rfl, (links_runAll rfl ops .empty h a b).mpr (.inr ⟨call, hMem, .inl ⟨rfl, hCall⟩⟩)⟩
    · exact ⟨.supersededBy, rfl, (links_runAll rfl ops .empty h a b).mpr (.inr ⟨call, hMem, .inr ⟨rfl, hCall⟩⟩)⟩

theorem cyclicFrom_runAll_iff (h : GuardedAll ledgerStep Superseding .empty ops) (id : String) :
    (lineage (runAll ledgerStep .empty ops) RelationshipType.isSupersession).CyclicFrom id ↔
      ∃ call, .supersede call ∈ ops ∧ call.names id := by
  constructor
  · intro hCyclic
    obtain ⟨other, hLeads, _⟩ := hCyclic.exists_leads
    obtain ⟨call, hMem, hCall⟩ := (leads_runAll h id other).mp hLeads
    exact ⟨call, hMem, hCall.symm.imp And.left And.left⟩
  · rintro ⟨call, hMem, rfl | rfl⟩
    · exact cyclicFrom_of_reciprocal ((leads_runAll h _ _).mpr ⟨call, hMem, .inr ⟨rfl, rfl⟩⟩)
        ((leads_runAll h _ _).mpr ⟨call, hMem, .inl ⟨rfl, rfl⟩⟩)
    · exact cyclicFrom_of_reciprocal ((leads_runAll h _ _).mpr ⟨call, hMem, .inl ⟨rfl, rfl⟩⟩)
        ((leads_runAll h _ _).mpr ⟨call, hMem, .inr ⟨rfl, rfl⟩⟩)

theorem supersedes_answered (h : GuardedAll ledgerStep Superseding .empty ops) {id prior : String}
    (hLink : (runAll ledgerStep .empty ops).Links .supersedes id prior) :
    (runAll ledgerStep .empty ops).Links .supersededBy prior id := by
  obtain hOld | ⟨call, hMem, ⟨_, hSuccessor, hPrior⟩ | ⟨hType, _⟩⟩ := (links_runAll rfl ops .empty h id prior).mp hLink
  · exact absurd hOld (links_empty _ _ _)
  · exact (links_runAll rfl ops .empty h prior id).mpr (.inr ⟨call, hMem, .inr ⟨rfl, hPrior, hSuccessor⟩⟩)
  · cases hType

/-- After supersessions alone the walk complains about exactly the records that took part in one;
in any ledger it agrees with the rule of one direction unless only mixed cycles can be reached. -/
theorem lineage_reported_iff (id : String) :
    (∀ ops : List LedgerOp, GuardedAll ledgerStep Superseding .empty ops →
      ((runAll ledgerStep .empty ops).durable id).isSome →
        ((.circularLineage ∉ (validateProvenance (runAll ledgerStep .empty ops) id).violations ∧
            .invalidSupersession ∉ (validateProvenance (runAll ledgerStep .empty ops) id).violations) ↔
          ∀ call, .supersede call ∈ ops → ¬ call.names id)) ∧
      ∀ ledger : ProvenanceLedger, (ledger.durable id).isSome →
        ((.circularLineage ∈ (validateProvenance ledger id).violations ↔ OneWayCycle ledger id) ↔
          ¬ MixedCycleOnly ledger id) := by
  constructor
  · intro ops h hDurable
    obtain ⟨knowledge, hKnowledge⟩ := Option.isSome_iff_exists.mp hDurable
    rw [circularLineage_mem_iff hKnowledge, invalidSupersession_mem_iff hKnowledge,
      cyclicFrom_runAll_iff h]
    constructor
    · rintro ⟨hNone, _⟩ call hMem hNames
      exact hNone ⟨call, hMem, hNames⟩
    · intro hNone
      refine ⟨fun ⟨call, hMem, hNames⟩ => hNone call hMem hNames, ?_⟩
      rintro ⟨prior, hLink, hUnanswered⟩
      exact hUnanswered (supersedes_answered h hLink)
  · intro ledger hDurable
    obtain ⟨knowledge, hKnowledge⟩ := Option.isSome_iff_exists.mp hDurable
    exact circularLineage_agrees_iff hKnowledge

def terminalRecord (id : String) : ProvenanceRecord where
  id
  content := .durableKnowledge
    ⟨⟨.project, some "axiom"⟩, "HUMAN_DECISION", "candidate:" ++ id, "approval:" ++ id, [], .active⟩
  body := ""
  immutable := true

def humanCorrection : SupersessionCall where
  priorKnowledgeId := "P-17"
  successorKnowledgeId := "P-42"
  reason := "Human correction"
  actor := ⟨"human:owner", .human⟩
  occurredAt := none
  now := "2026-08-23T00:00:00.000Z"
  supersedesId := "relationship:SUPERSEDES"
  supersededById := "relationship:SUPERSEDED_BY"

def correctedOnce : List LedgerOp :=
  [.write (.append (terminalRecord "P-17")), .write (.append (terminalRecord "P-42")),
    .write (.append (terminalRecord "P-99")), .supersede humanCorrection]

theorem correctedOnce_superseding : GuardedAll ledgerStep Superseding .empty correctedOnce := by decide +kernel

/-- A record that takes part in no supersession is not reported. -/
theorem lineage_reported_iff_bystander :
    .circularLineage ∉ (validateProvenance (runAll ledgerStep .empty correctedOnce) "P-99").violations ∧
      .invalidSupersession ∉ (validateProvenance (runAll ledgerStep .empty correctedOnce) "P-99").violations := by
  refine ((lineage_reported_iff "P-99").1 correctedOnce correctedOnce_superseding (by decide +kernel)).mpr ?_
  intro call hMem
  simp only [correctedOnce, List.mem_cons, reduceCtorEq, LedgerOp.supersede.injEq, List.not_mem_nil, or_false,
    false_or] at hMem
  rw [hMem, SupersessionCall.names]
  decide +kernel

/-- One supersession already makes both of its records circular. -/
theorem supersession_reported_circular :
    ¬ ∀ ops : List LedgerOp, GuardedAll ledgerStep Superseding .empty ops → ∀ id,
      ((runAll ledgerStep .empty ops).durable id).isSome →
        .circularLineage ∉ (validateProvenance (runAll ledgerStep .empty ops) id).violations ∧
          .invalidSupersession ∉ (validateProvenance (runAll ledgerStep .empty ops) id).violations := by
  intro h
  exact (h correctedOnce correctedOnce_superseding "P-17" (by decide +kernel)).1 (by decide +kernel)

end Agreement
end CommandConsole.Learning
