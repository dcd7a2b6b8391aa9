import CommandConsole.Governance.Admission

/-! # Contradictory knowledge

Two entries of one scope contradict each other if their keys are the same when normalized and
their values are not. Conflicts are looked for among the entries that a submission read before
its write, and an approval supersedes the one entry that its review names.
-/
namespace CommandConsole.Governance
open Library
set_option autoImplicit false

section Statement

structure KnowledgeStatement where
  scopeId : String
  semanticKey : String
  semanticValue : String
  deriving DecidableEq

def AdmittedEntry.statement (entry : AdmittedEntry) : KnowledgeStatement :=
  ⟨entry.scopeId, entry.semanticKey, entry.semanticValue⟩

def KnowledgeDraft.statement (draft : KnowledgeDraft) : KnowledgeStatement :=
  ⟨draft.request.scopeId, draft.semanticKey, draft.semanticValue⟩

def KnowledgeSubmission.statement (submission : KnowledgeSubmission) : KnowledgeStatement :=
  ⟨submission.scopeId, submission.semanticKey, submission.semanticValue⟩

def Contradicts (platform : Platform) (left right : KnowledgeStatement) : Prop :=
  left.scopeId = right.scopeId ∧ platform.normalize left.semanticKey = platform.normalize right.semanticKey ∧
    platform.normalize left.semanticValue ≠ platform.normalize right.semanticValue

instance (platform : Platform) (left right : KnowledgeStatement) : Decidable (Contradicts platform left right) :=
  inferInstanceAs (Decidable (_ ∧ _))

/-- The review resolved with COEXIST whose submission has the id. -/
def AuthorityReview.Coexists (id : String) (review : AuthorityReview) : Prop :=
  review.status = .approved ∧ review.resolutionAction = some (.approved .coexist) ∧
    review.knowledgeSubmission.map KnowledgeSubmission.knowledgeId = some id

instance (id : String) (review : AuthorityReview) : Decidable (review.Coexists id) :=
  inferInstanceAs (Decidable (_ ∧ _))

def CoexistApproved (id : String) (store : AdmissionStore) : Prop := ∃ review ∈ store.reviews.rows, review.Coexists id

instance (id : String) (store : AdmissionStore) : Decidable (CoexistApproved id store) :=
  inferInstanceAs (Decidable (∃ review ∈ store.reviews.rows, _))

/-- Contradictory knowledge is not admitted silently. -/
structure Consistent (platform : Platform) (store : AdmissionStore) : Prop where
  agree : ∀ left ∈ store.entries.rows, ∀ right ∈ store.entries.rows, left.supersededAt = none →
    right.supersededAt = none → Contradicts platform left.statement right.statement →
      CoexistApproved left.id store ∨ CoexistApproved right.id store
  superseded_once : ∀ entry ∈ store.entries.rows, ∀ left ∈ store.entries.rows, ∀ right ∈ store.entries.rows,
    left.overrideOfId = some entry.id → right.overrideOfId = some entry.id → left = right
  successor : ∀ entry ∈ store.entries.rows, ∀ id ∈ entry.supersededById, ∃ other ∈ store.entries.rows, other.id = id

instance (platform : Platform) (store : AdmissionStore) : Decidable (Consistent platform store) :=
  decidable_of_iff (_ ∧ _ ∧ _)
    ⟨fun ⟨hAgree, hOnce, hSuccessor⟩ => ⟨hAgree, hOnce, hSuccessor⟩, fun h => ⟨h.agree, h.superseded_once, h.successor⟩⟩

/-- The entries not superseded that a new entry would contradict without a review. -/
def rivals (platform : Platform) (statement : KnowledgeStatement) (store : AdmissionStore) : List AdmittedEntry :=
  store.entries.rows.filter fun entry =>
    entry.supersededAt = none ∧ Contradicts platform entry.statement statement ∧ ¬CoexistApproved entry.id store

/-- A submission that is admitted has read every rival. An approval that supersedes finds its
entry not superseded yet, and no other rival. -/
def AdmissionStage.SeesRivals (platform : Platform) (stage : AdmissionStage) (store : AdmissionStore) : Prop :=
  match stage with
  | .admitting draft records => draft.request.overrideOfId = none →
    ∀ rival ∈ rivals platform draft.statement store, ∃ record ∈ records, record.id = rival.id
  | .resolving _ (some .supersede) review submission => isPending review.reviewId store = true →
    (∀ entry ∈ store.entries.rows, submission.conflictingKnowledgeId = some entry.id → entry.supersededAt = none) ∧
      ∀ rival ∈ rivals platform submission.statement store, submission.conflictingKnowledgeId = some rival.id
  | _ => True

def SeesRivals (platform : Platform) (turn : AdmissionTurn) (crowd : Admissions) : Prop :=
  match turn with
  | .advance index _ => ∀ stage ∈ crowd.calls[index]?, stage.SeesRivals platform crowd.store
  | _ => True

instance (platform : Platform) (stage : AdmissionStage) (store : AdmissionStore) :
    Decidable (stage.SeesRivals platform store) := by
  unfold AdmissionStage.SeesRivals
  split <;> infer_instance

instance (platform : Platform) (turn : AdmissionTurn) (crowd : Admissions) :
    Decidable (SeesRivals platform turn crowd) := by
  unfold SeesRivals
  split <;> infer_instance

end Statement

section Facts

variable {platform : Platform}

theorem Contradicts.symm {left right : KnowledgeStatement} (h : Contradicts platform left right) :
    Contradicts platform right left :=
  ⟨h.1.symm, h.2.1.symm, h.2.2.symm⟩

theorem not_contradicts_self (statement : KnowledgeStatement) : ¬Contradicts platform statement statement :=
  fun h => h.2.2 rfl

/-- The draft under the id says this. -/
def Drafted (id : String) (statement : KnowledgeStatement) (drafts : PlainTable KnowledgeDraft.knowledgeId) : Prop :=
  ∃ draft, drafts.find? id = some draft ∧ draft.statement = statement

/-- The authority is that of the draft whose id it names. -/
def AuthorityDrafted (id : AuthorityId) (authority : AuthorityRecord)
    (drafts : PlainTable KnowledgeDraft.knowledgeId) : Prop :=
  ∃ draft, drafts.find? id.knowledgeId = some draft ∧ draft.authority = authority

/-- A draft is about its scope, in normal form. -/
structure SoundDraft (platform : Platform) (scopes : PlainTable KnowledgeScope.id) (draft : KnowledgeDraft) : Prop where
  scope : ∃ scope, scopes.find? draft.request.scopeId = some scope ∧
    draft.authority.scope.type = scopeType scope.kind
  scopeId : draft.authority.scope.id = some draft.request.scopeId
  authorityId : draft.authority.authorityId = ⟨draft.knowledgeId⟩
  semanticKey : platform.normalize draft.semanticKey = draft.semanticKey
  named : draft.knowledgeId ≠ ""

/-- Entries, reviews and events say what was drafted. -/
structure Documented (platform : Platform) (store : AdmissionStore) : Prop where
  drafts : ∀ draft ∈ store.drafts.rows, SoundDraft platform store.scopes draft
  entries : ∀ entry ∈ store.entries.rows, Drafted entry.id entry.statement store.drafts
  submissions : ∀ review ∈ store.reviews.rows, ∀ submission ∈ review.knowledgeSubmission,
    Drafted submission.knowledgeId submission.statement store.drafts
  authorities : ∀ review ∈ store.reviews.rows,
    AuthorityDrafted review.authorityRecord.authorityId review.authorityRecord store.drafts
  ledger : ∀ event ∈ store.ledger.rows, ∀ authority ∈ event.authorityRecord,
    AuthorityDrafted event.authorityId authority store.drafts

/-- The entry that another one overrides is superseded by it. -/
structure Linked (entries : List AdmittedEntry) : Prop where
  overridden : ∀ entry ∈ entries, ∀ id, entry.overrideOfId = some id →
    ∃ other ∈ entries, other.id = id ∧ other.supersededById = some entry.id
  successor : ∀ entry ∈ entries, ∀ id, entry.supersededById = some id → ∃ other ∈ entries, other.id = id
  marked : ∀ entry ∈ entries, entry.supersededAt = none → entry.supersededById = none

def Agreeing (platform : Platform) (excused : String → Prop) (entries : List AdmittedEntry) : Prop :=
  ∀ left ∈ entries, ∀ right ∈ entries, left.supersededAt = none → right.supersededAt = none →
    Contradicts platform left.statement right.statement → excused left.id ∨ excused right.id

structure SoundAdmission (platform : Platform) (store : AdmissionStore) : Prop extends Documented platform store where
  linked : Linked store.entries.rows
  agreeing : Agreeing platform (fun id => CoexistApproved id store) store.entries.rows

theorem SoundAdmission.consistent {store : AdmissionStore} (h : SoundAdmission platform store) :
    Consistent platform store where
  agree := h.agreeing
  superseded_once entry hEntry left hLeft right hRight hOver hOver' := by
    obtain ⟨other, hOther, hId, hBy⟩ := h.linked.overridden left hLeft entry.id hOver
    obtain ⟨other', hOther', hId', hBy'⟩ := h.linked.overridden right hRight entry.id hOver'
    obtain rfl : other = entry := store.entries.eq_of_key_eq hOther hEntry hId
    obtain rfl : other' = other := store.entries.eq_of_key_eq hOther' hEntry hId'
    rw [hBy] at hBy'
    exact store.entries.eq_of_key_eq hLeft hRight (Option.some.inj hBy')
  successor := h.linked.successor

theorem sound_empty : SoundAdmission platform .empty where
  drafts draft hMem := by cases hMem
  entries entry hMem := by cases hMem
  submissions review hMem := by cases hMem
  authorities review hMem := by cases hMem
  ledger event hMem := by cases hMem
  linked :=
    { overridden := fun entry hMem => absurd hMem List.not_mem_nil
      successor := fun entry hMem => absurd hMem List.not_mem_nil
      marked := fun entry hMem => absurd hMem List.not_mem_nil }
  agreeing left hMem := by cases hMem

end Facts

section Entries

variable {platform : Platform} {entries : List AdmittedEntry} {entry : AdmittedEntry}

theorem Linked.add (h : Linked entries) (hOver : entry.overrideOfId = none) (hBy : entry.supersededById = none) :
    Linked (entries ++ [entry]) where
  overridden other hOther id hId := by
    rcases List.mem_append.mp hOther with hOld | hNew
    · obtain ⟨found, hFound, hFacts⟩ := h.overridden other hOld id hId
      exact ⟨found, List.mem_append_left _ hFound, hFacts⟩
    · rw [List.mem_singleton.mp hNew, hOver] at hId
      cases hId
  successor other hOther id hId := by
    rcases List.mem_append.mp hOther with hOld | hNew
    · obtain ⟨found, hFound, hFacts⟩ := h.successor other hOld id hId
      exact ⟨found, List.mem_append_left _ hFound, hFacts⟩
    · rw [List.mem_singleton.mp hNew, hBy] at hId
      cases hId
  marked other hOther hNone := by
    rcases List.mem_append.mp hOther with hOld | hNew
    · exact h.marked other hOld hNone
    · rw [List.mem_singleton.mp hNew, hBy]

/-- The entries after the update that supersedes the one of the id. -/
def supersede (id knowledgeId : String) (now : Nat) (entry : AdmittedEntry) : AdmittedEntry :=
  if entry.id = id then entry.supersededBy knowledgeId now else entry

variable {id knowledgeId : String} {now : Nat}

theorem supersede_id : (supersede id knowledgeId now entry).id = entry.id := by
  unfold supersede
  split <;> rfl

theorem supersede_statement : (supersede id knowledgeId now entry).statement = entry.statement := by
  unfold supersede
  split <;> rfl

theorem supersede_overrideOfId : (supersede id knowledgeId now entry).overrideOfId = entry.overrideOfId := by
  unfold supersede
  split <;> rfl

/-- What is not superseded after the update was not before it, and has not changed. -/
theorem supersede_open (h : (supersede id knowledgeId now entry).supersededAt = none) :
    supersede id knowledgeId now entry = entry ∧ entry.supersededAt = none ∧ entry.id ≠ id := by
  unfold supersede at h ⊢
  split at h
  · cases h
  · rename_i hNe
    exact ⟨if_neg hNe, h, hNe⟩

/-- An entry that is new supersedes one that is there and not superseded. -/
theorem Linked.supersede (h : Linked entries) (hOver : entry.overrideOfId = some id)
    (hBy : entry.supersededById = none) (hThere : ∃ other ∈ entries, other.id = id)
    (hOpen : ∀ other ∈ entries, other.id = id → other.supersededAt = none) :
    Linked ((entries ++ [entry]).map (supersede id entry.id now)) where
  overridden other hOther of hOf := by
    obtain ⟨source, hSource, rfl⟩ := List.mem_map.mp hOther
    rw [supersede_overrideOfId] at hOf
    rw [supersede_id]
    rcases List.mem_append.mp hSource with hOld | hNew
    · obtain ⟨found, hFound, hId, hFoundBy⟩ := h.overridden source hOld of hOf
      have hNe : found.id ≠ id := by
        intro hEq
        rw [h.marked found hFound (hOpen found hFound hEq)] at hFoundBy
        cases hFoundBy
      refine ⟨found, List.mem_map.mpr ⟨found, List.mem_append_left _ hFound, if_neg hNe⟩, hId, hFoundBy⟩
    · obtain rfl := List.mem_singleton.mp hNew
      obtain ⟨found, hFound, hId⟩ := hThere
      rw [hOver] at hOf
      cases hOf
      refine ⟨_, List.mem_map_of_mem (List.mem_append_left _ hFound), supersede_id.trans hId, ?_⟩
      rw [Governance.supersede, if_pos hId]
      rfl
  successor other hOther of hOf := by
    obtain ⟨source, hSource, rfl⟩ := List.mem_map.mp hOther
    have hKept : ∀ kept ∈ entries ++ [entry], ∃ next ∈ (entries ++ [entry]).map (Governance.supersede id entry.id now),
        next.id = kept.id := fun kept hKept => ⟨_, List.mem_map_of_mem hKept, supersede_id⟩
    by_cases hEq : source.id = id
    · rw [Governance.supersede, if_pos hEq] at hOf
      cases hOf
      exact hKept entry (List.mem_append_right _ List.mem_cons_self)
    · rw [Governance.supersede, if_neg hEq] at hOf
      rcases List.mem_append.mp hSource with hOld | hNew
      · obtain ⟨found, hFound, rfl⟩ := h.successor source hOld of hOf
        exact hKept found (List.mem_append_left _ hFound)
      · rw [List.mem_singleton.mp hNew, hBy] at hOf
        cases hOf
  marked other hOther hNone := by
    obtain ⟨source, hSource, rfl⟩ := List.mem_map.mp hOther
    obtain ⟨hSame, hNone', -⟩ := supersede_open hNone
    rw [hSame]
    rcases List.mem_append.mp hSource with hOld | hNew
    · exact h.marked source hOld hNone'
    · rw [List.mem_singleton.mp hNew, hBy]

variable {excused excused' : String → Prop}

theorem Agreeing.mono (h : Agreeing platform excused entries) (hMore : ∀ id, excused id → excused' id) :
    Agreeing platform excused' entries :=
  fun left hLeft right hRight hOpen hOpen' hContra =>
    (h left hLeft right hRight hOpen hOpen' hContra).imp (hMore _) (hMore _)

theorem Agreeing.add (h : Agreeing platform excused entries)
    (hNew : ∀ other ∈ entries, other.supersededAt = none → Contradicts platform other.statement entry.statement →
      excused other.id ∨ excused entry.id) : Agreeing platform excused (entries ++ [entry]) := by
  intro left hLeft right hRight hOpen hOpen' hContra
  rcases List.mem_append.mp hLeft with hOld | hNewest <;> rcases List.mem_append.mp hRight with hOld' | hNewest'
  · exact h left hOld right hOld' hOpen hOpen' hContra
  · obtain rfl := List.mem_singleton.mp hNewest'
    exact hNew left hOld hOpen hContra
  · obtain rfl := List.mem_singleton.mp hNewest
    exact (hNew right hOld' hOpen' hContra.symm).symm
  · rw [List.mem_singleton.mp hNewest, List.mem_singleton.mp hNewest'] at hContra
    exact absurd hContra (not_contradicts_self _)

theorem Agreeing.supersede (h : Agreeing platform excused entries)
    (hNew : ∀ other ∈ entries, other.supersededAt = none → other.id ≠ id →
      Contradicts platform other.statement entry.statement → excused other.id ∨ excused entry.id) :
    Agreeing platform excused ((entries ++ [entry]).map (supersede id knowledgeId now)) := by
  have hRest : Agreeing platform excused ((entries.filter fun other => other.id ≠ id) ++ [entry]) := by
    refine Agreeing.add (fun left hLeft right hRight => h left (List.mem_filter.mp hLeft).1 right
      (List.mem_filter.mp hRight).1) fun other hOther hOpen hContra => ?_
    obtain ⟨hMem, hNe⟩ := List.mem_filter.mp hOther
    exact hNew other hMem hOpen (by simpa using hNe) hContra
  have hMem : ∀ other ∈ (entries ++ [entry]).map (Governance.supersede id knowledgeId now), other.supersededAt = none →
      other ∈ (entries.filter fun other => other.id ≠ id) ++ [entry] := by
    intro other hOther hOpen
    obtain ⟨source, hSource, rfl⟩ := List.mem_map.mp hOther
    obtain ⟨hSame, -, hNe⟩ := supersede_open hOpen
    rw [hSame]
    rcases List.mem_append.mp hSource with hOld | hNewest
    · exact List.mem_append_left _ (List.mem_filter.mpr ⟨hOld, by simpa using hNe⟩)
    · exact List.mem_append_right _ hNewest
  exact fun left hLeft right hRight hOpen hOpen' =>
    hRest left (hMem left hLeft hOpen) right (hMem right hRight hOpen') hOpen hOpen'

end Entries

end CommandConsole.Governance
