import CommandConsole.Knowledge.Services

/-! # What the repository operations keep

Both record maps hold the same records, a superseded record was the prior of one
supersession, and no chain of supersessions comes back to its start. Each operation
of the repository keeps this, whatever the services checked before.
-/
namespace CommandConsole.Knowledge
open Library Relation
set_option autoImplicit false

namespace KnowledgeRepository

/-- The replacement has superseded the prior record. -/
def Supersedes (repository : KnowledgeRepository) (replacement prior : String) : Prop :=
  ∃ relationship, repository.supersessionsByReplacementId replacement = some relationship ∧
    relationship.priorKnowledgeId = prior

def HasState (repository : KnowledgeRepository) (id : String) (state : KnowledgeLifecycleState) : Prop :=
  ∃ record, repository.recordsById id = some record ∧ record.lifecycleState = state

/-- The two record maps hold the same records, under the ids that the records carry. -/
structure Keyed (ids : KnowledgeIds) (repository : KnowledgeRepository) : Prop where
  byId : ∀ id record, repository.recordsById id = some record →
    record.knowledgeId = id ∧ repository.recordsByCandidateId record.candidateId = some record
  byCandidate : ∀ candidateId record, repository.recordsByCandidateId candidateId = some record →
    record.candidateId = candidateId ∧ repository.recordsById record.knowledgeId = some record
  named : ∀ id record, repository.recordsById id = some record →
    record.knowledgeId = ids.createKnowledgeId record.candidateId

/-- A record that is not active stays as it is, and no record goes away. -/
def Ages (repository later : KnowledgeRepository) : Prop :=
  ∀ id record, repository.recordsById id = some record →
    ∃ record', later.recordsById id = some record' ∧
      (record.lifecycleState ≠ .active → record'.lifecycleState = record.lifecycleState)

theorem Ages.refl (repository : KnowledgeRepository) : Ages repository repository :=
  fun _ record hRecord => ⟨record, hRecord, fun _ => rfl⟩

theorem Ages.trans {repository later last : KnowledgeRepository} (h : Ages repository later)
    (h' : Ages later last) : Ages repository last := by
  intro id record hRecord
  obtain ⟨record', hRecord', hState⟩ := h id record hRecord
  obtain ⟨record'', hRecord'', hState'⟩ := h' id record' hRecord'
  refine ⟨record'', hRecord'', fun hLeft => ?_⟩
  rw [hState' (by rwa [hState hLeft]), hState hLeft]

variable {ids : KnowledgeIds} {repository : KnowledgeRepository} {record : DurableKnowledgeRecord}

theorem setRecord_recordsById (id : String) :
    (repository.setRecord record).recordsById id =
      if id = record.knowledgeId then some record else repository.recordsById id :=
  Function.update_apply ..

theorem setRecord_recordsByCandidateId (candidateId : String) :
    (repository.setRecord record).recordsByCandidateId candidateId =
      if candidateId = record.candidateId then some record else repository.recordsByCandidateId candidateId :=
  Function.update_apply ..

theorem Keyed.setRecord (h : Keyed ids repository) (record : DurableKnowledgeRecord)
    (hName : record.knowledgeId = ids.createKnowledgeId record.candidateId) :
    Keyed ids (repository.setRecord record) where
  byId id other hOther := by
    rw [setRecord_recordsById] at hOther
    rw [setRecord_recordsByCandidateId]
    split at hOther
    · rename_i hId
      obtain rfl := Option.some.inj hOther
      exact ⟨hId.symm, if_pos rfl⟩
    · rename_i hId
      obtain ⟨hKey, hCandidate⟩ := h.byId id other hOther
      refine ⟨hKey, ?_⟩
      rw [if_neg, hCandidate]
      intro hSame
      exact hId (by rw [← hKey, h.named id other hOther, hSame, hName])
  byCandidate candidateId other hOther := by
    rw [setRecord_recordsByCandidateId] at hOther
    rw [setRecord_recordsById]
    split at hOther
    · rename_i hCandidate
      obtain rfl := Option.some.inj hOther
      exact ⟨hCandidate.symm, if_pos rfl⟩
    · rename_i hCandidate
      obtain ⟨hKey, hRecord⟩ := h.byCandidate candidateId other hOther
      refine ⟨hKey, ?_⟩
      rw [if_neg, hRecord]
      intro hSame
      rw [h.named _ other hRecord, hName] at hSame
      exact hCandidate (hKey ▸ ids.createKnowledgeId_injective hSame)
  named id other hOther := by
    rw [setRecord_recordsById] at hOther
    split at hOther
    · obtain rfl := Option.some.inj hOther
      exact hName
    · exact h.named id other hOther

/-- A record changes its state only from ACTIVE. -/
theorem Ages.setRecord (record : DurableKnowledgeRecord) {id : String} {prior : DurableKnowledgeRecord} (hPrior : repository.recordsById id = some prior)
    (hActive : prior.lifecycleState = .active) (hId : record.knowledgeId = id) :
    Ages repository (repository.setRecord record) := by
  intro other old hOld
  rw [setRecord_recordsById, hId]
  split
  · rename_i hSame
    refine ⟨record, rfl, fun hLeft => absurd ?_ hLeft⟩
    rw [hSame, hPrior] at hOld
    exact Option.some.inj hOld ▸ hActive
  · exact ⟨old, hOld, fun _ => rfl⟩

/-- What the supersessions of a repository look like. -/
structure Lineal (repository : KnowledgeRepository) : Prop where
  once : ∀ replacement replacement' prior, repository.Supersedes replacement prior →
    repository.Supersedes replacement' prior → replacement = replacement'
  superseded : ∀ replacement prior, repository.Supersedes replacement prior →
    repository.HasState prior .superseded
  priorsEnd : WellFounded fun prior replacement => repository.Supersedes replacement prior
  replacementsEnd : WellFounded fun replacement prior => repository.Supersedes replacement prior
  filed : ∀ id relationship, repository.supersessionsByReplacementId id = some relationship →
    relationship.replacementKnowledgeId = id
  filedException : ∀ id relationship, repository.exceptionsByKnowledgeId id = some relationship →
    relationship.exceptionKnowledgeId = id

structure Sound (ids : KnowledgeIds) (repository : KnowledgeRepository) : Prop extends
  Keyed ids repository, Lineal repository

theorem sound_empty (ids : KnowledgeIds) : Sound ids empty where
  byId _ _ h := by cases h
  byCandidate _ _ h := by cases h
  named _ _ h := by cases h
  once _ _ _ h := by obtain ⟨_, h, _⟩ := h; cases h
  superseded _ _ h := by obtain ⟨_, h, _⟩ := h; cases h
  priorsEnd := ⟨fun _ => .intro _ fun _ h => by obtain ⟨_, h, _⟩ := h; cases h⟩
  replacementsEnd := ⟨fun _ => .intro _ fun _ h => by obtain ⟨_, h, _⟩ := h; cases h⟩
  filed _ _ h := by cases h
  filedException _ _ h := by cases h

variable {later : KnowledgeRepository}

theorem HasState.ages {id : String} {state : KnowledgeLifecycleState} (h : repository.HasState id state)
    (hLeft : state ≠ .active) (hAges : Ages repository later) : later.HasState id state := by
  obtain ⟨record, hRecord, rfl⟩ := h
  obtain ⟨record', hRecord', hState⟩ := hAges id record hRecord
  exact ⟨record', hRecord', hState hLeft⟩

/-- An operation that adds no relationship. -/
theorem Lineal.of_ages (h : Lineal repository) (hAges : Ages repository later)
    (hSup : later.supersessionsByReplacementId = repository.supersessionsByReplacementId)
    (hExc : later.exceptionsByKnowledgeId = repository.exceptionsByKnowledgeId) : Lineal later := by
  have hSame : later.Supersedes = repository.Supersedes := by
    funext replacement prior
    rw [Supersedes, Supersedes, hSup]
  exact
    { once := hSame ▸ h.once
      superseded := fun replacement prior hEdge =>
        (h.superseded replacement prior (hSame ▸ hEdge)).ages (by decide) hAges
      priorsEnd := hSame ▸ h.priorsEnd
      replacementsEnd := hSame ▸ h.replacementsEnd
      filed := hSup ▸ h.filed
      filedException := hExc ▸ h.filedException }

theorem create_cases (repository : KnowledgeRepository) (record : DurableKnowledgeRecord) :
    (∃ existing, repository.recordsByCandidateId record.candidateId = some existing ∧
      repository.create record = (existing, repository)) ∨
    repository.recordsByCandidateId record.candidateId = none ∧
      repository.create record = (record, repository.setRecord record) := by
  rw [create]
  split
  · rename_i existing hExisting
    exact .inl ⟨existing, hExisting, rfl⟩
  · rename_i hNone
    exact .inr ⟨hNone, rfl⟩

theorem Keyed.fresh (h : Keyed ids repository) (hName : record.knowledgeId = ids.createKnowledgeId record.candidateId)
    (hNone : repository.recordsByCandidateId record.candidateId = none) :
    repository.recordsById record.knowledgeId = none := by
  cases hOld : repository.recordsById record.knowledgeId with
  | none => rfl
  | some old =>
    obtain ⟨hKey, hCandidate⟩ := h.byId _ old hOld
    have hSame := ids.createKnowledgeId_injective ((h.named _ old hOld).symm.trans (hKey.trans hName))
    rw [hSame, hNone] at hCandidate
    cases hCandidate

/-- An operation keeps the repository sound, takes no record back, and leaves the relationships under other
ids alone. -/
structure Keeps (ids : KnowledgeIds) (repository later : KnowledgeRepository) (supersession exception : String → Prop) :
    Prop where
  sound : Sound ids later
  ages : Ages repository later
  supersessions : ∀ id, supersession id ∨
    later.supersessionsByReplacementId id = repository.supersessionsByReplacementId id
  exceptions : ∀ id, exception id ∨ later.exceptionsByKnowledgeId id = repository.exceptionsByKnowledgeId id

theorem Keeps.refl (h : Sound ids repository) (supersession exception : String → Prop) :
    Keeps ids repository repository supersession exception :=
  ⟨h, Ages.refl repository, fun _ => .inr rfl, fun _ => .inr rfl⟩

theorem Sound.create (h : Sound ids repository)
    (hName : record.knowledgeId = ids.createKnowledgeId record.candidateId) :
    Keeps ids repository (repository.create record).2 (fun _ => False) (fun _ => False) := by
  rcases create_cases repository record with ⟨existing, _, hCreate⟩ | ⟨hNone, hCreate⟩
  · rw [hCreate]
    exact Keeps.refl h _ _
  · rw [hCreate]
    have hFresh := h.toKeyed.fresh hName hNone
    have hAges : Ages repository (repository.setRecord record) := by
      intro id old hOld
      rw [setRecord_recordsById, if_neg]
      · exact ⟨old, hOld, fun _ => rfl⟩
      · rintro rfl
        rw [hFresh] at hOld
        cases hOld
    exact ⟨⟨h.toKeyed.setRecord _ hName, h.toLineal.of_ages hAges rfl rfl⟩, hAges, fun _ => .inr rfl, fun _ => .inr rfl⟩

theorem transitionLifecycle_eq_ok {id : String} {state : RetiredState} {transition : LifecycleTransition}
    (h : repository.transitionLifecycle id state = .ok (transition, later)) :
    ∃ prior, repository.recordsById id = some prior ∧ prior.lifecycleState = .active ∧
      transition = ⟨prior, { prior with lifecycleState := state.state }⟩ ∧
      later = repository.setRecord { prior with lifecycleState := state.state } := by
  rw [transitionLifecycle] at h
  split at h
  · cases h
  · rename_i prior hPrior
    split at h
    · rename_i hActive
      cases h
      exact ⟨prior, hPrior, hActive, rfl, rfl⟩
    · cases h

theorem Sound.transitionLifecycle (h : Sound ids repository) {id : String} {state : RetiredState}
    {transition : LifecycleTransition}
    (hOk : repository.transitionLifecycle id state = .ok (transition, later)) :
    Keeps ids repository later (fun _ => False) (fun _ => False) := by
  obtain ⟨prior, hPrior, hActive, _, rfl⟩ := transitionLifecycle_eq_ok hOk
  have hAges := Ages.setRecord { prior with lifecycleState := state.state } hPrior hActive
    (h.byId id prior hPrior).1
  refine ⟨⟨h.toKeyed.setRecord _ ?_, h.toLineal.of_ages hAges rfl rfl⟩, hAges, fun _ => .inr rfl, fun _ => .inr rfl⟩
  exact h.named id prior hPrior

theorem registerException_eq_ok {base exception : String} {relationship : KnowledgeException}
    {registration : ExceptionRegistration}
    (h : repository.registerException base exception relationship = .ok (registration, later)) :
    (repository.exceptionsByKnowledgeId exception = some registration.relationship ∧ later = repository) ∨
    (repository.exceptionsByKnowledgeId exception = none ∧ registration.relationship = relationship ∧
      repository.recordsById base = some registration.baseRecord ∧
      repository.recordsById exception = some registration.exceptionRecord ∧
      later = { repository with
        exceptionsByKnowledgeId := Function.update repository.exceptionsByKnowledgeId exception (some relationship)
        exceptionsByBaseKnowledgeId := Function.update repository.exceptionsByBaseKnowledgeId base
          (repository.exceptionsByBaseKnowledgeId base ++ [relationship]) }) := by
  rw [registerException] at h
  split at h
  · rename_i existing hExisting
    split at h
    · cases h
      exact .inl ⟨hExisting, rfl⟩
    · cases h
  · rename_i hNone
    split at h
    · rename_i _ _ baseRecord exceptionRecord hBase hException
      split at h
      · cases h
        exact .inr ⟨hNone, rfl, hBase, hException, rfl⟩
      · cases h
    · cases h

theorem Sound.registerException (h : Sound ids repository) {base exception : String}
    {relationship : KnowledgeException} {registration : ExceptionRegistration}
    (hId : relationship.exceptionKnowledgeId = exception)
    (hOk : repository.registerException base exception relationship = .ok (registration, later)) :
    Keeps ids repository later (fun _ => False) (· = exception) := by
  rcases registerException_eq_ok hOk with ⟨_, rfl⟩ | ⟨_, _, _, _, rfl⟩
  · exact Keeps.refl h _ _
  · refine ⟨{ h with filedException := fun id other hOther => ?_ }, Ages.refl repository, fun _ => .inr rfl,
      fun id => ?_⟩
    · dsimp only at hOther
      rw [Function.update_apply] at hOther
      split at hOther
      · rename_i hSame
        exact Option.some.inj hOther ▸ hId.trans hSame.symm
      · exact h.filedException id other hOther
    · by_cases hSame : id = exception
      · exact .inl hSame
      · exact .inr (Function.update_of_ne hSame ..)

theorem supersede_eq_ok {prior replacement : String} {relationship : KnowledgeSupersession}
    {transition : SupersessionTransition}
    (h : repository.supersede prior replacement relationship = .ok (transition, later)) :
    (repository.supersessionsByReplacementId replacement = some transition.relationship ∧ later = repository) ∨
    ∃ priorRecord replacementRecord,
      repository.supersessionsByReplacementId replacement = none ∧
      repository.recordsById prior = some priorRecord ∧ priorRecord.lifecycleState = .active ∧
      repository.recordsById replacement = some replacementRecord ∧ replacementRecord.lifecycleState = .active ∧
      transition = ⟨{ priorRecord with lifecycleState := .superseded }, replacementRecord, relationship⟩ ∧
      later = { repository.setRecord { priorRecord with lifecycleState := .superseded } with
        supersessionsByReplacementId :=
          Function.update repository.supersessionsByReplacementId replacement (some relationship) } := by
  rw [supersede] at h
  split at h
  · rename_i existing hExisting
    split at h
    · cases h
      exact .inl ⟨hExisting, rfl⟩
    · cases h
  · rename_i hNone
    split at h
    · rename_i _ _ priorRecord replacementRecord hPrior hReplacement
      split at h
      · rename_i hActive
        cases h
        exact .inr ⟨priorRecord, replacementRecord, hNone, hPrior, hActive.1, hReplacement, hActive.2, rfl, rfl⟩
      · cases h
    · cases h

/-- An active record is the prior of no supersession. -/
theorem Lineal.not_supersedes (h : Lineal repository) {id : String} (hRecord : repository.recordsById id = some record)
    (hActive : record.lifecycleState = .active) (replacement : String) : ¬ repository.Supersedes replacement id := by
  intro hEdge
  obtain ⟨other, hOther, hState⟩ := h.superseded replacement id hEdge
  rw [hRecord] at hOther
  rw [← Option.some.inj hOther, hActive] at hState
  cases hState

theorem Sound.supersede (h : Sound ids repository) {prior replacement : String}
    {relationship : KnowledgeSupersession} {transition : SupersessionTransition}
    (hPriorId : relationship.priorKnowledgeId = prior)
    (hReplacementId : relationship.replacementKnowledgeId = replacement) (hNe : prior ≠ replacement)
    (hOk : repository.supersede prior replacement relationship = .ok (transition, later)) :
    Keeps ids repository later (· = replacement) (fun _ => False) := by
  rcases supersede_eq_ok hOk with
    ⟨_, rfl⟩ | ⟨priorRecord, replacementRecord, hNone, hPrior, hPriorActive, hReplacement, hActive, _, hLater⟩
  · exact Keeps.refl h _ _
  have hFirst : ∀ other, ¬ repository.Supersedes other prior := h.not_supersedes hPrior hPriorActive
  have hNew : ∀ other, ¬ repository.Supersedes other replacement := h.not_supersedes hReplacement hActive
  have hSup : ∀ id, later.supersessionsByReplacementId id =
      if id = replacement then some relationship else repository.supersessionsByReplacementId id := by
    intro id
    rw [hLater]
    exact Function.update_apply ..
  have hEdges : ∀ a b, later.Supersedes a b → repository.Supersedes a b ∨ a = replacement ∧ b = prior := by
    rintro a b ⟨other, hOther, hPriorOf⟩
    rw [hSup] at hOther
    split at hOther
    · rename_i hSame
      cases hOther
      exact .inr ⟨hSame, hPriorOf.symm.trans hPriorId⟩
    · exact .inl ⟨other, hOther, hPriorOf⟩
  have hAges : Ages repository later := by
    have hSet := Ages.setRecord { priorRecord with lifecycleState := .superseded } hPrior hPriorActive
      (h.byId prior priorRecord hPrior).1
    rw [hLater]
    exact hSet
  have hKeyed : Keyed ids later := by
    have hSet := h.toKeyed.setRecord { priorRecord with lifecycleState := .superseded }
      (h.named prior priorRecord hPrior)
    rw [hLater]
    exact ⟨hSet.byId, hSet.byCandidate, hSet.named⟩
  have hPriorState : later.HasState prior .superseded := by
    refine ⟨{ priorRecord with lifecycleState := .superseded }, ?_, rfl⟩
    rw [hLater]
    exact (setRecord_recordsById prior).trans (if_pos (h.byId prior priorRecord hPrior).1.symm)
  refine ⟨⟨hKeyed, ?_⟩, hAges, fun id => ?_, fun _ => .inr (by rw [hLater]; rfl)⟩
  · refine ⟨fun a a' b hEdge hEdge' => ?_, fun a b hEdge => ?_, ?_, ?_, fun id other hOther => ?_, ?_⟩
    · rcases hEdges a b hEdge with hOld | ⟨rfl, rfl⟩
      · rcases hEdges a' b hEdge' with hOld' | ⟨rfl, rfl⟩
        · exact h.once a a' b hOld hOld'
        · exact absurd hOld (hFirst a)
      · rcases hEdges a' b hEdge' with hOld' | ⟨rfl, _⟩
        · exact absurd hOld' (hFirst a')
        · rfl
    · rcases hEdges a b hEdge with hOld | ⟨_, rfl⟩
      · exact (h.superseded a b hOld).ages (by decide) hAges
      · exact hPriorState
    · -- nothing has the replacement as its prior, so no descent from it comes to the prior record
      refine wellFounded_insert h.priorsEnd (p := prior) (q := replacement)
        (fun a b hEdge => (hEdges b a hEdge).imp_right fun hBoth => ⟨hBoth.2, hBoth.1⟩) fun hBack => ?_
      rcases hBack.cases_head with hSame | ⟨other, hEdge, _⟩
      · exact hNe hSame.symm
      · exact hNew other hEdge
    · refine wellFounded_insert h.replacementsEnd (p := replacement) (q := prior) hEdges fun hBack => ?_
      rcases hBack.cases_tail with hSame | ⟨other, _, hEdge⟩
      · exact hNe hSame.symm
      · exact hNew other hEdge
    · rw [hSup] at hOther
      split at hOther
      · rename_i hSame
        cases hOther
        exact hReplacementId.trans hSame.symm
      · exact h.filed id other hOther
    · rw [hLater]
      exact h.filedException
  · by_cases hSame : id = replacement
    · exact .inl hSame
    · exact .inr ((hSup id).trans (if_neg hSame))

end KnowledgeRepository

end CommandConsole.Knowledge
