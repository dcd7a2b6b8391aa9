import CommandConsole.Governance.Contradictions

/-! # What is drafted stays

No id is drawn twice, so entries, reviews and ledger events under one id say what was drafted
under it. Every transaction keeps that and leaves scopes, drafts and approved reviews in place;
the authority that a comparison finds is then that of the entry it compares.
-/
namespace CommandConsole.Governance
open Library
open Execution (truthy)
set_option autoImplicit false

section Transactions

variable {platform : Platform} {store later : AdmissionStore} {input : AdmissionInput} {done : Unit}

/-- Scopes and drafts stay, and so do reviews with their submissions. -/
structure Grows (store later : AdmissionStore) : Prop where
  scopes : ∀ id scope, store.scopes.find? id = some scope → later.scopes.find? id = some scope
  drafts : ∀ id draft, store.drafts.find? id = some draft → later.drafts.find? id = some draft
  submissions : ∀ id review, store.reviews.find? id = some review →
    ∃ next, later.reviews.find? id = some next ∧ next.knowledgeSubmission = review.knowledgeSubmission
  coexist : ∀ id, CoexistApproved id store → CoexistApproved id later

/-- What leaves scopes, drafts and reviews alone. -/
theorem Grows.of_eq (hScopes : later.scopes = store.scopes) (hDrafts : later.drafts = store.drafts)
    (hReviews : later.reviews = store.reviews) : Grows store later where
  scopes id scope hFind := by rwa [hScopes]
  drafts id draft hFind := by rwa [hDrafts]
  submissions id review hFind := ⟨review, by rwa [hReviews], rfl⟩
  coexist id hCoexist := by rwa [CoexistApproved, hReviews]

instance : Std.Refl Grows where
  refl _ := .of_eq rfl rfl rfl

instance : IsTrans AdmissionStore Grows where
  trans s t u h h' :=
    { scopes := fun id scope hFind => h'.scopes id scope (h.scopes id scope hFind)
      drafts := fun id draft hFind => h'.drafts id draft (h.drafts id draft hFind)
      submissions := fun id review hFind => by
        obtain ⟨next, hNext, hSame⟩ := h.submissions id review hFind
        obtain ⟨last, hLast, hSame'⟩ := h'.submissions id next hNext
        exact ⟨last, hLast, hSame'.trans hSame⟩
      coexist := fun id hCoexist => h'.coexist id (h.coexist id hCoexist) }

theorem Grows.drafted {id : String} {statement : KnowledgeStatement} (h : Grows store later)
    (hDrafted : Drafted id statement store.drafts) : Drafted id statement later.drafts :=
  hDrafted.imp fun draft hDraft => ⟨h.drafts id draft hDraft.1, hDraft.2⟩

theorem Grows.authorityDrafted {id : AuthorityId} {authority : AuthorityRecord} (h : Grows store later)
    (hDrafted : AuthorityDrafted id authority store.drafts) : AuthorityDrafted id authority later.drafts :=
  hDrafted.imp fun draft hDraft => ⟨h.drafts id.knowledgeId draft hDraft.1, hDraft.2⟩

theorem insertEntry_ok {entry : AdmittedEntry} (h : insertEntry entry input store = .ok (done, later)) :
    ∃ entries, store.entries.insert entry = some entries ∧ later = { store with entries } ∧
      ∀ id, entry.overrideOfId = some id → ∃ other ∈ store.entries.rows, other.id = id := by
  have hWrite := Tx.write_eq_ok.mp h
  split at hWrite
  · cases hWrite
  · rename_i hKey
    cases hInsert : store.entries.insert entry with
    | none =>
      rw [hInsert] at hWrite
      cases hWrite
    | some entries =>
      rw [hInsert] at hWrite
      cases hWrite
      refine ⟨entries, rfl, rfl, fun id hId => ?_⟩
      rw [hId, Option.any_some, Option.isNone_iff_eq_none] at hKey
      obtain ⟨other, hFind⟩ := Option.ne_none_iff_exists'.mp hKey
      exact ⟨other, (Table.find?_eq_some _ _ _).mp hFind⟩

theorem insertReview_ok {review : AuthorityReview} (h : insertReview review input store = .ok (done, later)) :
    ∃ reviews, store.reviews.insert review = some reviews ∧ later = { store with reviews } := by
  have hWrite := Tx.write_eq_ok.mp h
  cases hInsert : store.reviews.insert review with
  | none =>
    rw [hInsert] at hWrite
    cases hWrite
  | some reviews =>
    rw [hInsert] at hWrite
    cases hWrite
    exact ⟨reviews, rfl, rfl⟩

theorem recordEvent_ok {event : AdmissionEvent} (h : recordEvent event input store = .ok (done, later)) :
    ∃ ledger, store.ledger.insert event = some ledger ∧ later = { store with ledger } := by
  have hWrite := Tx.write_eq_ok.mp h
  cases hInsert : store.ledger.insert event with
  | none =>
    rw [hInsert] at hWrite
    cases hWrite
  | some ledger =>
    rw [hInsert] at hWrite
    cases hWrite
    exact ⟨ledger, rfl, rfl⟩

variable {reviewId : String} {change : AuthorityReview → AuthorityReview}
  {hKey : ∀ review, (change review).reviewId = review.reviewId}

/-- The reviews with the pending one of the id changed. -/
theorem claimReview_ok (h : claimReview reviewId change hKey input store = .ok (done, later)) :
    isPending reviewId store = true ∧
      later = { store with reviews := claimed reviewId change hKey store.reviews } := by
  have hWrite := Tx.write_eq_ok.mp h
  split at hWrite
  · rename_i hPending
    cases hWrite
    exact ⟨hPending, rfl⟩
  · cases hWrite

theorem mem_claimed (hKey : ∀ review, (change review).reviewId = review.reviewId)
    {reviews : PlainTable AuthorityReview.reviewId} {review : AuthorityReview}
    (h : review ∈ (claimed reviewId change hKey reviews).rows) :
    ∃ source ∈ reviews.rows, review = source ∨ review = change source := by
  obtain ⟨source, hSource, rfl⟩ := List.mem_map.mp h
  refine ⟨source, hSource, ?_⟩
  split
  · exact .inr rfl
  · exact .inl rfl

/-- A review that is decided is not claimed again. -/
theorem mem_claimed_of_decided (hKey : ∀ review, (change review).reviewId = review.reviewId)
    {reviews : PlainTable AuthorityReview.reviewId} {review : AuthorityReview} (h : review ∈ reviews.rows)
    (hDecided : review.status ≠ .pending) :
    review ∈ (claimed reviewId change hKey reviews).rows :=
  List.mem_map.mpr ⟨review, h, if_neg (by simp [hDecided])⟩

theorem grows_insertEntry (entry : AdmittedEntry) : Tx.Respects Grows (insertEntry entry) := by
  intro input s done t h
  obtain ⟨entries, -, rfl, -⟩ := insertEntry_ok h
  exact .of_eq rfl rfl rfl

theorem grows_recordEvent (event : AdmissionEvent) : Tx.Respects Grows (recordEvent event) := by
  intro input s done t h
  obtain ⟨ledger, -, rfl⟩ := recordEvent_ok h
  exact .of_eq rfl rfl rfl

theorem grows_supersedeEntry (id knowledgeId : String) (now : Nat) :
    Tx.Respects Grows (supersedeEntry id knowledgeId now) :=
  .modify fun _ => .of_eq rfl rfl rfl

theorem grows_insertReview (review : AuthorityReview) : Tx.Respects Grows (insertReview review) := by
  intro input s done t h
  obtain ⟨reviews, hInsert, rfl⟩ := insertReview_ok h
  obtain ⟨hNew, -, hRows⟩ := Table.insert_eq_some hInsert
  refine ⟨fun _ _ h => h, fun _ _ h => h, fun id found hFound => ⟨found, ?_, rfl⟩, ?_⟩
  · rw [Table.find?_insert hInsert, if_neg, hFound]
    rintro rfl
    rw [hNew] at hFound
    cases hFound
  · rintro id ⟨row, hRow, hCoexists⟩
    exact ⟨row, hRows ▸ List.mem_append_left _ hRow, hCoexists⟩

theorem grows_claimReview
    (hSubmission : ∀ review, (change review).knowledgeSubmission = review.knowledgeSubmission) :
    Tx.Respects Grows (claimReview reviewId change hKey) := by
  intro input s done t h
  obtain ⟨-, rfl⟩ := claimReview_ok h
  refine ⟨fun _ _ h => h, fun _ _ h => h, fun id found hFound => ?_, ?_⟩
  · have hFind : (claimed reviewId change hKey s.reviews).find? id = _ :=
      Table.find?_update _ _ _ hKey (fun _ => rfl) id
    rw [hFound] at hFind
    refine ⟨_, hFind, ?_⟩
    dsimp only
    split
    · exact hSubmission found
    · rfl
  · rintro id ⟨row, hRow, hCoexists⟩
    exact ⟨row, mem_claimed_of_decided hKey hRow (by rw [hCoexists.1]; decide), hCoexists⟩

theorem grows_admitDraft (draft : KnowledgeDraft) : Tx.Respects Grows (admitDraft draft) :=
  .bind (grows_insertEntry _) fun _ => grows_recordEvent _

theorem grows_challenge (draft : KnowledgeDraft) (detected : DetectedConflict) :
    Tx.Respects Grows (challenge draft detected) :=
  .bind .ask fun _ => .bind (grows_insertReview _) fun _ => .bind (grows_recordEvent _) fun _ =>
    .ite (grows_recordEvent _) (.pure ())

theorem grows_supersedeConflicting (approverId : String) (now : Nat) (resolution : Option KnowledgeResolution)
    (review : AuthorityReview) (submission : KnowledgeSubmission) :
    Tx.Respects Grows (supersedeConflicting approverId now resolution review submission) :=
  .ite (.bind (grows_supersedeEntry _ _ _) fun _ => grows_recordEvent _) (.pure ())

theorem grows_resolveReview (approverId : String) (resolution : Option KnowledgeResolution) (review : AuthorityReview)
    (submission : KnowledgeSubmission) : Tx.Respects Grows (resolveReview approverId resolution review submission) :=
  .bind .ask fun _ => .bind (grows_claimReview fun _ => rfl) fun _ => .bind (grows_insertEntry _) fun _ =>
    .bind (grows_supersedeConflicting _ _ _ _ _) fun _ => grows_recordEvent _

theorem grows_rejectReview (approverId rejectionReason : String) (review : AuthorityReview) :
    Tx.Respects Grows (rejectReview approverId rejectionReason review) :=
  .bind .ask fun _ => .bind (grows_claimReview fun _ => rfl) fun _ => grows_recordEvent _

theorem Documented.insertEntry {entry : AdmittedEntry} (h : Documented platform store)
    (hRun : insertEntry entry input store = .ok (done, later))
    (hDrafted : Drafted entry.id entry.statement store.drafts) : Documented platform later := by
  obtain ⟨entries, hInsert, rfl, -⟩ := insertEntry_ok hRun
  refine ⟨h.drafts, fun other hOther => ?_, h.submissions, h.authorities, h.ledger⟩
  rw [(Table.insert_eq_some hInsert).2.2] at hOther
  rcases List.mem_append.mp hOther with hOld | hNew
  · exact h.entries other hOld
  · rwa [List.mem_singleton.mp hNew]

theorem Documented.insertReview {review : AuthorityReview} (h : Documented platform store)
    (hRun : insertReview review input store = .ok (done, later))
    (hSubmission : ∀ submission ∈ review.knowledgeSubmission,
      Drafted submission.knowledgeId submission.statement store.drafts)
    (hAuthority : AuthorityDrafted review.authorityRecord.authorityId review.authorityRecord store.drafts) :
    Documented platform later := by
  obtain ⟨reviews, hInsert, rfl⟩ := insertReview_ok hRun
  have hMem : ∀ other ∈ reviews.rows, other ∈ store.reviews.rows ∨ other = review := by
    intro other hOther
    rw [(Table.insert_eq_some hInsert).2.2] at hOther
    exact (List.mem_append.mp hOther).imp_right List.mem_singleton.mp
  refine ⟨h.drafts, h.entries, fun other hOther => ?_, fun other hOther => ?_, h.ledger⟩
  · rcases hMem other hOther with hOld | rfl
    · exact h.submissions other hOld
    · exact hSubmission
  · rcases hMem other hOther with hOld | rfl
    · exact h.authorities other hOld
    · exact hAuthority

theorem Documented.recordEvent {event : AdmissionEvent} (h : Documented platform store)
    (hRun : recordEvent event input store = .ok (done, later))
    (hAuthority : ∀ authority ∈ event.authorityRecord, AuthorityDrafted event.authorityId authority store.drafts) :
    Documented platform later := by
  obtain ⟨ledger, hInsert, rfl⟩ := recordEvent_ok hRun
  refine ⟨h.drafts, h.entries, h.submissions, h.authorities, fun other hOther => ?_⟩
  rw [(Table.insert_eq_some hInsert).2.2] at hOther
  rcases List.mem_append.mp hOther with hOld | hNew
  · exact h.ledger other hOld
  · rwa [List.mem_singleton.mp hNew]

theorem Documented.claimReview (h : Documented platform store)
    (hRun : claimReview reviewId change hKey input store = .ok (done, later))
    (hSubmission : ∀ review, (change review).knowledgeSubmission = review.knowledgeSubmission)
    (hAuthority : ∀ review, (change review).authorityRecord = review.authorityRecord) : Documented platform later := by
  obtain ⟨-, rfl⟩ := claimReview_ok hRun
  refine ⟨h.drafts, h.entries, fun other hOther => ?_, fun other hOther => ?_, h.ledger⟩
  · obtain ⟨source, hSource, rfl | rfl⟩ := mem_claimed hKey hOther
    · exact h.submissions other hSource
    · rw [hSubmission]
      exact h.submissions source hSource
  · obtain ⟨source, hSource, rfl | rfl⟩ := mem_claimed hKey hOther
    · exact h.authorities other hSource
    · rw [hAuthority]
      exact h.authorities source hSource

/-- The table after the update that supersedes one entry. -/
theorem rows_supersedeEntry {id knowledgeId : String} {now : Nat}
    (h : supersedeEntry id knowledgeId now input store = .ok (done, later)) :
    later.entries.rows = store.entries.rows.map (supersede id knowledgeId now) ∧
      later = { store with entries := later.entries } := by
  cases h
  refine ⟨List.map_congr_left fun entry _ => ?_, rfl⟩
  simp [supersede]

theorem Documented.supersedeEntry {id knowledgeId : String} {now : Nat} (h : Documented platform store)
    (hRun : supersedeEntry id knowledgeId now input store = .ok (done, later)) : Documented platform later := by
  obtain ⟨hRows, hSame⟩ := rows_supersedeEntry hRun
  rw [hSame]
  refine ⟨h.drafts, fun other hOther => ?_, h.submissions, h.authorities, h.ledger⟩
  dsimp only at hOther
  rw [hRows] at hOther
  obtain ⟨source, hSource, rfl⟩ := List.mem_map.mp hOther
  rw [supersede_id, supersede_statement]
  exact h.entries source hSource

end Transactions

section Comparison

variable {platform : Platform} {store : AdmissionStore} {draft : KnowledgeDraft} {record : AdmittedEntry}

theorem isValid_of_identified {left right : KnowledgeScopeReference} (hType : left.type = right.type)
    (hId : left.id = right.id) : isValidKnowledgeScopeReference left = isValidKnowledgeScopeReference right := by
  unfold isValidKnowledgeScopeReference
  rw [hType, hId]

/-- Drafts about one scope have authorities of one scope. -/
theorem SoundDraft.same_scope {scopes : PlainTable KnowledgeScope.id} {other : KnowledgeDraft}
    (h : SoundDraft platform scopes draft) (h' : SoundDraft platform scopes other)
    (hScope : draft.request.scopeId = other.request.scopeId) :
    draft.authority.scope.type = other.authority.scope.type ∧ draft.authority.scope.id = other.authority.scope.id := by
  obtain ⟨scope, hFind, hType⟩ := h.scope
  obtain ⟨scope', hFind', hType'⟩ := h'.scope
  rw [hScope, hFind', Option.some.injEq] at hFind
  subst hFind
  exact ⟨hType.trans hType'.symm, by rw [h.scopeId, h'.scopeId, hScope]⟩

theorem Documented.sound_draft (h : Documented platform store) {id : String}
    (hDraft : store.drafts.find? id = some draft) : SoundDraft platform store.scopes draft :=
  h.drafts draft (Table.find?_mem hDraft)

/-- The authority that a round finds is that of the entry, and it is valid. -/
theorem Documented.stored_authority (h : Documented platform store) {authorityId : AuthorityId}
    {authority : AuthorityRecord}
    (hStored : storedAuthority ((latestEvent authorityId store).bind AdmissionEvent.authorityRecord) = some authority) :
    validateAuthorityRecord authority = .ok () ∧ AuthorityDrafted authorityId authority store.drafts := by
  obtain ⟨hRecord, hValid⟩ := Option.filter_eq_some_iff.mp hStored
  obtain ⟨event, hLatest, hEvent⟩ := Option.bind_eq_some_iff.mp hRecord
  obtain ⟨hMem, hId⟩ := List.mem_filter.mp (List.argmax_mem hLatest)
  refine ⟨?_, of_decide_eq_true hId ▸ h.ledger event hMem authority hEvent⟩
  cases hResult : validateAuthorityRecord authority with
  | ok => rfl
  | error message =>
    rw [hResult] at hValid
    cases hValid

/-- An entry that a round lets pass does not contradict the submission. -/
theorem compareRecord_none (h : Documented platform store)
    (hDraft : store.drafts.find? draft.knowledgeId = some draft)
    (hRecord : Drafted record.id record.statement store.drafts) (hThere : draft.semanticKey ≠ "")
    (hNone : compareRecord platform draft record store = none) :
    ¬Contradicts platform record.statement draft.statement := by
  obtain ⟨source, hSource, hSays⟩ := hRecord
  have hSound := h.sound_draft hDraft
  have hSound' := h.sound_draft hSource
  rw [← hSays]
  rintro ⟨hScope, hKeys, hValues⟩
  have hKey : record.semanticKey = draft.semanticKey := by
    have hKeyOf : record.semanticKey = source.semanticKey := congrArg KnowledgeStatement.semanticKey hSays.symm
    rw [hKeyOf, ← hSound'.semanticKey, ← hSound.semanticKey]
    exact hKeys
  have hValue : source.semanticValue = record.semanticValue := congrArg KnowledgeStatement.semanticValue hSays
  rw [compareRecord, if_neg (not_not.mpr hKey)] at hNone
  cases hStored : storedAuthority ((latestEvent ⟨record.id⟩ store).bind AdmissionEvent.authorityRecord) with
  | none =>
    rw [hStored] at hNone
    dsimp only at hNone
    split at hNone
    · cases hNone
    · rename_i hSame
      refine hValues ?_
      change platform.normalize source.semanticValue = platform.normalize draft.semanticValue
      rw [hValue, not_not.mp hSame]
  | some authority =>
    rw [hStored] at hNone
    dsimp only at hNone
    split at hNone
    · rename_i hPasses
      obtain ⟨hValid, drafted, hDrafted, rfl⟩ := h.stored_authority hStored
      rw [hSource, Option.some.injEq] at hDrafted
      subst hDrafted
      obtain ⟨hType, hId⟩ := hSound.same_scope hSound' hScope.symm
      have hScopes : evaluateScopeCompatibility draft.candidate.scope (record.subject source.authority).scope =
          .compatible := by
        have hValid' := validateAuthorityRecord_scope hValid
        refine evaluateScopeCompatibility_eq_compatible ((isValid_of_identified hType hId).trans hValid') hValid' ?_
        change (draft.authority.scope.type, truthy draft.authority.scope.id) = _
        rw [hType, hId]
        rfl
      have hAgree := detectConflictConservatively_compatible hScopes rfl hThere rfl (congrArg some hKey)
        (detectAuthorityConflict_passes hPasses)
      refine hValues ?_
      change platform.normalize source.semanticValue = platform.normalize draft.semanticValue
      rw [hValue]
      exact (Option.some.inj hAgree).symm
    · cases hNone

/-- The conflict that ends the loop does not pass. -/
theorem compareRecord_some {result : AuthorityConflictResult × AuthorityId}
    (h : compareRecord platform draft record store = some result) : result.1.outcome.passes = false := by
  unfold compareRecord at h
  split at h
  · cases h
  · split at h
    · split at h
      · cases h
        rfl
      · cases h
    · dsimp only at h
      split at h
      · cases h
      · rename_i hStops
        cases h
        exact eq_false_of_ne_true hStops

/-- A key that has a rule is not empty. -/
theorem governed_key {scopeKind : ScopeKind} {key value : String}
    (h : validateSemanticKeyGovernance platform scopeKind key value store = none) : key ≠ "" := by
  rintro rfl
  rw [validateSemanticKeyGovernance] at h
  cases hRule : store.rules.find? "" with
  | none =>
    rw [hRule] at h
    cases h
  | some rule =>
    have hKey : rule.key = "" := ((Table.find?_eq_some _ _ _).mp hRule).2
    have hFormed := rule.wellFormed
    rw [hKey] at hFormed
    exact absurd hFormed (by decide)

/-- The gate admits only what has no conflict. -/
theorem decideAdmission_admitting {records : List AdmittedEntry} {detected : DetectedConflict}
    (h : detected.conflict.outcome.passes = false) :
    decideAdmission draft records detected = .challenging draft detected := by
  refine if_neg fun hAllow => ?_
  rw [(evaluateGate_allow hAllow).2] at h
  cases h

end Comparison

end CommandConsole.Governance
