import CommandConsole.Governance.AdmissionDocuments
import Mathlib.Data.List.DropRight
import Mathlib.Tactic.IntervalCases

/-! # Interleaved submissions and approvals

Every section of a call keeps the entries free of silent contradictions if its commit sees the
rivals of what it writes. Without that the entries can contradict each other, and two entries
can supersede the same one.
-/
namespace CommandConsole.Governance
open Library
open Execution (isSpace lowerChar truthy)
set_option autoImplicit false

section Stages

variable {platform : Platform} {store next : AdmissionStore} {input : AdmissionInput} {done : Unit}
  {draft : KnowledgeDraft} {detected : DetectedConflict} {review : AuthorityReview} {submission : KnowledgeSubmission}
  {approverId : String} {resolution : Option KnowledgeResolution}

/-- The review of a stage is there with its submission, and both were drafted. -/
structure ReviewKnown (review : AuthorityReview) (submission : KnowledgeSubmission) (store : AdmissionStore) :
    Prop where
  there : ∃ row, store.reviews.find? review.reviewId = some row ∧ row.knowledgeSubmission = some submission
  submission : Drafted submission.knowledgeId submission.statement store.drafts
  authority : AuthorityDrafted review.authorityRecord.authorityId review.authorityRecord store.drafts

/-- What a call relies on between its sections. -/
def AdmissionStage.Known (platform : Platform) (stage : AdmissionStage) (store : AdmissionStore) : Prop :=
  match stage with
  | .governing draft records => store.drafts.find? draft.knowledgeId = some draft ∧
    ∀ record ∈ records, Drafted record.id record.statement store.drafts
  | .comparing draft records remaining => store.drafts.find? draft.knowledgeId = some draft ∧
    truthy draft.request.overrideOfId = none ∧ draft.semanticKey ≠ "" ∧
    (∀ record ∈ records, Drafted record.id record.statement store.drafts) ∧ remaining ⊆ records ∧
    ∀ record ∈ records, record ∈ remaining ∨ ¬Contradicts platform record.statement draft.statement
  | .admitting draft records => store.drafts.find? draft.knowledgeId = some draft ∧
    truthy draft.request.overrideOfId = none ∧ (∀ record ∈ records, Drafted record.id record.statement store.drafts) ∧
    ∀ record ∈ records, ¬Contradicts platform record.statement draft.statement
  | .challenging draft _ => store.drafts.find? draft.knowledgeId = some draft
  | .claiming _ resolution review submission => ReviewKnown review submission store ∧
    (resolution = some .supersede → submission.conflictingKnowledgeId ≠ none)
  | .resolving _ resolution review submission => ReviewKnown review submission store ∧
    (resolution = some .supersede → submission.conflictingKnowledgeId ≠ none)
  | .rejecting _ _ review => AuthorityDrafted review.authorityRecord.authorityId review.authorityRecord store.drafts
  | _ => True

theorem ReviewKnown.later (h : ReviewKnown review submission store) (hGrows : Grows store next) :
    ReviewKnown review submission next := by
  refine ⟨?_, hGrows.drafted h.submission, hGrows.authorityDrafted h.authority⟩
  obtain ⟨row, hRow, hSubmission⟩ := h.there
  obtain ⟨found, hFound, hSame⟩ := hGrows.submissions _ row hRow
  exact ⟨found, hFound, hSame.trans hSubmission⟩

theorem AdmissionStage.Known.later {stage : AdmissionStage} (hGrows : Grows store next)
    (h : stage.Known platform store) : stage.Known platform next := by
  cases stage with
  | received command => trivial
  | governing draft records => exact ⟨hGrows.drafts _ _ h.1, fun record hRecord => hGrows.drafted (h.2 record hRecord)⟩
  | comparing draft records remaining =>
    obtain ⟨hDraft, hOver, hKey, hRecords, hRest⟩ := h
    exact ⟨hGrows.drafts _ _ hDraft, hOver, hKey, fun record hRecord => hGrows.drafted (hRecords record hRecord), hRest⟩
  | admitting draft records =>
    obtain ⟨hDraft, hOver, hRecords, hRest⟩ := h
    exact ⟨hGrows.drafts _ _ hDraft, hOver, fun record hRecord => hGrows.drafted (hRecords record hRecord), hRest⟩
  | challenging draft detected => exact hGrows.drafts _ _ h
  | claiming approverId resolution review submission => exact ⟨h.1.later hGrows, h.2⟩
  | resolving approverId resolution review submission => exact ⟨h.1.later hGrows, h.2⟩
  | rejecting approverId rejectionReason review => exact hGrows.authorityDrafted h
  | ended result => trivial

end Stages

section Commits

variable {platform : Platform} {store next : AdmissionStore} {input : AdmissionInput} {done : Unit}
  {draft : KnowledgeDraft} {detected : DetectedConflict} {review : AuthorityReview} {submission : KnowledgeSubmission}
  {approverId : String} {resolution : Option KnowledgeResolution}

/-- A transaction that leaves the entries alone. -/
theorem SoundAdmission.same_entries (h : SoundAdmission platform store) (hDocumented : Documented platform next)
    (hGrows : Grows store next) (hEntries : next.entries = store.entries) : SoundAdmission platform next where
  toDocumented := hDocumented
  linked := hEntries ▸ h.linked
  agreeing := hEntries ▸ h.agreeing.mono hGrows.coexist

theorem Documented.draft_authority (h : Documented platform store)
    (hDraft : store.drafts.find? draft.knowledgeId = some draft) :
    AuthorityDrafted draft.authority.authorityId draft.authority store.drafts :=
  ⟨draft, by rw [(h.sound_draft hDraft).authorityId]; exact hDraft, rfl⟩

theorem mem_rivals {statement : KnowledgeStatement} {entry : AdmittedEntry} (hEntry : entry ∈ store.entries.rows)
    (hOpen : entry.supersededAt = none) (hContra : Contradicts platform entry.statement statement)
    (hSilent : ¬CoexistApproved entry.id store) : entry ∈ rivals platform statement store :=
  List.mem_filter.mpr ⟨hEntry, decide_eq_true ⟨hOpen, hContra, hSilent⟩⟩

theorem SoundAdmission.admitDraft (h : SoundAdmission platform store)
    (hDraft : store.drafts.find? draft.knowledgeId = some draft)
    (hOver : truthy draft.request.overrideOfId = none)
    (hRivals : draft.request.overrideOfId = none → rivals platform draft.statement store = [])
    (hRun : admitDraft draft input store = .ok (done, next)) : SoundAdmission platform next := by
  have hGrows := grows_admitDraft draft input store done next hRun
  obtain ⟨_, mid, hInsert, hRecord⟩ := Tx.bind_eq_ok.mp hRun
  have hMid := h.toDocumented.insertEntry hInsert ⟨draft, hDraft, rfl⟩
  obtain ⟨entries, hRows, rfl, hThere⟩ := insertEntry_ok hInsert
  have hNone : draft.request.overrideOfId = none := by
    cases hOf : draft.request.overrideOfId with
    | none => rfl
    | some id =>
      obtain ⟨other, hOther, rfl⟩ := hThere id hOf
      obtain ⟨source, hSource, -⟩ := h.entries other hOther
      have hNamed := (h.sound_draft hSource).named
      rw [Table.find?_key hSource] at hNamed
      rw [hOf, truthy, Option.filter_some_pos (by simpa using hNamed)] at hOver
      cases hOver
  have hNext := hMid.recordEvent hRecord fun authority hAuthority => by
    cases hAuthority
    exact h.toDocumented.draft_authority hDraft
  obtain ⟨ledger, -, rfl⟩ := recordEvent_ok hRecord
  have hAfter := (Table.insert_eq_some hRows).2.2
  refine ⟨hNext, ?_, ?_⟩
  · dsimp only
    rw [hAfter]
    exact h.linked.add hNone rfl
  · dsimp only
    rw [hAfter]
    refine (h.agreeing.add fun other hOther hOpen hContra => .inl ?_).mono hGrows.coexist
    by_contra hSilent
    have hRival : other ∈ rivals platform draft.statement store := mem_rivals hOther hOpen hContra hSilent
    rw [hRivals hNone] at hRival
    cases hRival

theorem SoundAdmission.challenge (h : SoundAdmission platform store)
    (hDraft : store.drafts.find? draft.knowledgeId = some draft)
    (hRun : challenge draft detected input store = .ok (done, next)) : SoundAdmission platform next := by
  have hGrows := grows_challenge draft detected input store done next hRun
  have hAuthority := h.toDocumented.draft_authority hDraft
  rw [Governance.challenge, Tx.ask_bind] at hRun
  obtain ⟨_, mid, hInsert, hRun⟩ := Tx.bind_eq_ok.mp hRun
  obtain ⟨_, logged, hRecord, hRun⟩ := Tx.bind_eq_ok.mp hRun
  have hMid := h.toDocumented.insertReview hInsert (fun _ hSubmission => by
    cases hSubmission
    exact ⟨draft, hDraft, rfl⟩) hAuthority
  obtain ⟨reviews, -, rfl⟩ := insertReview_ok hInsert
  have hLogged := hMid.recordEvent hRecord fun _ hRecorded => by
    cases hRecorded
    exact hAuthority
  obtain ⟨ledger, -, rfl⟩ := recordEvent_ok hRecord
  split at hRun
  · have hNext := hLogged.recordEvent hRun fun _ hRecorded => by
      cases hRecorded
      exact hAuthority
    obtain ⟨ledger', -, rfl⟩ := recordEvent_ok hRun
    exact h.same_entries hNext hGrows rfl
  · cases hRun
    exact h.same_entries hLogged hGrows rfl

theorem SoundAdmission.rejectReview {rejectionReason : String} (h : SoundAdmission platform store)
    (hAuthority : AuthorityDrafted review.authorityRecord.authorityId review.authorityRecord store.drafts)
    (hRun : rejectReview approverId rejectionReason review input store = .ok (done, next)) :
    SoundAdmission platform next := by
  have hGrows := grows_rejectReview approverId rejectionReason review input store done next hRun
  rw [Governance.rejectReview, Tx.ask_bind] at hRun
  obtain ⟨_, mid, hClaim, hRecord⟩ := Tx.bind_eq_ok.mp hRun
  have hMid := h.toDocumented.claimReview hClaim (fun _ => rfl) fun _ => rfl
  obtain ⟨-, rfl⟩ := claimReview_ok hClaim
  have hNext := hMid.recordEvent hRecord fun _ hRecorded => by
    cases hRecorded
    exact hAuthority
  obtain ⟨ledger, -, rfl⟩ := recordEvent_ok hRecord
  exact h.same_entries hNext hGrows rfl

/-- The review that an approval claims is in force afterwards. -/
theorem coexists_claimed (change : AuthorityReview → AuthorityReview)
    (hKey : ∀ review, (change review).reviewId = review.reviewId) (hKnown : ReviewKnown review submission store)
    (hPending : isPending review.reviewId store = true)
    (hChange : ∀ row, row.knowledgeSubmission = some submission → (change row).Coexists submission.knowledgeId) :
    ∃ row ∈ (claimed review.reviewId change hKey store.reviews).rows, row.Coexists submission.knowledgeId := by
  obtain ⟨row, hRow, hSubmission⟩ := hKnown.there
  rw [isPending, hRow, Option.any_some, decide_eq_true_eq] at hPending
  obtain ⟨hMem, hId⟩ := (Table.find?_eq_some _ _ _).mp hRow
  exact ⟨_, List.mem_map.mpr ⟨row, hMem, if_pos (decide_eq_true ⟨hId, hPending⟩)⟩, hChange row hSubmission⟩

theorem SoundAdmission.resolveReview (h : SoundAdmission platform store) (hKnown : ReviewKnown review submission store)
    (hConflicting : resolution = some .supersede → submission.conflictingKnowledgeId ≠ none)
    (hGuard : resolution = some .supersede → isPending review.reviewId store = true →
      (∀ entry ∈ store.entries.rows, submission.conflictingKnowledgeId = some entry.id → entry.supersededAt = none) ∧
      ∀ rival ∈ rivals platform submission.statement store, submission.conflictingKnowledgeId = some rival.id)
    (hRun : resolveReview approverId resolution review submission input store = .ok (done, next)) :
    SoundAdmission platform next := by
  have hGrows := grows_resolveReview approverId resolution review submission input store done next hRun
  rw [Governance.resolveReview, Tx.ask_bind] at hRun
  obtain ⟨_, held, hClaim, hRun⟩ := Tx.bind_eq_ok.mp hRun
  obtain ⟨_, mid, hInsert, hRun⟩ := Tx.bind_eq_ok.mp hRun
  obtain ⟨_, linked, hSupersede, hRecord⟩ := Tx.bind_eq_ok.mp hRun
  have hHeld := h.toDocumented.claimReview hClaim (fun _ => rfl) fun _ => rfl
  obtain ⟨hPending, rfl⟩ := claimReview_ok hClaim
  have hMid := hHeld.insertEntry hInsert hKnown.submission
  obtain ⟨entries, hRows, rfl, hThere⟩ := insertEntry_ok hInsert
  have hAfter := (Table.insert_eq_some hRows).2.2
  rw [supersedeConflicting] at hSupersede
  split at hSupersede
  · rename_i hAction
    obtain ⟨hOpen, hOnly⟩ := hGuard hAction hPending
    obtain ⟨id, hId⟩ := Option.ne_none_iff_exists'.mp (hConflicting hAction)
    obtain ⟨_, marked, hMark, hLog⟩ := Tx.bind_eq_ok.mp hSupersede
    have hMarked := hMid.supersedeEntry hMark
    obtain ⟨hMarkedRows, hSame⟩ := rows_supersedeEntry hMark
    have hDrafts : marked.drafts = store.drafts := by rw [hSame]
    have hLogged := hMarked.recordEvent hLog fun _ hRecorded => by
      cases hRecorded
      rw [hDrafts]
      exact hKnown.authority
    obtain ⟨ledger, -, rfl⟩ := recordEvent_ok hLog
    have hNext := hLogged.recordEvent hRecord fun _ hRecorded => by
      cases hRecorded
      rw [hDrafts]
      exact hKnown.authority
    obtain ⟨ledger', -, rfl⟩ := recordEvent_ok hRecord
    rw [hId, Option.getD_some] at hMarkedRows
    dsimp only at hMarkedRows
    rw [hAfter] at hMarkedRows
    have hOver : (reviewedEntry resolution submission).overrideOfId = some id := by
      rw [reviewedEntry, if_pos hAction, hId]
    refine ⟨hNext, ?_, ?_⟩
    · dsimp only
      rw [hMarkedRows]
      exact h.linked.supersede hOver rfl (hThere id hOver) fun other hOther hEq => hOpen other hOther (hEq ▸ hId)
    · dsimp only
      rw [hMarkedRows]
      refine (h.agreeing.supersede fun other hOther hUp hNe hContra => .inl ?_).mono hGrows.coexist
      by_contra hSilent
      have hRival := hOnly other (mem_rivals hOther hUp hContra hSilent)
      rw [hId, Option.some.injEq] at hRival
      exact hNe hRival.symm
  · rename_i hAction
    cases hSupersede
    have hNext := hMid.recordEvent hRecord fun _ hRecorded => by
      cases hRecorded
      exact hKnown.authority
    obtain ⟨ledger, -, rfl⟩ := recordEvent_ok hRecord
    have hOver : (reviewedEntry resolution submission).overrideOfId = none := if_neg hAction
    refine ⟨hNext, ?_, ?_⟩
    · dsimp only
      rw [hAfter]
      exact h.linked.add hOver rfl
    · dsimp only
      rw [hAfter]
      refine (h.agreeing.mono hGrows.coexist).add fun other hOther hUp hContra => .inr ?_
      have hAction' : (resolution.getD .coexist) = .coexist :=
        match resolution, hAction with
        | none, _ => rfl
        | some .coexist, _ => rfl
      exact coexists_claimed (AuthorityReview.approvedBy approverId resolution input.now) (fun _ => rfl) hKnown hPending
        fun row hRow => ⟨rfl, congrArg (fun action => some (ReviewResolution.approved action)) hAction',
          congrArg _ hRow⟩

end Commits

section Sections

variable {platform : Platform} {store : AdmissionStore} {input : AdmissionInput} {draft : KnowledgeDraft}
  {records : List AdmittedEntry} {detected : DetectedConflict}

/-- What a section leaves of the store, and what its call knows then. -/
structure Carried (platform : Platform) (store : AdmissionStore) (outcome : AdmissionStage × AdmissionStore) : Prop where
  sound : SoundAdmission platform outcome.2
  grows : Grows store outcome.2
  known : outcome.1.Known platform outcome.2

theorem Carried.stay {stage : AdmissionStage} (h : SoundAdmission platform store)
    (hKnown : stage.Known platform store) :
    Carried platform store (stage, store) :=
  ⟨h, Std.Refl.refl store, hKnown⟩

theorem carried_finish {reply : AdmissionReply} {transaction : AdmissionTx Unit} (h : SoundAdmission platform store)
    (hGrows : Tx.Respects Grows transaction)
    (hSound : ∀ done next, transaction input store = .ok (done, next) → SoundAdmission platform next) :
    Carried platform store (finish reply transaction input store) := by
  unfold finish Tx.commit
  cases hRun : transaction input store with
  | error error => exact .stay h trivial
  | ok result => exact ⟨hSound result.1 result.2 hRun, hGrows input store result.1 result.2 hRun, trivial⟩

theorem draftKnowledge_ok {request : KnowledgeRequest}
    (h : draftKnowledge platform input request store = .ok draft) (hNamed : input.knowledgeId ≠ "") :
    SoundDraft platform store.scopes draft ∧ draft.knowledgeId = input.knowledgeId := by
  unfold draftKnowledge at h
  cases hScope : store.scopes.find? request.scopeId with
  | none =>
    rw [hScope] at h
    cases h
  | some scope =>
    rw [hScope] at h
    dsimp only at h
    split at h
    · cases h
    · cases h
      refine ⟨⟨⟨scope, hScope, rfl⟩, ?_, rfl, platform.normalize_normalize _, hNamed⟩, rfl⟩
      exact congrArg some (Table.find?_key hScope)

/-- A new draft changes no draft that is there. -/
theorem SoundAdmission.put_draft (h : SoundAdmission platform store) (hDraft : SoundDraft platform store.scopes draft)
    (hFresh : store.drafts.find? draft.knowledgeId = none) :
    SoundAdmission platform { store with drafts := PlainTable.put store.drafts draft } ∧
      Grows store { store with drafts := PlainTable.put store.drafts draft } := by
  have hGrows : Grows store { store with drafts := PlainTable.put store.drafts draft } := by
    refine ⟨fun _ _ h => h, fun id found hFound => ?_, fun _ review h => ⟨review, h, rfl⟩, fun _ h => h⟩
    rw [PlainTable.find?_put, if_neg, hFound]
    rintro rfl
    rw [hFresh] at hFound
    cases hFound
  refine ⟨⟨⟨fun other hOther => ?_, ?_, ?_, ?_, ?_⟩, h.linked, h.agreeing⟩, hGrows⟩
  · rcases (PlainTable.mem_put store.drafts draft other).mp hOther with rfl | ⟨hOld, -⟩
    · exact hDraft
    · exact h.drafts other hOld
  · exact fun entry hEntry => hGrows.drafted (h.entries entry hEntry)
  · exact fun review hReview submission hSubmission =>
      hGrows.drafted (h.submissions review hReview submission hSubmission)
  · exact fun review hReview => hGrows.authorityDrafted (h.authorities review hReview)
  · exact fun event hEvent authority hAuthority => hGrows.authorityDrafted (h.ledger event hEvent authority hAuthority)

/-- A pending review that is read is known, and so is its authority. -/
theorem pendingAuthorityReview_ok {reviewId : String} {review : AuthorityReview} {submission : KnowledgeSubmission}
    (h : Documented platform store) (hRead : pendingAuthorityReview reviewId store = .ok (review, submission)) :
    ReviewKnown review submission store := by
  unfold pendingAuthorityReview at hRead
  cases hFind : (store.reviews.find? reviewId).filter fun review => review.status = .pending with
  | none =>
    rw [hFind] at hRead
    cases hRead
  | some found =>
    rw [hFind] at hRead
    dsimp only at hRead
    have hFound := (Option.filter_eq_some_iff.mp hFind).1
    cases hSubmission : found.knowledgeSubmission with
    | none =>
      rw [hSubmission] at hRead
      cases hRead
    | some said =>
      rw [hSubmission] at hRead
      dsimp only at hRead
      repeat' split at hRead
      all_goals cases hRead
      have hMem := Table.find?_mem hFound
      refine ⟨⟨review, ?_, hSubmission⟩, h.submissions review hMem submission hSubmission, h.authorities review hMem⟩
      rwa [Table.find?_key hFound]

theorem checkResolution_ok {resolution : Option KnowledgeResolution} {submission : KnowledgeSubmission}
    (h : checkResolution resolution submission = .ok ()) (hAction : resolution = some .supersede) :
    submission.conflictingKnowledgeId ≠ none := by
  intro hNone
  rw [checkResolution, hNone, hAction, if_neg (by simp), if_pos ⟨rfl, rfl⟩] at h
  cases h

theorem carried_decide (h : SoundAdmission platform store) (hDraft : store.drafts.find? draft.knowledgeId = some draft)
    (hPasses : detected.conflict.outcome.passes = true → truthy draft.request.overrideOfId = none ∧
      (∀ record ∈ records, Drafted record.id record.statement store.drafts) ∧
      ∀ record ∈ records, ¬Contradicts platform record.statement draft.statement) :
    Carried platform store (decideAdmission draft records detected, store) := by
  cases hOutcome : detected.conflict.outcome.passes with
  | false =>
    rw [decideAdmission_admitting hOutcome]
    exact .stay h hDraft
  | true =>
    unfold decideAdmission
    split
    · exact .stay h ⟨hDraft, hPasses hOutcome⟩
    · exact .stay h hDraft

theorem carried_govern (h : SoundAdmission platform store) (hDraft : store.drafts.find? draft.knowledgeId = some draft)
    (hRecords : ∀ record ∈ records, Drafted record.id record.statement store.drafts) :
    Carried platform store (governSubmission platform draft records store, store) := by
  unfold governSubmission
  cases hRule : validateSemanticKeyGovernance platform draft.scopeKind draft.semanticKey draft.semanticValue store with
  | some reason => exact carried_decide h hDraft fun hPasses => by cases hPasses
  | none =>
    cases hOver : truthy draft.request.overrideOfId with
    | some id => exact carried_decide h hDraft fun hPasses => by cases hPasses
    | none =>
      exact .stay h
        ⟨hDraft, hOver, governed_key hRule, hRecords, List.Subset.refl _, fun record hRecord => .inl hRecord⟩

/-- One round of the comparison. -/
theorem carried_compare {record : AdmittedEntry} {remaining : List AdmittedEntry} (h : SoundAdmission platform store)
    (hKnown : (AdmissionStage.comparing draft records (record :: remaining)).Known platform store) :
    Carried platform store
      (AdmissionStage.advance platform input (.comparing draft records (record :: remaining)) store) := by
  obtain ⟨hDraft, hOver, hKey, hRecords, hSubset, hRest⟩ := hKnown
  unfold AdmissionStage.advance
  dsimp only
  cases hCompare : compareRecord platform draft record store with
  | none =>
    refine .stay h ⟨hDraft, hOver, hKey, hRecords, (List.cons_subset.mp hSubset).2, fun other hOther => ?_⟩
    rcases hRest other hOther with hLeft | hSettled
    · rcases List.mem_cons.mp hLeft with rfl | hLater
      · exact .inr (compareRecord_none h.toDocumented hDraft (hRecords other hOther) hKey hCompare)
      · exact .inl hLater
    · exact .inr hSettled
  | some result =>
    refine carried_decide h hDraft fun hPasses => ?_
    rw [compareRecord_some hCompare] at hPasses
    cases hPasses

theorem advance_carried {stage : AdmissionStage} (h : SoundAdmission platform store)
    (hKnown : stage.Known platform store)
    (hSees : stage.SeesRivals platform store) :
    Carried platform store (AdmissionStage.advance platform input stage store) := by
  cases stage with
  | received command =>
    cases command with
    | create request =>
      unfold AdmissionStage.advance
      dsimp only
      split
      · exact .stay h trivial
      · rename_i hNew
        obtain ⟨hNamed, hFree⟩ := not_or.mp hNew
        cases hDraft : draftKnowledge platform input request store with
        | error error => exact .stay h trivial
        | ok draft =>
          obtain ⟨hSound, hId⟩ := draftKnowledge_ok hDraft hNamed
          have hFresh : store.drafts.find? draft.knowledgeId = none := by
            rw [hId]
            exact Option.not_isSome_iff_eq_none.mp hFree
          obtain ⟨hNext, hGrows⟩ := h.put_draft hSound hFresh
          refine ⟨hNext, hGrows, ?_, fun record hRecord => hNext.entries record hRecord⟩
          rw [PlainTable.find?_put, if_pos rfl]
    | approve approverId reviewId resolution =>
      unfold AdmissionStage.advance
      dsimp only
      cases hRead : pendingAuthorityReview reviewId store with
      | error error => exact .stay h trivial
      | ok result =>
        cases hCheck : checkResolution resolution result.2 with
        | error error =>
          dsimp only
          rw [hCheck]
          exact .stay h trivial
        | ok =>
          dsimp only
          rw [hCheck]
          exact .stay h ⟨pendingAuthorityReview_ok h.toDocumented hRead, checkResolution_ok hCheck⟩
    | reject approverId reviewId reason =>
      unfold AdmissionStage.advance
      dsimp only
      cases hRead : pendingAuthorityReview reviewId store with
      | error error => exact .stay h trivial
      | ok result =>
        dsimp only
        split
        · exact .stay h trivial
        · exact .stay h (pendingAuthorityReview_ok h.toDocumented hRead).authority
  | governing draft records => exact carried_govern h hKnown.1 hKnown.2
  | comparing draft records remaining =>
    cases remaining with
    | nil =>
      obtain ⟨hDraft, hOver, hKey, hRecords, -, hRest⟩ := hKnown
      exact carried_decide h hDraft fun _ =>
        ⟨hOver, hRecords, fun record hRecord => (hRest record hRecord).resolve_left List.not_mem_nil⟩
    | cons record remaining => exact carried_compare h hKnown
  | admitting draft records =>
    obtain ⟨hDraft, hOver, hRecords, hSettled⟩ := hKnown
    refine carried_finish h (grows_admitDraft draft) fun done next hRun =>
      h.admitDraft hDraft hOver (fun hNone => ?_) hRun
    refine List.eq_nil_iff_forall_not_mem.mpr fun rival hRival => ?_
    obtain ⟨record, hRecord, hId⟩ := hSees hNone rival hRival
    obtain ⟨hMem, hFacts⟩ := List.mem_filter.mp hRival
    obtain ⟨source, hSource, hSays⟩ := hRecords record hRecord
    obtain ⟨source', hSource', hSays'⟩ := h.entries rival hMem
    rw [← hId, hSource, Option.some.injEq] at hSource'
    subst hSource'
    exact hSettled record hRecord (by rw [← hSays, hSays']; exact (of_decide_eq_true hFacts).2.1)
  | challenging draft detected =>
    exact carried_finish h (grows_challenge draft detected) fun done next hRun => h.challenge hKnown hRun
  | claiming approverId resolution review submission =>
    unfold AdmissionStage.advance
    dsimp only
    cases hFind : findConflicting resolution review.reviewId submission store with
    | error error => exact .stay h trivial
    | ok => exact .stay h hKnown
  | resolving approverId resolution review submission =>
    refine carried_finish h (grows_resolveReview approverId resolution review submission) fun done next hRun =>
      h.resolveReview hKnown.1 hKnown.2 (fun hAction => ?_) hRun
    subst hAction
    exact hSees
  | rejecting approverId rejectionReason review =>
    exact carried_finish h (grows_rejectReview approverId rejectionReason review) fun done next hRun =>
      h.rejectReview hKnown hRun
  | ended result => exact .stay h trivial

theorem setup_carried (setup : AdmissionSetup) (h : SoundAdmission platform store) :
    SoundAdmission platform (setup.apply store) ∧ Grows store (setup.apply store) := by
  cases setup with
  | rule changed =>
    exact ⟨⟨⟨h.drafts, h.entries, h.submissions, h.authorities, h.ledger⟩, h.linked, h.agreeing⟩, .of_eq rfl rfl rfl⟩
  | scope added =>
    unfold AdmissionSetup.apply
    dsimp only
    cases hInsert : store.scopes.insert added with
    | none => exact ⟨h, Std.Refl.refl store⟩
    | some scopes =>
      have hScopes : ∀ id scope, store.scopes.find? id = some scope → scopes.find? id = some scope := by
        intro id scope hFind
        rw [Table.find?_insert hInsert, if_neg, hFind]
        rintro rfl
        rw [(Table.insert_eq_some hInsert).1] at hFind
        cases hFind
      refine ⟨⟨⟨fun draft hDraft => ?_, h.entries, h.submissions, h.authorities, h.ledger⟩, h.linked, h.agreeing⟩,
        ⟨hScopes, fun _ _ h => h, fun _ review h => ⟨review, h, rfl⟩, fun _ h => h⟩⟩
      have hSound := h.drafts draft hDraft
      obtain ⟨scope, hFind, hType⟩ := hSound.scope
      exact ⟨⟨scope, hScopes _ scope hFind, hType⟩, hSound.scopeId, hSound.authorityId, hSound.semanticKey,
        hSound.named⟩

end Sections

section Main

variable {platform : Platform} {crowd : Admissions}

/-- In every run whose sections see the rivals of what they commit, in every interleaving of the
calls, no two entries contradict each other without an approved COEXIST. -/
theorem knowledge_not_contradictory
    (h : Reaches (Crowd.step (admissionRules platform)) (SeesRivals platform) (Crowd.init .empty) crowd) :
    Consistent platform crowd.store := by
  refine (Crowd.invariant (P := SoundAdmission platform) (Q := AdmissionStage.Known platform) (R := Grows) h sound_empty
    (fun request s _ => trivial) ?_ ?_ fun call s t hGrows hKnown => hKnown.later hGrows).1.consistent
  · intro index input call crowd hSees hCall hSound hKnown
    obtain ⟨hNext, hGrows, hNextKnown⟩ := advance_carried hSound hKnown (hSees call hCall)
    exact ⟨hNext, hGrows, hNextKnown⟩
  · intro setup crowd _ hSound
    exact setup_carried setup hSound

end Main

section Ascii

/-- The text with each run of blanks after the start made one space, those at the end left out. -/
def squeeze (gap : Bool) : List Char → List Char
  | [] => []
  | c :: rest =>
    if isSpace c then squeeze true rest
    else if gap then ' ' :: lowerChar c :: squeeze false rest
    else lowerChar c :: squeeze false rest

theorem lowerChar_upper {c : Char} (h : 'A' ≤ c ∧ c ≤ 'Z') :
    isSpace (lowerChar c) = false ∧ lowerChar (lowerChar c) = lowerChar c := by
  have hLow : 65 ≤ c.toNat := h.1
  have hHigh : c.toNat ≤ 90 := h.2
  obtain ⟨n, hn⟩ : ∃ n, c.toNat = n := ⟨_, rfl⟩
  have hc : c = Char.ofNat n := by rw [← hn, Char.ofNat_toNat]
  rw [hn] at hLow hHigh
  rw [hc]
  interval_cases n <;> decide

theorem lowerChar_lowerChar (c : Char) : lowerChar (lowerChar c) = lowerChar c := by
  by_cases hKelvin : c = '\u212a'
  · rw [hKelvin]
    decide
  · by_cases hUpper : 'A' ≤ c ∧ c ≤ 'Z'
    · exact (lowerChar_upper hUpper).2
    · have hSelf : lowerChar c = c := by rw [lowerChar, if_neg hKelvin, if_neg hUpper]
      rw [hSelf, hSelf]

theorem isSpace_lowerChar {c : Char} (h : isSpace c = false) : isSpace (lowerChar c) = false := by
  by_cases hKelvin : c = '\u212a'
  · rw [hKelvin]
    decide
  · by_cases hUpper : 'A' ≤ c ∧ c ≤ 'Z'
    · exact (lowerChar_upper hUpper).1
    · rwa [lowerChar, if_neg hKelvin, if_neg hUpper]

theorem squeeze_squeeze (gap : Bool) (text : List Char) : squeeze false (squeeze gap text) = squeeze gap text := by
  induction text generalizing gap with
  | nil => rfl
  | cons c rest ih =>
    by_cases hSpace : isSpace c = true
    · rw [squeeze, if_pos hSpace, ih]
    · have hLower : ¬isSpace (lowerChar c) = true := by
        rw [isSpace_lowerChar (eq_false_of_ne_true hSpace)]
        exact Bool.false_ne_true
      cases gap with
      | true =>
        rw [squeeze, if_neg hSpace, if_pos rfl, squeeze, if_pos (by decide), squeeze, if_neg hLower, if_pos rfl,
          lowerChar_lowerChar, ih]
      | false =>
        rw [squeeze, if_neg hSpace, if_neg Bool.false_ne_true, squeeze, if_neg hLower, if_neg Bool.false_ne_true,
          lowerChar_lowerChar, ih]

theorem dropWhile_squeeze {text : List Char} (h : text.dropWhile isSpace = text) :
    (squeeze false text).dropWhile isSpace = squeeze false text := by
  cases text with
  | nil => rfl
  | cons c rest =>
    have hSpace : isSpace c = false := by
      by_contra hNot
      rw [List.dropWhile_cons_of_pos (Bool.of_not_eq_false hNot)] at h
      have hLength := (List.dropWhile_sublist isSpace (l := rest)).length_le
      rw [h, List.length_cons] at hLength
      omega
    rw [squeeze, if_neg (by simp [hSpace]), if_neg Bool.false_ne_true,
      List.dropWhile_cons_of_neg (by simp [isSpace_lowerChar hSpace])]

/-- The normal form of a text, with the lower case of `lowerChar`. -/
def squeezedText (text : String) : String := .ofList (squeeze false (text.toList.dropWhile isSpace))

def asciiPlatform : Platform where
  normalize := squeezedText
  normalize_normalize text := by
    have hHead := dropWhile_squeeze (List.dropWhile_idempotent isSpace text.toList)
    rw [squeezedText, squeezedText, String.toList_ofList, hHead, squeeze_squeeze]
  isHttpUrl text := "https://".toList.isPrefixOf text.toList || "http://".toList.isPrefixOf text.toList

end Ascii

section Runs

def engineRule : RegisteredRule where
  key := "db.engine"
  description := "Database engine"
  allowedScopeKinds := [.project]
  valueKind := .text
  allowedValues := []
  ownerId := "owner"
  version := 1
  status := .active
  wellFormed := by decide

def engineSetup : List AdmissionTurn := [.outside (.scope ⟨"shop", .project, none⟩), .outside (.rule engineRule)]

def engineIs (value : String) : AdmissionTurn :=
  .enter (.create ⟨"ada", "shop", "Engine", value, some "db.engine", some value, true, none⟩)

def supersedeBy (reviewId : String) : AdmissionTurn := .enter (.approve "bob" reviewId (some .supersede))

/-- So many sections of a call; a submission draws the ids that are given. -/
def sections (count index : Nat) (knowledgeId reviewId : String) : List AdmissionTurn :=
  List.replicate count (.advance index ⟨knowledgeId, reviewId, index⟩)

def runAdmissions (turns : List AdmissionTurn) : Admissions :=
  runAll (Crowd.step (admissionRules asciiPlatform)) (Crowd.init .empty) turns

/-- A submission that contradicts an entry is reviewed and supersedes it. -/
def supersedingTurns : List AdmissionTurn :=
  engineSetup ++ engineIs "Postgres" :: sections 6 0 "k1" "r1" ++ engineIs "MySQL" :: sections 6 1 "k2" "r2" ++
    supersedeBy "r2" :: sections 3 2 "" ""

theorem superseding_consistent :
    ((runAdmissions supersedingTurns).store.entries.rows.map fun entry => (entry.id, entry.supersededById)) =
        [("k1", some "k2"), ("k2", none)] ∧
      Consistent asciiPlatform (runAdmissions supersedingTurns).store :=
  ⟨by decide +kernel, knowledge_not_contradictory (GuardedAll.reaches (by decide +kernel))⟩

/-- Two submissions read the entries before either is admitted. -/
def simultaneousTurns : List AdmissionTurn :=
  engineSetup ++ [engineIs "Postgres", engineIs "MySQL"] ++ sections 2 0 "k1" "" ++ sections 2 1 "k2" "" ++
    sections 2 0 "" "" ++ sections 2 1 "" ""

/-- The review of the third submission names the first of two entries that agree. -/
def agreeingTurns : List AdmissionTurn :=
  engineSetup ++ engineIs "Postgres" :: sections 6 0 "k1" "r1" ++ engineIs "postgres " :: sections 6 1 "k2" "r2" ++
    engineIs "MySQL" :: sections 6 2 "k3" "r3" ++ supersedeBy "r3" :: sections 3 3 "" ""

/-- Two reviews of one entry are approved at the same time, and each supersedes it. -/
def twofoldTurns : List AdmissionTurn :=
  engineSetup ++ engineIs "Postgres" :: sections 6 0 "k1" "r1" ++ engineIs "MySQL" :: sections 6 1 "k2" "r2" ++
    engineIs "Oracle" :: sections 6 2 "k3" "r3" ++ [supersedeBy "r2", supersedeBy "r3"] ++ sections 2 3 "" "" ++
    sections 2 4 "" "" ++ sections 1 3 "" "" ++ sections 1 4 "" ""

theorem contradictory_knowledge_admitted :
    ¬Consistent asciiPlatform (runAdmissions simultaneousTurns).store ∧
      ¬Consistent asciiPlatform (runAdmissions agreeingTurns).store ∧
      ∃ left ∈ (runAdmissions twofoldTurns).store.entries.rows,
        ∃ right ∈ (runAdmissions twofoldTurns).store.entries.rows,
          left.overrideOfId = some "k1" ∧ right.overrideOfId = some "k1" ∧ left ≠ right := by
  decide +kernel

end Runs

end CommandConsole.Governance
