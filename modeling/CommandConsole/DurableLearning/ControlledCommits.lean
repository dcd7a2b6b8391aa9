import CommandConsole.DurableLearning.ControlledWriter

/-! # What the controlled writer commits

A record that a commit writes is made of the commit's own admission request. Of several commits that
hold one registry version, each went past the version check while the others were not there.
-/
namespace CommandConsole.DurableLearning
open Library
open CommandConsole.Learning (KnowledgeScopeReference)
open CommandConsole.Knowledge
set_option autoImplicit false

section Statement

/-- The parts of a stored record are those of the request, and the request passed every check. -/
structure AsEvaluated (request : DurableLearningGateRequest) (content : String)
    (classification : KnowledgeClassification) (scope : Option GateScope) (provenance : ClassificationProvenance) :
    Prop where
  content : content = request.candidate.content
  classification : classification = request.candidate.classification
  scope : scope = request.scope.scope
  provenance : provenance = request.candidate.provenance
  checked : ∀ check ∈ checksOf request, check.status = .pass

/-- The commit created the record: it wrote it, or it answers that it did. -/
def CommitCall.Created (call : CommitCall) (record : RegistryRecord) : Prop :=
  call.written = some record ∨
    ∃ result, call.stage = .ended (some result) ∧ result.persistenceEffect = .created ∧
      result.admission.bind RegistryAdmissionResult.knowledgeRecord = some record

/-- The commit wrote a record, or it answers that it did. -/
def CommitCall.succeeded (call : CommitCall) : Bool :=
  call.written.isSome ||
    match call.stage with
    | .ended (some result) => decide (result.persistenceEffect = .created)
    | _ => false

/-- The commit is past its version check and has not ended. -/
def CommitStage.passed : CommitStage → Bool
  | .starting | .awaitingVersion | .ended _ => false
  | _ => true

/-- The registry version of a commit that succeeded, or that is past its version check. -/
def CommitCall.holds (call : CommitCall) : Option String :=
  if call.succeeded || call.stage.passed then call.version? else none

/-- A commit that is about to be admitted finds no admission of its candidate in flight. -/
def AdmitsAlone (turn : CrowdTurn CommitInput CommitTurn Empty) (crowd : Crowd CommitCall RegistryWorld) : Prop :=
  match turn with
  | .advance index _ => ∀ call ∈ crowd.calls[index]?, call.stage = .admitting →
      crowd.store.inFlightAdmissions call.candidateId = none
  | _ => True

/-- A commit goes past its version check only while no other commit holds that version. -/
def VersionFree (turn : CrowdTurn CommitInput CommitTurn Empty) (crowd : Crowd CommitCall RegistryWorld) : Prop :=
  match turn with
  | .advance index turn => ∀ call ∈ crowd.calls[index]?, call.stage = .awaitingVersion →
      ∀ version ∈ turn.version, call.version? = some version →
        ∀ (i : Nat) (other : CommitCall), i ≠ index → crowd.calls[i]? = some other → other.holds ≠ some version
  | _ => True

/-- The admission request is about the content, the provenance and the details of scope that were evaluated. -/
structure RegistryAdmission.Agrees (admission : RegistryAdmission) (request : DurableLearningGateRequest) : Prop where
  content : admission.request.candidate.content = request.candidate.content
  provenance : admission.request.candidate.provenance = request.candidate.provenance
  scopeDetails : request.scope.scope.map GateScope.details = some admission.scopeDetails

/-- The admission service takes the request. -/
def RegistryAdmission.Admissible (admission : RegistryAdmission) : Prop :=
  (verifyAdmission admission.request).isOk

end Statement

section Calls

variable {localeCompare : Text → Text → Int} {ids : KnowledgeIds} {turn : CommitTurn} {call next : CommitCall}
  {world after : RegistryWorld}

/-- A record made of the commit's own admission request, which its authorization covers. -/
def CommitCall.MadeOwn (localeCompare : Text → Text → Int) (ids : KnowledgeIds) (call : CommitCall)
    (record : RegistryRecord) : Prop :=
  authorizationIsBound localeCompare call.input = true ∧
    ∃ scope now, verifyAdmission call.input.admission.request = .ok scope ∧ record = newRecord ids call.input scope now

/-- What the commit has done up to its stage. -/
def CommitCall.StageSound (localeCompare : Text → Text → Int) (call : CommitCall) : Prop :=
  match call.stage with
  | .starting => True
  | .awaitingVersion | .admitting => authorizationIsBound localeCompare call.input = true
  | .joined _ => False
  | .finding _ scope | .creating _ scope _ =>
    authorizationIsBound localeCompare call.input = true ∧ verifyAdmission call.input.admission.request = .ok scope
  | .appending _ _ persisted => call.written = some persisted
  | .settling _ outcome | .leaving outcome => ∀ admission ∈ outcome, admission.result.persistenceEffect = .created →
      admission.knowledgeRecord = call.written
  | .ended result => ∀ result' ∈ result, result'.persistenceEffect = .created →
      result'.admission.bind RegistryAdmissionResult.knowledgeRecord = call.written

structure CommitCall.Sound (localeCompare : Text → Text → Int) (ids : KnowledgeIds) (call : CommitCall) : Prop where
  own : ∀ record ∈ call.written, call.MadeOwn localeCompare ids record
  stage : call.StageSound localeCompare

/-- The candidate whose admission the commit runs. -/
def CommitCall.flying (call : CommitCall) : Option String :=
  match call.stage with
  | .finding _ _ | .creating _ _ _ | .appending _ _ _ | .settling _ _ | .leaving _ => some call.candidateId
  | _ => none

theorem CommitCall.flying_eq {candidateId : String} (h : call.flying = some candidateId) :
    candidateId = call.candidateId := by
  unfold CommitCall.flying at h
  split at h <;> cases h <;> rfl

theorem CommitCall.Sound.madeOwn (h : call.Sound localeCompare ids) {record : RegistryRecord}
    (hCreated : call.Created record) : call.MadeOwn localeCompare ids record := by
  rcases hCreated with hWritten | ⟨result, hStage, hEffect, hRecord⟩
  · exact h.own record hWritten
  · have hSound := h.stage
    rw [CommitCall.StageSound, hStage] at hSound
    exact h.own record ((hSound result rfl hEffect).symm.trans hRecord)

/-- A commit that goes on without writing. -/
theorem CommitCall.Sound.goTo (h : call.Sound localeCompare ids) {stage : CommitStage}
    (hStage : (call.goTo stage).StageSound localeCompare) : (call.goTo stage).Sound localeCompare ids :=
  ⟨h.own, hStage⟩

theorem createRecord_sound (h : call.Sound localeCompare ids) {operation : Nat} {scope : KnowledgeScopeReference}
    {now : String} (hBound : authorizationIsBound localeCompare call.input = true)
    (hVerified : verifyAdmission call.input.admission.request = .ok scope) {fault : Fault}
    (hFresh : world.recordsByCandidateId call.candidateId = none) :
    (createRecord ids operation scope now fault call world).1.Sound localeCompare ids := by
  have hOwn : ∀ record ∈ some (newRecord ids call.input scope now), call.MadeOwn localeCompare ids record := by
    rintro record hMem
    cases hMem
    exact ⟨hBound, scope, now, hVerified, rfl⟩
  unfold createRecord
  rw [hFresh]
  cases fault with
  | works => exact ⟨hOwn, rfl⟩
  | fails =>
    refine h.goTo fun admission hMem hEffect => ?_
    cases hMem
    cases hEffect
  | failsAfter =>
    refine ⟨hOwn, fun admission hMem hEffect => ?_⟩
    cases hMem
    cases hEffect

theorem appendEvent_sound (h : call.Sound localeCompare ids) {operation : Nat} {now : String} {persisted : RegistryRecord}
    (hWritten : call.written = some persisted) {fault : Fault} :
    (appendEvent ids operation now persisted fault call world).1.Sound localeCompare ids := by
  have hFailed : ∀ admission ∈ some failedAdmission, admission.result.persistenceEffect = .created →
      admission.knowledgeRecord = call.written := by
    rintro admission hMem hEffect
    cases hMem
    cases hEffect
  cases fault with
  | works =>
    refine h.goTo fun admission hMem _ => ?_
    cases hMem
    exact hWritten.symm
  | fails => exact h.goTo hFailed
  | failsAfter => exact h.goTo hFailed

/-- A turn keeps what the commit has done in order, if its admission is its own and its candidate is
still without a record when it writes. -/
theorem advanceCommit_sound (h : call.Sound localeCompare ids)
    (hAlone : call.stage = .admitting → world.inFlightAdmissions call.candidateId = none)
    (hFresh : ∀ operation scope now, call.stage = .creating operation scope now →
      world.recordsByCandidateId call.candidateId = none) :
    (advanceCommit localeCompare ids turn call world).1.Sound localeCompare ids := by
  have hStage := h.stage
  have hNoEffect : ∀ (result : ControlledRegistryWriteResult), result.persistenceEffect = .none →
      (call.goTo (.ended (some result))).StageSound localeCompare := by
    rintro result hNone result' hMem hEffect
    cases hMem
    rw [hNone] at hEffect
    cases hEffect
  have hQuiet : ∀ (operation : Nat) (admission : RegistryAdmissionResult), admission.result.persistenceEffect = .none →
      (call.goTo (.settling operation (some admission))).StageSound localeCompare := by
    rintro operation admission hNone admission' hMem hEffect
    cases hMem
    rw [hNone] at hEffect
    cases hEffect
  unfold advanceCommit
  unfold CommitCall.StageSound at hStage
  cases hAt : call.stage with
  | starting =>
    dsimp only
    split
    · rename_i hBound
      exact h.goTo hBound
    · exact h.goTo (hNoEffect _ rfl)
  | awaitingVersion =>
    rw [hAt] at hStage
    dsimp only
    split
    · exact h.goTo fun result hMem => nomatch hMem
    · split
      · exact h.goTo hStage
      · exact h.goTo (hNoEffect _ rfl)
  | admitting =>
    rw [hAt] at hStage
    rw [hAlone hAt]
    dsimp only
    split
    · exact h.goTo (hQuiet _ _ rfl)
    · rename_i scope hVerified
      exact h.goTo ⟨hStage, hVerified⟩
  | joined operation =>
    rw [hAt] at hStage
    exact hStage.elim
  | finding operation scope =>
    rw [hAt] at hStage
    dsimp only
    split
    · exact h.goTo (hQuiet _ _ rfl)
    · exact h.goTo hStage
    · exact h.goTo fun admission hMem => nomatch hMem
  | creating operation scope now =>
    rw [hAt] at hStage
    exact createRecord_sound h hStage.1 hStage.2 (hFresh operation scope now hAt)
  | appending operation now persisted =>
    rw [hAt] at hStage
    exact appendEvent_sound h hStage
  | settling operation outcome =>
    rw [hAt] at hStage
    exact h.goTo hStage
  | leaving outcome =>
    rw [hAt] at hStage
    refine h.goTo fun result hMem hEffect => ?_
    obtain ⟨admission, hSome, rfl⟩ := Option.map_eq_some_iff.mp hMem
    exact hStage admission hSome hEffect
  | ended result =>
    exact h

theorem advanceCommit_input :
    (advanceCommit localeCompare ids turn call world).1.input = call.input := by
  unfold advanceCommit createRecord appendEvent
  split <;> (try split) <;> (try split) <;> rfl

/-- Only a commit that creates its record changes the records, and only that of its candidate. -/
theorem advanceCommit_records {candidateId : String}
    (h : call.candidateId ≠ candidateId ∨ ∀ operation scope now, call.stage ≠ .creating operation scope now) :
    (advanceCommit localeCompare ids turn call world).2.recordsByCandidateId candidateId =
      world.recordsByCandidateId candidateId := by
  unfold advanceCommit
  split
  · split <;> rfl
  · split
    · rfl
    · split <;> rfl
  · split
    · rfl
    · split <;> rfl
  · split <;> rfl
  · split <;> rfl
  · rename_i hAt
    have hNe : candidateId ≠ call.candidateId := by
      rcases h with hNe | hNot
      · exact hNe.symm
      · exact absurd hAt (hNot _ _ _)
    unfold createRecord
    split
    · rfl
    · rfl
    · rfl
    · exact Function.update_of_ne hNe _ _
    · exact Function.update_of_ne hNe _ _
  · unfold appendEvent
    split <;> rfl
  · rfl
  · rfl
  · rfl

/-- A commit takes an admission out of flight only at the end of the one that it runs. -/
theorem advanceCommit_flights {candidateId : String} (hFlight : world.inFlightAdmissions candidateId ≠ none)
    (h : call.flying ≠ some candidateId ∨ (advanceCommit localeCompare ids turn call world).1.flying ≠ none) :
    (advanceCommit localeCompare ids turn call world).2.inFlightAdmissions candidateId ≠ none := by
  have hStart : (world.start call.candidateId).inFlightAdmissions candidateId ≠ none := by
    change Function.update world.inFlightAdmissions call.candidateId (some world.operations.length) candidateId ≠ none
    by_cases hSame : candidateId = call.candidateId
    · rw [hSame, Function.update_self]
      exact Option.some_ne_none _
    · rwa [Function.update_of_ne hSame]
  revert h
  unfold advanceCommit
  split
  · split <;> exact fun _ => hFlight
  · split
    · exact fun _ => hFlight
    · split <;> exact fun _ => hFlight
  · split
    · exact fun _ => hFlight
    · split <;> exact fun _ => hStart
  · split <;> exact fun _ => hFlight
  · split <;> exact fun _ => hFlight
  · unfold createRecord
    split <;> exact fun _ => hFlight
  · unfold appendEvent
    split <;> exact fun _ => hFlight
  · exact fun _ => hFlight
  · rename_i outcome hAt
    rintro (hNe | hStill)
    · change Function.update world.inFlightAdmissions call.candidateId none candidateId ≠ none
      rw [CommitCall.flying, hAt] at hNe
      rwa [Function.update_of_ne fun hSame => hNe (congrArg some hSame.symm)]
    · exact absurd rfl hStill
  · exact fun _ => hFlight

/-- A commit that runs an admission has run it before, or has just put it in flight. -/
theorem advanceCommit_flying {candidateId : String}
    (h : (advanceCommit localeCompare ids turn call world).1.flying = some candidateId) :
    candidateId = call.candidateId ∧ (call.flying = some candidateId ∨
      call.stage = .admitting ∧ world.inFlightAdmissions candidateId = none ∧
        (advanceCommit localeCompare ids turn call world).2.inFlightAdmissions candidateId ≠ none) := by
  have hStart : (world.start call.candidateId).inFlightAdmissions call.candidateId ≠ none := by
    change Function.update world.inFlightAdmissions call.candidateId (some world.operations.length) _ ≠ none
    rw [Function.update_self]
    exact Option.some_ne_none _
  have hInput : (advanceCommit localeCompare ids turn call world).1.candidateId = call.candidateId := by
    rw [CommitCall.candidateId, advanceCommit_input]
    rfl
  obtain rfl := (CommitCall.flying_eq h).trans hInput
  refine ⟨rfl, ?_⟩
  revert h
  unfold advanceCommit
  split
  · split <;> exact fun h => nomatch h
  · split
    · exact fun h => nomatch h
    · split <;> exact fun h => nomatch h
  · rename_i hAt
    split
    · exact fun h => nomatch h
    · rename_i hNone
      split <;> exact fun _ => .inr ⟨hAt, hNone, hStart⟩
  · rename_i operation hAt
    split
    · exact fun h => nomatch h
    · exact fun h => .inl h
  all_goals
    rename_i hAt
    refine fun h => .inl ?_
    rw [CommitCall.flying, hAt]
  rw [CommitCall.flying, hAt] at h
  cases h

/-- A commit that is about to write has just found no record of its candidate. -/
theorem advanceCommit_fresh {operation : Nat} {scope : KnowledgeScopeReference} {now : String}
    (h : (advanceCommit localeCompare ids turn call world).1.stage = .creating operation scope now) :
    (advanceCommit localeCompare ids turn call world).2.recordsByCandidateId call.candidateId = none := by
  revert h
  unfold advanceCommit
  split
  · split <;> exact fun h => nomatch h
  · split
    · exact fun h => nomatch h
    · split <;> exact fun h => nomatch h
  · split
    · exact fun h => nomatch h
    · split <;> exact fun h => nomatch h
  · rename_i hAt
    split
    · exact fun h => nomatch h
    · exact fun h => nomatch hAt.symm.trans h
  · split
    · exact fun h => nomatch h
    · rename_i hNone
      exact fun _ => hNone
    · exact fun h => nomatch h
  · unfold createRecord
    split <;> exact fun h => nomatch h
  · unfold appendEvent
    split <;> exact fun h => nomatch h
  · exact fun h => nomatch h
  · exact fun h => nomatch h
  · rename_i hAt
    exact fun h => nomatch hAt.symm.trans h

theorem CommitCall.holds_eq_some {version : String} :
    call.holds = some version ↔ (call.succeeded || call.stage.passed) = true ∧ call.version? = some version := by
  rw [CommitCall.holds, ite_eq_iff]
  simp only [reduceCtorEq, and_false, or_false]

/-- A commit that holds a version has held it before, or goes past its version check now. -/
theorem advanceCommit_holds {version : String}
    (h : (advanceCommit localeCompare ids turn call world).1.holds = some version) :
    call.holds = some version ∨
      call.stage = .awaitingVersion ∧ turn.version = some version ∧ call.version? = some version := by
  rw [CommitCall.holds_eq_some] at h ⊢
  obtain ⟨hPassed, hVersion⟩ := h
  rw [CommitCall.version?, advanceCommit_input] at hVersion
  by_cases hWritten : call.written = none
  · cases hAt : call.stage with
    | starting =>
      simp only [advanceCommit, hAt] at hPassed
      split at hPassed <;>
        simp [CommitCall.succeeded, CommitCall.goTo, CommitStage.passed, authorizationInvalid, hWritten] at hPassed
    | awaitingVersion =>
      simp only [advanceCommit, hAt] at hPassed
      split at hPassed
      · simp [CommitCall.succeeded, CommitCall.goTo, CommitStage.passed, hWritten] at hPassed
      · rename_i other hTurn
        split at hPassed
        · rename_i hSame
          exact .inr ⟨rfl, hTurn.trans (hSame.symm.trans hVersion), hVersion⟩
        · simp [CommitCall.succeeded, CommitCall.goTo, CommitStage.passed, versionChanged, hWritten] at hPassed
    | ended result =>
      simp only [advanceCommit, hAt] at hPassed
      exact .inl ⟨hPassed, hVersion⟩
    | _ => exact .inl ⟨Bool.or_true _, hVersion⟩
  · refine .inl ⟨?_, hVersion⟩
    rw [CommitCall.succeeded, Option.isSome_iff_ne_none.mpr hWritten, Bool.true_or, Bool.true_or]

end Calls

section Runs

variable {localeCompare : Text → Text → Int} {ids : KnowledgeIds} {records : String → Option RegistryRecord}
  {crowd : Crowd CommitCall RegistryWorld}

structure SoundCommits (localeCompare : Text → Text → Int) (ids : KnowledgeIds) (crowd : Crowd CommitCall RegistryWorld) :
    Prop where
  own : ∀ call ∈ crowd.calls, call.Sound localeCompare ids
  flights : ∀ call ∈ crowd.calls, ∀ candidateId, call.flying = some candidateId →
    crowd.store.inFlightAdmissions candidateId ≠ none
  alone : Crowd.Exclusive CommitCall.flying crowd.calls
  fresh : ∀ call ∈ crowd.calls, ∀ operation scope now, call.stage = .creating operation scope now →
    crowd.store.recordsByCandidateId call.candidateId = none

theorem soundCommits_init : SoundCommits localeCompare ids (Crowd.init (RegistryWorld.holding records)) where
  own _ hMem := nomatch hMem
  flights _ hMem := nomatch hMem
  alone _ _ _ _ _ hLeft := nomatch hLeft
  fresh _ hMem := nomatch hMem

theorem SoundCommits.enter (h : SoundCommits localeCompare ids crowd) (input : CommitInput) :
    SoundCommits localeCompare ids (Crowd.step (commitRules localeCompare ids) (.enter input) crowd) where
  own := by
    intro call hMem
    rcases List.mem_append.mp hMem with hOld | hNew
    · exact h.own call hOld
    · obtain rfl := List.mem_singleton.mp hNew
      exact ⟨fun _ hMem => (nomatch hMem), trivial⟩
  flights := by
    intro call hMem candidateId hFlying
    rcases List.mem_append.mp hMem with hOld | hNew
    · exact h.flights call hOld candidateId hFlying
    · obtain rfl := List.mem_singleton.mp hNew
      cases hFlying
  alone := h.alone.append rfl
  fresh := by
    intro call hMem operation scope now hAt
    rcases List.mem_append.mp hMem with hOld | hNew
    · exact h.fresh call hOld operation scope now hAt
    · obtain rfl := List.mem_singleton.mp hNew
      cases hAt

theorem SoundCommits.advance (h : SoundCommits localeCompare ids crowd) {index : Nat} {turn : CommitTurn}
    {call : CommitCall} (hCall : crowd.calls[index]? = some call)
    (hAlone : call.stage = .admitting → crowd.store.inFlightAdmissions call.candidateId = none) :
    SoundCommits localeCompare ids (Crowd.step (commitRules localeCompare ids) (.advance index turn) crowd) := by
  have hMem := List.mem_of_getElem? hCall
  have hNext : (advanceCommit localeCompare ids turn call crowd.store).1.candidateId = call.candidateId := by
    rw [CommitCall.candidateId, advanceCommit_input]
    rfl
  -- the others run the admissions of other candidates
  have hApart : ∀ (i : Nat) (other : CommitCall), i ≠ index → crowd.calls[i]? = some other →
      ∀ candidateId, other.flying = some candidateId → call.flying ≠ some candidateId := by
    intro i other hNe hOther candidateId hFlying hMine
    exact hNe (h.alone i index other call candidateId hOther hCall hFlying hMine)
  have hOthers : ∀ {P : CommitCall → Prop}, (∀ (i : Nat) (other : CommitCall), i ≠ index →
      crowd.calls[i]? = some other → P other) → P (advanceCommit localeCompare ids turn call crowd.store).1 →
      ∀ other ∈ crowd.calls.set index (advanceCommit localeCompare ids turn call crowd.store).1, P other := by
    intro P hOther hMine other hMem
    obtain ⟨i, hi⟩ := List.mem_iff_getElem?.mp hMem
    by_cases hSame : i = index
    · rw [hSame, Crowd.getElem?_set_self' hCall] at hi
      cases hi
      exact hMine
    · rw [List.getElem?_set_ne (Ne.symm hSame)] at hi
      exact hOther i other hSame hi
  rw [Crowd.step_advance hCall]
  refine ⟨?_, ?_, ?_, ?_⟩
  · refine hOthers (fun i other _ hOther => h.own other (List.mem_of_getElem? hOther)) ?_
    exact advanceCommit_sound (h.own call hMem) hAlone (h.fresh call hMem)
  · refine hOthers (fun i other hNe hOther candidateId hFlying => ?_) fun candidateId hFlying => ?_
    · exact advanceCommit_flights (h.flights other (List.mem_of_getElem? hOther) candidateId hFlying)
        (.inl (hApart i other hNe hOther candidateId hFlying))
    · obtain ⟨_, hBefore | ⟨_, _, hStarted⟩⟩ := advanceCommit_flying hFlying
      · exact advanceCommit_flights (h.flights call hMem candidateId hBefore)
          (.inr fun hNone => nomatch hNone.symm.trans hFlying)
      · exact hStarted
  · refine h.alone.set hCall fun candidateId hFlying => ?_
    obtain ⟨_, hBefore | ⟨_, hNone, _⟩⟩ := advanceCommit_flying hFlying
    · exact .inl hBefore
    · exact .inr fun i other _ hOther hOther' => h.flights other (List.mem_of_getElem? hOther) candidateId hOther' hNone
  · refine hOthers (fun i other hNe hOther operation scope now hAt => ?_) fun operation scope now hAt => ?_
    · have hFlying : other.flying = some other.candidateId := by rw [CommitCall.flying, hAt]
      refine (advanceCommit_records ?_).trans (h.fresh other (List.mem_of_getElem? hOther) operation scope now hAt)
      by_cases hSame : call.candidateId = other.candidateId
      · refine .inr fun operation' scope' now' hAt' => hApart i other hNe hOther _ hFlying ?_
        rw [CommitCall.flying, hAt', hSame]
      · exact .inl hSame
    · rw [hNext]
      exact advanceCommit_fresh hAt

theorem soundCommits (h : Reaches (Crowd.step (commitRules localeCompare ids)) AdmitsAlone
    (Crowd.init (RegistryWorld.holding records)) crowd) : SoundCommits localeCompare ids crowd := by
  refine h.invariant soundCommits_init fun turn crowd hSound hGuard => ?_
  cases turn with
  | enter input => exact hSound.enter input
  | outside op => exact op.elim
  | advance index turn =>
    cases hCall : crowd.calls[index]? with
    | none =>
      rw [Crowd.step, hCall]
      exact hSound
    | some call => exact hSound.advance hCall (hGuard call hCall)

/-- Of the commits of one registry version, at most one succeeds, if each finds the version free. -/
theorem one_commit_per_version (h : Reaches (Crowd.step (commitRules localeCompare ids)) VersionFree
    (Crowd.init (RegistryWorld.holding records)) crowd) {i j : Nat} {left right : CommitCall} {version : String}
    (hLeft : crowd.calls[i]? = some left) (hRight : crowd.calls[j]? = some right)
    (hSucceeded : left.succeeded = true) (hSucceeded' : right.succeeded = true)
    (hVersion : left.version? = some version) (hVersion' : right.version? = some version) : i = j := by
  have hExclusive : Crowd.Exclusive CommitCall.holds crowd.calls := by
    refine h.invariant (P := fun crowd => Crowd.Exclusive CommitCall.holds crowd.calls)
      (fun _ _ _ _ _ hLeft => nomatch hLeft) fun turn crowd hBefore hGuard => ?_
    cases turn with
    | enter input => exact hBefore.append rfl
    | outside op => exact op.elim
    | advance index turn =>
      cases hCall : crowd.calls[index]? with
      | none =>
        rw [Crowd.step, hCall]
        exact hBefore
      | some call =>
        rw [Crowd.step_advance hCall]
        refine hBefore.set hCall fun version hHolds => ?_
        obtain hHeld | ⟨hAt, hTurn, hMine⟩ := advanceCommit_holds hHolds
        · exact .inl hHeld
        · exact .inr (hGuard call hCall hAt version hTurn hMine)
  have hHolds : left.holds = some version := CommitCall.holds_eq_some.mpr ⟨by rw [hSucceeded, Bool.true_or], hVersion⟩
  have hHolds' : right.holds = some version :=
    CommitCall.holds_eq_some.mpr ⟨by rw [hSucceeded', Bool.true_or], hVersion'⟩
  exact hExclusive i j left right version hLeft hRight hHolds hHolds'

end Runs

section Contents

variable {localeCompare : Text → Text → Int} {ids : KnowledgeIds} {appended : Bool}
  {request gateRequest : DurableLearningGateRequest} {admission : RegistryAdmission}

theorem verifyAdmission_scope {request : KnowledgeAdmissionRequest} {scope : KnowledgeScopeReference}
    (h : verifyAdmission request = .ok scope) : request.scopeResolution.scope = some scope := by
  unfold verifyAdmission at h
  cases hFound : request.scopeResolution.scope with
  | none =>
    rw [hFound] at h
    dsimp only at h
    split_ifs at h
  | some found =>
    rw [hFound] at h
    dsimp only at h
    split_ifs at h
    cases h
    rfl

/-- What the writer compares before it commits under a decision of the gate. -/
theorem bound_evaluated
    (h : authorizationIsBound localeCompare ⟨gateRequest, evaluate localeCompare appended request, admission⟩ = true) :
    (∀ check ∈ checksOf request, check.status = .pass) ∧
      admission.request.candidate.classification = request.candidate.classification ∧
      sameScope admission.scope request.scope.scope = true := by
  unfold authorizationIsBound at h
  split at h
  · cases h
  · rename_i given hGiven
    obtain ⟨hChecked, rfl⟩ := evaluate_authorization hGiven
    simp only [decide_eq_true_eq] at h
    obtain ⟨_, _, _, _, _, _, _, _, _, hClassification, hScope⟩ := h
    exact ⟨hChecked, hClassification, hScope⟩

theorem sameScope_resolved {scope : KnowledgeScopeReference}
    (hResolved : admission.request.scopeResolution.scope = some scope)
    (h : sameScope admission.scope request.scope.scope = true) :
    ∃ found, request.scope.scope = some found ∧ found.reference = scope := by
  have hScope : admission.scope = some ⟨scope, admission.scopeDetails⟩ := by
    rw [RegistryAdmission.scope, hResolved, Option.map_some]
  rw [hScope] at h
  cases hFound : request.scope.scope with
  | none =>
    rw [hFound] at h
    cases h
  | some found =>
    rw [hFound] at h
    exact ⟨found, rfl, (sameScope_iff.mp h).symm⟩

theorem asEvaluated_of_agrees {call : CommitCall}
    (hInput : call.input = ⟨gateRequest, evaluate localeCompare appended request, admission⟩)
    (hAgrees : admission.Agrees request) {stored : RegistryRecord} (h : call.MadeOwn localeCompare ids stored) :
    AsEvaluated request stored.record.content stored.record.classification (some stored.scope)
      stored.record.provenance := by
  obtain ⟨hBound, scope, now, hVerified, rfl⟩ := h
  rw [hInput] at hBound hVerified ⊢
  obtain ⟨hChecked, hClassification, hScope⟩ := bound_evaluated hBound
  obtain ⟨found, hFound, hReference⟩ := sameScope_resolved (verifyAdmission_scope hVerified) hScope
  refine ⟨hAgrees.content, hClassification, ?_, hAgrees.provenance, hChecked⟩
  have hDetails := hAgrees.scopeDetails
  rw [hFound] at hDetails ⊢
  obtain ⟨reference, details⟩ := found
  cases hReference
  cases hDetails
  rfl

theorem alone_advance {start : Crowd CommitCall RegistryWorld} {world : RegistryWorld} {call : CommitCall} (turn : CommitTurn)
    (h : Reaches (Crowd.step (commitRules localeCompare ids)) AdmitsAlone start ⟨world, [call]⟩)
    (hAlone : call.stage = .admitting → world.inFlightAdmissions call.candidateId = none) :
    Reaches (Crowd.step (commitRules localeCompare ids)) AdmitsAlone start
      ⟨(advanceCommit localeCompare ids turn call world).2, [(advanceCommit localeCompare ids turn call world).1]⟩ := by
  have hGuard : AdmitsAlone (.advance 0 turn) ⟨world, [call]⟩ := by
    rintro call' hMem
    cases hMem
    exact hAlone
  exact h.step _ hGuard

/-- A commit alone on an empty registry, under a version that has not changed. -/
theorem commit_alone (ids : KnowledgeIds) {input : CommitInput} (hBound : authorizationIsBound localeCompare input = true)
    {scope : KnowledgeScopeReference} (hVerified : verifyAdmission input.admission.request = .ok scope) (now : String) :
    ∃ crowd : Crowd CommitCall RegistryWorld, Reaches (Crowd.step (commitRules localeCompare ids)) AdmitsAlone
        (Crowd.init (RegistryWorld.holding fun _ => none)) crowd ∧
      ∃ call ∈ crowd.calls, call.input = input ∧ call.written = some (newRecord ids input scope now) := by
  have hGiven : ∃ given, input.decision.commitAuthorization = some given := by
    unfold authorizationIsBound at hBound
    split at hBound
    · cases hBound
    · exact ⟨_, ‹_›⟩
  obtain ⟨given, hGiven⟩ := hGiven
  let empty := RegistryWorld.holding fun _ => none
  let candidateId := input.admission.request.candidate.candidateId
  have hEntered : Reaches (Crowd.step (commitRules localeCompare ids)) AdmitsAlone (Crowd.init empty)
      ⟨empty, [{ input }]⟩ := Reaches.refl.step (CrowdTurn.enter input) trivial
  have hAwaiting := alone_advance {} hEntered fun hStage => by cases hStage
  have hFirst : advanceCommit localeCompare ids {} { input } empty = (⟨input, .awaitingVersion, none⟩, empty) :=
    if_pos hBound
  rw [hFirst] at hAwaiting
  have hAdmitting := alone_advance { version := some given.registryVersion } hAwaiting fun hStage => by cases hStage
  have hSecond : advanceCommit localeCompare ids { version := some given.registryVersion }
      ⟨input, .awaitingVersion, none⟩ empty = (⟨input, .admitting, none⟩, empty) :=
    if_pos (congrArg (Option.map CommitAuthorization.registryVersion) hGiven)
  rw [hSecond] at hAdmitting
  have hFinding := alone_advance {} hAdmitting fun _ => rfl
  have hThird : advanceCommit localeCompare ids {} ⟨input, .admitting, none⟩ empty =
      (⟨input, .finding 0 scope, none⟩, empty.start candidateId) := by
    simp only [advanceCommit, hVerified]
    rfl
  rw [hThird] at hFinding
  have hCreating := alone_advance { now } hFinding fun hStage => by cases hStage
  have hWritten := alone_advance {} hCreating fun hStage => by cases hStage
  exact ⟨_, hWritten, _, List.mem_singleton_self _, rfl, rfl⟩

/-- The controlled writer creates the record that was evaluated, in whichever order the commits run, exactly
if the admission request of a commit agrees with the evaluated request on what the writer does not compare. -/
theorem controlled_contents :
    (∀ records crowd, Reaches (Crowd.step (commitRules localeCompare ids)) AdmitsAlone
        (Crowd.init (RegistryWorld.holding records)) crowd →
      ∀ call ∈ crowd.calls, call.input = ⟨gateRequest, evaluate localeCompare appended request, admission⟩ →
        ∀ stored, call.Created stored → AsEvaluated request stored.record.content stored.record.classification
          (some stored.scope) stored.record.provenance) ↔
      (authorizationIsBound localeCompare ⟨gateRequest, evaluate localeCompare appended request, admission⟩ = true →
        admission.Admissible → admission.Agrees request) := by
  constructor
  · intro h hBound hAdmissible
    obtain ⟨scope, hVerified⟩ : ∃ scope, verifyAdmission admission.request = .ok scope := by
      cases hVerified : verifyAdmission admission.request with
      | error reasonCode =>
        rw [RegistryAdmission.Admissible, hVerified] at hAdmissible
        cases hAdmissible
      | ok scope => exact ⟨scope, rfl⟩
    obtain ⟨crowd, hReached, call, hMem, hInput, hWritten⟩ := commit_alone ids hBound hVerified ""
    have hStored := h _ crowd hReached call hMem hInput _ (.inl hWritten)
    refine ⟨hStored.content, hStored.provenance, ?_⟩
    rw [← hStored.scope]
    rfl
  · intro h records crowd hReached call hMem hInput stored hCreated
    have hOwn := ((soundCommits hReached).own call hMem).madeOwn hCreated
    obtain ⟨hBound, scope, now, hVerified, rfl⟩ := hOwn
    have hAdmissible : admission.Admissible := by
      rw [hInput] at hVerified
      rw [RegistryAdmission.Admissible, hVerified]
      rfl
    exact asEvaluated_of_agrees hInput (h (hInput ▸ hBound) hAdmissible) ⟨hBound, scope, now, hVerified, rfl⟩

end Contents

end CommandConsole.DurableLearning
