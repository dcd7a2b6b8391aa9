import CommandConsole.Governance.KeyHistory
import CommandConsole.Governance.Promotions

/-! # Exclusive decisions

Promotions and changes of semantic keys are found pending before the transaction that decides
them. Two approvals exclude each other by the id of their event, and so do two rejections of a
change; an approval and a rejection do not.
-/
namespace CommandConsole.Governance
open Library
set_option autoImplicit false

section Statement

/-- The decisions on one request that have taken effect, in order. -/
def decisionsOf (id : String) (decisions : List (String × RequestStatus)) : List RequestStatus :=
  (decisions.filter fun decision => decision.1 = id).map Prod.snd

/-- The status of a request is the only decision that has taken effect on it. -/
def Recorded (status : Option RequestStatus) (decisions : List RequestStatus) : Prop :=
  decisions = (status.filter fun decided => decided ≠ .pending).toList

/-- What an approval makes is there once if the request is approved and not otherwise. -/
structure DecidedOnce (status : Option RequestStatus) (decisions : List RequestStatus) (produced : Nat) : Prop where
  recorded : Recorded status decisions
  produced : produced = if status = some .approved then 1 else 0

def DecisionKept (before after : Option RequestStatus) : Prop :=
  ∀ status, status ≠ .pending → before = some status → after = some status

def promotionStatus (promotionId : String) (store : PromotionStore) : Option RequestStatus :=
  (store.promotions.find? promotionId).map KnowledgePromotion.status

/-- The entries that the event of the approval names. -/
def promotedEntries (promotionId : String) (store : PromotionStore) : List KnowledgeEntry :=
  match store.events.find? promotionId with
  | none => []
  | some event => store.entries.rows.filter fun entry => entry.id = event.promotedKnowledgeId

def requestStatus (requestId : String) (store : SemanticKeyStore) : Option RequestStatus :=
  (store.requests.find? requestId).map SemanticKeyChangeRequest.status

def versionsBy (requestId : String) (store : SemanticKeyStore) : List SemanticKeyVersion :=
  store.versions.rows.filter fun row => row.changeRequestId = some requestId

/-- No promotion has been rejected when the transaction of its approval runs. -/
def NotRejected (turn : PromotionTurn) (crowd : Promotions) : Prop :=
  match turn with
  | .advance index _ => ∀ stage ∈ crowd.calls[index]?, match stage with
    | .promoting _ _ promotion _ => promotionStatus promotion.id crowd.store ≠ some .rejected
    | _ => True
  | _ => True

/-- No change has been decided the other way when the transaction of its decision runs. -/
def NotOtherwise (turn : SemanticKeyTurn) (crowd : SemanticKeys) : Prop :=
  match turn with
  | .advance index _ => ∀ stage ∈ crowd.calls[index]?, match stage with
    | .activating _ request _ => requestStatus request.requestId crowd.store ≠ some .rejected
    | .refusing _ _ request => requestStatus request.requestId crowd.store ≠ some .approved
    | _ => True
  | _ => True

/-- What the rule of a key says comes from a version that the request has not made. -/
def RuleOfOthers (requestId : String) (store : SemanticKeyStore) : Prop :=
  ∀ request, store.requests.find? requestId = some request → ∀ rule, store.rules.find? request.key = some rule →
    ∃ row ∈ versionsOf request.key store, row.version = rule.version ∧
      row.toSemanticKeyContent = rule.toSemanticKeyContent ∧ row.status = .registered rule.status ∧
        row.changeRequestId ≠ some requestId

instance (turn : PromotionTurn) (crowd : Promotions) : Decidable (NotRejected turn crowd) :=
  match turn with
  | .advance index _ => by
    unfold NotRejected
    dsimp only
    have (stage : PromotionStage) : Decidable (match stage with
        | .promoting _ _ promotion _ => promotionStatus promotion.id crowd.store ≠ some .rejected
        | _ => True) := by split <;> infer_instance
    infer_instance
  | .enter _ => inferInstanceAs (Decidable True)
  | .outside _ => inferInstanceAs (Decidable True)

instance (turn : SemanticKeyTurn) (crowd : SemanticKeys) : Decidable (NotOtherwise turn crowd) :=
  match turn with
  | .advance index _ => by
    unfold NotOtherwise
    dsimp only
    have (stage : SemanticKeyStage) : Decidable (match stage with
        | .activating _ request _ => requestStatus request.requestId crowd.store ≠ some .rejected
        | .refusing _ _ request => requestStatus request.requestId crowd.store ≠ some .approved
        | _ => True) := by split <;> infer_instance
    infer_instance
  | .enter _ => inferInstanceAs (Decidable True)
  | .outside _ => inferInstanceAs (Decidable True)

end Statement

section Logs

variable {id : String} {status : RequestStatus} {decisions : List (String × RequestStatus)}
  {before after : Option RequestStatus}

theorem decisionsOf_self : decisionsOf id (decisions ++ [(id, status)]) = decisionsOf id decisions ++ [status] := by
  simp [decisionsOf]

theorem decisionsOf_other {other : String} (h : other ≠ id) :
    decisionsOf other (decisions ++ [(id, status)]) = decisionsOf other decisions := by
  simp [decisionsOf, Ne.symm h]

/-- A request that is pending, or not there, has no decisions; when it is decided it has that one. -/
theorem Recorded.decide (h : Recorded before (decisionsOf id decisions)) (hOpen : ∀ decided ∈ before, decided = .pending)
    (hStatus : status ≠ .pending) : Recorded (some status) (decisionsOf id (decisions ++ [(id, status)])) := by
  have hNone : before.filter (fun decided => decided ≠ .pending) = none := by
    refine Option.filter_eq_none_iff.mpr fun decided hDecided => ?_
    simp [hOpen decided hDecided]
  rw [Recorded, hNone] at h
  rw [Recorded, decisionsOf_self, h, Option.filter_some_pos (by simpa using hStatus)]
  rfl

theorem Recorded.kept {earlier later : List RequestStatus} (h : Recorded before earlier) (h' : Recorded after later)
    (hPrefix : earlier <+: later) : DecisionKept before after := by
  rintro status hStatus rfl
  rw [Recorded, Option.filter_some_pos (by simpa using hStatus)] at h
  rw [h, h'] at hPrefix
  cases after with
  | none => cases List.prefix_nil.mp hPrefix
  | some last =>
    by_cases hLast : last = .pending
    · rw [hLast] at hPrefix
      cases List.prefix_nil.mp hPrefix
    · rw [Option.filter_some_pos (by simpa using hLast)] at hPrefix
      obtain ⟨rest, hRest⟩ := hPrefix
      rw [(List.cons.inj hRest).1]

theorem pending_of_ne (hThere : before ≠ none) (hApproved : before ≠ some .approved)
    (hRejected : before ≠ some .rejected) : before = some .pending := by
  match before with
  | none => exact absurd rfl hThere
  | some .pending => rfl
  | some .approved => exact absurd rfl hApproved
  | some .rejected => exact absurd rfl hRejected

theorem decisionsOf_grow {later : List (String × RequestStatus)} (h : decisions <+: later) :
    decisionsOf id decisions <+: decisionsOf id later :=
  (h.filter _).map _

end Logs

section Promotions

variable {store next before after : PromotionStore} {promotionId : String}

structure SoundPromotions (store : PromotionStore) : Prop where
  recorded : ∀ id, Recorded (promotionStatus id store) (decisionsOf id store.decisions)
  events : ∀ id, (store.events.find? id).isSome ↔ promotionStatus id store = some .approved
  entries : ∀ id, ∀ event ∈ store.events.find? id, (store.entries.find? event.promotedKnowledgeId).isSome

theorem SoundPromotions.decidedOnce (h : SoundPromotions store) (id : String) :
    DecidedOnce (promotionStatus id store) (decisionsOf id store.decisions) (promotedEntries id store).length := by
  refine ⟨h.recorded id, ?_⟩
  have hEvents := h.events id
  have hEntries := h.entries id
  unfold promotedEntries
  cases hEvent : store.events.find? id with
  | none =>
    rw [hEvent] at hEvents
    exact (if_neg fun hApproved => by simpa using hEvents.mpr hApproved).symm
  | some event =>
    rw [hEvent] at hEvents
    obtain ⟨entry, hEntry⟩ := Option.isSome_iff_exists.mp (hEntries event hEvent)
    dsimp only
    rw [Table.filter_key, hEntry, if_pos (hEvents.mp rfl)]
    rfl

theorem promotionStatus_updatePending (change : KnowledgePromotion → KnowledgePromotion) {status : RequestStatus}
    (hKey : ∀ promotion, (change promotion).id = promotion.id) (hStatus : ∀ promotion, (change promotion).status = status)
    (hPromotions : after.promotions = updatePending promotionId change hKey before.promotions) (id : String) :
    promotionStatus id after = if id = promotionId ∧ promotionStatus id before = some .pending then some status
      else promotionStatus id before := by
  have hFind : after.promotions.find? id = (before.promotions.find? id).map fun row =>
      if decide (row.id = promotionId ∧ row.status = .pending) then change row else row := by
    rw [hPromotions]
    exact Table.find?_update before.promotions _ change hKey (fun _ => rfl) id
  rw [promotionStatus, promotionStatus, hFind]
  cases hRow : before.promotions.find? id with
  | none => simp
  | some row =>
    have hId := Table.find?_key hRow
    subst hId
    by_cases hOpen : row.id = promotionId ∧ row.status = .pending
    · simp [hOpen, hStatus]
    · simp only [Option.map_some, decide_eq_true_iff, if_neg hOpen, Option.some.injEq]

/-- The decisions grow, and promotions stay. -/
structure PromotionsGrow (before after : PromotionStore) : Prop where
  decisions : before.decisions <+: after.decisions
  promotions : ∀ id, promotionStatus id before ≠ none → promotionStatus id after ≠ none

instance : Std.Refl PromotionsGrow := ⟨fun _ => ⟨List.prefix_rfl, fun _ h => h⟩⟩

instance : IsTrans PromotionStore PromotionsGrow :=
  ⟨fun _ _ _ h h' => ⟨h.1.trans h'.1, fun id hSome => h'.2 id (h.2 id hSome)⟩⟩

theorem grow_of_status {status : RequestStatus} (hDecisions : before.decisions <+: after.decisions)
    (hStatus : ∀ id, promotionStatus id after = if id = promotionId ∧ promotionStatus id before = some .pending then
      some status else promotionStatus id before) : PromotionsGrow before after := by
  refine ⟨hDecisions, fun id hSome => ?_⟩
  rw [hStatus]
  split
  · nofun
  · exact hSome

theorem promote_eq_some {promotedId approverId provenanceRecordId : String} {promotion : KnowledgePromotion}
    {source : KnowledgeEntry} (h : promote promotedId approverId provenanceRecordId promotion source store = some next) :
    (store.entries.insert (promotedEntry promotedId approverId promotion source) = some next.entries) ∧
      (store.events.insert (promotionEvent promotedId approverId provenanceRecordId promotion source) =
        some next.events) ∧
      next.decisions = store.decisions ++ [(promotion.id, .approved)] ∧
      ∀ id, promotionStatus id next = if id = promotion.id ∧ promotionStatus id store = some .pending then
        some .approved else promotionStatus id store := by
  obtain ⟨entries, hEntries, h⟩ := Option.bind_eq_some_iff.mp h
  obtain ⟨events, hEvents, h⟩ := Option.bind_eq_some_iff.mp h
  obtain rfl := Option.some.inj h
  exact ⟨hEntries, hEvents, rfl,
    promotionStatus_updatePending (KnowledgePromotion.approvedAs promotedId approverId) (fun _ => rfl) (fun _ => rfl) rfl⟩

theorem promote_sound {promotedId approverId provenanceRecordId : String} {promotion : KnowledgePromotion}
    {source : KnowledgeEntry} (hSound : SoundPromotions store)
    (hThere : promotionStatus promotion.id store ≠ none)
    (hNotRejected : promotionStatus promotion.id store ≠ some .rejected)
    (h : promote promotedId approverId provenanceRecordId promotion source store = some next) :
    SoundPromotions next ∧ PromotionsGrow store next := by
  obtain ⟨hEntries, hEvents, hDecisions, hStatus⟩ := promote_eq_some h
  obtain ⟨hNew, -, -⟩ := Table.insert_eq_some hEvents
  have hNew : store.events.find? promotion.id = none := hNew
  have hPending : promotionStatus promotion.id store = some .pending := by
    refine pending_of_ne hThere (fun hApproved => ?_) hNotRejected
    have hSome := (hSound.events promotion.id).mpr hApproved
    rw [hNew] at hSome
    cases hSome
  refine ⟨⟨fun id => ?_, fun id => ?_, fun id event hEvent => ?_⟩,
    grow_of_status (hDecisions ▸ List.prefix_append _ _) hStatus⟩
  · rw [hStatus, hDecisions]
    by_cases hId : id = promotion.id
    · subst hId
      rw [if_pos ⟨rfl, hPending⟩]
      refine (hSound.recorded _).decide (fun decided hDecided => ?_) nofun
      rw [hPending] at hDecided
      exact (Option.some.inj hDecided).symm
    · rw [if_neg fun hBoth => hId hBoth.1, decisionsOf_other hId]
      exact hSound.recorded id
  · have hFind := Table.find?_insert hEvents id
    rw [hStatus]
    by_cases hId : id = promotion.id
    · subst hId
      rw [if_pos ⟨rfl, hPending⟩, hFind.trans (if_pos rfl)]
      simp
    · rw [if_neg fun hBoth => hId hBoth.1, hFind.trans (if_neg hId)]
      exact hSound.events id
  · rw [Table.find?_insert hEvents] at hEvent
    rw [Table.find?_insert hEntries]
    split
    · rfl
    · next hOther =>
      split at hEvent
      · obtain rfl := Option.some.inj hEvent
        exact absurd rfl hOther
      · exact hSound.entries id event hEvent

theorem rejectPending_sound (approverId rejectionReason promotionId : String) (hSound : SoundPromotions store) :
    SoundPromotions (rejectPending approverId rejectionReason promotionId store) ∧
      PromotionsGrow store (rejectPending approverId rejectionReason promotionId store) := by
  have hStatus : ∀ id, promotionStatus id (rejectPending approverId rejectionReason promotionId store) =
      if id = promotionId ∧ promotionStatus id store = some .pending then some .rejected
        else promotionStatus id store :=
    promotionStatus_updatePending (KnowledgePromotion.rejectedFor rejectionReason approverId) (fun _ => rfl)
      (fun _ => rfl) rfl
  have hTest : ((store.promotions.find? promotionId).any fun promotion => promotion.status = .pending) = true ↔
      promotionStatus promotionId store = some .pending := by
    rw [promotionStatus]
    cases store.promotions.find? promotionId <;> simp
  refine ⟨⟨fun id => ?_, fun id => ?_, hSound.entries⟩, grow_of_status (List.prefix_append _ _) hStatus⟩
  · rw [hStatus]
    by_cases hPending : promotionStatus promotionId store = some .pending
    · have hDecisions : (rejectPending approverId rejectionReason promotionId store).decisions =
          store.decisions ++ [(promotionId, .rejected)] := congrArg (store.decisions ++ ·) (if_pos (hTest.mpr hPending))
      rw [hDecisions]
      by_cases hId : id = promotionId
      · subst hId
        rw [if_pos ⟨rfl, hPending⟩]
        refine (hSound.recorded _).decide (fun decided hDecided => ?_) nofun
        rw [hPending] at hDecided
        exact (Option.some.inj hDecided).symm
      · rw [if_neg fun hBoth => hId hBoth.1, decisionsOf_other hId]
        exact hSound.recorded id
    · have hDecisions : (rejectPending approverId rejectionReason promotionId store).decisions = store.decisions :=
        (congrArg (store.decisions ++ ·) (if_neg fun hAny => hPending (hTest.mp hAny))).trans (List.append_nil _)
      have hUnmet : ¬(id = promotionId ∧ promotionStatus id store = some .pending) :=
        fun hBoth => hPending (hBoth.1 ▸ hBoth.2)
      rw [hDecisions, if_neg hUnmet]
      exact hSound.recorded id
  · have hEvents := hSound.events id
    rw [hStatus]
    split
    · next hBoth =>
      rw [hBoth.2] at hEvents
      exact ⟨fun hSome => absurd (hEvents.mp hSome) nofun, nofun⟩
    · exact hEvents

def PromotionStage.Known (store : PromotionStore) : PromotionStage → Prop
  | .checking _ promotion _ => promotionStatus promotion.id store ≠ none
  | .promoting _ _ promotion _ => promotionStatus promotion.id store ≠ none
  | _ => True

theorem PromotionStage.Known.later {stage : PromotionStage} (h : stage.Known before)
    (hGrow : PromotionsGrow before after) : stage.Known after := by
  cases stage with
  | checking => exact hGrow.promotions _ h
  | promoting => exact hGrow.promotions _ h
  | received => trivial
  | rejecting => trivial
  | ended => trivial

theorem pendingPromotion_ok {promotion : KnowledgePromotion} {source : KnowledgeEntry}
    (h : pendingPromotion promotionId store = .ok (promotion, source)) : promotionStatus promotion.id store ≠ none := by
  unfold pendingPromotion at h
  split at h
  · cases h
  · next found hFound =>
    split at h
    · cases h
    · cases h
      have hFind := (Option.filter_eq_some_iff.mp hFound).1
      rw [promotionStatus, Table.find?_key hFind, hFind]
      nofun

theorem promotion_section {crowd : Promotions} {index : Nat} {input : PromotionInput} {stage : PromotionStage}
    (hGuard : NotRejected (.advance index input) crowd) (hStage : crowd.calls[index]? = some stage)
    (hSound : SoundPromotions crowd.store) (hKnown : stage.Known crowd.store) :
    SoundPromotions (stage.advance input crowd.store).2 ∧ PromotionsGrow crowd.store (stage.advance input crowd.store).2 ∧
      (stage.advance input crowd.store).1.Known (stage.advance input crowd.store).2 := by
  have hSame : PromotionsGrow crowd.store crowd.store := Std.Refl.refl _
  have hMet := hGuard stage hStage
  cases stage with
  | received command =>
    cases command with
    | approve approverId promotionId =>
      dsimp only [PromotionStage.advance]
      cases hRead : pendingPromotion promotionId crowd.store with
      | error error => exact ⟨hSound, hSame, trivial⟩
      | ok found => exact ⟨hSound, hSame, pendingPromotion_ok hRead⟩
    | reject approverId promotionId reason =>
      dsimp only [PromotionStage.advance]
      split
      · exact ⟨hSound, hSame, trivial⟩
      · split
        · exact ⟨hSound, hSame, trivial⟩
        · exact ⟨hSound, hSame, trivial⟩
  | checking approverId promotion source =>
    dsimp only [PromotionStage.advance]
    split
    · exact ⟨hSound, hSame, trivial⟩
    · exact ⟨hSound, hSame, hKnown⟩
  | promoting approverId provenanceRecordId promotion source =>
    dsimp only [PromotionStage.advance]
    cases hPromote : promote input.promotedId approverId provenanceRecordId promotion source crowd.store with
    | none => exact ⟨hSound, hSame, trivial⟩
    | some next =>
      obtain ⟨hNext, hGrow⟩ := promote_sound hSound hKnown hMet hPromote
      exact ⟨hNext, hGrow, trivial⟩
  | rejecting approverId rejectionReason promotionId =>
    obtain ⟨hNext, hGrow⟩ := rejectPending_sound approverId rejectionReason promotionId hSound
    exact ⟨hNext, hGrow, trivial⟩
  | ended result => exact ⟨hSound, hSame, trivial⟩

/-- An insert adds at most a pending promotion. -/
theorem insert_sound (inserted : PromotionInsert) (hSound : SoundPromotions store) :
    SoundPromotions (inserted.apply store) ∧ PromotionsGrow store (inserted.apply store) := by
  cases inserted with
  | entry added =>
    refine ⟨⟨hSound.recorded, hSound.events, fun id event hEvent => ?_⟩, List.prefix_rfl, fun _ h => h⟩
    have hOld := hSound.entries id event hEvent
    dsimp only [PromotionInsert.apply]
    cases hInsert : store.entries.insert added with
    | none => exact hOld
    | some entries =>
      rw [Option.getD_some, Table.find?_insert hInsert]
      split
      · rfl
      · exact hOld
  | promotion id sourceKnowledgeId targetScopeId provenanceRecordId requestedById =>
    dsimp only [PromotionInsert.apply]
    cases hInsert : store.promotions.insert
      ⟨id, sourceKnowledgeId, targetScopeId, none, some provenanceRecordId, .pending, requestedById, none, none⟩ with
    | none => exact ⟨hSound, Std.Refl.refl _⟩
    | some promotions =>
      have hNew := (Table.insert_eq_some hInsert).1
      have hNew : promotionStatus id store = none := by
        rw [promotionStatus, hNew]
        rfl
      have hStatus : ∀ other, promotionStatus other { store with promotions } =
          if other = id then some .pending else promotionStatus other store := by
        intro other
        have hFind := Table.find?_insert hInsert other
        rw [promotionStatus, hFind]
        split
        · rfl
        · rfl
      refine ⟨⟨fun other => ?_, fun other => ?_, hSound.entries⟩, List.prefix_rfl, fun other hSome => ?_⟩
      · rw [Option.getD_some, hStatus]
        have hOld := hSound.recorded other
        split
        · next hId =>
          subst hId
          rw [hNew] at hOld
          exact hOld
        · exact hOld
      · rw [Option.getD_some, hStatus]
        have hOld := hSound.events other
        split
        · next hId =>
          subst hId
          rw [hNew] at hOld
          exact ⟨fun hEvent => absurd (hOld.mp hEvent) nofun, nofun⟩
        · exact hOld
      · rw [Option.getD_some, hStatus]
        split
        · nofun
        · exact hSome

theorem soundPromotions_empty : SoundPromotions .empty := by
  refine ⟨fun _ => rfl, fun _ => ⟨nofun, nofun⟩, ?_⟩
  rintro id event ⟨⟩

variable {crowd later : Promotions}

theorem promotions_sound (h : Reaches (Crowd.step promotionRules) NotRejected (Crowd.init .empty) crowd) :
    SoundPromotions crowd.store ∧ ∀ stage ∈ crowd.calls, stage.Known crowd.store := by
  refine Crowd.invariant (P := SoundPromotions) (Q := fun stage store => stage.Known store) (R := PromotionsGrow) h
    soundPromotions_empty (fun _ _ _ => trivial) ?_ (fun inserted _ _ hSound => insert_sound inserted hSound)
      fun _ _ _ hGrow hKnown => hKnown.later hGrow
  intro index input stage crowd hGuard hStage hSound hKnown
  exact promotion_section hGuard hStage hSound hKnown

theorem promotions_grow (h : Reaches (Crowd.step promotionRules) NotRejected (Crowd.init .empty) crowd)
    (hLater : Reaches (Crowd.step promotionRules) NotRejected crowd later) :
    PromotionsGrow crowd.store later.store := by
  refine Crowd.relates_later (R := PromotionsGrow) h hLater ?_
    fun inserted u hRun _ => (insert_sound inserted (promotions_sound hRun).1).2
  intro index input stage u hRun hGuard hStage
  obtain ⟨hSound, hKnown⟩ := promotions_sound hRun
  exact (promotion_section hGuard hStage hSound (hKnown stage (List.mem_of_getElem? hStage))).2.1

theorem promotions_decided (h : Reaches (Crowd.step promotionRules) NotRejected (Crowd.init .empty) crowd)
    (hLater : Reaches (Crowd.step promotionRules) NotRejected crowd later) (promotionId : String) :
    DecidedOnce (promotionStatus promotionId later.store) (decisionsOf promotionId later.store.decisions)
        (promotedEntries promotionId later.store).length ∧
      DecisionKept (promotionStatus promotionId crowd.store) (promotionStatus promotionId later.store) := by
  have hSound := (promotions_sound (h.trans hLater)).1
  refine ⟨hSound.decidedOnce promotionId, ?_⟩
  exact ((promotions_sound h).1.recorded promotionId).kept (hSound.recorded promotionId)
    (decisionsOf_grow (promotions_grow h hLater).decisions)

end Promotions

section Changes

variable {store next before after : SemanticKeyStore} {requestId approverId : String}

structure SoundChanges (store : SemanticKeyStore) : Prop where
  recorded : ∀ id, Recorded (requestStatus id store) (decisionsOf id store.decisions)
  versions : ∀ id, (versionsBy id store).length = if requestStatus id store = some .approved then 1 else 0
  approved : ∀ id, (store.events.find? (.approved id)).isSome ↔ requestStatus id store = some .approved
  rejected : ∀ id, (store.events.find? (.rejected id)).isSome ↔ requestStatus id store = some .rejected

structure ChangesGrow (before after : SemanticKeyStore) : Prop where
  decisions : before.decisions <+: after.decisions
  requests : ∀ id, requestStatus id before ≠ none → requestStatus id after ≠ none

instance : Std.Refl ChangesGrow := ⟨fun _ => ⟨List.prefix_rfl, fun _ h => h⟩⟩

instance : IsTrans SemanticKeyStore ChangesGrow :=
  ⟨fun _ _ _ h h' => ⟨h.1.trans h'.1, fun id hSome => h'.2 id (h.2 id hSome)⟩⟩

theorem requestStatus_decideRequest {status : RequestStatus} {reason : Option String}
    (hRequests : after.requests = decideRequest requestId approverId status reason before.requests)
    (hThere : requestStatus requestId before ≠ none) (id : String) :
    requestStatus id after = if id = requestId then some status else requestStatus id before := by
  have hFind : after.requests.find? id = (before.requests.find? id).map fun row =>
      if decide (row.requestId = requestId) then row.decidedAs approverId status reason else row := by
    rw [hRequests]
    exact Table.find?_update before.requests _ (SemanticKeyChangeRequest.decidedAs approverId status reason)
      (fun _ => rfl) (fun _ => rfl) id
  rw [requestStatus, hFind]
  cases hRow : before.requests.find? id with
  | none =>
    have hOther : id ≠ requestId := by
      rintro rfl
      exact hThere (by rw [requestStatus, hRow]; rfl)
    rw [if_neg hOther, requestStatus, hRow]
    rfl
  | some row =>
    have hId := Table.find?_key hRow
    subst hId
    by_cases hSame : row.requestId = requestId
    · simp [hSame, SemanticKeyChangeRequest.decidedAs]
    · simp [hSame, requestStatus, hRow]

theorem length_versionsBy_supersede (key id : String) (versions : PlainTable SemanticKeyVersion.number) :
    ((supersedeVersions key versions).rows.filter fun row => row.changeRequestId = some id).length =
      (versions.rows.filter fun row => row.changeRequestId = some id).length := by
  have hSame : (fun row : SemanticKeyVersion => decide (row.changeRequestId = some id)) ∘
      (fun row => if row.key = key then row.closed else row) = fun row => decide (row.changeRequestId = some id) := by
    funext row
    dsimp only [Function.comp]
    split
    · unfold SemanticKeyVersion.closed
      split <;> rfl
    · rfl
  rw [rows_supersedeVersions, List.filter_map, hSame, List.length_map]

theorem length_versionsBy_activate {request : SemanticKeyChangeRequest} {current : Option SemanticKeyRule}
    (h : activate approverId request current store = some next) (id : String) :
    (versionsBy id next).length = (versionsBy id store).length + if id = request.requestId then 1 else 0 := by
  obtain ⟨versions, hInsert, rfl, -⟩ := activate_eq_some h
  obtain ⟨-, -, hRows⟩ := Table.insert_eq_some hInsert
  have hEarlier : ((if current.isSome then supersedeVersions request.key store.versions else store.versions).rows.filter
      fun row => row.changeRequestId = some id).length = (versionsBy id store).length := by
    split
    · exact length_versionsBy_supersede request.key id store.versions
    · rfl
  rw [versionsBy, hRows, List.filter_append, List.length_append, hEarlier]
  split
  · next hId => simp [SemanticKeyChangeRequest.nextVersion, hId]
  · next hId => simp [SemanticKeyChangeRequest.nextVersion, Ne.symm hId]

/-- What a decision on a pending request leaves of the log. -/
theorem recorded_decided {status : RequestStatus} (hSound : SoundChanges store)
    (hPending : requestStatus requestId store = some .pending)
    (hDecisions : next.decisions = store.decisions ++ [(requestId, status)])
    (hNext : ∀ id, requestStatus id next = if id = requestId then some status else requestStatus id store)
    (hStatus : status ≠ .pending) (id : String) : Recorded (requestStatus id next) (decisionsOf id next.decisions) := by
  rw [hNext, hDecisions]
  by_cases hId : id = requestId
  · subst hId
    rw [if_pos rfl]
    refine (hSound.recorded _).decide (fun decided hDecided => ?_) hStatus
    rw [hPending] at hDecided
    exact (Option.some.inj hDecided).symm
  · rw [if_neg hId, decisionsOf_other hId]
    exact hSound.recorded id

theorem changesGrow_decided {status : RequestStatus} (hDecisions : next.decisions = store.decisions ++ [(requestId, status)])
    (hNext : ∀ id, requestStatus id next = if id = requestId then some status else requestStatus id store) :
    ChangesGrow store next := by
  refine ⟨hDecisions ▸ List.prefix_append _ _, fun id hSome => ?_⟩
  rw [hNext]
  split
  · nofun
  · exact hSome

theorem activate_changes {request : SemanticKeyChangeRequest} {current : Option SemanticKeyRule}
    (hSound : SoundChanges store) (hThere : requestStatus request.requestId store ≠ none)
    (hNotRejected : requestStatus request.requestId store ≠ some .rejected)
    (h : activate approverId request current store = some next) : SoundChanges next ∧ ChangesGrow store next := by
  obtain ⟨-, -, -, -, hRequests, hEvents, hDecisions⟩ := activate_eq_some h
  have hNew : store.events.find? (.approved request.requestId) = none := (Table.insert_eq_some hEvents).1
  have hNext := requestStatus_decideRequest hRequests hThere
  have hPending : requestStatus request.requestId store = some .pending := by
    refine pending_of_ne hThere (fun hApproved => ?_) hNotRejected
    have hSome := (hSound.approved _).mpr hApproved
    rw [hNew] at hSome
    cases hSome
  refine ⟨⟨recorded_decided hSound hPending hDecisions hNext nofun, fun id => ?_, fun id => ?_, fun id => ?_⟩,
    changesGrow_decided hDecisions hNext⟩
  · rw [length_versionsBy_activate h, hSound.versions, hNext]
    by_cases hId : id = request.requestId
    · subst hId
      simp [hPending]
    · simp [hId]
  · rw [hNext, Table.find?_insert hEvents]
    by_cases hId : id = request.requestId
    · subst hId
      simp [SemanticKeyChangeRequest.approvedEvent]
    · simp [SemanticKeyChangeRequest.approvedEvent, hId, hSound.approved]
  · rw [hNext, Table.find?_insert hEvents]
    have hOld := hSound.rejected id
    by_cases hId : id = request.requestId
    · subst hId
      rw [hPending] at hOld
      simpa [SemanticKeyChangeRequest.approvedEvent] using hOld
    · simpa [SemanticKeyChangeRequest.approvedEvent, hId] using hOld

theorem refuse_changes {request : SemanticKeyChangeRequest} {reason : String} (hSound : SoundChanges store)
    (hThere : requestStatus request.requestId store ≠ none)
    (hNotApproved : requestStatus request.requestId store ≠ some .approved)
    (h : refuse approverId reason request store = some next) : SoundChanges next ∧ ChangesGrow store next := by
  obtain ⟨hRequests, hEvents, -, hVersions, hDecisions⟩ := refuse_eq_some h
  have hNew : store.events.find? (.rejected request.requestId) = none := (Table.insert_eq_some hEvents).1
  have hNext := requestStatus_decideRequest hRequests hThere
  have hPending : requestStatus request.requestId store = some .pending := by
    refine pending_of_ne hThere hNotApproved fun hRejected => ?_
    have hSome := (hSound.rejected _).mpr hRejected
    rw [hNew] at hSome
    cases hSome
  refine ⟨⟨recorded_decided hSound hPending hDecisions hNext nofun, fun id => ?_, fun id => ?_, fun id => ?_⟩,
    changesGrow_decided hDecisions hNext⟩
  · have hSame : versionsBy id next = versionsBy id store := by rw [versionsBy, versionsBy, hVersions]
    rw [hSame, hSound.versions, hNext]
    by_cases hId : id = request.requestId
    · subst hId
      simp [hPending]
    · simp [hId]
  · rw [hNext, Table.find?_insert hEvents]
    have hOld := hSound.approved id
    by_cases hId : id = request.requestId
    · subst hId
      rw [hPending] at hOld
      simpa [SemanticKeyChangeRequest.rejectedEvent] using hOld
    · simpa [SemanticKeyChangeRequest.rejectedEvent, hId] using hOld
  · rw [hNext, Table.find?_insert hEvents]
    by_cases hId : id = request.requestId
    · subst hId
      simp [SemanticKeyChangeRequest.rejectedEvent]
    · simp [SemanticKeyChangeRequest.rejectedEvent, hId, hSound.rejected]

theorem createRequest_changes {proposal : SemanticKeyProposal} (hSound : SoundChanges store)
    (h : createRequest requestId proposal store = some next) : SoundChanges next ∧ ChangesGrow store next := by
  obtain ⟨requests, hRequests, h⟩ := Option.bind_eq_some_iff.mp h
  obtain ⟨events, hEvents, h⟩ := Option.bind_eq_some_iff.mp h
  obtain rfl := Option.some.inj h
  have hNew : requestStatus requestId store = none := by
    have hNone : store.requests.find? requestId = none := (Table.insert_eq_some hRequests).1
    rw [requestStatus, hNone]
    rfl
  have hStatus : ∀ id, requestStatus id { store with requests, events } =
      if id = requestId then some .pending else requestStatus id store := by
    intro id
    have hFind := Table.find?_insert hRequests id
    rw [requestStatus, hFind]
    split
    · next hId => rw [if_pos (show id = requestId from hId)]; rfl
    · next hId => rw [if_neg (show id ≠ requestId from hId)]; rfl
  have hEvent : ∀ eventId, (∀ id, eventId ≠ .proposed id ∧ eventId ≠ .lifecycleProposed id) →
      events.find? eventId = store.events.find? eventId := by
    intro eventId hOther
    rw [Table.find?_insert hEvents, if_neg]
    dsimp only [SemanticKeyProposal.event]
    split
    · exact (hOther requestId).1
    · exact (hOther requestId).2
  refine ⟨⟨fun id => ?_, fun id => ?_, fun id => ?_, fun id => ?_⟩, List.prefix_rfl, fun id hSome => ?_⟩
  · rw [hStatus]
    have hOld := hSound.recorded id
    split
    · next hId =>
      subst hId
      rw [hNew] at hOld
      exact hOld
    · exact hOld
  · rw [hStatus]
    have hOld := hSound.versions id
    split
    · next hId =>
      subst hId
      rw [hNew] at hOld
      exact hOld
    · exact hOld
  · rw [hStatus, hEvent (.approved id) fun _ => ⟨nofun, nofun⟩]
    have hOld := hSound.approved id
    split
    · next hId =>
      subst hId
      rw [hNew] at hOld
      exact ⟨fun hSome => absurd (hOld.mp hSome) nofun, nofun⟩
    · exact hOld
  · rw [hStatus, hEvent (.rejected id) fun _ => ⟨nofun, nofun⟩]
    have hOld := hSound.rejected id
    split
    · next hId =>
      subst hId
      rw [hNew] at hOld
      exact ⟨fun hSome => absurd (hOld.mp hSome) nofun, nofun⟩
    · exact hOld
  · rw [hStatus]
    split
    · nofun
    · exact hSome

def SemanticKeyStage.Found (store : SemanticKeyStore) : SemanticKeyStage → Prop
  | .comparing _ request => requestStatus request.requestId store ≠ none
  | .activating _ request _ => requestStatus request.requestId store ≠ none
  | .refusing _ _ request => requestStatus request.requestId store ≠ none
  | _ => True

theorem SemanticKeyStage.Found.later {stage : SemanticKeyStage} (h : stage.Found before)
    (hGrow : ChangesGrow before after) : stage.Found after := by
  cases stage with
  | comparing => exact hGrow.requests _ h
  | activating => exact hGrow.requests _ h
  | refusing => exact hGrow.requests _ h
  | received => trivial
  | looking => trivial
  | creating => trivial
  | ended => trivial

theorem pendingRequest_found {request : SemanticKeyChangeRequest} (h : pendingRequest requestId store = some request) :
    requestStatus request.requestId store ≠ none := by
  have hFind := (pendingRequest_eq_some h).1
  rw [requestStatus, Table.find?_key hFind, hFind]
  nofun

theorem readCommand_found {command : SemanticKeyCommand} {stage : SemanticKeyStage}
    (h : readCommand command store = .ok stage) : stage.Found store := by
  cases command with
  | propose requesterId input =>
    have h : (proposeChange requesterId input store).map SemanticKeyStage.looking = .ok stage := h
    obtain ⟨proposal, -, rfl⟩ := of_map_eq_ok h
    trivial
  | proposeLifecycle requesterId keyInput operation =>
    have h : (proposeLifecycle requesterId keyInput operation store).map SemanticKeyStage.looking = .ok stage := h
    obtain ⟨proposal, -, rfl⟩ := of_map_eq_ok h
    trivial
  | approve approverId requestId =>
    have h : (readApproval approverId requestId store).map (SemanticKeyStage.comparing approverId) = .ok stage := h
    obtain ⟨request, hRead, rfl⟩ := of_map_eq_ok h
    unfold readApproval at hRead
    split at hRead
    · cases hRead
    · next hFound =>
      split at hRead
      · cases hRead
      · cases hRead
        exact pendingRequest_found hFound
  | reject approverId requestId reason =>
    have h : (readRejection approverId requestId reason store).map
      (SemanticKeyStage.refusing approverId (Execution.trimmed reason)) = .ok stage := h
    obtain ⟨request, hRead, rfl⟩ := of_map_eq_ok h
    unfold readRejection at hRead
    split at hRead
    · cases hRead
    · next hFound =>
      split at hRead
      · cases hRead
      · split at hRead
        · cases hRead
        · cases hRead
          exact pendingRequest_found hFound

theorem change_section {crowd : SemanticKeys} {index : Nat} {newId : String} {stage : SemanticKeyStage}
    (hGuard : NotOtherwise (.advance index newId) crowd) (hStage : crowd.calls[index]? = some stage)
    (hSound : SoundChanges crowd.store) (hFound : stage.Found crowd.store) :
    SoundChanges (stage.advance newId crowd.store).2 ∧ ChangesGrow crowd.store (stage.advance newId crowd.store).2 ∧
      (stage.advance newId crowd.store).1.Found (stage.advance newId crowd.store).2 := by
  have hSame : ChangesGrow crowd.store crowd.store := Std.Refl.refl _
  have hMet := hGuard stage hStage
  have hCommit : ∀ (result : Option SemanticKeyStore) (reply : SemanticKeyReply),
      (∀ next, result = some next → SoundChanges next ∧ ChangesGrow crowd.store next) →
        SoundChanges (committed result reply crowd.store).2 ∧
          ChangesGrow crowd.store (committed result reply crowd.store).2 ∧
            (committed result reply crowd.store).1.Found (committed result reply crowd.store).2 := by
    intro result reply hResult
    cases result with
    | none => exact ⟨hSound, hSame, trivial⟩
    | some next => exact ⟨(hResult next rfl).1, (hResult next rfl).2, trivial⟩
  cases stage with
  | received command =>
    dsimp only [SemanticKeyStage.advance]
    cases hRead : readCommand command crowd.store with
    | error error => exact ⟨hSound, hSame, trivial⟩
    | ok next => exact ⟨hSound, hSame, readCommand_found hRead⟩
  | looking proposal =>
    dsimp only [SemanticKeyStage.advance]
    split
    · exact ⟨hSound, hSame, trivial⟩
    · exact ⟨hSound, hSame, trivial⟩
  | creating proposal => exact hCommit _ _ fun next h => createRequest_changes hSound h
  | comparing approverId request =>
    dsimp only [SemanticKeyStage.advance]
    split
    · exact ⟨hSound, hSame, trivial⟩
    · exact ⟨hSound, hSame, hFound⟩
  | activating approverId request current => exact hCommit _ _ fun next h => activate_changes hSound hFound hMet h
  | refusing approverId reason request => exact hCommit _ _ fun next h => refuse_changes hSound hFound hMet h
  | ended result => exact ⟨hSound, hSame, trivial⟩

theorem soundChanges_migrated (rules : PlainTable SemanticKeyRule.key) : SoundChanges (migrated rules) := by
  refine ⟨fun _ => rfl, fun id => ?_, fun _ => ⟨nofun, nofun⟩, fun _ => ⟨nofun, nofun⟩⟩
  have hNone : versionsBy id (migrated rules) = [] := by
    refine List.filter_eq_nil_iff.mpr fun row hRow => ?_
    obtain ⟨rule, -, rfl⟩ := List.mem_map.mp hRow
    simp
  rw [hNone]
  rfl

variable {rules : PlainTable SemanticKeyRule.key} {crowd later : SemanticKeys}

theorem changes_sound (h : Reaches (Crowd.step semanticKeyRules) NotOtherwise (Crowd.init (migrated rules)) crowd) :
    SoundChanges crowd.store ∧ ∀ stage ∈ crowd.calls, stage.Found crowd.store := by
  refine Crowd.invariant (P := SoundChanges) (Q := fun stage store => stage.Found store) (R := ChangesGrow) h
    (soundChanges_migrated rules) (fun _ _ _ => trivial) ?_ (fun op => nomatch op)
      fun _ _ _ hGrow hFound => hFound.later hGrow
  intro index newId stage crowd hGuard hStage hSound hFound
  exact change_section hGuard hStage hSound hFound

theorem changes_grow (h : Reaches (Crowd.step semanticKeyRules) NotOtherwise (Crowd.init (migrated rules)) crowd)
    (hLater : Reaches (Crowd.step semanticKeyRules) NotOtherwise crowd later) :
    ChangesGrow crowd.store later.store := by
  refine Crowd.relates_later (R := ChangesGrow) h hLater ?_ fun op => nomatch op
  intro index newId stage u hRun hGuard hStage
  obtain ⟨hSound, hFound⟩ := changes_sound hRun
  exact (change_section hGuard hStage hSound (hFound stage (List.mem_of_getElem? hStage))).2.1

/-- The histories say which version a rule comes from. -/
theorem ruleOfOthers (hSound : SoundChanges store) (hHistory : ∀ key, KeyHistory key store)
    (hRejected : requestStatus requestId store = some .rejected) : RuleOfOthers requestId store := by
  intro request hRequest rule hRule
  obtain ⟨row, hRow, hVersion, hContent, -, hStatus⟩ := (hHistory request.key).latest rule hRule
  refine ⟨row, hRow, hVersion, hContent, hStatus, fun hBy => ?_⟩
  have hNone := hSound.versions requestId
  rw [hRejected, if_neg nofun, List.length_eq_zero_iff, versionsBy, List.filter_eq_nil_iff] at hNone
  exact hNone row (mem_versionsOf.mp hRow).1 (decide_eq_true hBy)

theorem changes_decided (h : Reaches (Crowd.step semanticKeyRules) NotOtherwise (Crowd.init (migrated rules)) crowd)
    (hLater : Reaches (Crowd.step semanticKeyRules) NotOtherwise crowd later) (requestId : String) :
    DecidedOnce (requestStatus requestId later.store) (decisionsOf requestId later.store.decisions)
        (versionsBy requestId later.store).length ∧
      DecisionKept (requestStatus requestId crowd.store) (requestStatus requestId later.store) ∧
      (requestStatus requestId later.store = some .rejected → RuleOfOthers requestId later.store) := by
  have hSound := (changes_sound (h.trans hLater)).1
  refine ⟨⟨hSound.recorded requestId, hSound.versions requestId⟩, ?_, ruleOfOthers hSound ?_⟩
  · exact ((changes_sound h).1.recorded requestId).kept (hSound.recorded requestId)
      (decisionsOf_grow (changes_grow h hLater).decisions)
  · exact (run_sound (h.trans hLater)).1.history

end Changes

section Together

variable {promotions lastPromotions : Promotions} {keys lastKeys : SemanticKeys}
  {rules : PlainTable SemanticKeyRule.key}

/-- In the runs in which nothing is decided the other way between a call's look-up and its transaction. -/
theorem knowledge_decisions_exclusive
    (h : Reaches (Crowd.step promotionRules) NotRejected (Crowd.init .empty) promotions)
    (hLater : Reaches (Crowd.step promotionRules) NotRejected promotions lastPromotions)
    (hKeys : Reaches (Crowd.step semanticKeyRules) NotOtherwise (Crowd.init (migrated rules)) keys)
    (hKeysLater : Reaches (Crowd.step semanticKeyRules) NotOtherwise keys lastKeys) :
    (∀ promotionId, DecidedOnce (promotionStatus promotionId lastPromotions.store)
        (decisionsOf promotionId lastPromotions.store.decisions)
        (promotedEntries promotionId lastPromotions.store).length ∧
      DecisionKept (promotionStatus promotionId promotions.store)
        (promotionStatus promotionId lastPromotions.store)) ∧
    ∀ requestId, DecidedOnce (requestStatus requestId lastKeys.store)
        (decisionsOf requestId lastKeys.store.decisions) (versionsBy requestId lastKeys.store).length ∧
      DecisionKept (requestStatus requestId keys.store) (requestStatus requestId lastKeys.store) ∧
      (requestStatus requestId lastKeys.store = some .rejected → RuleOfOthers requestId lastKeys.store) :=
  ⟨promotions_decided h hLater, changes_decided hKeys hKeysLater⟩

end Together

section Examples

def regionEntry : KnowledgeEntry :=
  ⟨"k1", "project", "Region", "eu-west", "deploy.region", "eu-west", true, none, none, "ana"⟩

def trustedAnswers : ProvenanceAnswers := ⟨some "eu-west", false, none, true⟩

def promotionAsked : List PromotionTurn :=
  [.outside (.entry regionEntry), .outside (.promotion "p1" "k1" "program" "prov-1" "ana")]

def approvalTurn (index : Nat) : PromotionTurn := .advance index ⟨"k2", trustedAnswers⟩

def promotionsAfter (turns : List PromotionTurn) : Promotions :=
  runAll (Crowd.step promotionRules) (Crowd.init .empty) turns

/-- An approval, and a rejection that comes too late. -/
def approvedInTurn : List PromotionTurn :=
  promotionAsked ++ [.enter (.approve "bob" "p1"), .enter (.reject "eve" "p1" "no"), approvalTurn 0, approvalTurn 1,
    approvalTurn 0, approvalTurn 0, approvalTurn 1]

/-- A rejection between the checks of an approval and its transaction. -/
def rejectedMeanwhile : List PromotionTurn :=
  promotionAsked ++ [.enter (.approve "bob" "p1"), approvalTurn 0, approvalTurn 0, .enter (.reject "eve" "p1" "no"),
    approvalTurn 1, approvalTurn 1, approvalTurn 0]

def changeAsked : List SemanticKeyTurn :=
  [.enter (.propose "ana" (textKey "deploy.region"))] ++ turnsOf 0 ["", "", "r1"]

def approvedChange : List SemanticKeyTurn :=
  changeAsked ++ [.enter (.approve "bob" "r1")] ++ turnsOf 1 ["", "", ""]

/-- A rejection that has found the change pending before its approval. -/
def rejectedAfterwards : List SemanticKeyTurn :=
  changeAsked ++ [.enter (.reject "eve" "r1" "no")] ++ turnsOf 1 [""] ++ [.enter (.approve "bob" "r1")] ++
    turnsOf 2 ["", "", ""] ++ turnsOf 1 [""]

theorem knowledge_decisions_exclusive_in_turn :
    (promotionStatus "p1" (promotionsAfter approvedInTurn).store = some .approved ∧
      requestStatus "r1" (keysAfter approvedChange).store = some .approved) ∧
    (∀ promotionId, DecidedOnce (promotionStatus promotionId (promotionsAfter approvedInTurn).store)
        (decisionsOf promotionId (promotionsAfter approvedInTurn).store.decisions)
        (promotedEntries promotionId (promotionsAfter approvedInTurn).store).length ∧
      DecisionKept (promotionStatus promotionId (promotionsAfter approvedInTurn).store)
        (promotionStatus promotionId (promotionsAfter approvedInTurn).store)) ∧
    ∀ requestId, DecidedOnce (requestStatus requestId (keysAfter approvedChange).store)
        (decisionsOf requestId (keysAfter approvedChange).store.decisions)
        (versionsBy requestId (keysAfter approvedChange).store).length ∧
      DecisionKept (requestStatus requestId (keysAfter approvedChange).store)
        (requestStatus requestId (keysAfter approvedChange).store) ∧
      (requestStatus requestId (keysAfter approvedChange).store = some .rejected →
        RuleOfOthers requestId (keysAfter approvedChange).store) :=
  ⟨by decide +kernel, knowledge_decisions_exclusive (GuardedAll.reaches (by decide +kernel)) .refl
    (GuardedAll.reaches (by decide +kernel)) .refl⟩

theorem decisions_overlap :
    (promotionStatus "p1" (promotionsAfter rejectedMeanwhile).store = some .rejected ∧
      (promotedEntries "p1" (promotionsAfter rejectedMeanwhile).store).map KnowledgeEntry.id = ["k2"]) ∧
    (requestStatus "r1" (keysAfter rejectedAfterwards).store = some .rejected ∧
      (versionsBy "r1" (keysAfter rejectedAfterwards).store).map SemanticKeyVersion.number = [("deploy.region", 1)]) ∧
    decisionsOf "p1" (promotionsAfter rejectedMeanwhile).store.decisions = [.rejected, .approved] ∧
    decisionsOf "r1" (keysAfter rejectedAfterwards).store.decisions = [.approved, .rejected] ∧
    ¬ ∀ promotions lastPromotions keys lastKeys,
      Reaches (Crowd.step promotionRules) (fun _ _ => True) (Crowd.init .empty) promotions →
      Reaches (Crowd.step promotionRules) (fun _ _ => True) promotions lastPromotions →
      Reaches (Crowd.step semanticKeyRules) (fun _ _ => True) (Crowd.init (migrated .empty)) keys →
      Reaches (Crowd.step semanticKeyRules) (fun _ _ => True) keys lastKeys →
      (∀ promotionId, DecidedOnce (promotionStatus promotionId lastPromotions.store)
          (decisionsOf promotionId lastPromotions.store.decisions)
          (promotedEntries promotionId lastPromotions.store).length ∧
        DecisionKept (promotionStatus promotionId promotions.store)
          (promotionStatus promotionId lastPromotions.store)) ∧
      ∀ requestId, DecidedOnce (requestStatus requestId lastKeys.store)
          (decisionsOf requestId lastKeys.store.decisions) (versionsBy requestId lastKeys.store).length ∧
        DecisionKept (requestStatus requestId keys.store) (requestStatus requestId lastKeys.store) ∧
        (requestStatus requestId lastKeys.store = some .rejected → RuleOfOthers requestId lastKeys.store) := by
  have hRejected : promotionStatus "p1" (promotionsAfter rejectedMeanwhile).store = some .rejected := by decide +kernel
  have hDecisions : decisionsOf "p1" (promotionsAfter rejectedMeanwhile).store.decisions = [.rejected, .approved] := by
    decide +kernel
  refine ⟨⟨hRejected, by decide +kernel⟩, ⟨by decide +kernel, by decide +kernel⟩, hDecisions, by decide +kernel,
    fun h => ?_⟩
  have hOnce := ((h _ _ _ _ (reaches_runAll (Crowd.step promotionRules) (Crowd.init .empty) rejectedMeanwhile) .refl
    .refl .refl).1 "p1").1.recorded
  have hOnce : Recorded (promotionStatus "p1" (promotionsAfter rejectedMeanwhile).store)
    (decisionsOf "p1" (promotionsAfter rejectedMeanwhile).store.decisions) := hOnce
  rw [hRejected, hDecisions] at hOnce
  cases hOnce

end Examples

end CommandConsole.Governance
