import CommandConsole.Operators.ActionRecords

/-! # One application for each idempotency key

Where no request gets past its checks while an earlier one with its key has acted and not
recorded its response, a key's action is applied again only after its record has expired.
-/
namespace CommandConsole.Operators
open Library
set_option autoImplicit false

namespace ActionEvent

/-- The lock, the checkpoint, the execution or its steps may change. -/
def acts : ActionEvent → Bool
  | .locked | .transition _ | .resumed _ | .recovered => true
  | .recorded _ _ | .replayed _ | .refused => false

/-- `applyOperatorRecoveryActionTx` or `resumeExecution` is called. -/
def applies : ActionEvent → Bool
  | .transition _ | .resumed _ => true
  | .locked | .recovered | .recorded _ _ | .replayed _ | .refused => false

def records : ActionEvent → Bool
  | .recorded _ _ => true
  | _ => false

def expiry? : ActionEvent → Option Int
  | .recorded _ expires => some expires
  | _ => none

end ActionEvent

/-- The record expires at the instant. -/
def ActionEntry.ExpiresBy (entry : ActionEntry) (instant : Int) : Prop :=
  ∃ response expires, entry.event = .recorded response expires ∧ expires ≤ instant

/-- The requests of the key have acted, the latest time after the latest record. -/
def Unrecorded (key : Text) : List ActionEntry → Bool
  | [] => false
  | entry :: log =>
    if entry.key = key ∧ entry.event.acts then true
    else if entry.key = key ∧ entry.event.records then false
    else Unrecorded key log

/-- Of two applications with one key the later comes when a record since the earlier has expired. -/
def AppliedOnce (log : List ActionEntry) : Prop :=
  log.Pairwise fun later earlier => later.key = earlier.key → later.event.applies → earlier.event.applies →
    ∃ record ∈ log, record.key = later.key ∧ earlier.instant ≤ record.instant ∧ record.ExpiresBy later.instant

/-- While a record is not expired, its key's requests receive the recorded response or are refused, and do not act. -/
def Repeats (store : ActionStore) : Prop :=
  ∀ entry ∈ store.log, ∀ response expires, entry.event = .recorded response expires → store.now < expires →
    ∀ (request : ActionRequest) (answers : Answers), request.idempotencyKey = entry.key →
      isBlank request.idempotencyKey = false → isBlank request.planId = false →
        applyOperatorRecoveryAction request answers store =
          if request.buildIdempotencyFingerprint = entry.fingerprint then
            (.answered request (stored response),
              store.purgeExpiredOperatorActionIdempotency.noted request (.replayed (stored response)))
          else (.answered request alreadyBound, store.purgeExpiredOperatorActionIdempotency.noted request .refused)

/-- A request that passes its checks finds no earlier one with its key that has acted and not recorded its response. -/
def Closed (answers : Answers) (store : ActionStore) : Option ActionCall → Prop
  | some (.waiting request) =>
    (admitted request answers store).isOk = true → Unrecorded request.idempotencyKey store.log = false
  | _ => True

instance Closed.decidable (answers : Answers) (store : ActionStore) : ∀ call, Decidable (Closed answers store call)
  | some (.waiting _) => inferInstanceAs (Decidable (_ = true → _ = false))
  | some (.awaiting _ _) | some (.answered _ _) | some (.interrupted _) | none => inferInstanceAs (Decidable True)

def Orderly (turn : CrowdTurn ActionRequest SectionInput Nat) (crowd : Crowd ActionCall ActionStore) : Prop :=
  match turn with
  | .advance index (.answers answers) => Closed answers crowd.store crowd.calls[index]?
  | _ => True

instance Orderly.decidable : ∀ turn crowd, Decidable (Orderly turn crowd)
  | .advance index (.answers answers), crowd =>
    inferInstanceAs (Decidable (Closed answers crowd.store crowd.calls[index]?))
  | .advance _ (.settled _ _), _ | .enter _, _ | .outside _, _ => inferInstanceAs (Decidable True)

namespace ActionStore

structure Sound (store : ActionStore) : Prop where
  past : ∀ entry ∈ store.log, entry.instant ≤ store.now
  held : ∀ entry ∈ store.log, ∀ response expires, entry.event = .recorded response expires → store.now < expires →
    ∃ record, store.records entry.key = some record ∧ record.requestFingerprint = entry.fingerprint ∧
      record.responsePayload = Value.text response ∧ record.expiresAtMs = expires
  acting : ∀ key, Unrecorded key store.log = true → store.records key = none
  ordered : store.log.Pairwise fun later earlier => earlier.instant ≤ later.instant
  once : AppliedOnce store.log

/-- A record since each application with the key has expired. -/
def Lapsed (store : ActionStore) (key : Text) : Prop :=
  ∀ entry ∈ store.log, entry.key = key → entry.event.applies →
    ∃ record ∈ store.log, record.key = key ∧ entry.instant ≤ record.instant ∧ record.ExpiresBy store.now

variable {store : ActionStore} {request : ActionRequest} {event : ActionEvent} {key : Text}

theorem sound_empty (now : Int) : (empty now).Sound :=
  ⟨nofun, nofun, fun _ => nofun, .nil, .nil⟩

theorem Sound.tick (h : store.Sound) (ms : Nat) : ({ store with now := store.now + ms } : ActionStore).Sound where
  past entry hMem := by
    have hPast := h.past entry hMem
    change entry.instant ≤ store.now + ms
    omega
  held entry hMem response expires hEvent hNow := by
    refine h.held entry hMem response expires hEvent ?_
    change store.now + ms < expires at hNow
    omega
  acting := h.acting
  ordered := h.ordered
  once := h.once

theorem Sound.purge (h : store.Sound) : store.purgeExpiredOperatorActionIdempotency.Sound where
  past := h.past
  held entry hMem response expires hEvent hNow := by
    obtain ⟨record, hRecord, hFingerprint, hPayload, hExpires⟩ := h.held entry hMem response expires hEvent hNow
    refine ⟨record, ?_, hFingerprint, hPayload, hExpires⟩
    change (store.records entry.key).filter _ = some record
    rw [hRecord, Option.filter_some, if_pos]
    rw [hExpires]
    exact decide_eq_true hNow
  acting key hActing := by
    change (store.records key).filter _ = none
    rw [h.acting key hActing, Option.filter_none]
  ordered := h.ordered
  once := h.once

theorem unrecorded_noted_ne {log : List ActionEntry} {entry : ActionEntry} (h : entry.key ≠ key) :
    Unrecorded key (entry :: log) = Unrecorded key log := by
  rw [Unrecorded, if_neg fun hAnd => h hAnd.1, if_neg fun hAnd => h hAnd.1]

theorem unrecorded_noted_idle {log : List ActionEntry} {entry : ActionEntry} (hActs : entry.event.acts = false)
    (hRecords : entry.event.records = false) : Unrecorded key (entry :: log) = Unrecorded key log := by
  rw [Unrecorded, if_neg, if_neg]
  · rintro ⟨-, h⟩
    rw [hRecords] at h
    cases h
  · rintro ⟨-, h⟩
    rw [hActs] at h
    cases h

/-- Between an act of the key and a later moment without an open act lies a record. -/
theorem recorded_since {log : List ActionEntry} (hOrdered : log.Pairwise fun later earlier => earlier.instant ≤ later.instant)
    (hClosed : Unrecorded key log = false) {entry : ActionEntry} (hMem : entry ∈ log) (hKey : entry.key = key)
    (hActs : entry.event.acts = true) :
    ∃ record ∈ log, record.key = key ∧ record.event.records = true ∧ entry.instant ≤ record.instant := by
  induction log with
  | nil => cases hMem
  | cons head log ih =>
    obtain ⟨hHead, hRest⟩ := List.pairwise_cons.mp hOrdered
    rw [Unrecorded] at hClosed
    split at hClosed
    · cases hClosed
    · next hNot =>
      have hOld : entry ∈ log := by
        rcases List.mem_cons.mp hMem with rfl | hOld
        · exact absurd ⟨hKey, hActs⟩ hNot
        · exact hOld
      split at hClosed
      · next hRecord => exact ⟨head, List.mem_cons_self, hRecord.1, hRecord.2, hHead entry hOld⟩
      · obtain ⟨record, hRecord, hSame⟩ := ih hRest hClosed hOld
        exact ⟨record, List.mem_cons_of_mem _ hRecord, hSame⟩

theorem Sound.lapsed (h : store.Sound) (hNone : store.records key = none) (hClosed : Unrecorded key store.log = false) :
    store.Lapsed key := by
  intro entry hMem hKey hApplies
  have hActs : entry.event.acts = true := by
    revert hApplies
    cases entry.event <;> simp [ActionEvent.applies, ActionEvent.acts]
  obtain ⟨record, hRecord, hSame, hRecords, hSince⟩ := recorded_since h.ordered hClosed hMem hKey hActs
  refine ⟨record, hRecord, hSame, hSince, ?_⟩
  cases hEvent : record.event with
  | recorded response expires =>
    refine ⟨response, expires, hEvent, not_lt.mp fun hNow => ?_⟩
    obtain ⟨row, hRow, -⟩ := h.held record hRecord response expires hEvent hNow
    rw [hSame, hNone] at hRow
    cases hRow
  | _ =>
    rw [hEvent] at hRecords
    cases hRecords

theorem appliedOnce_cons {log : List ActionEntry} {entry : ActionEntry} (h : AppliedOnce log)
    (hNew : ∀ earlier ∈ log, entry.key = earlier.key → entry.event.applies → earlier.event.applies →
      ∃ record ∈ log, record.key = entry.key ∧ earlier.instant ≤ record.instant ∧ record.ExpiresBy entry.instant) :
    AppliedOnce (entry :: log) := by
  have hMore : ∀ {later earlier : ActionEntry}, (∃ record ∈ log, record.key = later.key ∧
      earlier.instant ≤ record.instant ∧ record.ExpiresBy later.instant) →
        ∃ record ∈ entry :: log, record.key = later.key ∧ earlier.instant ≤ record.instant ∧
          record.ExpiresBy later.instant := by
    rintro later earlier ⟨record, hRecord, hSame⟩
    exact ⟨record, List.mem_cons_of_mem _ hRecord, hSame⟩
  apply List.Pairwise.cons
  · intro earlier hEarlier hKey hLater hApplies
    exact hMore (hNew earlier hEarlier hKey hLater hApplies)
  · exact h.imp fun hBefore hKey hLater hApplies => hMore (hBefore hKey hLater hApplies)

theorem Sound.noted (h : store.Sound) (hRecords : event.records = false)
    (hActs : event.acts = true → store.records request.idempotencyKey = none)
    (hApplies : event.applies = true → store.Lapsed request.idempotencyKey) : (store.noted request event).Sound where
  past entry hMem := by
    rcases List.mem_cons.mp hMem with rfl | hOld
    · exact le_refl _
    · exact h.past entry hOld
  held entry hMem response expires hEvent hNow := by
    rcases List.mem_cons.mp hMem with rfl | hOld
    · change event = _ at hEvent
      rw [hEvent] at hRecords
      cases hRecords
    · exact h.held entry hOld response expires hEvent hNow
  acting key hActing := by
    change Unrecorded key (_ :: store.log) = true at hActing
    cases hAct : event.acts with
    | true =>
      by_cases hKey : request.idempotencyKey = key
      · rw [← hKey]
        exact hActs hAct
      · rw [unrecorded_noted_ne hKey] at hActing
        exact h.acting key hActing
    | false =>
      rw [unrecorded_noted_idle hAct hRecords] at hActing
      exact h.acting key hActing
  ordered := .cons (fun earlier hEarlier => h.past earlier hEarlier) h.ordered
  once := by
    refine appliedOnce_cons h.once fun earlier hEarlier hKey hLater hOld => ?_
    obtain ⟨record, hRecord, hSame, hSince, hExpired⟩ := hApplies hLater earlier hEarlier hKey.symm hOld
    exact ⟨record, hRecord, hSame, hSince, hExpired⟩

theorem Lapsed.noted (h : store.Lapsed key) (hApplies : event.applies = false) : (store.noted request event).Lapsed key := by
  intro entry hMem hKey hEntry
  rcases List.mem_cons.mp hMem with rfl | hOld
  · change event.applies = true at hEntry
    rw [hApplies] at hEntry
    cases hEntry
  · obtain ⟨record, hRecord, hSame⟩ := h entry hOld hKey hEntry
    exact ⟨record, List.mem_cons_of_mem _ hRecord, hSame⟩

theorem Sound.recorded (h : store.Sound) (hNone : store.records request.idempotencyKey = none) (executionId : Text)
    (response : Value) : (store.storeOperatorActionIdempotency request executionId response).Sound where
  past entry hMem := by
    rcases List.mem_cons.mp hMem with rfl | hOld
    · exact le_refl _
    · exact h.past entry hOld
  held entry hMem other expires hEvent hNow := by
    change store.now < expires at hNow
    change ∃ record, Function.update store.records request.idempotencyKey _ entry.key = some record ∧ _
    rcases List.mem_cons.mp hMem with rfl | hOld
    · cases hEvent
      refine ⟨_, Function.update_self .., ?_⟩
      rw [storedRow, hNone]
      exact ⟨rfl, rfl, rfl⟩
    · obtain ⟨record, hRecord, hSame⟩ := h.held entry hOld other expires hEvent hNow
      have hNe : entry.key ≠ request.idempotencyKey := by
        rintro hKey
        rw [hKey, hNone] at hRecord
        cases hRecord
      rw [Function.update_of_ne hNe]
      exact ⟨record, hRecord, hSame⟩
  acting key hActing := by
    change Unrecorded key (_ :: store.log) = true at hActing
    change Function.update store.records request.idempotencyKey _ key = none
    have hNe : key ≠ request.idempotencyKey := by
      rintro rfl
      rw [Unrecorded, if_neg (fun hAnd => Bool.false_ne_true hAnd.2), if_pos ⟨rfl, rfl⟩] at hActing
      cases hActing
    rw [Function.update_of_ne hNe]
    rw [unrecorded_noted_ne hNe.symm] at hActing
    exact h.acting key hActing
  ordered := .cons (fun earlier hEarlier => h.past earlier hEarlier) h.ordered
  once := appliedOnce_cons h.once fun _ _ _ hLater => (nomatch hLater)

theorem Sound.repeats (h : store.Sound) : Repeats store := by
  intro entry hMem response expires hEvent hNow request answers hKey hNamed hPlan
  obtain ⟨record, hRecord, hFingerprint, hPayload, -⟩ := h.purge.held entry hMem response expires hEvent hNow
  rw [← hKey] at hRecord
  rw [applyOperatorRecoveryAction, admitted, if_neg (hPlan ▸ Bool.false_ne_true),
    if_neg (hNamed ▸ Bool.false_ne_true)]
  simp only [hRecord, hFingerprint, hPayload]
  by_cases hSame : request.buildIdempotencyFingerprint = entry.fingerprint
  · rw [if_neg (not_not.mpr hSame.symm), if_pos hSame, stored]
  · rw [if_pos (Ne.symm hSame), if_neg hSame]

end ActionStore

section Sections

variable {store : ActionStore} {request : ActionRequest} {executionId : Text}

def ActionCall.awaits : ActionCall → Option Text
  | .awaiting request _ => some request.idempotencyKey
  | _ => none

/-- What a section of a request with the key keeps: the store sound, the open acts of the other keys, and its own while
it awaits. -/
structure Keeps (key : Text) (store : ActionStore) (result : ActionCall × ActionStore) : Prop where
  sound : result.2.Sound
  others : ∀ other, other ≠ key → Unrecorded other result.2.log = Unrecorded other store.log
  own : ∀ other ∈ result.1.awaits, other = key ∧ Unrecorded key result.2.log = true

theorem unrecorded_noted_other {event : ActionEvent} {other : Text} (h : other ≠ request.idempotencyKey) :
    Unrecorded other (store.noted request event).log = Unrecorded other store.log :=
  ActionStore.unrecorded_noted_ne (Ne.symm h)

theorem keeps_respond {start : ActionStore} (h : store.Sound) (hNone : store.records request.idempotencyKey = none)
    (hOthers : ∀ other, other ≠ request.idempotencyKey → Unrecorded other store.log = Unrecorded other start.log)
    (response : Value) (committed : Bool) :
    Keeps request.idempotencyKey start (respond request executionId response committed store) := by
  cases committed with
  | true =>
    refine ⟨h.recorded hNone executionId response, fun other hOther => ?_, nofun⟩
    exact (ActionStore.unrecorded_noted_ne (Ne.symm hOther)).trans (hOthers other hOther)
  | false => exact ⟨h, hOthers, nofun⟩

theorem keeps_resumed (h : store.Sound) (hNone : store.records request.idempotencyKey = none)
    (hLapsed : store.Lapsed request.idempotencyKey) (action : ActionName) :
    Keeps request.idempotencyKey store (.awaiting request executionId, store.noted request (.resumed action)) := by
  refine ⟨h.noted rfl (fun _ => hNone) fun _ => hLapsed, fun other hOther => unrecorded_noted_other hOther, ?_⟩
  rintro other hOther
  obtain rfl := Option.some.inj hOther
  exact ⟨rfl, if_pos ⟨rfl, rfl⟩⟩

theorem keeps_applied (h : store.Sound) (hNone : store.records request.idempotencyKey = none)
    (hLapsed : store.Lapsed request.idempotencyKey) (answers : Answers) (surface : RecoverySurface) (action : ActionName) :
    Keeps request.idempotencyKey store (applied request answers surface action executionId store) := by
  have hLocked : (store.noted request .locked).Sound := h.noted rfl (fun _ => hNone) nofun
  have hMoved : ((store.noted request .locked).noted request (.transition action)).Sound :=
    hLocked.noted rfl (fun _ => hNone) fun _ => hLapsed.noted rfl
  have hOthers : ∀ other, other ≠ request.idempotencyKey →
      Unrecorded other ((store.noted request .locked).noted request (.transition action)).log =
        Unrecorded other store.log :=
    fun other hOther => (unrecorded_noted_other hOther).trans (unrecorded_noted_other hOther)
  cases action with
  | approveResume | rejectResume => exact keeps_resumed h hNone hLapsed _
  | modifyResume =>
    rw [applied]
    cases request.updatedInput with
    | none => exact keeps_respond h hNone (fun _ _ => rfl) _ _
    | some value => exact keeps_resumed h hNone hLapsed _
  | cancelExecution =>
    rw [applied]
    cases answers.lock with
    | error refusal => exact keeps_respond h hNone (fun _ _ => rfl) _ _
    | ok =>
      cases answers.transition with
      | error refusal => exact keeps_respond hMoved hNone hOthers _ _
      | ok data => exact keeps_respond hMoved hNone hOthers _ _
  | retryStep =>
    rw [applied]
    cases answers.lock with
    | error refusal => exact keeps_respond h hNone (fun _ _ => rfl) _ _
    | ok =>
      cases answers.transition with
      | error refusal => exact keeps_respond hMoved hNone hOthers _ _
      | ok data =>
        cases answers.planRebuilt with
        | false => exact keeps_respond hMoved hNone hOthers _ _
        | true =>
          refine ⟨hMoved.noted rfl (fun _ => hNone) nofun, fun other hOther => ?_, ?_⟩
          · exact (unrecorded_noted_other hOther).trans (hOthers other hOther)
          · rintro other hOther
            obtain rfl := Option.some.inj hOther
            exact ⟨rfl, if_pos ⟨rfl, rfl⟩⟩

/-- What a section keeps that answers without acting. -/
structure Idles (store : ActionStore) (result : ActionCall × ActionStore) : Prop where
  sound : result.2.Sound
  others : ∀ other, Unrecorded other result.2.log = Unrecorded other store.log
  own : result.1.awaits = none

theorem idles_refused (h : store.Sound) {answers : Answers} {result : ActionCall × ActionStore}
    (hResult : admitted request answers store = .error result) : Idles store result := by
  have hNoted : ∀ event : ActionEvent, event.acts = false → event.applies = false → event.records = false →
      ∀ response, Idles store
        (.answered request response, store.purgeExpiredOperatorActionIdempotency.noted request event) := by
    intro event hActs hApplies hRecords response
    refine ⟨h.purge.noted hRecords ?_ ?_, fun other => ActionStore.unrecorded_noted_idle hActs hRecords, rfl⟩
    · rw [hActs]
      nofun
    · rw [hApplies]
      nofun
  have hAnswered : ∀ response, Idles store (.answered request response, store) :=
    fun response => ⟨h, fun _ => rfl, rfl⟩
  have hPurged : ∀ response, Idles store (.answered request response, store.purgeExpiredOperatorActionIdempotency) :=
    fun response => ⟨h.purge, fun _ => rfl, rfl⟩
  unfold admitted at hResult
  split at hResult
  · cases hResult
    exact hAnswered _
  · split at hResult
    · cases hResult
      exact hAnswered _
    · dsimp only at hResult
      split at hResult
      · split at hResult <;> cases hResult
        · exact hNoted .refused rfl rfl rfl _
        · exact hNoted (.replayed _) rfl rfl rfl _
      · split at hResult
        · cases hResult
          exact hPurged _
        · split at hResult
          · cases hResult
            exact hPurged _
          · split at hResult
            · cases hResult
              exact hPurged _
            · split at hResult <;> cases hResult
              exact hPurged _

theorem records_none_of_admitted {answers : Answers} {found : RecoverySurface × ActionName × Text}
    (h : admitted request answers store = .ok found) :
    store.purgeExpiredOperatorActionIdempotency.records request.idempotencyKey = none := by
  unfold admitted at h
  split at h
  · cases h
  · split at h
    · cases h
    · dsimp only at h
      split at h
      · split at h <;> cases h
      · assumption

theorem keeps_admitted (h : store.Sound) {answers : Answers} {surface : RecoverySurface} {action : ActionName}
    (hAdmitted : admitted request answers store = .ok (surface, action, executionId))
    (hClosed : Unrecorded request.idempotencyKey store.log = false) :
    Keeps request.idempotencyKey store (applyOperatorRecoveryAction request answers store) := by
  have hNone := records_none_of_admitted hAdmitted
  have hKeeps : Keeps request.idempotencyKey store.purgeExpiredOperatorActionIdempotency
      (applied request answers surface action executionId store.purgeExpiredOperatorActionIdempotency) :=
    keeps_applied h.purge hNone (h.purge.lapsed hNone hClosed) answers surface action
  rw [applyOperatorRecoveryAction, hAdmitted]
  exact ⟨hKeeps.sound, hKeeps.others, hKeeps.own⟩

end Sections

section Runs

variable {crowd : Crowd ActionCall ActionStore}

/-- The store is sound, and each request that awaits is the only one of its key, which it has acted for. -/
structure OneAwaits (crowd : Crowd ActionCall ActionStore) : Prop where
  sound : crowd.store.Sound
  acted : ∀ call ∈ crowd.calls, ∀ key ∈ call.awaits, Unrecorded key crowd.store.log = true
  apart : Crowd.Exclusive ActionCall.awaits crowd.calls

theorem OneAwaits.set (h : OneAwaits crowd) {index : Nat} {call : ActionCall} (hCall : crowd.calls[index]? = some call)
    {result : ActionCall × ActionStore} (hSound : result.2.Sound)
    (hOthers : ∀ (i : Nat) (other : ActionCall) (key : Text), i ≠ index → crowd.calls[i]? = some other →
      other.awaits = some key → Unrecorded key result.2.log = true)
    (hOwn : ∀ key, result.1.awaits = some key → Unrecorded key result.2.log = true ∧
      ∀ (i : Nat) (other : ActionCall), i ≠ index → crowd.calls[i]? = some other → other.awaits ≠ some key) :
    OneAwaits { store := result.2, calls := crowd.calls.set index result.1 } where
  sound := hSound
  acted other hMem key hKey := by
    obtain ⟨i, hi⟩ := List.mem_iff_getElem?.mp hMem
    by_cases hIndex : i = index
    · subst hIndex
      rw [Crowd.getElem?_set_self' hCall] at hi
      cases hi
      exact (hOwn key hKey).1
    · rw [List.getElem?_set_ne (Ne.symm hIndex)] at hi
      exact hOthers i other key hIndex hi hKey
  apart := h.apart.set hCall fun key hKey => .inr (hOwn key hKey).2

theorem OneAwaits.keeps (h : OneAwaits crowd) {index : Nat} {call : ActionCall} (hCall : crowd.calls[index]? = some call)
    {key : Text} {result : ActionCall × ActionStore} (hKeeps : Keeps key crowd.store result)
    (hOnly : ∀ (i : Nat) (other : ActionCall), i ≠ index → crowd.calls[i]? = some other → other.awaits ≠ some key) :
    OneAwaits { store := result.2, calls := crowd.calls.set index result.1 } := by
  apply h.set hCall hKeeps.sound
  · rintro i other name hIndex hOther hName
    have hNe : name ≠ key := by
      rintro rfl
      exact hOnly i other hIndex hOther hName
    rw [hKeeps.others name hNe]
    exact h.acted other (List.mem_of_getElem? hOther) name hName
  · rintro name hName
    obtain ⟨rfl, hActed⟩ := hKeeps.own name hName
    exact ⟨hActed, hOnly⟩

theorem OneAwaits.idles (h : OneAwaits crowd) {index : Nat} {call : ActionCall} (hCall : crowd.calls[index]? = some call)
    {result : ActionCall × ActionStore} (hIdles : Idles crowd.store result) :
    OneAwaits { store := result.2, calls := crowd.calls.set index result.1 } := by
  apply h.set hCall hIdles.sound
  · rintro i other key - hOther hKey
    rw [hIdles.others key]
    exact h.acted other (List.mem_of_getElem? hOther) key hKey
  · rintro key hKey
    rw [hIdles.own] at hKey
    cases hKey

theorem OneAwaits.advance (h : OneAwaits crowd) {index : Nat} {input : SectionInput} {call : ActionCall}
    (hCall : crowd.calls[index]? = some call) (hOrderly : Orderly (.advance index input) crowd) :
    OneAwaits { store := (advance input call crowd.store).2
                calls := crowd.calls.set index (advance input call crowd.store).1 } := by
  have hSame : OneAwaits { store := crowd.store, calls := crowd.calls.set index call } := by
    apply @OneAwaits.set crowd h index call hCall (call, crowd.store) h.sound
    · exact fun i other key _ hOther hKey => h.acted other (List.mem_of_getElem? hOther) key hKey
    · refine fun key hKey => ⟨h.acted call (List.mem_of_getElem? hCall) key hKey, fun i other hIndex hOther hOtherKey => ?_⟩
      exact hIndex (h.apart i index other call key hOther hCall hOtherKey hKey)
  cases call with
  | waiting request =>
    cases input with
    | settled result committed => exact hSame
    | answers answers =>
      rw [Orderly, hCall] at hOrderly
      rw [Operators.advance]
      cases hAdmitted : admitted request answers crowd.store with
      | error result =>
        rw [applyOperatorRecoveryAction, hAdmitted]
        exact h.idles hCall (idles_refused h.sound hAdmitted)
      | ok found =>
        obtain ⟨surface, action, executionId⟩ := found
        have hClosed := hOrderly (by rw [hAdmitted]; rfl)
        apply h.keeps hCall (keeps_admitted h.sound hAdmitted hClosed)
        rintro i other - hOther hKey
        rw [h.acted other (List.mem_of_getElem? hOther) _ hKey] at hClosed
        cases hClosed
  | awaiting request executionId =>
    have hActed := h.acted _ (List.mem_of_getElem? hCall) _ rfl
    cases input with
    | answers answers => exact hSame
    | settled result committed =>
      cases result with
      | none =>
        exact @OneAwaits.idles crowd h index _ hCall (.interrupted request, crowd.store) ⟨h.sound, fun _ => rfl, rfl⟩
      | some result =>
        apply h.keeps hCall (keeps_respond h.sound (h.sound.acting _ hActed) (fun _ _ => rfl) _ committed)
        rintro i other hIndex hOther hKey
        exact hIndex (h.apart i index other _ _ hOther hCall hKey rfl)
  | answered request response => exact hSame
  | interrupted request => exact hSame

theorem OneAwaits.step (h : OneAwaits crowd) {turn : CrowdTurn ActionRequest SectionInput Nat}
    (hOrderly : Orderly turn crowd) : OneAwaits (Crowd.step actionRules turn crowd) := by
  cases turn with
  | outside ms => exact ⟨h.sound.tick ms, h.acted, h.apart⟩
  | enter request =>
    refine ⟨h.sound, fun call hMem key hKey => ?_, h.apart.append rfl⟩
    rcases List.mem_append.mp hMem with hOld | hNew
    · exact h.acted call hOld key hKey
    · obtain rfl := List.mem_singleton.mp hNew
      cases hKey
  | advance index input =>
    cases hCall : crowd.calls[index]? with
    | none =>
      rw [Crowd.step, hCall]
      exact h
    | some call =>
      rw [Crowd.step_advance hCall]
      exact h.advance hCall hOrderly

/-- In a run whose requests are orderly, an action is applied once for a key until its record has expired, and repeats
receive the recorded response or are refused. -/
theorem operator_action_idempotency (now : Int) (crowd : Crowd ActionCall ActionStore)
    (hRun : Reaches (Crowd.step actionRules) Orderly (Crowd.init (.empty now)) crowd) :
    AppliedOnce crowd.store.log ∧ Repeats crowd.store := by
  have hSound : OneAwaits crowd :=
    hRun.invariant ⟨ActionStore.sound_empty now, nofun, nofun⟩ fun turn crowd h hOrderly => h.step hOrderly
  exact ⟨hSound.sound.once, hSound.sound.repeats⟩

end Runs

section Replays

variable {store : ActionStore} {request : ActionRequest} {event : ActionEvent} {executionId key payload : Text}
  {log : List ActionEntry} {instant expires : Int}

def ActionEvent.replays : ActionEvent → Bool
  | .replayed _ => true
  | _ => false

/-- By the instant a request of the key has recorded what the payload spells. -/
def RecordedBy (log : List ActionEntry) (key : Text) (instant : Int) (payload : Text) (expires : Int) : Prop :=
  ∃ entry ∈ log, entry.key = key ∧ entry.instant ≤ instant ∧
    ∃ response, entry.event = .recorded response expires ∧ payload = Value.text response

/-- What was replayed, when it had not expired. -/
def Replayable (log : List ActionEntry) (key : Text) (instant : Int) (replayed : Value) : Prop :=
  ∃ payload expires, RecordedBy log key instant payload expires ∧ instant < expires ∧
    replayed = parseJson payload invalidStored

/-- The rows, and the responses that were replayed, go back to recorded ones. -/
structure Backed (store : ActionStore) : Prop where
  rows : ∀ key record, store.records key = some record →
    RecordedBy store.log key store.now record.responsePayload record.expiresAtMs
  replays : ∀ entry ∈ store.log, ∀ replayed, entry.event = .replayed replayed →
    Replayable store.log entry.key entry.instant replayed

theorem RecordedBy.later {log' : List ActionEntry} {instant' : Int} (h : RecordedBy log key instant payload expires)
    (hLog : log ⊆ log') (hInstant : instant ≤ instant') : RecordedBy log' key instant' payload expires := by
  obtain ⟨entry, hMem, hKey, hPast, hEvent⟩ := h
  exact ⟨entry, hLog hMem, hKey, hPast.trans hInstant, hEvent⟩

theorem Replayable.noted {replayed : Value} (h : Replayable log key instant replayed) (entry : ActionEntry) :
    Replayable (entry :: log) key instant replayed := by
  obtain ⟨payload, expires, hRecorded, hFresh⟩ := h
  exact ⟨payload, expires, hRecorded.later (List.subset_cons_self _ _) (le_refl _), hFresh⟩

theorem Backed.noted (h : Backed store) (hReplays : ∀ replayed, event = .replayed replayed →
      Replayable store.log request.idempotencyKey store.now replayed) : Backed (store.noted request event) where
  rows key record hRecord := (h.rows key record hRecord).later (List.subset_cons_self _ _) (le_refl _)
  replays entry hMem replayed hEvent := by
    rcases List.mem_cons.mp hMem with rfl | hOld
    · exact (hReplays replayed hEvent).noted _
    · exact (h.replays entry hOld replayed hEvent).noted _

theorem Backed.idle (h : Backed store) (hOther : event.replays = false) : Backed (store.noted request event) :=
  h.noted fun replayed hEvent => by rw [hEvent] at hOther; cases hOther

theorem Backed.purge (h : Backed store) : Backed store.purgeExpiredOperatorActionIdempotency where
  rows key record hRecord := h.rows key record (Option.filter_eq_some_iff.mp hRecord).1
  replays := h.replays

theorem Backed.respond (h : Backed store) (response : Value) (committed : Bool) :
    Backed (respond request executionId response committed store).2 := by
  cases committed with
  | false => exact h
  | true =>
    refine ⟨fun key record hRecord => ?_, (h.idle rfl).replays⟩
    change Function.update _ _ _ _ = _ at hRecord
    by_cases hKey : key = request.idempotencyKey
    · rw [hKey, Function.update_self] at hRecord
      cases hRecord
      refine ⟨_, List.mem_cons_self, hKey.symm, le_refl _, response, ?_⟩
      unfold ActionStore.storedRow
      split <;> exact ⟨rfl, rfl⟩
    · rw [Function.update_of_ne hKey] at hRecord
      exact (h.rows key record hRecord).later (List.subset_cons_self _ _) (le_refl _)

theorem Backed.applied (h : Backed store) (answers : Answers) (surface : RecoverySurface) (action : ActionName) :
    Backed (applied request answers surface action executionId store).2 := by
  have hTransition {event : ActionEvent} (hOther : event.replays = false) :
      Backed ((store.noted request .locked).noted request event) :=
    @Backed.idle _ request event (@Backed.idle store request .locked h rfl) hOther
  unfold Operators.applied
  split
  · exact h.idle rfl
  · exact h.idle rfl
  · split
    · exact h.respond _ _
    · exact h.idle rfl
  all_goals
    split
    · exact h.respond _ _
    dsimp only
    split
    · exact (hTransition rfl).respond _ _
  · exact (hTransition rfl).respond _ _
  · split
    · exact (hTransition rfl).idle rfl
    · exact (hTransition rfl).respond _ _

theorem Backed.refused (h : Backed store) {answers : Answers} {result : ActionCall × ActionStore}
    (hResult : admitted request answers store = .error result) : Backed result.2 := by
  unfold admitted at hResult
  iterate 2
    split at hResult
    · cases hResult
      exact h
  dsimp only at hResult
  split at hResult
  next record hRecord =>
    split at hResult <;> cases hResult
    · exact h.purge.idle rfl
    · refine h.purge.noted ?_
      rintro replayed ⟨⟩
      exact ⟨_, _, h.purge.rows _ _ hRecord, of_decide_eq_true (Option.filter_eq_some_iff.mp hRecord).2, rfl⟩
  next =>
    iterate 3
      split at hResult
      · cases hResult
        exact h.purge
    split at hResult <;> cases hResult
    exact h.purge

theorem Backed.advance (h : Backed store) (input : SectionInput) (call : ActionCall) :
    Backed (advance input call store).2 := by
  unfold Operators.advance
  split
  next request answers =>
    unfold applyOperatorRecoveryAction
    split
    next result hResult => exact h.refused hResult
    next => exact h.purge.applied _ _ _
  next => exact h.respond _ _
  next => exact h
  next => exact h

/-- However the requests overlap, crash and repeat: what one is given in place of acting was recorded before for its key,
and had not expired. -/
theorem replayed_response_recorded (now : Int) (crowd : Crowd ActionCall ActionStore)
    (hRun : Reaches (Crowd.step actionRules) (fun _ _ => True) (Crowd.init (.empty now)) crowd) :
    Backed crowd.store := by
  refine hRun.invariant (P := fun crowd => Backed crowd.store) ⟨nofun, nofun⟩ fun turn crowd h _ => ?_
  cases turn with
  | enter request => exact h
  | outside ms =>
    refine ⟨fun key record hRecord => (h.rows key record hRecord).later (List.Subset.refl _) ?_, h.replays⟩
    change crowd.store.now ≤ crowd.store.now + ms
    omega
  | advance index input =>
    rw [Crowd.step]
    split
    · exact h
    · exact h.advance input _

end Replays

section SharedKey

open Value

def approveRequest : ActionRequest where
  planId := units "plan_a"
  action := units "approve_resume"
  operatorId := units "operator"
  stepId := none
  reason := []
  updatedInput := none
  idempotencyKey := units "key"

/-- A request about another plan, with the same key. -/
def cancelRequest : ActionRequest :=
  { approveRequest with
    planId := units "plan_b"
    action := units "cancel_execution"
    reason := units "Stop." }

/-- What is answered of an execution that is paused for review. -/
def pausedAnswers : Answers where
  surface := .ok ⟨.object [], units "paused", units "paused_for_review"⟩
  executionId := some (units "execution")
  lock := .ok ()
  transition := .ok (.object [])
  refreshedSurface := .object []
  planRebuilt := true
  committed := true

def runActions (turns : List (CrowdTurn ActionRequest SectionInput Nat)) : Crowd ActionCall ActionStore :=
  runAll (Crowd.step actionRules) (Crowd.init (.empty 0)) turns

/-- A resumption is awaited and recorded, and then asked for again. -/
def repeatedTurns : List (CrowdTurn ActionRequest SectionInput Nat) :=
  [.enter approveRequest, .advance 0 (.answers pausedAnswers), .outside 1000,
    .advance 0 (.settled (some ⟨true, "", [], [], .object []⟩) true), .enter approveRequest,
    .advance 1 (.answers pausedAnswers)]

theorem repeated_applied_once :
    (runActions repeatedTurns).store.log.map (fun entry => entry.event.applies) = [false, false, true] ∧
      AppliedOnce (runActions repeatedTurns).store.log ∧ Repeats (runActions repeatedTurns).store :=
  ⟨by decide +kernel, operator_action_idempotency 0 _ (GuardedAll.reaches (by decide +kernel))⟩

theorem repeated_response_recorded : Backed (runActions repeatedTurns).store :=
  replayed_response_recorded 0 _ (reaches_runAll _ _ _)

/-- The second request is applied while the first one awaits its action. -/
def overlappingTurns : List (CrowdTurn ActionRequest SectionInput Nat) :=
  [.enter approveRequest, .enter cancelRequest, .advance 0 (.answers pausedAnswers), .advance 1 (.answers pausedAnswers)]

theorem overlapping_requests_both_apply :
    ¬∀ (now : Int) (crowd : Crowd ActionCall ActionStore),
      Reaches (Crowd.step actionRules) (fun _ _ => True) (Crowd.init (.empty now)) crowd →
        AppliedOnce crowd.store.log := by
  intro h
  have hOnce := h 0 (runActions overlappingTurns) (reaches_runAll _ _ _)
  have hLater : ∀ record ∈ (runActions overlappingTurns).store.log, ∀ expires ∈ record.event.expiry?, 0 < expires := by
    decide +kernel
  obtain ⟨record, hRecord, -, -, response, expires, hEvent, hExpires⟩ :=
    List.pairwise_iff_getElem.mp hOnce 1 3 (by decide +kernel) (by decide +kernel) (by decide) (by decide +kernel)
      (by decide +kernel) (by decide +kernel)
  have hNow : 0 < expires := hLater record hRecord expires (by rw [hEvent]; rfl)
  exact absurd hExpires (not_le.mpr hNow)

end SharedKey

end CommandConsole.Operators
