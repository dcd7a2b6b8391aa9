import CommandConsole.Learning.DeferredCandidates
import CommandConsole.Library.Slots

/-! # Committed candidates stay committed

What both registries do to the record of an id, what the calls in flight hold, and what a run leaves
unchanged.
-/
namespace CommandConsole.Learning.Deferred
open Library
set_option autoImplicit false

/-- What is stored for a record: all of it, or all but the `createdAt` of the record before it. -/
def persisted (overwrites : Bool) (existing : Option DeferredRecord) (record : DeferredRecord) : DeferredRecord :=
  match overwrites, existing with
  | false, some existing => { record with createdAt := existing.createdAt }
  | _, _ => record

theorem persisted_same (overwrites : Bool) (existing : Option DeferredRecord) (record : DeferredRecord) :
    (persisted overwrites existing record).deferredCandidateId = record.deferredCandidateId ∧
      (persisted overwrites existing record).status = record.status := by
  cases overwrites <;> cases existing <;> exact ⟨rfl, rfl⟩

/-- A registry is a map from ids to records. -/
structure Implements {σ : Type} (registry : Registry σ) (sound : σ → Prop) (view : σ → String → Option DeferredRecord)
    (overwrites : Bool) : Prop where
  start : sound registry.start ∧ ∀ id, view registry.start id = none
  get : ∀ store id, sound store → registry.get id store = some (view store id)
  upsert : ∀ store record, sound store → ∃ later,
    registry.upsert record store = some (persisted overwrites (view store record.deferredCandidateId) record, later) ∧
      sound later ∧ view later = Function.update (view store) record.deferredCandidateId
        (some (persisted overwrites (view store record.deferredCandidateId) record))

theorem inMemory_implements (localeCompare : String → String → Int) :
    Implements (inMemoryRegistry localeCompare) (fun _ => True) (fun records id => InsertionMap.get id records)
      false where
  start := ⟨trivial, fun _ => rfl⟩
  get _ _ _ := rfl
  upsert records record _ := by
    refine ⟨_, congrArg some (Prod.ext ?_ rfl), trivial, ?_⟩
    · rw [InMemory.upsert]
      cases InsertionMap.get record.deferredCandidateId records <;> rfl
    · rw [InMemory.upsert]
      cases InsertionMap.get record.deferredCandidateId records <;> exact InsertionMap.get_set _ _ _

namespace File

variable {hash : EntryHash}

theorem intact_append {entries : List LedgerEntry} {index : Nat} {previousHash : Option String} {entry : LedgerEntry}
    (h : intact hash index previousHash entries) (hSequence : entry.sequence = index + entries.length + 1)
    (hPrevious : entry.previousHash = (entries.getLast?.map LedgerEntry.entryHash).or previousHash)
    (hHash : entry.entryHash = hash entry.record entry.sequence entry.previousHash) :
    intact hash index previousHash (entries ++ [entry]) := by
  induction entries generalizing index previousHash with
  | nil =>
    rw [List.length_nil, Nat.add_zero] at hSequence
    rw [List.getLast?_nil, Option.map_none, Option.none_or] at hPrevious
    simp only [List.nil_append, intact, Bool.and_true, Bool.and_eq_true, beq_iff_eq]
    exact ⟨⟨hSequence, hPrevious⟩, hHash⟩
  | cons head tail ih =>
    rw [intact, Bool.and_eq_true] at h
    rw [List.cons_append, intact, Bool.and_eq_true]
    refine ⟨h.1, ih h.2 ?_ ?_⟩
    · rw [hSequence, List.length_cons]
      omega
    · rw [hPrevious, List.getLast?_cons]
      cases tail.getLast? <;> rfl

theorem readEntries_intact {entries : List LedgerEntry} (h : intact hash 0 none entries) :
    readEntries hash entries = some entries := by
  rw [readEntries, if_pos h]

theorem derive_append (entries : List LedgerEntry) (entry : LedgerEntry) :
    derive (entries ++ [entry]) = InsertionMap.set entry.record.deferredCandidateId entry.record (derive entries) := by
  rw [derive, List.foldl_append]
  rfl

theorem current_eq (record : DeferredRecord) (entries : List LedgerEntry) :
    current record entries = InsertionMap.get record.deferredCandidateId (derive entries) := by
  rw [current]
  obtain rfl | ⟨front, last, rfl⟩ := List.eq_nil_or_concat' entries
  · rfl
  · rw [List.getLast?_concat]
    dsimp only
    split
    · rename_i hSame
      rw [derive_append, hSame, InsertionMap.get_set_self]
    · rfl

end File

theorem file_upsert {hash : File.EntryHash} {file : List LedgerEntry} (record : DeferredRecord)
    (hIntact : File.intact hash 0 none file) : ∃ later, File.upsert hash record file = some (record, later) ∧
      File.intact hash 0 none later ∧
      File.derive later = InsertionMap.set record.deferredCandidateId record (File.derive file) := by
  rw [File.upsert, File.readEntries_intact hIntact, Option.map_some, File.current_eq]
  split
  · rename_i hSame
    exact ⟨file, rfl, hIntact, (InsertionMap.set_of_get hSame).symm⟩
  · refine ⟨_, rfl, File.intact_append hIntact ?_ ?_ rfl, File.derive_append _ _⟩
    · rw [Nat.zero_add]
      rfl
    · rw [Option.or_none]
      rfl

theorem file_implements (hash : File.EntryHash) (localeCompare : String → String → Int) :
    Implements (fileRegistry hash localeCompare) (fun file => File.intact hash 0 none file)
      (fun file id => InsertionMap.get id (File.derive file)) true where
  start := ⟨rfl, fun _ => rfl⟩
  get file id hIntact := by
    change (File.readEntries hash file).map _ = _
    rw [File.readEntries_intact hIntact]
    rfl
  upsert file record hIntact := by
    obtain ⟨later, hUpsert, hLater, hDerive⟩ := file_upsert record hIntact
    refine ⟨later, hUpsert, hLater, ?_⟩
    simp only [hDerive]
    exact InsertionMap.get_set _ _ _

/-- The record that a call has read or made, and is going to store. -/
def CallState.held : CallState → Option DeferredRecord
  | .promoting current => some current
  | .storing record => some record
  | _ => none

def CallState.holds (state : CallState) (id : String) : Bool :=
  state.held.any fun record => record.deferredCandidateId = id

/-- A candidate is deferred only before it is committed (with a registry that overwrites: only once), a
re-evaluation is neither begun nor read while the candidate is committed, and a candidate is committed
only while no other call holds its record. -/
def Calm {σ : Type} (registry : Registry σ) (overwrites : Bool) (turn : LifecycleTurn) (world : LifecycleWorld σ) : Prop :=
  match turn with
  | .defer decision now =>
    let id := (deferredRecord decision now).deferredCandidateId
    isCommitted registry world.registry id = false ∧
      (overwrites = true → recordOf registry world.registry id = none ∧ ∀ call ∈ world.calls, call.state.holds id = false)
  | .reevaluate id _ => isCommitted registry world.registry id = false
  | .advance index _ _ =>
    match world.calls[index]? with
    | some ⟨_, .reading id _⟩ => isCommitted registry world.registry id = false
    | some ⟨_, .storing record⟩ => record.status = .committed →
        ∀ call ∈ world.calls.eraseIdx index, call.state.holds record.deferredCandidateId = false
    | _ => True

instance {σ : Type} (registry : Registry σ) (overwrites : Bool) (turn : LifecycleTurn) (world : LifecycleWorld σ) :
    Decidable (Calm registry overwrites turn world) :=
  match turn with
  | .defer _ _ => inferInstanceAs (Decidable (_ ∧ (_ → _ ∧ _)))
  | .reevaluate _ _ => inferInstanceAs (Decidable (_ = _))
  | .advance index _ _ => by
    unfold Calm
    dsimp only
    split <;> infer_instance

/-- Records stay, keep their `createdAt`, and stay committed. -/
def Stays {σ : Type} (registry : Registry σ) (world later : LifecycleWorld σ) : Prop :=
  ∀ id record, recordOf registry world.registry id = some record →
    ∃ record', recordOf registry later.registry id = some record' ∧ record'.createdAt = record.createdAt ∧
      (record.status = .committed → record'.status = .committed)

instance {σ : Type} (registry : Registry σ) : Std.Refl (Stays registry) :=
  ⟨fun _ _ record h => ⟨record, h, rfl, id⟩⟩

instance {σ : Type} (registry : Registry σ) : IsTrans (LifecycleWorld σ) (Stays registry) where
  trans _ _ _ h h' id record hRecord := by
    obtain ⟨mid, hMid, hCreated, hStatus⟩ := h id record hRecord
    obtain ⟨last, hLast, hCreated', hStatus'⟩ := h' id mid hMid
    exact ⟨last, hLast, hCreated'.trans hCreated, fun hCommitted => hStatus' (hStatus hCommitted)⟩

/-- What holds between the calls and the registry in a calm run. -/
structure Settled {σ : Type} (sound : σ → Prop) (view : σ → String → Option DeferredRecord) (overwrites : Bool)
    (world : LifecycleWorld σ) : Prop where
  sound : sound world.registry
  own : ∀ id record, view world.registry id = some record → record.deferredCandidateId = id
  quiet : ∀ id record, view world.registry id = some record → record.status = .committed →
    ∀ (i : Nat) (call : LifecycleCall), world.calls[i]? = some call → call.state.holds id = false
  begun : ∀ (i : Nat) (call : LifecycleCall), world.calls[i]? = some call →
    (∃ id candidateId, call.state = .reading id candidateId) ∨ (∃ current, call.state = .promoting current) →
    call.beganCommitted = false
  created : overwrites = true → ∀ (i : Nat) (call : LifecycleCall) (held record : DeferredRecord),
    world.calls[i]? = some call → call.state.held = some held →
    view world.registry held.deferredCandidateId = some record → record.createdAt = held.createdAt
  alone : overwrites = true → ∀ (i j : Nat) (call other : LifecycleCall) (id : String),
    world.calls[i]? = some call → world.calls[j]? = some other → call.state.holds id → other.state.holds id →
    view world.registry id = none → i = j

section Step

variable {σ : Type} {registry : Registry σ} {sound : σ → Prop} {view : σ → String → Option DeferredRecord}
  {overwrites : Bool} {world : LifecycleWorld σ}

theorem recordOf_eq (hImplements : Implements registry sound view overwrites) {store : σ} (hSound : sound store)
    (id : String) : recordOf registry store id = view store id := by
  rw [recordOf, hImplements.get store id hSound]
  rfl

theorem not_committed (hImplements : Implements registry sound view overwrites) {store : σ} (hSound : sound store)
    {id : String} {record : DeferredRecord} (h : isCommitted registry store id = false)
    (hRecord : view store id = some record) : record.status ≠ .committed := by
  rw [isCommitted, recordOf_eq hImplements hSound, hRecord, Option.any_some, decide_eq_false_iff_not] at h
  exact h

theorem holds_of_held {state : CallState} {held : DeferredRecord} (h : state.held = some held) {id : String} :
    state.holds id ↔ held.deferredCandidateId = id := by
  rw [CallState.holds, h, Option.any_some, decide_eq_true_eq]

/-- A new call that holds nothing, or the record of a candidate that is neither committed nor held. -/
theorem settled_append (h : Settled sound view overwrites world) {new : LifecycleCall}
    (hBegun : (∃ id candidateId, new.state = .reading id candidateId) ∨ (∃ current, new.state = .promoting current) →
      new.beganCommitted = false)
    (hQuiet : ∀ id record, new.state.holds id → view world.registry id = some record → record.status ≠ .committed)
    (hFree : overwrites = true → ∀ id, new.state.holds id → view world.registry id = none ∧
      ∀ call ∈ world.calls, call.state.holds id = false) :
    Settled sound view overwrites { world with calls := world.calls ++ [new] } where
  sound := h.sound
  own := h.own
  quiet id record hRecord hCommitted i call hCall := by
    obtain hOld | ⟨-, rfl⟩ := slot_append hCall
    · exact h.quiet id record hRecord hCommitted i call hOld
    · exact Bool.eq_false_iff.mpr fun hHolds => hQuiet id record hHolds hRecord hCommitted
  begun i call hCall hState := by
    obtain hOld | ⟨-, rfl⟩ := slot_append hCall
    · exact h.begun i call hOld hState
    · exact hBegun hState
  created hOverwrites i call held record hCall hHeld hRecord := by
    obtain hOld | ⟨-, rfl⟩ := slot_append hCall
    · exact h.created hOverwrites i call held record hOld hHeld hRecord
    · cases (hFree hOverwrites _ ((holds_of_held hHeld).mpr rfl)).1.symm.trans hRecord
  alone hOverwrites i j call other id hCall hOther hHolds hHolds' hNone := by
    obtain hOld | ⟨hi, rfl⟩ := slot_append hCall
    · obtain hOld' | ⟨-, rfl⟩ := slot_append hOther
      · exact h.alone hOverwrites i j call other id hOld hOld' hHolds hHolds' hNone
      · cases hHolds.symm.trans ((hFree hOverwrites id hHolds').2 call (List.mem_of_getElem? hOld))
    · obtain hOld' | ⟨hj, -⟩ := slot_append hOther
      · cases hHolds'.symm.trans ((hFree hOverwrites id hHolds).2 other (List.mem_of_getElem? hOld'))
      · rw [hi, hj]

/-- A call that goes on without touching the registry. -/
theorem settled_set (h : Settled sound view overwrites world) {index : Nat} {call : LifecycleCall} {state : CallState}
    (hCall : world.calls[index]? = some call)
    (hBegun : (∃ id candidateId, state = .reading id candidateId) ∨ (∃ current, state = .promoting current) →
      call.beganCommitted = false)
    (hHolds : ∀ held, state.held = some held →
      (∃ before, call.state.held = some before ∧ before.deferredCandidateId = held.deferredCandidateId ∧
        before.createdAt = held.createdAt) ∨
      view world.registry held.deferredCandidateId = some held ∧ held.status ≠ .committed) :
    Settled sound view overwrites { world with calls := world.calls.set index { call with state := state } } where
  sound := h.sound
  own := h.own
  quiet id record hRecord hCommitted i other hOther := by
    obtain ⟨-, rfl⟩ | ⟨-, hOld⟩ := slot_set hOther
    · refine Bool.eq_false_iff.mpr fun hNew => ?_
      cases hHeld : state.held with
      | none =>
        rw [CallState.holds, hHeld] at hNew
        cases hNew
      | some held =>
        obtain rfl := (holds_of_held hHeld).mp hNew
        obtain ⟨before, hBefore, hId, -⟩ | ⟨hView, hStatus⟩ := hHolds held hHeld
        · cases ((holds_of_held hBefore).mpr hId).symm.trans (h.quiet _ record hRecord hCommitted index call hCall)
        · exact hStatus (Option.some.inj (hView.symm.trans hRecord) ▸ hCommitted)
    · exact h.quiet id record hRecord hCommitted i other hOld
  begun i other hOther hState := by
    obtain ⟨-, rfl⟩ | ⟨-, hOld⟩ := slot_set hOther
    · exact hBegun hState
    · exact h.begun i other hOld hState
  created hOverwrites i other held record hOther hHeld hRecord := by
    obtain ⟨-, rfl⟩ | ⟨-, hOld⟩ := slot_set hOther
    · obtain ⟨before, hBefore, hId, hCreated⟩ | ⟨hView, -⟩ := hHolds held hHeld
      · exact (h.created hOverwrites index call before record hCall hBefore (hId ▸ hRecord)).trans hCreated
      · rw [Option.some.inj (hView.symm.trans hRecord)]
    · exact h.created hOverwrites i other held record hOld hHeld hRecord
  alone hOverwrites i j other other' id hOther hOther' hId hId' hNone := by
    have hBack {i : Nat} {other : LifecycleCall}
        (hOther : (world.calls.set index { call with state := state })[i]? = some other) (hId : other.state.holds id) :
        ∃ old, world.calls[i]? = some old ∧ old.state.holds id := by
      obtain ⟨rfl, rfl⟩ | ⟨-, hOld⟩ := slot_set hOther
      · cases hHeld : state.held with
        | none =>
          rw [CallState.holds, hHeld] at hId
          cases hId
        | some held =>
          have hSame := (holds_of_held hHeld).mp hId
          obtain ⟨before, hBefore, hBeforeId, -⟩ | ⟨hView, -⟩ := hHolds held hHeld
          · exact ⟨call, hCall, (holds_of_held hBefore).mpr (hBeforeId.trans hSame)⟩
          · rw [hSame, hNone] at hView
            cases hView
      · exact ⟨other, hOld, hId⟩
    obtain ⟨old, hOld, hOldId⟩ := hBack hOther hId
    obtain ⟨old', hOld', hOldId'⟩ := hBack hOther' hId'
    exact h.alone hOverwrites i j old old' id hOld hOld' hOldId hOldId' hNone

/-- The stored record replaces the one before it, and the call is finished. -/
theorem settled_store (h : Settled sound view overwrites world) {index : Nat} {began : Bool} {record : DeferredRecord}
    {later : σ} (hCall : world.calls[index]? = some ⟨began, .storing record⟩) (hSound : sound later)
    (hView : view later = Function.update (view world.registry) record.deferredCandidateId
      (some (persisted overwrites (view world.registry record.deferredCandidateId) record)))
    (hCommit : record.status = .committed →
      ∀ call ∈ world.calls.eraseIdx index, call.state.holds record.deferredCandidateId = false) :
    Settled sound view overwrites ⟨later, world.calls.set index ⟨began, .finished⟩⟩ where
  sound := hSound
  own id stored hStored := by
    rw [hView, Function.update_apply] at hStored
    split at hStored
    · rename_i hId
      obtain rfl := Option.some.inj hStored
      exact (persisted_same _ _ _).1.trans hId.symm
    · exact h.own id stored hStored
  quiet id stored hStored hCommitted i call hOther := by
    obtain ⟨-, rfl⟩ | ⟨hNe, hOld⟩ := slot_set hOther
    · rfl
    · rw [hView, Function.update_apply] at hStored
      split at hStored
      · rename_i hId
        obtain rfl := Option.some.inj hStored
        exact hId ▸ hCommit ((persisted_same _ _ _).2 ▸ hCommitted) call (slot_eraseIdx hOld hNe)
      · exact h.quiet id stored hStored hCommitted i call hOld
  begun i call hOther hState := by
    obtain ⟨-, rfl⟩ | ⟨-, hOld⟩ := slot_set hOther
    · obtain ⟨_, _, hReading⟩ | ⟨_, hPromoting⟩ := hState
      · cases hReading
      · cases hPromoting
    · exact h.begun i call hOld hState
  created hOverwrites i call held stored hOther hHeld hStored := by
    obtain ⟨-, rfl⟩ | ⟨hNe, hOld⟩ := slot_set hOther
    · cases hHeld
    · rw [hView, Function.update_apply] at hStored
      split at hStored
      · rename_i hId
        obtain rfl := Option.some.inj hStored
        subst hOverwrites
        change record.createdAt = held.createdAt
        cases hBefore : view world.registry held.deferredCandidateId with
        | none =>
          exact absurd (h.alone rfl i index call ⟨began, .storing record⟩ _ hOld hCall
            ((holds_of_held hHeld).mpr rfl) (decide_eq_true hId.symm) hBefore) hNe
        | some before =>
          have hMine := h.created rfl index _ record before hCall rfl (hId ▸ hBefore)
          exact hMine.symm.trans (h.created rfl i call held before hOld hHeld hBefore)
      · exact h.created hOverwrites i call held stored hOld hHeld hStored
  alone hOverwrites i j call other id hOther hOther' hId hId' hNone := by
    obtain ⟨-, rfl⟩ | ⟨-, hOld⟩ := slot_set hOther
    · cases hId
    · obtain ⟨-, rfl⟩ | ⟨-, hOld'⟩ := slot_set hOther'
      · cases hId'
      · rw [hView, Function.update_apply] at hNone
        split at hNone
        · cases hNone
        · exact h.alone hOverwrites i j call other id hOld hOld' hId hId' hNone

/-- What one turn of a calm run preserves. -/
theorem settled_step (hImplements : Implements registry sound view overwrites) (h : Settled sound view overwrites world)
    {turn : LifecycleTurn} (hCalm : Calm registry overwrites turn world) :
    Settled sound view overwrites (lifecycleStep registry turn world) := by
  cases turn with
  | defer decision now =>
    obtain ⟨hNot, hOnce⟩ := hCalm
    rw [lifecycleStep]
    split
    · refine settled_append h ?_ (fun id record hHolds hRecord => ?_) fun hOverwrites id hHolds => ?_
      · rintro (⟨_, _, hReading⟩ | ⟨_, hPromoting⟩)
        · cases hReading
        · cases hPromoting
      · obtain rfl := of_decide_eq_true hHolds
        exact not_committed hImplements h.sound hNot hRecord
      · obtain rfl := of_decide_eq_true hHolds
        rw [← recordOf_eq hImplements h.sound]
        exact hOnce hOverwrites
    · exact h
  | reevaluate id candidateId => exact settled_append h (fun _ => hCalm) (fun _ _ hHeld => by cases hHeld) fun _ _ hHeld => by cases hHeld
  | advance index promotion now =>
    rw [Calm] at hCalm
    rw [lifecycleStep]
    dsimp only
    cases hCall : world.calls[index]? with
    | none => exact h
    | some call =>
      obtain ⟨began, state⟩ := call
      rw [hCall] at hCalm
      dsimp only
      cases state with
      | finished => exact settled_set h hCall (by rintro (⟨_, _, h⟩ | ⟨_, h⟩) <;> cases h) fun _ hHeld => by cases hHeld
      | reading id candidateId =>
        have hView := hImplements.get world.registry id h.sound
        rw [advanceCall, hView]
        have hDone : Settled sound view overwrites
            ⟨world.registry, world.calls.set index ⟨began, .finished⟩⟩ := settled_set h hCall (by rintro (⟨_, _, h⟩ | ⟨_, h⟩) <;> cases h) fun _ hHeld => by cases hHeld
        cases hCurrent : view world.registry id with
        | none => exact hDone
        | some current =>
          dsimp only
          split
          · refine settled_set h hCall (fun _ => h.begun index _ hCall (.inl ⟨_, _, rfl⟩)) fun held hHeld => .inr ?_
            obtain rfl := Option.some.inj hHeld
            rw [h.own id current hCurrent]
            exact ⟨hCurrent, not_committed hImplements h.sound hCalm hCurrent⟩
          · exact hDone
      | promoting current =>
        cases promotion with
        | none => exact settled_set h hCall (by rintro (⟨_, _, h⟩ | ⟨_, h⟩) <;> cases h) fun _ hHeld => by cases hHeld
        | some promotion =>
          refine settled_set h hCall (by rintro (⟨_, _, h⟩ | ⟨_, h⟩) <;> cases h) fun held hHeld => .inl ⟨current, rfl, ?_⟩
          obtain rfl := Option.some.inj hHeld
          exact ⟨rfl, rfl⟩
      | storing record =>
        obtain ⟨later, hUpsert, hSound, hView⟩ := hImplements.upsert world.registry record h.sound
        rw [advanceCall, hUpsert]
        exact settled_store h hCall hSound hView hCalm

theorem stays_of_same {later : LifecycleWorld σ} (h : later.registry = world.registry) : Stays registry world later :=
  fun _ record hRecord => ⟨record, h.symm ▸ hRecord, rfl, id⟩

theorem stays_step (hImplements : Implements registry sound view overwrites) (h : Settled sound view overwrites world)
    {turn : LifecycleTurn} : Stays registry world (lifecycleStep registry turn world) := by
  cases turn with
  | defer decision now =>
    rw [lifecycleStep]
    split <;> exact stays_of_same rfl
  | reevaluate id candidateId => exact stays_of_same rfl
  | advance index promotion now =>
    rw [lifecycleStep]
    dsimp only
    cases hCall : world.calls[index]? with
    | none => exact stays_of_same rfl
    | some call =>
      obtain ⟨began, state⟩ := call
      dsimp only
      cases state with
      | finished => exact stays_of_same rfl
      | reading id candidateId =>
        rw [advanceCall]
        split
        · exact stays_of_same rfl
        · exact stays_of_same rfl
        · split <;> exact stays_of_same rfl
      | promoting current => cases promotion <;> exact stays_of_same rfl
      | storing record =>
        obtain ⟨later, hUpsert, hSound, hView⟩ := hImplements.upsert world.registry record h.sound
        rw [advanceCall, hUpsert]
        intro id before hBefore
        rw [recordOf_eq hImplements h.sound] at hBefore
        dsimp only
        rw [recordOf_eq hImplements hSound, hView, Function.update_apply]
        split
        · rename_i hId
          subst hId
          refine ⟨_, rfl, ?_, fun hCommitted => ?_⟩
          · rw [hBefore]
            cases overwrites with
            | false => rfl
            | true => exact (h.created rfl index _ record before hCall rfl hBefore).symm
          · cases (decide_eq_true rfl : (CallState.storing record).holds _ = true).symm.trans
              (h.quiet _ before hBefore hCommitted index _ hCall)
        · exact ⟨before, hBefore, rfl, fun hCommitted => hCommitted⟩

theorem settled_run (hImplements : Implements registry sound view overwrites)
    (h : Reaches (lifecycleStep registry) (Calm registry overwrites) ⟨registry.start, []⟩ world) :
    Settled sound view overwrites world := by
  refine h.invariant ⟨hImplements.start.1, fun id record hRecord => ?_, fun _ _ _ _ _ _ hCall => ?_,
    fun _ _ hCall => ?_, fun _ _ _ _ _ hCall => ?_, fun _ _ _ _ _ _ hCall => ?_⟩
    fun turn mid hSettled hCalm => settled_step hImplements hSettled hCalm
  · rw [hImplements.start.2] at hRecord
    cases hRecord
  all_goals cases hCall

/-- In a calm run records keep their `createdAt` and stay committed, and no candidate is promoted that
was committed when the call began. -/
theorem stays_run (hImplements : Implements registry sound view overwrites) {later : LifecycleWorld σ}
    (h : Reaches (lifecycleStep registry) (Calm registry overwrites) ⟨registry.start, []⟩ world)
    (hLater : Reaches (lifecycleStep registry) (Calm registry overwrites) world later) :
    Stays registry world later ∧
      ∀ call ∈ later.calls, (∃ current, call.state = .promoting current) → call.beganCommitted = false := by
  refine ⟨hLater.relates_of_invariant (settled_run hImplements h)
    (fun turn mid hSettled hCalm => settled_step hImplements hSettled hCalm)
    (fun turn mid hSettled _ => stays_step hImplements hSettled), fun call hCall hPromoting => ?_⟩
  obtain ⟨i, hSlot⟩ := List.mem_iff_getElem?.mp hCall
  exact (settled_run hImplements (h.trans hLater)).begun i call hSlot (.inr hPromoting)

end Step

inductive RegistryCall where
  | upsert (record : DeferredRecord)
  | get (id : String)
  | list (status : Option DeferredStatus)
  deriving DecidableEq

inductive RegistryAnswer where
  | record (record : DeferredRecord)
  | found (record : Option DeferredRecord)
  | records (records : List DeferredRecord)
  deriving DecidableEq

def answer {σ : Type} (registry : Registry σ) (store : σ) : RegistryCall → Option RegistryAnswer × σ
  | .upsert record =>
    match registry.upsert record store with
    | some (record, store) => (some (.record record), store)
    | none => (none, store)
  | .get id => ((registry.get id store).map .found, store)
  | .list status => ((registry.list status store).map .records, store)

/-- The answers to a sequence of calls; none is a call that throws. -/
def answers {σ : Type} (registry : Registry σ) : σ → List RegistryCall → List (Option RegistryAnswer)
  | _, [] => []
  | store, call :: calls => (answer registry store call).1 :: answers registry (answer registry store call).2 calls

/-- A record that is there already is written with its `createdAt`. -/
def KeepsCreation (call : RegistryCall) (records : DeferredMap) : Prop :=
  match call with
  | .upsert record => ∀ existing, InsertionMap.get record.deferredCandidateId records = some existing →
      record.createdAt = existing.createdAt
  | _ => True

def memoryStep (call : RegistryCall) (records : DeferredMap) : DeferredMap :=
  match call with
  | .upsert record => (InMemory.upsert record records).2
  | _ => records

theorem upsert_kept {record : DeferredRecord} {records : DeferredMap} (h : KeepsCreation (.upsert record) records) :
    InMemory.upsert record records = (record, InsertionMap.set record.deferredCandidateId record records) := by
  rw [InMemory.upsert]
  cases hExisting : InsertionMap.get record.deferredCandidateId records with
  | none => rfl
  | some existing =>
    dsimp only
    rw [← h existing hExisting]

theorem registries_agree_from {hash : File.EntryHash} {localeCompare : String → String → Int}
    {file : List LedgerEntry} (hIntact : File.intact hash 0 none file) (calls : List RegistryCall) :
    answers (inMemoryRegistry localeCompare) (File.derive file) calls = answers (fileRegistry hash localeCompare) file calls ↔
      GuardedAll memoryStep KeepsCreation (File.derive file) calls := by
  induction calls generalizing file with
  | nil => exact ⟨fun _ => trivial, fun _ => rfl⟩
  | cons call calls ih =>
    rw [answers, answers, List.cons.injEq, GuardedAll]
    cases call with
    | upsert record =>
      obtain ⟨later, hUpsert, hLater, hDerive⟩ := file_upsert record hIntact
      have hFile : answer (fileRegistry hash localeCompare) file (.upsert record) = (some (.record record), later) := by
        have hRegistry : (fileRegistry hash localeCompare).upsert record file = some (record, later) := hUpsert
        rw [answer, hRegistry]
      have hMemory : answer (inMemoryRegistry localeCompare) (File.derive file) (.upsert record) =
          (some (.record (InMemory.upsert record (File.derive file)).1), (InMemory.upsert record (File.derive file)).2) := rfl
      rw [hFile, hMemory]
      dsimp only [memoryStep]
      constructor
      · rintro ⟨hSame, hRest⟩
        have hRecord := RegistryAnswer.record.inj (Option.some.inj hSame)
        have hKeeps : KeepsCreation (.upsert record) (File.derive file) := by
          intro existing hExisting
          rw [InMemory.upsert, hExisting] at hRecord
          exact (congrArg DeferredRecord.createdAt hRecord).symm
        refine ⟨hKeeps, ?_⟩
        rw [upsert_kept hKeeps] at hRest ⊢
        rw [← hDerive] at hRest ⊢
        exact (ih hLater).mp hRest
      · rintro ⟨hKeeps, hRest⟩
        rw [upsert_kept hKeeps] at hRest ⊢
        rw [← hDerive] at hRest ⊢
        exact ⟨rfl, (ih hLater).mpr hRest⟩
    | get id =>
      have hFile : answer (fileRegistry hash localeCompare) file (.get id) =
          (some (.found (InsertionMap.get id (File.derive file))), file) := by
        change (((File.readEntries hash file).map _).map _, file) = _
        rw [File.readEntries_intact hIntact]
        rfl
      rw [hFile]
      exact ⟨fun hSame => ⟨trivial, (ih hIntact).mp hSame.2⟩, fun hGuard => ⟨rfl, (ih hIntact).mpr hGuard.2⟩⟩
    | list status =>
      have hFile : answer (fileRegistry hash localeCompare) file (.list status) =
          (some (.records (listed localeCompare status (File.derive file))), file) := by
        change (((File.readEntries hash file).map _).map _, file) = _
        rw [File.readEntries_intact hIntact]
        rfl
      rw [hFile]
      exact ⟨fun hSame => ⟨trivial, (ih hIntact).mp hSame.2⟩, fun hGuard => ⟨rfl, (ih hIntact).mpr hGuard.2⟩⟩

/-- In every calm run over either registry a committed candidate stays committed, creation times stay,
and no committed candidate is promoted; and the registries return the same records for exactly the
sequences that write an id again with its creation time only. -/
theorem deferred_candidates_do_not_come_back (hash : File.EntryHash) (localeCompare : String → String → Int) :
    (∀ world later, Reaches (lifecycleStep (inMemoryRegistry localeCompare))
        (Calm (inMemoryRegistry localeCompare) false) ⟨[], []⟩ world →
      Reaches (lifecycleStep (inMemoryRegistry localeCompare)) (Calm (inMemoryRegistry localeCompare) false) world later →
      Stays (inMemoryRegistry localeCompare) world later ∧
        ∀ call ∈ later.calls, (∃ current, call.state = .promoting current) → call.beganCommitted = false) ∧
    (∀ world later, Reaches (lifecycleStep (fileRegistry hash localeCompare))
        (Calm (fileRegistry hash localeCompare) true) ⟨[], []⟩ world →
      Reaches (lifecycleStep (fileRegistry hash localeCompare)) (Calm (fileRegistry hash localeCompare) true) world later →
      Stays (fileRegistry hash localeCompare) world later ∧
        ∀ call ∈ later.calls, (∃ current, call.state = .promoting current) → call.beganCommitted = false) ∧
    ∀ calls, answers (inMemoryRegistry localeCompare) [] calls = answers (fileRegistry hash localeCompare) [] calls ↔
      GuardedAll memoryStep KeepsCreation [] calls :=
  ⟨fun _ _ h hLater => stays_run (inMemory_implements localeCompare) h hLater,
    fun _ _ h hLater => stays_run (file_implements hash localeCompare) h hLater,
    fun calls => registries_agree_from (show File.intact hash 0 none [] from rfl) calls⟩

def sampleDecision (evaluationId : String) : GateDecision := ⟨true, "candidate-1", evaluationId, ["VALIDATION_INCOMPLETE"]⟩

def sampleTurns : List LifecycleTurn :=
  [.defer (sampleDecision "evaluation-1") "t1", .advance 0 none "t1", .reevaluate "deferred:candidate-1" "candidate-1",
    .advance 1 none "t2", .advance 1 (some ⟨.committed, "evaluation-2", []⟩) "t3", .advance 1 none "t3"]

def sampleRegistry : Registry DeferredMap := inMemoryRegistry fun _ _ => 0

theorem deferred_candidates_do_not_come_back_committed :
    Stays sampleRegistry ⟨[], []⟩ (runAll (lifecycleStep sampleRegistry) ⟨[], []⟩ sampleTurns) ∧
      isCommitted sampleRegistry (runAll (lifecycleStep sampleRegistry) ⟨[], []⟩ sampleTurns).registry
        "deferred:candidate-1" :=
  ⟨((deferred_candidates_do_not_come_back (fun _ _ _ => "") fun _ _ => 0).1 _ _ .refl
    (GuardedAll.reaches (by decide +kernel))).1, by decide +kernel⟩

/-- A second decision to defer makes the committed candidate pending again; and the file registry
answers it with a new creation time where the map in memory keeps the first. -/
theorem deferred_again_after_commit :
    isCommitted sampleRegistry (runAll (lifecycleStep sampleRegistry) ⟨[], []⟩ sampleTurns).registry
        "deferred:candidate-1" ∧
      isCommitted sampleRegistry (runAll (lifecycleStep sampleRegistry) ⟨[], []⟩ (sampleTurns ++
        [.defer (sampleDecision "evaluation-3") "t4", .advance 2 none "t4"])).registry "deferred:candidate-1" = false ∧
      answers sampleRegistry [] [.upsert (deferredRecord (sampleDecision "evaluation-1") "t1"),
          .upsert (deferredRecord (sampleDecision "evaluation-3") "t4")] ≠
        answers (fileRegistry (fun _ _ _ => "") fun _ _ => 0) [] [.upsert (deferredRecord (sampleDecision "evaluation-1") "t1"),
          .upsert (deferredRecord (sampleDecision "evaluation-3") "t4")] := by
  decide +kernel

end CommandConsole.Learning.Deferred
