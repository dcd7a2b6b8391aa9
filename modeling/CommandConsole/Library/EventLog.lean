import Mathlib.Data.List.Basic

/-! # Event logs and their replay

The state of a thing is what its recorded events make of a start state; an event that
does not fit the state makes the whole history unreadable. Many things share one log,
and the events of each are picked by their key.
-/
namespace Library
set_option autoImplicit false

variable {σ ε κ : Type}

/-- The state after the events, oldest first; none where one of them does not fit. -/
def replay (apply : σ → ε → Option σ) (start : σ) (events : List ε) : Option σ := events.foldlM apply start

section Replay

variable {apply : σ → ε → Option σ} {start last : σ} {events later : List ε} {event : ε}

theorem replay_cons : replay apply start (event :: events) = (apply start event).bind fun s => replay apply s events :=
  List.foldlM_cons

theorem replay_append :
    replay apply start (events ++ later) = (replay apply start events).bind fun s => replay apply s later :=
  List.foldlM_append

theorem replay_front (h : replay apply start (events ++ later) = some last) :
    ∃ middle, replay apply start events = some middle ∧ replay apply middle later = some last := by
  rw [replay_append] at h
  exact Option.bind_eq_some_iff.mp h

/-- What the events of a kind preserve holds after all of them. -/
theorem replay_invariant {P : σ → Prop} {kind : ε → Prop} (h : replay apply start events = some last)
    (hStart : P start) (hKind : ∀ event ∈ events, kind event)
    (hStep : ∀ s event t, P s → kind event → apply s event = some t → P t) : P last := by
  induction events generalizing start with
  | nil => exact Option.some.inj h ▸ hStart
  | cons first rest ih =>
    rw [replay_cons] at h
    obtain ⟨next, hNext, hRest⟩ := Option.bind_eq_some_iff.mp h
    exact ih hRest (hStep start first next hStart (hKind first List.mem_cons_self) hNext)
      fun event hIn => hKind event (List.mem_cons_of_mem _ hIn)

end Replay

/-- The last `limit` lines, newest first. -/
def newest (limit : Nat) (log : List ε) : List ε := (log.drop (log.length - limit)).reverse

theorem newest_concat {limit : Nat} (hLimit : 0 < limit) (log : List ε) (event : ε) :
    newest limit (log ++ [event]) = event :: newest (limit - 1) log := by
  have hDrop : (log ++ [event]).length - limit = log.length - (limit - 1) := by
    rw [List.length_append, List.length_singleton]
    omega
  rw [newest, hDrop, List.drop_append_of_le_length (Nat.sub_le _ _), List.reverse_append]
  rfl

/-- The first of the events that pass a test, in a list that a relation orders. -/
theorem find?_of_pairwise {R : ε → ε → Prop} (test : ε → Bool) {events : List ε} (hOrdered : events.Pairwise R)
    {event : ε} (hMem : event ∈ events) (hTest : test event = true) :
    ∃ first, events.find? test = some first ∧ (first = event ∨ R first event) := by
  induction events with
  | nil => cases hMem
  | cons head rest ih =>
    obtain ⟨hHead, hRest⟩ := List.pairwise_cons.mp hOrdered
    by_cases hFirst : test head = true
    · refine ⟨head, List.find?_cons_of_pos hFirst, ?_⟩
      rcases List.mem_cons.mp hMem with rfl | hLater
      · exact .inl rfl
      · exact .inr (hHead event hLater)
    · rw [List.find?_cons_of_neg hFirst]
      rcases List.mem_cons.mp hMem with rfl | hLater
      · exact absurd hTest hFirst
      · exact ih hRest hLater

section Keyed

variable [DecidableEq κ] (key : ε → κ)

def eventsOf (k : κ) (log : List ε) : List ε := log.filter fun event => key event = k

theorem mem_eventsOf {k : κ} {log : List ε} {event : ε} :
    event ∈ eventsOf key k log ↔ event ∈ log ∧ key event = k := by
  rw [eventsOf, List.mem_filter, decide_eq_true_eq]

theorem eventsOf_append (k : κ) (log later : List ε) :
    eventsOf key k (log ++ later) = eventsOf key k log ++ eventsOf key k later :=
  List.filter_append ..

theorem eventsOf_self {k : κ} {events : List ε} (h : ∀ event ∈ events, key event = k) :
    eventsOf key k events = events :=
  List.filter_eq_self.mpr fun event hIn => decide_eq_true (h event hIn)

theorem eventsOf_other {k : κ} {events : List ε} (h : ∀ event ∈ events, key event ≠ k) :
    eventsOf key k events = [] :=
  List.filter_eq_nil_iff.mpr fun event hIn => by simp [h event hIn]

end Keyed

end Library
