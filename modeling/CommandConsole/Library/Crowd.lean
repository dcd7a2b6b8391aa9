import CommandConsole.Library.Run

/-! # Calls that share a store

Any number of calls work on one store. Each takes its next section when its turn
comes, and others change the store in between. What a call relies on is a relation
between the stores before and after a section of anyone else.
-/
namespace Library
set_option autoImplicit false

variable {κ φ ι α σ : Type}

structure Crowd (φ σ : Type) where
  store : σ
  calls : List φ

inductive CrowdTurn (κ ι α : Type) where
  | enter (request : κ)
  | advance (index : Nat) (input : ι)
  | outside (op : α)

/-- How the calls begin, what their sections do and what the others do. -/
structure CrowdRules (κ φ ι α σ : Type) where
  start : κ → φ
  advance : ι → φ → σ → φ × σ
  outside : α → σ → σ

namespace Crowd

def init (store : σ) : Crowd φ σ := ⟨store, []⟩

def step (rules : CrowdRules κ φ ι α σ) (turn : CrowdTurn κ ι α) (crowd : Crowd φ σ) : Crowd φ σ :=
  match turn with
  | .enter request => { crowd with calls := crowd.calls ++ [rules.start request] }
  | .advance index input =>
    match crowd.calls[index]? with
    | none => crowd
    | some call =>
      { store := (rules.advance input call crowd.store).2
        calls := crowd.calls.set index (rules.advance input call crowd.store).1 }
  | .outside op => { crowd with store := rules.outside op crowd.store }

variable {rules : CrowdRules κ φ ι α σ} {crowd : Crowd φ σ}

theorem step_advance {index : Nat} {input : ι} {call : φ} (h : crowd.calls[index]? = some call) :
    step rules (.advance index input) crowd =
      { store := (rules.advance input call crowd.store).2
        calls := crowd.calls.set index (rules.advance input call crowd.store).1 } := by
  rw [step, h]

/-- Some call of the list, either the one at the index or another. -/
theorem exists_mem_iff {calls : List φ} {index : Nat} {call : φ} (h : calls[index]? = some call)
    {P : φ → Prop} : (∃ c ∈ calls, P c) ↔ P call ∨ ∃ i c, i ≠ index ∧ calls[i]? = some c ∧ P c := by
  constructor
  · rintro ⟨c, hMem, hP⟩
    obtain ⟨i, hi⟩ := List.mem_iff_getElem?.mp hMem
    by_cases hEq : i = index
    · rw [hEq, h] at hi
      exact .inl (Option.some.inj hi ▸ hP)
    · exact .inr ⟨i, c, hEq, hi, hP⟩
  · rintro (hP | ⟨i, c, _, hi, hP⟩)
    · exact ⟨call, List.mem_of_getElem? h, hP⟩
    · exact ⟨c, List.mem_of_getElem? hi, hP⟩

theorem getElem?_set_self' {calls : List φ} {index : Nat} {call : φ} (h : calls[index]? = some call)
    (next : φ) : (calls.set index next)[index]? = some next := by
  rw [List.getElem?_set_self']
  simp only [h, Option.map_eq_map, Option.map_some, Function.const_apply]

theorem exists_mem_set_iff {calls : List φ} {index : Nat} {call next : φ} (h : calls[index]? = some call)
    {P : φ → Prop} :
    (∃ c ∈ calls.set index next, P c) ↔ P next ∨ ∃ i c, i ≠ index ∧ calls[i]? = some c ∧ P c := by
  rw [exists_mem_iff (getElem?_set_self' h next)]
  refine or_congr_right ⟨?_, ?_⟩
  · rintro ⟨i, c, hi, hc, hP⟩
    exact ⟨i, c, hi, by rwa [List.getElem?_set_ne hi.symm] at hc, hP⟩
  · rintro ⟨i, c, hi, hc, hP⟩
    exact ⟨i, c, hi, by rwa [List.getElem?_set_ne hi.symm], hP⟩

/-- Every section keeps what holds of the store and of its own call, and changes the
store only in ways that the other calls put up with. -/
theorem invariant {guard : CrowdTurn κ ι α → Crowd φ σ → Prop} {store : σ} {P : σ → Prop} {Q : φ → σ → Prop}
    {R : σ → σ → Prop} (h : Reaches (step rules) guard (init store) crowd) (hStart : P store)
    (hEnter : ∀ request s, P s → Q (rules.start request) s)
    (hAdvance : ∀ index input call (crowd : Crowd φ σ), guard (.advance index input) crowd →
      crowd.calls[index]? = some call → P crowd.store → Q call crowd.store →
        P (rules.advance input call crowd.store).2 ∧ R crowd.store (rules.advance input call crowd.store).2 ∧
          Q (rules.advance input call crowd.store).1 (rules.advance input call crowd.store).2)
    (hOutside : ∀ op (crowd : Crowd φ σ), guard (.outside op) crowd → P crowd.store →
      P (rules.outside op crowd.store) ∧ R crowd.store (rules.outside op crowd.store))
    (hStable : ∀ call s t, R s t → Q call s → Q call t) :
    P crowd.store ∧ ∀ call ∈ crowd.calls, Q call crowd.store := by
  refine h.invariant (P := fun crowd => P crowd.store ∧ ∀ call ∈ crowd.calls, Q call crowd.store)
    ⟨hStart, fun call hMem => by cases hMem⟩ ?_
  rintro turn crowd ⟨hP, hQ⟩ hGuard
  cases turn with
  | enter request =>
    refine ⟨hP, fun call hMem => ?_⟩
    rcases List.mem_append.mp hMem with hOld | hNew
    · exact hQ call hOld
    · obtain rfl := List.mem_singleton.mp hNew
      exact hEnter request _ hP
  | outside op =>
    obtain ⟨hP', hR⟩ := hOutside op crowd hGuard hP
    exact ⟨hP', fun call hMem => hStable call _ _ hR (hQ call hMem)⟩
  | advance index input =>
    cases hCall : crowd.calls[index]? with
    | none =>
      rw [step, hCall]
      exact ⟨hP, hQ⟩
    | some call =>
      obtain ⟨hP', hR, hOwn⟩ := hAdvance index input call crowd hGuard hCall hP (hQ call (List.mem_of_getElem? hCall))
      rw [step_advance hCall]
      refine ⟨hP', fun other hMem => ?_⟩
      rcases List.mem_or_eq_of_mem_set hMem with hOld | rfl
      · exact hStable other _ _ hR (hQ other hOld)
      · exact hOwn

/-- Where the sections of a run relate the stores before and after, the run relates its stores. -/
theorem relates_later {guard : CrowdTurn κ ι α → Crowd φ σ → Prop} {start later : Crowd φ σ} {R : σ → σ → Prop}
    [Std.Refl R] [IsTrans σ R] (h : Reaches (step rules) guard start crowd)
    (hLater : Reaches (step rules) guard crowd later)
    (hAdvance : ∀ index input call (u : Crowd φ σ), Reaches (step rules) guard start u →
      guard (.advance index input) u → u.calls[index]? = some call →
        R u.store (rules.advance input call u.store).2)
    (hOutside : ∀ op (u : Crowd φ σ), Reaches (step rules) guard start u → guard (.outside op) u →
      R u.store (rules.outside op u.store)) : R crowd.store later.store := by
  have hRefl : Std.Refl fun (s t : Crowd φ σ) => R s.store t.store := ⟨fun _ => Std.Refl.refl _⟩
  have hTrans : IsTrans (Crowd φ σ) fun s t => R s.store t.store := ⟨fun _ _ _ => trans_of R⟩
  refine h.relates_later (R := fun s t => R s.store t.store) hLater fun turn u hRun hGuard => ?_
  cases turn with
  | enter request => exact Std.Refl.refl _
  | outside op => exact hOutside op u hRun hGuard
  | advance index input =>
    cases hCall : u.calls[index]? with
    | none =>
      rw [step, hCall]
      exact Std.Refl.refl _
    | some call =>
      rw [step_advance hCall]
      exact hAdvance index input call u hRun hGuard hCall

/-- No two calls hold the same thing. -/
def Exclusive {ρ : Type} (held : φ → Option ρ) (calls : List φ) : Prop :=
  ∀ (i j : Nat) (left right : φ) (key : ρ), calls[i]? = some left → calls[j]? = some right →
    held left = some key → held right = some key → i = j

theorem Exclusive.append {ρ : Type} {held : φ → Option ρ} {calls : List φ} (h : Exclusive held calls) {call : φ}
    (hNone : held call = none) : Exclusive held (calls ++ [call]) := by
  have hOld : ∀ (i : Nat) (other : φ) (key : ρ), (calls ++ [call])[i]? = some other → held other = some key →
      calls[i]? = some other := by
    intro i other key hOther hHeld
    rw [List.getElem?_append] at hOther
    split at hOther
    · exact hOther
    · obtain rfl := List.mem_singleton.mp (List.mem_of_getElem? hOther)
      rw [hNone] at hHeld
      cases hHeld
  intro i j left right key hLeft hRight hHeld hHeld'
  exact h i j left right key (hOld i left key hLeft hHeld) (hOld j right key hRight hHeld') hHeld hHeld'

theorem Exclusive.set {ρ : Type} {held : φ → Option ρ} {calls : List φ} (h : Exclusive held calls) {index : Nat}
    {call next : φ} (hCall : calls[index]? = some call)
    (hNext : ∀ key, held next = some key → held call = some key ∨
      ∀ (i : Nat) (other : φ), i ≠ index → calls[i]? = some other → held other ≠ some key) :
    Exclusive held (calls.set index next) := by
  have hMine : ∀ (j : Nat) (other : φ) (key : ρ), j ≠ index → calls[j]? = some other → held other = some key →
      held next ≠ some key := by
    intro j other key hNe hOther hHeld hHeld'
    rcases hNext key hHeld' with hBefore | hFree
    · exact hNe (h j index other call key hOther hCall hHeld hBefore)
    · exact hFree j other hNe hOther hHeld
  intro i j left right key hLeft hRight hHeld hHeld'
  by_cases hi : i = index <;> by_cases hj : j = index
  · rw [hi, hj]
  · subst hi
    rw [getElem?_set_self' hCall] at hLeft
    rw [List.getElem?_set_ne (Ne.symm hj)] at hRight
    cases hLeft
    exact absurd hHeld (hMine j right key hj hRight hHeld')
  · subst hj
    rw [getElem?_set_self' hCall] at hRight
    rw [List.getElem?_set_ne (Ne.symm hi)] at hLeft
    cases hRight
    exact absurd hHeld' (hMine i left key hi hLeft hHeld)
  · rw [List.getElem?_set_ne (Ne.symm hi)] at hLeft
    rw [List.getElem?_set_ne (Ne.symm hj)] at hRight
    exact h i j left right key hLeft hRight hHeld hHeld'

end Crowd
end Library
