import Mathlib.Data.List.Basic

/-! # Numbered items and the journal of their life

Items are numbered inside a group. Each is opened once and closed at most once,
and the journal has one entry for either. A journal is disciplined when the
numbers of every group run from one without a gap, at most one item of a group
is open and the entries tell exactly what the items went through.
-/
namespace Library
set_option autoImplicit false

variable {ι σ : Type}

/-- An opening (`none`) or a closing of an item. -/
structure Entry (ι σ : Type) where
  group : ι
  number : Int
  closedAs : Option σ
  deriving DecidableEq

structure Journal (ι σ : Type) where
  status : ι → Int → Option σ
  entries : List (Entry ι σ)

namespace Journal

theorem ext_parts {left right : Journal ι σ} (hStatus : ∀ group number, left.status group number = right.status group number)
    (hEntries : left.entries = right.entries) : left = right := by
  cases left
  cases right
  cases hEntries
  congr
  funext group number
  exact hStatus group number

def empty : Journal ι σ := ⟨fun _ _ => none, []⟩

section Record

variable [DecidableEq ι]

def record (journal : Journal ι σ) (entry : Entry ι σ) (status : σ) : Journal ι σ where
  status := fun group number =>
    if group = entry.group ∧ number = entry.number then some status else journal.status group number
  entries := journal.entries ++ [entry]

theorem status_record_self {journal : Journal ι σ} {entry : Entry ι σ} {status : σ} :
    (journal.record entry status).status entry.group entry.number = some status := if_pos ⟨rfl, rfl⟩

theorem status_record_of_ne {journal : Journal ι σ} {entry : Entry ι σ} {status : σ} {group : ι} {number : Int}
    (h : ¬(group = entry.group ∧ number = entry.number)) :
    (journal.record entry status).status group number = journal.status group number := if_neg h

end Record

variable [DecidableEq ι] [DecidableEq σ]

structure Disciplined (opened : σ) (journal : Journal ι σ) : Prop where
  contiguous : ∀ group, ∃ count : Nat, ∀ number, (journal.status group number).isSome ↔ 1 ≤ number ∧ number ≤ count
  single : ∀ group number number', journal.status group number = some opened →
    journal.status group number' = some opened → number = number'
  opening : ∀ group number, journal.entries.count ⟨group, number, none⟩ =
    if (journal.status group number).isSome then 1 else 0
  closing : ∀ group number status, status ≠ opened → journal.entries.count ⟨group, number, some status⟩ =
    if journal.status group number = some status then 1 else 0

/-- What is closed in `journal` is closed the same way in `later`. -/
def ClosedStay (opened : σ) (journal later : Journal ι σ) : Prop :=
  ∀ group number status, status ≠ opened → journal.status group number = some status →
    later.status group number = some status

theorem empty_disciplined (opened : σ) : Disciplined opened (empty : Journal ι σ) where
  contiguous := by
    refine fun _ => ⟨0, fun number => ⟨fun h => ?_, ?_⟩⟩
    · cases h
    · rintro ⟨hFrom, hTo⟩
      omega
  single := fun _ _ _ h => by cases h
  opening := fun _ _ => rfl
  closing := fun _ _ _ _ => rfl

section Discipline

variable {opened : σ} {journal : Journal ι σ} {entry : Entry ι σ} {status : σ}

theorem count_record_self : (journal.record entry status).entries.count entry = journal.entries.count entry + 1 := by
  rw [record, List.count_append, List.count_singleton_self]

theorem count_record_of_ne {other : Entry ι σ} (h : entry ≠ other) :
    (journal.record entry status).entries.count other = journal.entries.count other := by
  have hLast : [entry].count other = 0 := List.count_eq_zero_of_not_mem (by simpa using Ne.symm h)
  rw [record, List.count_append, hLast, Nat.add_zero]

/-- A next item may be opened while no item of its group is open. -/
theorem Disciplined.open (h : Disciplined opened journal) {group : ι} {number : Int}
    (hNext : ∀ other, (journal.status group other).isSome ↔ 1 ≤ other ∧ other < number) (hPositive : 1 ≤ number)
    (hFree : ∀ other, journal.status group other ≠ some opened) :
    Disciplined opened (journal.record ⟨group, number, none⟩ opened) := by
  have hNone : journal.status group number = none := by
    have hNot := (hNext number).not.mpr (by omega)
    simpa using hNot
  refine ⟨?_, ?_, ?_, ?_⟩
  · intro other
    by_cases hGroup : other = group
    · subst hGroup
      refine ⟨number.toNat, fun n => ?_⟩
      by_cases hNumber : n = number
      · subst hNumber
        rw [status_record_self]
        simp only [Option.isSome_some, true_iff]
        omega
      · rw [status_record_of_ne (fun h => hNumber h.2), hNext]
        omega
    · obtain ⟨count, hCount⟩ := h.contiguous other
      refine ⟨count, fun n => ?_⟩
      rw [status_record_of_ne (fun h => hGroup h.1), hCount]
  · intro other n n' hn hn'
    by_cases hGroup : other = group
    · subst hGroup
      have hIs (m : Int) (hm : (journal.record ⟨other, number, none⟩ opened).status other m = some opened) :
          m = number := by
        by_contra hNumber
        rw [status_record_of_ne (fun h => hNumber h.2)] at hm
        exact hFree m hm
      rw [hIs n hn, hIs n' hn']
    · rw [status_record_of_ne (fun h => hGroup h.1)] at hn hn'
      exact h.single other n n' hn hn'
  · intro other n
    by_cases hItem : other = group ∧ n = number
    · obtain ⟨rfl, rfl⟩ := hItem
      rw [count_record_self, h.opening, status_record_self, hNone]
      rfl
    · rw [count_record_of_ne, h.opening, status_record_of_ne hItem]
      intro hEq
      rw [Entry.mk.injEq] at hEq
      exact hItem ⟨hEq.1.symm, hEq.2.1.symm⟩
  · intro other n s hs
    rw [count_record_of_ne (by simp), h.closing other n s hs]
    by_cases hItem : other = group ∧ n = number
    · obtain ⟨rfl, rfl⟩ := hItem
      rw [status_record_self, hNone, if_neg (by rintro ⟨⟩), if_neg]
      rw [Option.some.injEq]
      exact Ne.symm hs
    · rw [status_record_of_ne hItem]

/-- An open item may be closed. -/
theorem Disciplined.close (h : Disciplined opened journal) {group : ι} {number : Int}
    (hOpen : journal.status group number = some opened) (hClosed : status ≠ opened) :
    Disciplined opened (journal.record ⟨group, number, some status⟩ status) := by
  have hSome (other : ι) (n : Int) :
      ((journal.record ⟨group, number, some status⟩ status).status other n).isSome =
        (journal.status other n).isSome := by
    by_cases hItem : other = group ∧ n = number
    · obtain ⟨rfl, rfl⟩ := hItem
      rw [status_record_self, hOpen]
      rfl
    · rw [status_record_of_ne hItem]
  have hStill (other : ι) (n : Int)
      (hn : (journal.record ⟨group, number, some status⟩ status).status other n = some opened) :
      journal.status other n = some opened := by
    by_cases hItem : other = group ∧ n = number
    · obtain ⟨rfl, rfl⟩ := hItem
      rw [status_record_self, Option.some.injEq] at hn
      exact absurd hn hClosed
    · rwa [status_record_of_ne hItem] at hn
  refine ⟨?_, ?_, ?_, ?_⟩
  · intro other
    obtain ⟨count, hCount⟩ := h.contiguous other
    exact ⟨count, fun n => by rw [hSome]; exact hCount n⟩
  · intro other n n' hn hn'
    exact h.single other n n' (hStill other n hn) (hStill other n' hn')
  · intro other n
    rw [count_record_of_ne (by simp), h.opening, hSome]
  · intro other n s hs
    by_cases hItem : other = group ∧ n = number
    · obtain ⟨rfl, rfl⟩ := hItem
      have hNone : journal.entries.count ⟨other, n, some s⟩ = 0 := by
        rw [h.closing other n s hs, hOpen, if_neg]
        rw [Option.some.injEq]
        exact Ne.symm hs
      rw [status_record_self]
      by_cases hSame : status = s
      · subst hSame
        rw [count_record_self, hNone, if_pos rfl]
      · rw [count_record_of_ne (by simpa using hSame), hNone, if_neg]
        rwa [Option.some.injEq]
    · rw [count_record_of_ne, h.closing other n s hs, status_record_of_ne hItem]
      intro hEq
      rw [Entry.mk.injEq] at hEq
      exact hItem ⟨hEq.1.symm, hEq.2.1.symm⟩

omit [DecidableEq σ] in
theorem closedStay_record (hFree : ∀ s, s ≠ opened → journal.status entry.group entry.number ≠ some s) :
    ClosedStay opened journal (journal.record entry status) := by
  intro group number s hs hStatus
  rw [status_record_of_ne]
  · exact hStatus
  · rintro ⟨rfl, rfl⟩
    exact hFree s hs hStatus

end Discipline

end Journal
end Library
