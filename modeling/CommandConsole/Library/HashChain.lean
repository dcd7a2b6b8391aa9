import Mathlib.Data.List.Forall2
import Mathlib.Data.List.Induction

/-! # Hash chains

Each entry names the hash of the entry before it. Where the hash of an entry settles its
content and its predecessor, the last hash settles the whole chain.
-/
namespace Library
set_option autoImplicit false

variable {ε η : Type} (previous : ε → Option η) (hash : ε → η)

/-- Every entry names the hash of the one before it, the first one what it is given. -/
def Linked : Option η → List ε → Prop
  | _, [] => True
  | before, entry :: later => previous entry = before ∧ Linked (some (hash entry)) later

def lastHash (entries : List ε) : Option η := entries.getLast?.map hash

variable {previous hash}

theorem linked_iff_getElem? {before : Option η} {entries : List ε} :
    Linked previous hash before entries ↔ ∀ i entry, entries[i]? = some entry →
      previous entry = if i = 0 then before else (entries[i - 1]?).map hash := by
  induction entries generalizing before with
  | nil => simp only [Linked, List.getElem?_nil, reduceCtorEq, false_implies, implies_true]
  | cons head tail ih =>
    rw [Linked, ih]
    constructor
    · rintro ⟨hHead, hTail⟩ i entry hEntry
      cases i with
      | zero => exact Option.some.inj hEntry ▸ hHead
      | succ i =>
        rw [hTail i entry hEntry]
        cases i <;> rfl
    · intro hAll
      refine ⟨hAll 0 head rfl, fun i entry hEntry => ?_⟩
      rw [hAll (i + 1) entry hEntry]
      cases i <;> rfl

/-- Whether a list is linked depends on the two hashes of each entry alone. -/
theorem linked_map {before : Option η} {entries : List ε} :
    Linked Prod.fst Prod.snd before (entries.map fun entry => (previous entry, hash entry)) ↔
      Linked previous hash before entries := by
  induction entries generalizing before with
  | nil => exact Iff.rfl
  | cons head tail ih => exact and_congr_right fun _ => ih

theorem linked_append {before : Option η} {entries later : List ε} :
    Linked previous hash before (entries ++ later) ↔
      Linked previous hash before entries ∧ Linked previous hash ((lastHash hash entries).or before) later := by
  induction entries generalizing before with
  | nil => simp only [List.nil_append, Linked, lastHash, List.getLast?_nil, Option.map_none, Option.none_or, true_and]
  | cons head tail ih =>
    rw [List.cons_append, Linked, ih, Linked, and_assoc]
    have hLast : (lastHash hash tail).or (some (hash head)) = (lastHash hash (head :: tail)).or before := by
      cases tail with
      | nil => rfl
      | cons next rest =>
        rw [lastHash, lastHash, List.getLast?_cons_cons, List.getLast?_cons, Option.map_some, Option.some_or,
          Option.some_or]
    rw [hLast]

theorem linked_concat {entries : List ε} {entry : ε} :
    Linked previous hash none (entries ++ [entry]) ↔
      Linked previous hash none entries ∧ previous entry = lastHash hash entries := by
  rw [linked_append]
  simp only [Linked, and_true, Option.or_none]

theorem lastHash_concat {entries : List ε} {entry : ε} :
    lastHash hash (entries ++ [entry]) = some (hash entry) := by
  rw [lastHash, List.getLast?_concat, Option.map_some]

theorem lastHash_eq_none {entries : List ε} (h : lastHash hash entries = none) : entries = [] := by
  rwa [lastHash, Option.map_eq_none_iff, List.getLast?_eq_none_iff] at h

theorem exists_mem_of_forall₂ {R : ε → ε → Prop} {entries others : List ε} (h : List.Forall₂ R entries others)
    {other : ε} (hMem : other ∈ others) : ∃ entry ∈ entries, R entry other := by
  induction h with
  | nil => cases hMem
  | cons hHead _ ih =>
    rcases List.mem_cons.mp hMem with rfl | hRest
    · exact ⟨_, List.mem_cons_self, hHead⟩
    · obtain ⟨entry, hEntry, hOne⟩ := ih hRest
      exact ⟨entry, List.mem_cons_of_mem _ hEntry, hOne⟩

/-- Chains that end in one hash are related entry by entry. -/
theorem forall₂_of_lastHash {P Q : ε → Prop} {R : ε → ε → Prop}
    (hEntry : ∀ entry other, P entry → Q other → hash entry = hash other →
      previous entry = previous other ∧ R entry other)
    {entries others : List ε} (hLinked : Linked previous hash none entries)
    (hLinked' : Linked previous hash none others) (hP : ∀ entry ∈ entries, P entry) (hQ : ∀ other ∈ others, Q other)
    (hLast : lastHash hash entries = lastHash hash others) : List.Forall₂ R entries others := by
  induction entries using List.reverseRecOn generalizing others with
  | nil =>
    obtain rfl := lastHash_eq_none hLast.symm
    exact .nil
  | append_singleton front entry ih =>
    rcases List.eq_nil_or_concat others with rfl | ⟨front', other, rfl⟩
    · rw [lastHash_concat] at hLast
      cases hLast
    · rw [List.concat_eq_append] at hLinked' hQ hLast ⊢
      rw [lastHash_concat, lastHash_concat, Option.some_inj] at hLast
      rw [linked_concat] at hLinked hLinked'
      rw [List.forall_mem_append, List.forall_mem_singleton] at hP hQ
      obtain ⟨hPrevious, hR⟩ := hEntry entry other hP.2 hQ.2 hLast
      rw [hLinked.2, hLinked'.2] at hPrevious
      exact List.rel_append (ih hLinked.1 hLinked'.1 hP.1 hQ.1 hPrevious) (.cons hR .nil)

end Library
