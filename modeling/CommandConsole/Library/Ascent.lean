import CommandConsole.Library.Digraph
import Mathlib.Data.List.Chain
import Mathlib.Data.List.Nodup

/-! # Climbing from parent to parent

Every node has at most one parent. A climb lists the parents from the nearest on and stops at
a node that it has passed, which it lists once more.
-/
namespace Library
set_option autoImplicit false

open Relation (TransGen)

variable {V : Type}

def Above (parent : V → Option V) : V → V → Prop := TransGen fun v w => parent v = some w

/-- The parents on the way up, or none where the steps run out. -/
def climb [DecidableEq V] (parent : V → Option V) : Nat → V → List V → Option (List V)
  | 0, _, _ => none
  | steps + 1, v, visited =>
    if v ∈ visited then some []
    else
      match parent v with
      | none => some []
      | some w => (climb parent steps w (v :: visited)).map fun path => w :: path

/-- The path goes from parent to parent, its nodes but the last are met for the first time, and the last
has no parent or was met before. -/
structure Climbed (parent : V → Option V) (visited : List V) (v : V) (path : List V) : Prop where
  chain : (v :: path).IsChain fun a b => parent a = some b
  ends : parent ((v :: path).getLast (List.cons_ne_nil v path)) = none ∨
    (v :: path).getLast (List.cons_ne_nil v path) ∈ visited ++ (v :: path).dropLast
  fresh : ∀ w ∈ (v :: path).dropLast, w ∉ visited
  nodup : (v :: path).dropLast.Nodup

variable {parent : V → Option V} {visited path : List V} {v w : V}

theorem climb_climbed [DecidableEq V] {steps : Nat} (h : climb parent steps v visited = some path) :
    Climbed parent visited v path := by
  induction steps generalizing v visited path with
  | zero => cases h
  | succ steps ih =>
    rw [climb] at h
    split at h
    · rename_i hMet
      obtain rfl := Option.some.inj h
      exact ⟨List.isChain_singleton v, .inr (List.mem_append_left _ hMet), fun _ hMem => (nomatch hMem), List.nodup_nil⟩
    · rename_i hNew
      cases hParent : parent v with
      | none =>
        rw [hParent] at h
        obtain rfl := Option.some.inj h
        exact ⟨List.isChain_singleton v, .inl hParent, fun _ hMem => (nomatch hMem), List.nodup_nil⟩
      | some w =>
        rw [hParent] at h
        obtain ⟨rest, hRest, rfl⟩ := Option.map_eq_some_iff.mp h
        obtain ⟨hChain, hEnds, hFresh, hNodup⟩ := ih hRest
        refine ⟨List.isChain_cons_cons.mpr ⟨hParent, hChain⟩, ?_, ?_, ?_⟩
        · rw [List.getLast_cons (List.cons_ne_nil w rest), List.dropLast_cons_cons]
          refine hEnds.imp_right fun hMem => ?_
          rcases List.mem_append.mp hMem with hOld | hOwn
          · rcases List.mem_cons.mp hOld with hHere | hBefore
            · rw [hHere]
              exact List.mem_append_right _ List.mem_cons_self
            · exact List.mem_append_left _ hBefore
          · exact List.mem_append_right _ (List.mem_cons_of_mem _ hOwn)
        · intro u hu
          rw [List.dropLast_cons_cons] at hu
          rcases List.mem_cons.mp hu with rfl | hRest'
          · exact hNew
          · exact fun hOld => hFresh u hRest' (List.mem_cons_of_mem _ hOld)
        · rw [List.dropLast_cons_cons]
          exact List.nodup_cons.mpr ⟨fun hMem => hFresh v hMem List.mem_cons_self, hNodup⟩

/-- Among finitely many nodes with parents every climb comes to an end. -/
theorem climb_total [DecidableEq V] (nodes : List V) (hNodes : ∀ a b, parent a = some b → a ∈ nodes) {steps : Nat}
    (h : (nodes.filter (· ∉ visited)).length < steps) : ∃ path, climb parent steps v visited = some path := by
  induction steps generalizing v visited with
  | zero => exact absurd h (Nat.not_lt_zero _)
  | succ steps ih =>
    rw [climb]
    split
    · exact ⟨[], rfl⟩
    · rename_i hNew
      cases hParent : parent v with
      | none => exact ⟨[], rfl⟩
      | some w =>
        have hFewer := Digraph.length_filter_notMem_cons_lt (hNodes v w hParent) hNew
        obtain ⟨rest, hRest⟩ := @ih (v :: visited) w (by omega)
        exact ⟨w :: rest, by dsimp only; rw [hRest, Option.map_some]⟩

/-- More steps change nothing about a climb that ends. -/
theorem climb_mono [DecidableEq V] {steps more : Nat} (h : climb parent steps v visited = some path) (hMore : steps ≤ more) :
    climb parent more v visited = some path := by
  induction steps generalizing v visited path more with
  | zero => cases h
  | succ steps ih =>
    obtain ⟨more, rfl⟩ : ∃ m, more = m + 1 := ⟨more - 1, by omega⟩
    rw [climb] at h ⊢
    split
    · rename_i hMet
      rw [if_pos hMet] at h
      exact h
    · rename_i hNew
      rw [if_neg hNew] at h
      cases hParent : parent v with
      | none =>
        rw [hParent] at h
        exact h
      | some w =>
        rw [hParent] at h
        obtain ⟨rest, hRest, rfl⟩ := Option.map_eq_some_iff.mp h
        dsimp only
        rw [ih hRest (Nat.le_of_succ_le_succ hMore), Option.map_some]

theorem above_of_mem_chain (h : (v :: path).IsChain fun a b => parent a = some b) (hMem : w ∈ path) :
    Above parent v w := by
  induction path generalizing v with
  | nil => cases hMem
  | cons u path ih =>
    obtain ⟨hParent, hChain⟩ := List.isChain_cons_cons.mp h
    rcases List.mem_cons.mp hMem with rfl | hRest
    · exact .single hParent
    · exact .head hParent (ih hChain hRest)

theorem parent_mem_of_chain (h : (v :: path).IsChain fun a b => parent a = some b) {a b : V}
    (hMem : a ∈ (v :: path).dropLast) (hParent : parent a = some b) : b ∈ path := by
  induction path generalizing v with
  | nil => cases hMem
  | cons u path ih =>
    obtain ⟨hFirst, hChain⟩ := List.isChain_cons_cons.mp h
    rw [List.dropLast_cons_cons] at hMem
    rcases List.mem_cons.mp hMem with rfl | hRest
    · obtain rfl := Option.some.inj (hFirst.symm.trans hParent)
      exact List.mem_cons_self
    · exact List.mem_cons_of_mem _ (ih hChain hRest)

theorem Climbed.parent_mem (h : Climbed parent [] v path) {a b : V} (hMem : a ∈ v :: path) (hParent : parent a = some b) :
    b ∈ path := by
  have hSplit := List.dropLast_concat_getLast (List.cons_ne_nil v path)
  rw [← hSplit] at hMem
  rcases List.mem_append.mp hMem with hEarly | hLast
  · exact parent_mem_of_chain h.chain hEarly hParent
  · obtain rfl := List.mem_singleton.mp hLast
    rcases h.ends with hNone | hMet
    · exact absurd (hNone.symm.trans hParent) (Option.some_ne_none b).symm
    · exact parent_mem_of_chain h.chain hMet hParent

/-- A climb lists what is above its start. -/
theorem Climbed.mem_iff (h : Climbed parent [] v path) : w ∈ path ↔ Above parent v w := by
  constructor
  · exact above_of_mem_chain h.chain
  · intro hAbove
    induction hAbove with
    | single hParent => exact h.parent_mem List.mem_cons_self hParent
    | tail _ hParent ih => exact h.parent_mem (List.mem_cons_of_mem _ ih) hParent

theorem above_of_chain_append {front back : List V} {a b : V}
    (h : (front ++ a :: (back ++ [b])).IsChain fun a b => parent a = some b) : Above parent a b :=
  above_of_mem_chain h.right_of_append (List.mem_append_right _ List.mem_cons_self)

/-- Above a start whose climb ends at a node without a parent there are no cycles. -/
theorem Climbed.not_above_self (h : Climbed parent [] v path)
    (hNone : parent ((v :: path).getLast (List.cons_ne_nil v path)) = none) (hMem : w ∈ v :: path) :
    ¬Above parent w w := by
  intro hCycle
  have hSplit := List.dropLast_concat_getLast (List.cons_ne_nil v path)
  have hNodup : (v :: path).Nodup := by
    rw [← hSplit]
    refine List.Nodup.append h.nodup (List.nodup_singleton _) fun a ha haLast => ?_
    obtain rfl := List.mem_singleton.mp haLast
    obtain ⟨front, back, hEq⟩ := List.append_of_mem ha
    have hChain := h.chain
    rw [← hSplit, hEq, List.append_assoc, List.cons_append] at hChain
    obtain ⟨b, hb, -⟩ := Relation.TransGen.head'_iff.mp (above_of_chain_append hChain)
    rw [hNone] at hb
    cases hb
  obtain ⟨front, back, hEq⟩ := List.append_of_mem hMem
  have hBack : (w :: back).Nodup := (List.nodup_append.mp (hEq ▸ hNodup)).2.1
  have hFrom : Climbed parent [] w back := by
    refine ⟨?_, .inl ?_, fun _ _ => List.not_mem_nil, hBack.sublist (List.dropLast_sublist _)⟩
    · have hChain := h.chain
      rw [hEq] at hChain
      exact hChain.right_of_append
    · rw [← hNone]
      congr 1
      simp only [hEq]
      exact (List.getLast_append_of_right_ne_nil front (w :: back) (List.cons_ne_nil w back)).symm
  exact (List.nodup_cons.mp hBack).1 (hFrom.mem_iff.mpr hCycle)

/-- A climb lists no node twice, unless it runs into a cycle that its start is not on. -/
theorem Climbed.nodup_iff (h : Climbed parent [] v path) :
    path.Nodup ↔ ∀ w, Above parent v w → Above parent w w → Above parent v v := by
  cases path with
  | nil => exact ⟨fun _ w hw => absurd (h.mem_iff.mpr hw) List.not_mem_nil, fun _ => List.nodup_nil⟩
  | cons u rest =>
    have hSplit := List.dropLast_concat_getLast (List.cons_ne_nil u rest)
    have hLast : (u :: rest).getLast (List.cons_ne_nil u rest) ∈ u :: rest := List.getLast_mem _
    have hEarly := h.nodup
    rw [List.dropLast_cons_cons, List.nodup_cons] at hEarly
    constructor
    · intro hNodup w hw hCycle
      rcases h.ends with hNone | hMet
      · exact absurd hCycle (h.not_above_self hNone (List.mem_cons_of_mem v (h.mem_iff.mpr hw)))
      · rw [List.nil_append, List.getLast_cons (List.cons_ne_nil u rest), List.dropLast_cons_cons] at hMet
        rcases List.mem_cons.mp hMet with hStart | hBefore
        · exact h.mem_iff.mp (hStart ▸ hLast)
        · rw [← hSplit] at hNodup
          exact absurd List.mem_cons_self (List.disjoint_of_nodup_append hNodup hBefore)
    · intro hBack
      rw [← hSplit]
      refine List.Nodup.append hEarly.2 (List.nodup_singleton _) fun a ha haLast => ?_
      obtain rfl := List.mem_singleton.mp haLast
      obtain ⟨front, back, hEq⟩ := List.append_of_mem ha
      have hCycle : Above parent ((u :: rest).getLast (List.cons_ne_nil u rest))
          ((u :: rest).getLast (List.cons_ne_nil u rest)) := by
        have hChain := h.chain
        rw [← hSplit, hEq, List.append_assoc, List.cons_append, ← List.cons_append] at hChain
        exact above_of_chain_append hChain
      have hStart := h.mem_iff.mpr (hBack _ (h.mem_iff.mp hLast) hCycle)
      rw [← hSplit] at hStart
      rcases List.mem_append.mp hStart with hBefore | hHere
      · exact hEarly.1 hBefore
      · obtain rfl := List.mem_singleton.mp hHere
        exact hEarly.1 ha

/-- The climb from the node never comes back to where it was. -/
def AcyclicAbove (parent : V → Option V) (v : V) : Prop :=
  ¬Above parent v v ∧ ∀ w, Above parent v w → ¬Above parent w w

theorem Climbed.acyclicAbove (h : Climbed parent [] v path)
    (hNone : parent ((v :: path).getLast (List.cons_ne_nil v path)) = none) : AcyclicAbove parent v :=
  ⟨h.not_above_self hNone List.mem_cons_self, fun _ hw =>
    h.not_above_self hNone (List.mem_cons_of_mem v (h.mem_iff.mpr hw))⟩

theorem above_iff_of_parent {p : V} (h : parent v = some p) : Above parent v w ↔ w = p ∨ Above parent p w := by
  constructor
  · intro hAbove
    obtain ⟨u, hu, hRest⟩ := Relation.TransGen.head'_iff.mp hAbove
    obtain rfl := Option.some.inj (h.symm.trans hu)
    rcases Relation.reflTransGen_iff_eq_or_transGen.mp hRest with rfl | hHigher
    · exact .inl rfl
    · exact .inr hHigher
  · rintro (rfl | hHigher)
    · exact .single h
    · exact .head h hHigher

end Library
