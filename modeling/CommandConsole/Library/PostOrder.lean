import CommandConsole.Library.Digraph
import Mathlib.Tactic.ByContra
import Mathlib.Tactic.Tauto

/-! # Lists in which nothing comes before what it needs

A list is grounded when every node finds its successors among the nodes before it. The emissions of a
depth-first walk without cycles are grounded, and so is the list of their first occurrences.
-/
namespace Library
set_option autoImplicit false

open Relation (TransGen)

variable {V : Type} (next : V → List V)

/-- Every node of the list finds its successors among the nodes before it. -/
def Grounded : List V → List V → Prop
  | _, [] => True
  | before, v :: rest => next v ⊆ before ∧ Grounded (v :: before) rest

namespace Grounded

variable {next} {before before' l l' : List V} {v : V}

theorem mono (h : Grounded next before l) (hSub : before ⊆ before') : Grounded next before' l := by
  induction l generalizing before before' with
  | nil => trivial
  | cons v rest ih => exact ⟨List.Subset.trans h.1 hSub, ih h.2 (List.cons_subset_cons v hSub)⟩

theorem append (h : Grounded next before l) (h' : Grounded next (l ++ before) l') : Grounded next before (l ++ l') := by
  induction l generalizing before with
  | nil => exact h'
  | cons v rest ih =>
    refine ⟨h.1, ih h.2 (h'.mono ?_)⟩
    intro u hu
    simp only [List.cons_append, List.mem_cons, List.mem_append] at hu ⊢
    tauto

theorem closed (h : Grounded next before l) : ∀ u ∈ l, next u ⊆ l ++ before := by
  induction l generalizing before with
  | nil => exact fun _ hNone => nomatch hNone
  | cons v rest ih =>
    intro u hu x hx
    rw [List.cons_append, List.mem_cons]
    rcases List.mem_cons.mp hu with rfl | hu
    · exact .inr (List.mem_append_right _ (h.1 hx))
    · have hIn := ih h.2 u hu hx
      rw [List.mem_append, List.mem_cons] at hIn
      rw [List.mem_append]
      tauto

theorem split {after : List V} (h : Grounded next before (l ++ v :: after)) : next v ⊆ l ++ before := by
  induction l generalizing before with
  | nil => exact h.1
  | cons u rest ih =>
    intro x hx
    have hIn := ih h.2 hx
    simp only [List.cons_append, List.mem_cons, List.mem_append] at hIn ⊢
    tauto

theorem erase [DecidableEq V] (h : Grounded next before l) (hOld : v ∈ before) :
    Grounded next before (l.filter fun u => !u == v) := by
  induction l generalizing before with
  | nil => trivial
  | cons u rest ih =>
    rw [List.filter_cons]
    split
    · exact ⟨h.1, ih h.2 (List.mem_cons_of_mem _ hOld)⟩
    · rename_i hSame
      have hEq : u = v := by simpa using hSame
      refine ih (h.2.mono ?_) hOld
      exact List.cons_subset.mpr ⟨hEq ▸ hOld, List.Subset.refl _⟩

theorem eraseDups [DecidableEq V] (h : Grounded next before l) : Grounded next before l.eraseDups := by
  induction hLength : l.length using Nat.strongRecOn generalizing before l with
  | _ n ih =>
    cases l with
    | nil => trivial
    | cons v rest =>
      rw [List.eraseDups_cons]
      refine ⟨h.1, ih (rest.filter fun u => !u == v).length ?_ (h.2.erase List.mem_cons_self) rfl⟩
      rw [← hLength, List.length_cons]
      exact Nat.lt_succ_of_le (List.length_filter_le _ _)

theorem nodup_eraseDups [DecidableEq V] (l : List V) : l.eraseDups.Nodup := by
  induction hLength : l.length using Nat.strongRecOn generalizing l with
  | _ n ih =>
    cases l with
    | nil => exact List.nodup_nil
    | cons v rest =>
      rw [List.eraseDups_cons, List.nodup_cons]
      refine ⟨fun hIn => ?_, ih (rest.filter fun u => !u == v).length ?_ _ rfl⟩
      · rw [List.mem_eraseDups, List.mem_filter] at hIn
        simp at hIn
      · rw [← hLength, List.length_cons]
        exact Nat.lt_succ_of_le (List.length_filter_le _ _)

/-- Nothing that a node needs, at whatever distance, comes after it. -/
theorem pairwise (h : Grounded next before l) (hBefore : ∀ u ∈ before, next u ⊆ before) (hNodup : l.Nodup)
    (hApart : ∀ u ∈ l, u ∉ before) : l.Pairwise fun u w => ¬ TransGen (fun a b => b ∈ next a) u w := by
  induction l generalizing before with
  | nil => exact .nil
  | cons v rest ih =>
    have hNeeds : ∀ w, TransGen (fun a b => b ∈ next a) v w → w ∈ before := by
      intro w hPath
      induction hPath with
      | single hNext => exact h.1 hNext
      | tail _ hNext hIn => exact hBefore _ hIn hNext
    rw [List.nodup_cons] at hNodup
    refine List.pairwise_cons.mpr ⟨fun w hw hPath => ?_, ih h.2 ?_ hNodup.2 ?_⟩
    · exact hApart w (List.mem_cons_of_mem _ hw) (hNeeds w hPath)
    · intro u hu
      rcases List.mem_cons.mp hu with rfl | hu
      · exact List.subset_cons_of_subset _ h.1
      · exact List.subset_cons_of_subset _ (hBefore u hu)
    · intro u hu
      rw [List.mem_cons, not_or]
      refine ⟨?_, hApart u (List.mem_cons_of_mem _ hu)⟩
      rintro rfl
      exact hNodup.1 hu

end Grounded

section Walk

variable [DecidableEq V]

/-- A walk emits what lies behind each successor and then the successor, and passes over the nodes it has seen.
The result is what is emitted, with the nodes seen. -/
def emit : Nat → V → List V → List V × List V
  | 0, _, seen => ([], seen)
  | depth + 1, v, seen =>
    if v ∈ seen then ([], seen)
    else (next v).foldl (fun done w =>
      let inner := emit depth w done.2
      (done.1 ++ inner.1 ++ [w], inner.2)) ([], v :: seen)

/-- What a walk has done so far: the nodes seen that are not active have their successors emitted. -/
structure Emitted (before active seen emitted seen' : List V) : Prop where
  grounded : Grounded next before emitted
  settled : ∀ u ∈ seen', u ∈ active ∨ next u ⊆ emitted ++ before
  grows : seen ⊆ seen'

variable {g : Digraph V}

theorem emit_spec (hAcyclic : g.Acyclic) (depth : Nat) (v : V) (before active seen : List V)
    (hDepth : (g.sources.filter (· ∉ seen)).length < depth) (hActive : ∀ u ∈ active, TransGen g.Leads u v)
    (hSeen : ∀ u ∈ seen, u ∈ active ∨ g.next u ⊆ before) :
    Emitted g.next before active seen (emit g.next depth v seen).1 (emit g.next depth v seen).2 ∧
      g.next v ⊆ (emit g.next depth v seen).1 ++ before := by
  induction depth generalizing v before active seen with
  | zero => exact absurd hDepth (Nat.not_lt_zero _)
  | succ depth ih =>
    rw [emit]
    split
    · rename_i hOld
      have hSettled := (hSeen v hOld).resolve_left fun hIn => hAcyclic v (hActive v hIn)
      exact ⟨⟨trivial, hSeen, List.Subset.refl _⟩, hSettled⟩
    · rename_i hNew
      -- after some of the successors, they are emitted and the node itself is still active
      have hFold : ∀ (todo : List V) (done : List V × List V), todo ⊆ g.next v →
          Emitted g.next before (v :: active) (v :: seen) done.1 done.2 →
          let last := todo.foldl (fun done w =>
            let inner := emit g.next depth w done.2
            (done.1 ++ inner.1 ++ [w], inner.2)) done
          Emitted g.next before (v :: active) (v :: seen) last.1 last.2 ∧ todo ⊆ last.1 ∧ done.1 ⊆ last.1 := by
        intro todo
        induction todo with
        | nil => exact fun done _ h => ⟨h, List.nil_subset _, List.Subset.refl _⟩
        | cons w todo ihTodo =>
          intro done hTodo h
          have hNext : w ∈ g.next v := hTodo List.mem_cons_self
          have hSource : v ∈ g.sources := Digraph.Leads.mem_sources hNext
          have hShorter : (g.sources.filter (· ∉ done.2)).length < depth := by
            have hFewer := Digraph.length_filter_notMem_cons_lt hSource hNew
            have hAnti := Digraph.length_filter_notMem_anti g.sources h.grows
            omega
          obtain ⟨hInner, hNeeds⟩ := ih w (done.1 ++ before) (v :: active) done.2 hShorter
            (fun u hu => by
              rcases List.mem_cons.mp hu with rfl | hu
              · exact .single hNext
              · exact (hActive u hu).tail hNext) h.settled
          have hMine : Emitted g.next before (v :: active) (v :: seen)
              (done.1 ++ (emit g.next depth w done.2).1 ++ [w]) (emit g.next depth w done.2).2 := by
            refine ⟨(h.grounded.append hInner.grounded).append ⟨?_, trivial⟩, fun u hu => ?_,
              List.Subset.trans h.grows hInner.grows⟩
            · intro u hu
              have hIn := hNeeds hu
              simp only [List.mem_append] at hIn ⊢
              tauto
            · refine (hInner.settled u hu).imp_right fun hSub => ?_
              intro x hx
              have hIn := hSub hx
              simp only [List.mem_append] at hIn ⊢
              tauto
          obtain ⟨hLast, hRest, hKeep⟩ := ihTodo (done.1 ++ (emit g.next depth w done.2).1 ++ [w],
            (emit g.next depth w done.2).2) (fun u hu => hTodo (List.mem_cons_of_mem _ hu)) hMine
          refine ⟨hLast, List.cons_subset.mpr ⟨hKeep ?_, hRest⟩, List.Subset.trans ?_ hKeep⟩
          · exact List.mem_append_right _ List.mem_cons_self
          · exact fun u hu => List.mem_append_left _ (List.mem_append_left _ hu)
      obtain ⟨hLast, hAll, -⟩ := hFold (g.next v) ([], v :: seen) (List.Subset.refl _) ⟨trivial, fun u hu => by
        rcases List.mem_cons.mp hu with rfl | hu
        · exact .inl List.mem_cons_self
        · exact (hSeen u hu).imp_left (List.mem_cons_of_mem _), List.Subset.refl _⟩
      have hNode := List.subset_append_of_subset_left before hAll
      refine ⟨⟨hLast.grounded, fun u hu => ?_, fun u hu => hLast.grows (List.mem_cons_of_mem _ hu)⟩, hNode⟩
      rcases hLast.settled u hu with hIn | hSettled
      · rcases List.mem_cons.mp hIn with rfl | hIn
        · exact .inr hNode
        · exact .inl hIn
      · exact .inr hSettled

/-- The emissions of a whole walk, and after them its root. -/
theorem emit_grounded (hAcyclic : g.Acyclic) {depth : Nat} (hDepth : g.sources.length < depth) (v : V) :
    Grounded g.next [] ((emit g.next depth v []).1 ++ [v]) := by
  have hFew : (g.sources.filter (· ∉ ([] : List V))).length < depth :=
    Nat.lt_of_le_of_lt (List.length_filter_le _ _) hDepth
  obtain ⟨hEmitted, hNeeds⟩ := emit_spec hAcyclic depth v [] [] [] hFew (fun _ h => nomatch h) fun _ h => nomatch h
  exact hEmitted.grounded.append ⟨hNeeds, trivial⟩

end Walk
end Library
