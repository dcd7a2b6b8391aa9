import CommandConsole.Library.Digraph
import Mathlib.Data.List.Chain

/-! # The first cycle of a depth-first search

The search keeps the nodes it has visited and the stack of those whose visit has not ended. It stops at the first
node that it meets again on the stack.
-/
namespace Library
set_option autoImplicit false

open Relation (TransGen ReflTransGen)

variable {V : Type}

structure Trace (V : Type) where
  visited : List V
  stack : List V
  cycle : Option (List V)

/-- A walk along at least one edge that ends where it begins. -/
def Digraph.IsCycle (g : Digraph V) (walk : List V) : Prop :=
  ∃ v inner, walk = v :: (inner ++ [v]) ∧ walk.IsChain g.Leads

theorem Digraph.IsCycle.onCycle {g : Digraph V} {walk : List V} (h : g.IsCycle walk) : ∃ v ∈ walk, g.OnCycle v := by
  obtain ⟨v, inner, rfl, hChain⟩ := h
  refine ⟨v, List.mem_cons_self, ?_⟩
  have hReach : ∀ (inner : List V) (u : V), (u :: (inner ++ [v])).IsChain g.Leads → TransGen g.Leads u v := by
    intro inner
    induction inner with
    | nil => exact fun u hWalk => .single (List.isChain_cons_cons.mp hWalk).1
    | cons w inner ih =>
      intro u hWalk
      obtain ⟨hFirst, hRest⟩ := List.isChain_cons_cons.mp hWalk
      exact .head hFirst (ih w hRest)
  exact hReach inner v hChain

/-- A walk that comes back to one of its nodes at its end. -/
def Digraph.IsLasso (g : Digraph V) (walk : List V) : Prop :=
  walk.IsChain g.Leads ∧ ∃ trail last, walk = trail ++ [last] ∧ last ∈ trail

theorem Digraph.IsLasso.not_acyclic {g : Digraph V} {walk : List V} (h : g.IsLasso walk) : ¬ g.Acyclic := by
  obtain ⟨hChain, trail, last, rfl, hMem⟩ := h
  obtain ⟨before, after, rfl⟩ := List.append_of_mem hMem
  have hLoop : (last :: (after ++ [last])).IsChain g.Leads := hChain.suffix ⟨before, by simp⟩
  obtain ⟨v, -, hCycle⟩ := Digraph.IsCycle.onCycle ⟨last, after, rfl, hLoop⟩
  exact fun hAcyclic => hAcyclic v hCycle

section Search

variable [DecidableEq V]

def seek (next : V → List V) : Nat → V → Trace V → Trace V
  | 0, _, s => s
  | depth + 1, v, s =>
    if s.cycle.isSome then s
    else if v ∈ s.stack then { s with cycle := some (s.stack.drop (s.stack.idxOf v) ++ [v]) }
    else if v ∈ s.visited then s
    else
      let inner := (next v).foldl (fun s w => seek next depth w s)
        { s with visited := v :: s.visited, stack := s.stack ++ [v] }
      if inner.cycle.isSome then inner else { inner with stack := inner.stack.dropLast }

def firstCycle (next : V → List V) (depth : Nat) (roots : List V) : Option (List V) :=
  (roots.foldl (fun s v => seek next depth v s) ⟨[], [], none⟩).cycle

variable {g : Digraph V}

/-- No cycle can be reached from a node whose visit has ended. -/
def Trace.Cleared (g : Digraph V) (s : Trace V) : Prop := ∀ u ∈ s.visited, u ∈ s.stack ∨ ¬ g.CyclicFrom u

/-- How a search goes on from a state without a cycle: it has found one, or it is where it was and knows more. -/
structure Trace.Next (g : Digraph V) (s t : Trace V) : Prop where
  found : ∀ walk ∈ t.cycle, g.IsCycle walk
  back : t.cycle = none → t.stack = s.stack
  grows : t.cycle = none → s.visited ⊆ t.visited
  cleared : t.cycle = none → t.Cleared g

theorem seek_of_found {next : V → List V} {depth : Nat} {v : V} {s : Trace V} (h : s.cycle.isSome = true) :
    seek next depth v s = s := by
  cases depth with
  | zero => rfl
  | succ depth => rw [seek, if_pos h]

theorem foldl_seek_of_found {next : V → List V} {depth : Nat} {todo : List V} {s : Trace V} (h : s.cycle.isSome = true) :
    todo.foldl (fun s w => seek next depth w s) s = s := by
  induction todo with
  | nil => rfl
  | cons w todo ih => rw [List.foldl_cons, seek_of_found h, ih]

omit [DecidableEq V] in
theorem Trace.Next.refl {t : Trace V} (hNone : t.cycle = none) (hCleared : t.Cleared g) : t.Next g t := by
  refine ⟨fun walk hFound => ?_, fun _ => rfl, fun _ => List.Subset.refl _, fun _ => hCleared⟩
  rw [hNone] at hFound
  cases hFound

/-- Searches from several nodes, each from the stack of the first one. -/
theorem foldl_seek {depth : Nat} {base stack todo : List V}
    (hSeek : ∀ w ∈ todo, ∀ t : Trace V, t.cycle = none → t.stack = stack → base ⊆ t.visited → t.Cleared g →
      t.Next g (seek g.next depth w t) ∧ ((seek g.next depth w t).cycle = none → ¬ g.CyclicFrom w))
    (t : Trace V) (hNone : t.cycle = none) (hStack : t.stack = stack) (hBase : base ⊆ t.visited) (hCleared : t.Cleared g) :
    t.Next g (todo.foldl (fun s w => seek g.next depth w s) t) ∧
      ((todo.foldl (fun s w => seek g.next depth w s) t).cycle = none → ∀ w ∈ todo, ¬ g.CyclicFrom w) := by
  induction todo generalizing t with
  | nil => exact ⟨.refl hNone hCleared, fun _ w hw => nomatch hw⟩
  | cons w todo ih =>
    obtain ⟨hFirst, hBehind⟩ := hSeek w List.mem_cons_self t hNone hStack hBase hCleared
    rw [List.foldl_cons]
    cases hCycle : (seek g.next depth w t).cycle with
    | some walk =>
      rw [foldl_seek_of_found (by rw [hCycle]; rfl)]
      exact ⟨hFirst, fun h => by rw [hCycle] at h; cases h⟩
    | none =>
      obtain ⟨hRest, hOthers⟩ := ih (fun u hu => hSeek u (List.mem_cons_of_mem _ hu)) (seek g.next depth w t) hCycle
        ((hFirst.back hCycle).trans hStack) (List.Subset.trans hBase (hFirst.grows hCycle)) (hFirst.cleared hCycle)
      refine ⟨⟨hRest.found, fun h => (hRest.back h).trans (hFirst.back hCycle),
        fun h => List.Subset.trans (hFirst.grows hCycle) (hRest.grows h), hRest.cleared⟩, fun h u hu => ?_⟩
      rcases List.mem_cons.mp hu with rfl | hu
      · exact hBehind hCycle
      · exact hOthers h u hu

/-- The walk closes where it meets the stack. -/
theorem isCycle_of_mem_stack {stack : List V} {v : V} (hWalk : (stack ++ [v]).IsChain g.Leads) (hMem : v ∈ stack) :
    g.IsCycle (stack.drop (stack.idxOf v) ++ [v]) := by
  have hIndex := List.idxOf_lt_length_of_mem hMem
  have hDrop : stack.drop (stack.idxOf v) = v :: stack.drop (stack.idxOf v + 1) := by
    rw [List.drop_eq_getElem_cons hIndex, List.getElem_idxOf hIndex]
  refine ⟨v, stack.drop (stack.idxOf v + 1), by rw [hDrop, List.cons_append], ?_⟩
  have hSuffix : stack.drop (stack.idxOf v) ++ [v] <:+ stack ++ [v] :=
    ⟨stack.take (stack.idxOf v), by rw [← List.append_assoc, List.take_append_drop]⟩
  exact hWalk.suffix hSuffix

theorem seek_spec (depth : Nat) (v : V) (s : Trace V) (hNone : s.cycle = none)
    (hDepth : (g.sources.filter (· ∉ s.visited)).length < depth) (hWalk : (s.stack ++ [v]).IsChain g.Leads)
    (hCleared : s.Cleared g) :
    s.Next g (seek g.next depth v s) ∧ ((seek g.next depth v s).cycle = none → ¬ g.CyclicFrom v) := by
  induction depth generalizing v s with
  | zero => exact absurd hDepth (Nat.not_lt_zero _)
  | succ depth ih =>
    rw [seek, hNone, if_neg (by simp)]
    split
    · rename_i hMet
      refine ⟨⟨fun walk hFound => ?_, fun h => (nomatch h), fun h => (nomatch h), fun h => (nomatch h)⟩, fun h => (nomatch h)⟩
      obtain rfl := Option.some.inj hFound
      exact isCycle_of_mem_stack hWalk hMet
    · rename_i hOff
      split
      · rename_i hOld
        exact ⟨.refl hNone hCleared, fun _ => (hCleared v hOld).resolve_left hOff⟩
      · rename_i hNew
        have hSeek : ∀ w ∈ g.next v, ∀ t : Trace V, t.cycle = none → t.stack = s.stack ++ [v] → v :: s.visited ⊆ t.visited →
            t.Cleared g → t.Next g (seek g.next depth w t) ∧
              ((seek g.next depth w t).cycle = none → ¬ g.CyclicFrom w) := by
          intro w hNext t hNone' hStack hVisited hCleared'
          have hFewer := Digraph.length_filter_notMem_cons_lt (Digraph.Leads.mem_sources hNext) hNew
          have hAnti := Digraph.length_filter_notMem_anti g.sources hVisited
          refine ih w t hNone' (by omega) ?_ hCleared'
          rw [hStack]
          refine List.isChain_append.mpr ⟨hWalk, .singleton w, fun a ha b hb => ?_⟩
          rw [List.getLast?_append, List.getLast?_singleton, Option.some_or, Option.mem_some_iff] at ha
          rw [List.head?_cons, Option.mem_some_iff] at hb
          exact ha ▸ hb ▸ hNext
        obtain ⟨hLast, hBehind⟩ := foldl_seek hSeek ⟨v :: s.visited, s.stack ++ [v], none⟩ rfl rfl (List.Subset.refl _)
          fun u hu => by
            rcases List.mem_cons.mp hu with rfl | hu
            · exact .inl (List.mem_append_right _ List.mem_cons_self)
            · exact (hCleared u hu).imp_left (List.mem_append_left _)
        generalize (g.next v).foldl (fun s w => seek g.next depth w s) ⟨v :: s.visited, s.stack ++ [v], none⟩ = last at hLast hBehind
        dsimp only
        cases hCycle : last.cycle with
        | some walk =>
          simp only [Option.isSome_some, if_true]
          refine ⟨⟨hLast.found, fun h => ?_, fun h => ?_, fun h => ?_⟩, fun h => ?_⟩
          all_goals
            rw [hCycle] at h
            cases h
        | none =>
          have hClear : ¬ g.CyclicFrom v := fun hCyclic => by
            obtain ⟨w, hLeads, hFrom⟩ := hCyclic.exists_leads
            exact hBehind hCycle w hLeads hFrom
          rw [if_neg (by simp)]
          have hStack : last.stack = s.stack ++ [v] := hLast.back hCycle
          have hEnd : last.stack.dropLast = s.stack := by rw [hStack, List.dropLast_concat]
          refine ⟨⟨fun walk hFound => (nomatch hFound), fun _ => hEnd, fun _ u hu => ?_, fun _ u hu => ?_⟩, fun _ => hClear⟩
          · exact hLast.grows hCycle (List.mem_cons_of_mem _ hu)
          · rcases hLast.cleared hCycle u hu with hIn | hSafe
            · rw [hStack] at hIn
              rcases List.mem_append.mp hIn with hIn | hSelf
              · refine .inl ?_
                change u ∈ last.stack.dropLast
                rw [hEnd]
                exact hIn
              · obtain rfl := List.mem_singleton.mp hSelf
                exact .inr hClear
            · exact .inr hSafe

/-- What the search finds is a cycle, and it finds one where there is one. -/
theorem firstCycle_spec {depth : Nat} (hDepth : g.sources.length < depth) {roots : List V} (hRoots : g.sources ⊆ roots) :
    (∀ walk, firstCycle g.next depth roots = some walk → g.IsCycle walk) ∧
      (firstCycle g.next depth roots = none ↔ g.Acyclic) := by
  have hSeek : ∀ v ∈ roots, ∀ t : Trace V, t.cycle = none → t.stack = [] → [] ⊆ t.visited → t.Cleared g →
      t.Next g (seek g.next depth v t) ∧ ((seek g.next depth v t).cycle = none → ¬ g.CyclicFrom v) := by
    intro v _ t hNone hStack _ hCleared
    refine seek_spec depth v t hNone ?_ (by rw [hStack]; exact .singleton v) hCleared
    exact Nat.lt_of_le_of_lt (List.length_filter_le _ _) hDepth
  obtain ⟨hNext, hNone⟩ := foldl_seek hSeek ⟨[], [], none⟩ rfl rfl (List.nil_subset _) fun _ h => nomatch h
  refine ⟨hNext.found, fun h v hCycle => ?_, fun hAcyclic => ?_⟩
  · obtain ⟨w, hLeads, -⟩ := TransGen.head'_iff.mp hCycle
    exact hNone h v (hRoots (Digraph.Leads.mem_sources hLeads)) hCycle.cyclicFrom
  · cases hFound : firstCycle g.next depth roots with
    | none => rfl
    | some walk =>
      obtain ⟨v, -, hCycle⟩ := (hNext.found walk hFound).onCycle
      exact absurd hCycle (hAcyclic v)

end Search
end Library
