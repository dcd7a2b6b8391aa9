import Mathlib.Logic.Relation
import Mathlib.Algebra.GroupWithZero.Nat

/-! # Searches of a directed graph

A graph gives every node the list of its successors; only the finitely many
sources have any. A path search keeps the nodes of the current path and stops
when it meets one of them again. A reachability search keeps the nodes it has
seen and the ones it still has to look at; it is a state with a step, so that it
can also run against a graph that changes between its steps.
-/
namespace Library
set_option autoImplicit false

open Relation (ReflTransGen TransGen)

/-- A new edge makes no endless descent unless it closes a cycle. -/
theorem wellFounded_insert {α : Type} {r r' : α → α → Prop} {p q : α} (h : WellFounded r)
    (hEdges : ∀ a b, r' a b → r a b ∨ a = p ∧ b = q) (hBack : ¬ ReflTransGen r q p) : WellFounded r' := by
  have hBelow : ∀ z, ReflTransGen r z p → Acc r' z := by
    intro z
    induction z using h.induction with
    | _ z ih =>
      intro hReach
      refine .intro z fun a hEdge => ?_
      rcases hEdges a z hEdge with hOld | ⟨_, rfl⟩
      · exact ih a hOld (.head hOld hReach)
      · exact absurd hReach hBack
  refine ⟨fun z => ?_⟩
  induction z using h.induction with
  | _ z ih =>
    refine .intro z fun a hEdge => ?_
    rcases hEdges a z hEdge with hOld | ⟨rfl, _⟩
    · exact ih a hOld
    · exact hBelow a .refl

structure Digraph (V : Type) where
  next : V → List V
  sources : List V
  next_eq_nil : ∀ v, v ∉ sources → next v = []

namespace Digraph

variable {V : Type}

def Leads (g : Digraph V) (v w : V) : Prop := w ∈ g.next v

def OnCycle (g : Digraph V) (v : V) : Prop := TransGen g.Leads v v

/-- A cycle can be reached from the node. -/
def CyclicFrom (g : Digraph V) (v : V) : Prop := ∃ w, ReflTransGen g.Leads v w ∧ g.OnCycle w

def Acyclic (g : Digraph V) : Prop := ∀ v, ¬ g.OnCycle v

theorem Leads.mem_sources {g : Digraph V} {v w : V} (h : g.Leads v w) : v ∈ g.sources := by
  refine Classical.byContradiction fun hOut => ?_
  rw [Leads, g.next_eq_nil v hOut] at h
  cases h

theorem CyclicFrom.of_leads {g : Digraph V} {v w : V} (hLeads : g.Leads v w) (h : g.CyclicFrom w) :
    g.CyclicFrom v := by
  obtain ⟨u, hReach, hCycle⟩ := h
  exact ⟨u, .head hLeads hReach, hCycle⟩

theorem OnCycle.cyclicFrom {g : Digraph V} {v : V} (h : g.OnCycle v) : g.CyclicFrom v := ⟨v, .refl, h⟩

theorem CyclicFrom.exists_leads {g : Digraph V} {v : V} (h : g.CyclicFrom v) :
    ∃ w, g.Leads v w ∧ g.CyclicFrom w := by
  obtain ⟨u, hReach, hCycle⟩ := h
  rcases hReach.cases_head with rfl | ⟨w, hLeads, hRest⟩
  · obtain ⟨w, hLeads, hBack⟩ := TransGen.head'_iff.mp hCycle
    exact ⟨w, hLeads, v, hBack, hCycle⟩
  · exact ⟨w, hLeads, u, hRest, hCycle⟩

theorem CyclicFrom.mono {g g' : Digraph V} (hSub : ∀ v w, g.Leads v w → g'.Leads v w) {v : V}
    (h : g.CyclicFrom v) : g'.CyclicFrom v := by
  obtain ⟨w, hReach, hCycle⟩ := h
  exact ⟨w, ReflTransGen.mono hSub _ _ hReach, TransGen.mono hSub _ _ hCycle⟩

theorem acyclic_of_rank {g : Digraph V} (rank : V → Nat) (h : ∀ v w, g.Leads v w → rank v < rank w) :
    g.Acyclic := by
  have hUp : ∀ {v w}, TransGen g.Leads v w → rank v < rank w := by
    intro v w hPath
    induction hPath with
    | single hLeads => exact h _ _ hLeads
    | tail _ hLeads ih => exact Nat.lt_trans ih (h _ _ hLeads)
  exact fun v hCycle => Nat.lt_irrefl _ (hUp hCycle)

theorem acyclic_iff_no_path_back {g : Digraph V} :
    g.Acyclic ↔ ∀ v w, g.Leads v w → ¬ ReflTransGen g.Leads w v := by
  constructor
  · exact fun h v w hLeads hBack => h v (.head' hLeads hBack)
  · intro h v hCycle
    obtain ⟨w, hLeads, hBack⟩ := TransGen.head'_iff.mp hCycle
    exact h v w hLeads hBack

theorem Acyclic.of_leads {g g' : Digraph V} (h : g.Acyclic) (hSub : ∀ v w, g'.Leads v w → g.Leads v w) :
    g'.Acyclic := fun v hCycle => h v (TransGen.mono hSub v v hCycle)

/-- A new edge closes a cycle only through a path back from its end. -/
theorem Acyclic.insert {g g' : Digraph V} {a b : V} (h : g.Acyclic)
    (hEdges : ∀ v w, g'.Leads v w → g.Leads v w ∨ v = a ∧ w = b) (hBack : ¬ ReflTransGen g.Leads b a) :
    g'.Acyclic := by
  have hPath : ∀ {v w}, ReflTransGen g'.Leads v w →
      ReflTransGen g.Leads v w ∨ ReflTransGen g.Leads v a ∧ ReflTransGen g.Leads b w := by
    intro v w hReach
    induction hReach with
    | refl => exact .inl .refl
    | @tail u w _ hLeads ih =>
      rcases hEdges u w hLeads with hOld | ⟨rfl, rfl⟩
      · rcases ih with ih | ⟨hTo, hFrom⟩
        · exact .inl (ih.tail hOld)
        · exact .inr ⟨hTo, hFrom.tail hOld⟩
      · rcases ih with ih | ⟨hTo, _⟩
        · exact .inr ⟨ih, .refl⟩
        · exact .inr ⟨hTo, .refl⟩
  refine acyclic_iff_no_path_back.mpr fun v w hLeads hReturn => ?_
  rcases hEdges v w hLeads with hOld | ⟨rfl, rfl⟩
  · rcases hPath hReturn with hOldPath | ⟨hTo, hFrom⟩
    · exact h v (.head' hOld hOldPath)
    · exact hBack (hFrom.trans (.head hOld hTo))
  · rcases hPath hReturn with hOldPath | ⟨hTo, _⟩
    · exact hBack hOldPath
    · exact hBack hTo

section Searches

variable [DecidableEq V]

theorem length_filter_notMem_cons_lt {l visited : List V} {v : V} (hMem : v ∈ l) (hNew : v ∉ visited) :
    (l.filter (· ∉ v :: visited)).length < (l.filter (· ∉ visited)).length := by
  have hSplit : l.filter (· ∉ v :: visited) = (l.filter (· ∉ visited)).filter (· ≠ v) := by
    simp only [List.filter_filter, List.mem_cons, not_or, Bool.decide_and, ne_eq]
  rw [hSplit]
  refine List.length_filter_lt_length_iff_exists.mpr ⟨v, ?_, by simp⟩
  exact List.mem_filter.mpr ⟨hMem, by simpa using hNew⟩

theorem length_filter_notMem_anti (sources : List V) {visited visited' : List V} (h : visited ⊆ visited') :
    (sources.filter (· ∉ visited')).length ≤ (sources.filter (· ∉ visited)).length := by
  rw [← List.countP_eq_length_filter, ← List.countP_eq_length_filter]
  refine List.countP_mono_left fun v _ hNew => ?_
  simp only [decide_eq_true_eq] at hNew ⊢
  exact fun hOld => hNew (h hOld)

/-- Does a walk from the node meet a node of its own path? -/
def visit (g : Digraph V) (path : List V) (v : V) : Bool :=
  if _ : v ∈ path then true
  else (g.next v).attach.any fun w => g.visit (v :: path) w.1
termination_by (g.sources.filter (· ∉ path)).length
decreasing_by exact length_filter_notMem_cons_lt (Leads.mem_sources (g := g) w.2) ‹_›

theorem visit_eq (g : Digraph V) (path : List V) (v : V) :
    g.visit path v = (decide (v ∈ path) || (g.next v).any (g.visit (v :: path))) := by
  rw [visit]
  split
  · rename_i hMem
    simp [hMem]
  · rename_i hMem
    simp [hMem]

theorem cyclicFrom_of_visit {g : Digraph V} (path : List V) (v : V)
    (hPath : ∀ u ∈ path, TransGen g.Leads u v) (h : g.visit path v = true) : g.CyclicFrom v := by
  induction path, v using visit.induct g with
  | case1 path v hMem => exact OnCycle.cyclicFrom (hPath v hMem)
  | case2 path v hNew ih =>
    rw [visit_eq, Bool.or_eq_true, decide_eq_true_iff, List.any_eq_true] at h
    obtain ⟨w, hLeads, hVisit⟩ := h.resolve_left hNew
    refine .of_leads hLeads (ih ⟨w, hLeads⟩ (fun u hu => ?_) hVisit)
    rcases List.mem_cons.mp hu with rfl | hu
    · exact .single hLeads
    · exact (hPath u hu).tail hLeads

theorem visit_of_cyclicFrom {g : Digraph V} (path : List V) (v : V) (h : g.CyclicFrom v) :
    g.visit path v = true := by
  induction path, v using visit.induct g with
  | case1 path v hMem => rw [visit_eq, decide_eq_true hMem, Bool.true_or]
  | case2 path v hNew ih =>
    obtain ⟨w, hLeads, hFrom⟩ := h.exists_leads
    rw [visit_eq, Bool.or_eq_true, List.any_eq_true]
    exact .inr ⟨w, hLeads, ih ⟨w, hLeads⟩ hFrom⟩

/-- The path search finds out whether a cycle can be reached. -/
theorem visit_iff (g : Digraph V) (v : V) : g.visit [] v = true ↔ g.CyclicFrom v :=
  ⟨cyclicFrom_of_visit [] v (fun _ h => by cases h), visit_of_cyclicFrom [] v⟩

end Searches

end Digraph

/-- The nodes still to look at come before the nodes seen. -/
inductive Search (V : Type) where
  | looking (pending visited : List V)
  | done (found : Bool)
  deriving DecidableEq

namespace Search

variable {V : Type} [DecidableEq V]

def step (next : V → List V) (target : V) : Search V → Search V
  | done found => done found
  | looking [] _ => done false
  | looking (v :: pending) visited =>
    if v = target then done true
    else if v ∈ visited then looking pending visited
    else looking (next v ++ pending) (v :: visited)

/-- What a search from `start` knows while its graph stays as it is. -/
def Sound (next : V → List V) (start target : V) : Search V → Prop
  | looking pending visited =>
    (start ∈ visited ∨ start ∈ pending) ∧ target ∉ visited ∧
      (∀ v ∈ visited, ∀ w ∈ next v, w ∈ visited ∨ w ∈ pending) ∧
      ∀ v ∈ pending, ReflTransGen (fun v w => w ∈ next v) start v
  | done found => found = true ↔ ReflTransGen (fun v w => w ∈ next v) start target

omit [DecidableEq V] in
theorem sound_start (next : V → List V) (start target : V) : Sound next start target (looking [start] []) := by
  refine ⟨.inr (List.mem_singleton_self _), by simp, by simp, fun v hv => ?_⟩
  obtain rfl := List.mem_singleton.mp hv
  exact .refl

theorem Sound.step {next : V → List V} {start target : V} {s : Search V} (h : Sound next start target s) :
    Sound next start target (s.step next target) := by
  match s, h with
  | .done _, h => exact h
  | .looking [] visited, ⟨hStart, hTarget, hClosed, _⟩ =>
    -- the nodes seen are closed under the edges and miss the target
    have hSeen : ∀ v, ReflTransGen (fun v w => w ∈ next v) start v → v ∈ visited := by
      intro v hReach
      induction hReach with
      | refl => simpa using hStart
      | tail _ hLeads ih => simpa using hClosed _ ih _ hLeads
    exact ⟨nofun, fun hReach => absurd (hSeen _ hReach) hTarget⟩
  | .looking (v :: pending) visited, ⟨hStart, hTarget, hClosed, hReach⟩ =>
    simp only [Search.step]
    split
    · rename_i hEq
      exact ⟨fun _ => hEq ▸ hReach v (List.mem_cons_self ..), fun _ => rfl⟩
    · rename_i hOther
      split
      · rename_i hOld
        refine ⟨?_, hTarget, fun u hu w hw => ?_, fun u hu => hReach u (List.mem_cons_of_mem _ hu)⟩
        · rcases hStart with hStart | hStart
          · exact .inl hStart
          · rcases List.mem_cons.mp hStart with rfl | hStart
            · exact .inl hOld
            · exact .inr hStart
        · rcases hClosed u hu w hw with hIn | hIn
          · exact .inl hIn
          · rcases List.mem_cons.mp hIn with rfl | hIn
            · exact .inl hOld
            · exact .inr hIn
      · refine ⟨?_, ?_, fun u hu w hw => ?_, fun u hu => ?_⟩
        · rcases hStart with hStart | hStart
          · exact .inl (List.mem_cons_of_mem _ hStart)
          · rcases List.mem_cons.mp hStart with rfl | hStart
            · exact .inl (List.mem_cons_self ..)
            · exact .inr (List.mem_append_right _ hStart)
        · rw [List.mem_cons, not_or]
          exact ⟨Ne.symm hOther, hTarget⟩
        · rcases List.mem_cons.mp hu with rfl | hu
          · exact .inr (List.mem_append_left _ hw)
          · rcases hClosed u hu w hw with hIn | hIn
            · exact .inl (List.mem_cons_of_mem _ hIn)
            · rcases List.mem_cons.mp hIn with rfl | hIn
              · exact .inl (List.mem_cons_self ..)
              · exact .inr (List.mem_append_right _ hIn)
        · rcases List.mem_append.mp hu with hu | hu
          · exact (hReach v (List.mem_cons_self ..)).tail hu
          · exact hReach u (List.mem_cons_of_mem _ hu)

end Search

namespace Digraph

variable {V : Type} [DecidableEq V]

/-- The successors of the nodes that a search has not seen. -/
def unseen (g : Digraph V) (visited : List V) : Nat :=
  ((g.sources.filter (· ∉ visited)).map fun v => (g.next v).length).sum

theorem sum_filter_notMem_cons_le (weight : V → Nat) (l visited : List V) (v : V) :
    ((l.filter (· ∉ v :: visited)).map weight).sum ≤ ((l.filter (· ∉ visited)).map weight).sum := by
  induction l with
  | nil => exact Nat.le_refl _
  | cons u l ih =>
    by_cases hSeen : u ∈ visited
    · rw [List.filter_cons_of_neg (by simp [hSeen]), List.filter_cons_of_neg (by simp [hSeen])]
      exact ih
    · rw [List.filter_cons_of_pos (p := (· ∉ visited)) (by simp [hSeen]), List.map_cons, List.sum_cons]
      by_cases hEq : u = v
      · rw [List.filter_cons_of_neg (by simp [hEq])]
        exact Nat.le_trans ih (Nat.le_add_left ..)
      · rw [List.filter_cons_of_pos (by simp [hEq, hSeen]), List.map_cons, List.sum_cons]
        exact Nat.add_le_add_left ih _

theorem sum_filter_notMem_cons_add_le (weight : V → Nat) {l visited : List V} {v : V} (hMem : v ∈ l)
    (hNew : v ∉ visited) :
    ((l.filter (· ∉ v :: visited)).map weight).sum + weight v ≤ ((l.filter (· ∉ visited)).map weight).sum := by
  induction l with
  | nil => cases hMem
  | cons u l ih =>
    by_cases hEq : u = v
    · subst hEq
      rw [List.filter_cons_of_neg (by simp), List.filter_cons_of_pos (by simpa using hNew), List.map_cons,
        List.sum_cons, Nat.add_comm]
      exact Nat.add_le_add_left (sum_filter_notMem_cons_le weight l visited u) _
    · have hRest := ih ((List.mem_cons.mp hMem).resolve_left (Ne.symm hEq))
      by_cases hSeen : u ∈ visited
      · rw [List.filter_cons_of_neg (by simp [hSeen]), List.filter_cons_of_neg (by simp [hSeen])]
        exact hRest
      · rw [List.filter_cons_of_pos (by simp [hEq, hSeen]), List.filter_cons_of_pos (by simp [hSeen]), List.map_cons,
          List.sum_cons, List.map_cons, List.sum_cons, Nat.add_assoc]
        exact Nat.add_le_add_left hRest _

/-- A node seen for the first time brings no more successors than it takes away. -/
theorem unseen_cons (g : Digraph V) {visited : List V} {v : V} (hNew : v ∉ visited) :
    g.unseen (v :: visited) + (g.next v).length ≤ g.unseen visited := by
  by_cases hSource : v ∈ g.sources
  · exact sum_filter_notMem_cons_add_le (fun v => (g.next v).length) hSource hNew
  · rw [g.next_eq_nil v hSource]
    exact sum_filter_notMem_cons_le (fun v => (g.next v).length) g.sources visited v

/-- The whole reachability search in a graph that stays as it is. -/
def searchFrom (g : Digraph V) (target : V) (pending visited : List V) : Bool :=
  match pending with
  | [] => false
  | v :: rest =>
    if v = target then true
    else if v ∈ visited then g.searchFrom target rest visited
    else g.searchFrom target (g.next v ++ rest) (v :: visited)
termination_by pending.length + g.unseen visited
decreasing_by
  · exact Nat.add_lt_add_right (Nat.lt_succ_self _) _
  · rename_i hNew
    have hUnseen := g.unseen_cons hNew
    rw [List.length_append, List.length_cons]
    omega

theorem searchFrom_iff_of_sound {g : Digraph V} {start target : V} (pending visited : List V)
    (h : (Search.looking pending visited).Sound g.next start target) :
    g.searchFrom target pending visited = true ↔ ReflTransGen g.Leads start target := by
  induction pending, visited using searchFrom.induct g target with
  | case1 visited =>
    rw [searchFrom]
    exact h.step
  | case2 visited rest =>
    rw [searchFrom, if_pos rfl]
    exact (by simpa [Search.step] using h.step : Search.Sound g.next start target (.done true))
  | case3 visited v rest hOther hOld ih =>
    rw [searchFrom, if_neg hOther, if_pos hOld]
    exact ih (by simpa [Search.step, hOther, hOld] using h.step)
  | case4 visited v rest hOther hNew ih =>
    rw [searchFrom, if_neg hOther, if_neg hNew]
    exact ih (by simpa only [Search.step, hOther, hNew, if_false] using h.step)

def search (g : Digraph V) (start target : V) : Bool := g.searchFrom target [start] []

theorem search_iff (g : Digraph V) (start target : V) :
    g.search start target = true ↔ ReflTransGen g.Leads start target :=
  searchFrom_iff_of_sound [start] [] (Search.sound_start g.next start target)

end Digraph
end Library
