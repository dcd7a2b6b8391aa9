import CommandConsole.Library.PostOrder
import Mathlib.Data.List.Nodup
import Mathlib.Data.List.Perm.Subperm

/-! # Topological order by counting

Every node waits for as many edges as lead to it. A node that waits for none is ready; it is taken from the ready
nodes, which are rearranged whenever one is added, and releases the nodes its edges lead to.
-/
namespace Library
set_option autoImplicit false

variable {N V : Type} [DecidableEq V]

structure Waiting (N V : Type) where
  degree : V → Int
  ready : List N

/-- How the nodes are named, found and arranged, and the edges between their names. -/
structure Kahn (N V : Type) where
  key : N → V
  find : V → Option N
  arrange : List N → List N
  edges : List (V × V)

namespace Kahn

variable (k : Kahn N V)

def heads (v : V) : List V := (k.edges.filter fun edge => edge.1 = v).map Prod.snd

def tails (w : V) : List V := (k.edges.filter fun edge => edge.2 = w).map Prod.fst

def release (s : Waiting N V) (w : V) : Waiting N V :=
  let degree := s.degree w - 1
  { degree := Function.update s.degree w degree
    ready := if degree = 0 then k.arrange (s.ready ++ (k.find w).toList) else s.ready }

/-- The names in the order in which their nodes are taken, none when that takes more than `rounds` rounds. -/
def run : Nat → Waiting N V → List V → Option (List V)
  | rounds, s, ordered =>
    match s.ready with
    | [] => some ordered
    | n :: rest =>
      match rounds with
      | 0 => none
      | rounds + 1 => run rounds ((k.heads (k.key n)).foldl k.release { s with ready := rest }) (ordered ++ [k.key n])

def start (nodes : List N) : Waiting N V :=
  let degree := fun w => (k.edges.countP fun edge => edge.2 = w : Int)
  ⟨degree, k.arrange (nodes.filter fun n => degree (k.key n) = 0)⟩

def order (nodes : List N) : Option (List V) := k.run nodes.length (k.start nodes) []

/-- The names find the nodes, and arranging loses none. -/
structure Lawful (nodes : List N) : Prop where
  nodup : (nodes.map k.key).Nodup
  found : ∀ w n, k.find w = some n → n ∈ nodes ∧ k.key n = w
  perm : ∀ l, (k.arrange l).Perm l

variable {k} {nodes : List N} {ordered todo : List V} {s : Waiting N V} {v w : V}

/-- Every name waits for the edges whose tails are not ordered yet, and for those that are still to be released;
a ready one waits for none. -/
structure Counted (k : Kahn N V) (nodes : List N) (ordered todo : List V) (s : Waiting N V) : Prop where
  degree : ∀ w, s.degree w = (k.edges.countP fun edge => edge.2 = w ∧ edge.1 ∉ ordered : Nat) + (todo.count w : Nat)
  inside : ∀ n ∈ s.ready, n ∈ nodes
  nodup : (ordered ++ s.ready.map k.key).Nodup
  zero : ∀ n ∈ s.ready, s.degree (k.key n) = 0

theorem mem_heads : w ∈ k.heads v ↔ (v, w) ∈ k.edges := by
  simp [heads]

theorem mem_tails : v ∈ k.tails w ↔ (v, w) ∈ k.edges := by
  simp [tails]

theorem Counted.tails_subset (h : k.Counted nodes ordered todo s) {n : N} (hReady : n ∈ s.ready) :
    k.tails (k.key n) ⊆ ordered := by
  intro v hv
  have hZero := h.zero n hReady
  rw [h.degree] at hZero
  have hNone : k.edges.countP (fun edge => edge.2 = k.key n ∧ edge.1 ∉ ordered) = 0 := by omega
  have hEdge := List.countP_eq_zero.mp hNone (v, k.key n) (mem_tails.mp hv)
  simpa using hEdge

theorem release_degree (s : Waiting N V) (w u : V) :
    (k.release s w).degree u = if u = w then s.degree w - 1 else s.degree u := Function.update_apply ..

theorem Counted.release (hLawful : k.Lawful nodes) (h : k.Counted nodes ordered (w :: todo) s) (hNew : w ∉ ordered) :
    k.Counted nodes ordered todo (k.release s w) := by
  have hWaits : 1 ≤ s.degree w := by
    rw [h.degree, List.count_cons_self]
    omega
  have hOther : ∀ n ∈ s.ready, k.key n ≠ w := by
    rintro n hReady rfl
    have hZero := h.zero n hReady
    omega
  have hDegree : ∀ u, (k.release s w).degree u =
      (k.edges.countP fun edge => edge.2 = u ∧ edge.1 ∉ ordered : Nat) + (todo.count u : Nat) := by
    intro u
    rw [release_degree]
    split
    · rename_i hSame
      rw [hSame, h.degree, List.count_cons_self]
      omega
    · rename_i hSame
      rw [h.degree, List.count_cons_of_ne (Ne.symm hSame)]
  have hKeep : ∀ n ∈ s.ready, (k.release s w).degree (k.key n) = 0 := by
    intro n hReady
    rw [release_degree, if_neg (hOther n hReady)]
    exact h.zero n hReady
  by_cases hZero : s.degree w - 1 = 0
  · have hReady : (k.release s w).ready = k.arrange (s.ready ++ (k.find w).toList) := by
      rw [Kahn.release]
      exact if_pos hZero
    have hMem : ∀ n ∈ (k.release s w).ready, n ∈ s.ready ∨ k.find w = some n := by
      intro n hn
      rw [hReady, (hLawful.perm _).mem_iff, List.mem_append, Option.mem_toList] at hn
      exact hn
    refine ⟨hDegree, fun n hn => ?_, ?_, fun n hn => ?_⟩
    · rcases hMem n hn with hOld | hFound
      · exact h.inside n hOld
      · exact (hLawful.found w n hFound).1
    · have hPerm := ((hLawful.perm (s.ready ++ (k.find w).toList)).map k.key).append_left ordered
      rw [hReady, hPerm.nodup_iff, List.map_append, ← List.append_assoc]
      cases hFound : k.find w with
      | none => simpa using h.nodup
      | some n =>
        have hKey := (hLawful.found w n hFound).2
        refine List.nodup_append.mpr ⟨h.nodup, List.nodup_singleton _, fun a ha b hb => ?_⟩
        obtain rfl := List.mem_singleton.mp hb
        rw [hKey]
        rintro rfl
        rcases List.mem_append.mp ha with hIn | hIn
        · exact hNew hIn
        · obtain ⟨other, hReady', hSame⟩ := List.mem_map.mp hIn
          exact hOther other hReady' hSame
    · rcases hMem n hn with hOld | hFound
      · exact hKeep n hOld
      · rw [(hLawful.found w n hFound).2, release_degree, if_pos rfl]
        exact hZero
  · have hReady : (k.release s w).ready = s.ready := by
      rw [Kahn.release]
      exact if_neg hZero
    refine ⟨hDegree, fun n hn => h.inside n (hReady ▸ hn), ?_, fun n hn => hKeep n (hReady ▸ hn)⟩
    rw [hReady]
    exact h.nodup

theorem Counted.releaseAll (hLawful : k.Lawful nodes) (h : k.Counted nodes ordered todo s) (hNew : ∀ w ∈ todo, w ∉ ordered) :
    k.Counted nodes ordered [] (todo.foldl k.release s) := by
  induction todo generalizing s with
  | nil => exact h
  | cons w todo ih =>
    exact ih (h.release hLawful (hNew w List.mem_cons_self)) fun u hu => hNew u (List.mem_cons_of_mem _ hu)

theorem countP_ordered (edges : List (V × V)) (hNew : v ∉ ordered) (w : V) :
    edges.countP (fun edge => edge.2 = w ∧ edge.1 ∉ ordered) =
      edges.countP (fun edge => edge.2 = w ∧ edge.1 ∉ ordered ++ [v]) +
        ((edges.filter fun edge => edge.1 = v).map Prod.snd).count w := by
  induction edges with
  | nil => rfl
  | cons edge edges ih =>
    obtain ⟨a, b⟩ := edge
    rw [List.countP_cons, List.countP_cons, ih, List.filter_cons]
    by_cases hTail : a = v
    · subst hTail
      by_cases hHead : b = w
      · subst hHead
        simp [hNew]
        omega
      · simp [hNew, hHead]
    · by_cases hHead : b = w
      · simp [hTail, hHead]
        split <;> simp_all
        omega
      · simp [hTail, hHead]

/-- The first ready node is ordered next. -/
theorem Counted.take (h : k.Counted nodes ordered [] s) {n : N} {rest : List N} (hReady : s.ready = n :: rest) :
    k.Counted nodes (ordered ++ [k.key n]) (k.heads (k.key n)) { s with ready := rest } := by
  have hNodup := h.nodup
  rw [hReady, List.map_cons] at hNodup
  have hNew : k.key n ∉ ordered := fun hIn =>
    (List.nodup_append.mp hNodup).2.2 _ hIn _ List.mem_cons_self rfl
  refine ⟨fun w => ?_, fun m hm => h.inside m (hReady ▸ List.mem_cons_of_mem _ hm), ?_, fun m hm => h.zero m ?_⟩
  · rw [h.degree, List.count_nil, countP_ordered k.edges hNew w, heads]
    omega
  · rw [List.append_assoc]
    exact hNodup
  · rw [hReady]
    exact List.mem_cons_of_mem _ hm

/-- What is ordered found its tails before it. -/
structure Sound (k : Kahn N V) (nodes : List N) (ordered : List V) : Prop where
  nodup : ordered.Nodup
  inside : ordered ⊆ nodes.map k.key
  grounded : Grounded k.tails [] ordered

theorem Counted.sound_take (h : k.Counted nodes ordered [] s) (hSound : k.Sound nodes ordered) {n : N} {rest : List N}
    (hReady : s.ready = n :: rest) : k.Sound nodes (ordered ++ [k.key n]) := by
  have hMem : n ∈ s.ready := hReady ▸ List.mem_cons_self
  refine ⟨?_, ?_, ?_⟩
  · have hNodup := (h.take hReady).nodup
    exact (List.nodup_append.mp hNodup).1
  · refine List.append_subset.mpr ⟨hSound.inside, List.cons_subset.mpr ⟨?_, List.nil_subset _⟩⟩
    exact List.mem_map_of_mem (h.inside n hMem)
  · refine hSound.grounded.append ⟨?_, trivial⟩
    rw [List.append_nil]
    exact h.tails_subset hMem

/-- A node that is released is not ordered already: it waited for the one that releases it. -/
theorem Counted.heads_new (h : k.Counted nodes ordered [] s) (hSound : k.Sound nodes ordered) {n : N} {rest : List N}
    (hReady : s.ready = n :: rest) : ∀ w ∈ k.heads (k.key n), w ∉ ordered ++ [k.key n] := by
  have hNew : k.key n ∉ ordered := by
    have hNodup := (h.take hReady).nodup
    intro hIn
    exact (List.nodup_append.mp (List.nodup_append.mp hNodup).1).2.2 _ hIn _ List.mem_cons_self rfl
  intro w hHead hOld
  have hTail : k.key n ∈ k.tails w := mem_tails.mpr (mem_heads.mp hHead)
  rcases List.mem_append.mp hOld with hIn | hSelf
  · have hBefore := hSound.grounded.closed w hIn hTail
    rw [List.append_nil] at hBefore
    exact hNew hBefore
  · obtain rfl := List.mem_singleton.mp hSelf
    exact hNew (h.tails_subset (hReady ▸ List.mem_cons_self) hTail)

theorem run_spec (hLawful : k.Lawful nodes) (rounds : Nat) (h : k.Counted nodes ordered [] s)
    (hSound : k.Sound nodes ordered) (hRounds : nodes.length ≤ rounds + ordered.length) :
    ∃ result, k.run rounds s ordered = some result ∧ k.Sound nodes result := by
  induction rounds generalizing s ordered with
  | zero =>
    cases hReady : s.ready with
    | nil => exact ⟨ordered, by rw [run, hReady], hSound⟩
    | cons n rest =>
      have hNext := h.sound_take hSound hReady
      have hLength := (List.subperm_of_subset hNext.nodup hNext.inside).length_le
      rw [List.length_append, List.length_map, List.length_singleton] at hLength
      omega
  | succ rounds ih =>
    cases hReady : s.ready with
    | nil => exact ⟨ordered, by rw [run, hReady], hSound⟩
    | cons n rest =>
      have hNext := (h.take hReady).releaseAll hLawful (h.heads_new hSound hReady)
      obtain ⟨result, hRun, hResult⟩ := ih hNext (h.sound_take hSound hReady) (by
        rw [List.length_append, List.length_singleton]
        omega)
      refine ⟨result, ?_, hResult⟩
      rw [run, hReady]
      exact hRun

/-- The rounds suffice, and every name that is ordered finds its tails before it. -/
theorem order_spec (hLawful : k.Lawful nodes) : ∃ result, k.order nodes = some result ∧ k.Sound nodes result := by
  refine run_spec hLawful nodes.length ⟨fun w => ?_, fun n hn => ?_, ?_, fun n hn => ?_⟩
    ⟨List.nodup_nil, List.nil_subset _, trivial⟩ (Nat.le_refl _)
  · simp [start]
  · exact List.mem_of_mem_filter ((hLawful.perm _).mem_iff.mp hn)
  · rw [List.nil_append, start, ((hLawful.perm _).map k.key).nodup_iff]
    exact hLawful.nodup.sublist (List.filter_sublist.map k.key)
  · have hZero := (List.mem_filter.mp ((hLawful.perm _).mem_iff.mp hn)).2
    simpa [start] using hZero

end Kahn
end Library
