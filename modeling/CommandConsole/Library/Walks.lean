import Mathlib.Data.List.Nodup

/-! # Walks and distances

Walks of a relation with their number of steps, the distance of a node from a root, and the levels
of a search that takes all new neighbours of one level for the next.
-/
namespace Library
set_option autoImplicit false

variable {V : Type} {adj : V → V → Prop}

inductive Walk (adj : V → V → Prop) : Nat → V → V → Prop where
  | nil (v : V) : Walk adj 0 v v
  | snoc {n : Nat} {u v w : V} (h : Walk adj n u v) (hStep : adj v w) : Walk adj (n + 1) u w

theorem Walk.eq_of_zero {u v : V} (h : Walk adj 0 u v) : u = v := by
  cases h
  rfl

theorem walk_succ_iff {n : Nat} {u w : V} : Walk adj (n + 1) u w ↔ ∃ v, Walk adj n u v ∧ adj v w := by
  constructor
  · intro h
    cases h with
    | snoc h hStep => exact ⟨_, h, hStep⟩
  · rintro ⟨v, h, hStep⟩
    exact .snoc h hStep

theorem Walk.cons {n : Nat} {u v w : V} (hStep : adj u v) (h : Walk adj n v w) : Walk adj (n + 1) u w := by
  induction h with
  | nil v => exact .snoc (.nil u) hStep
  | snoc _ hLast ih => exact .snoc (ih hStep) hLast

theorem Walk.head {n : Nat} {u w : V} (h : Walk adj (n + 1) u w) : ∃ v, adj u v ∧ Walk adj n v w := by
  induction n generalizing w with
  | zero =>
    obtain ⟨v, hNil, hStep⟩ := walk_succ_iff.mp h
    obtain rfl := hNil.eq_of_zero
    exact ⟨w, hStep, .nil w⟩
  | succ n ih =>
    obtain ⟨x, hInit, hStep⟩ := walk_succ_iff.mp h
    obtain ⟨v, hFirst, hRest⟩ := ih hInit
    exact ⟨v, hFirst, .snoc hRest hStep⟩

theorem Walk.append {m n : Nat} {u v w : V} (h : Walk adj m u v) (h' : Walk adj n v w) : Walk adj (m + n) u w := by
  induction h' with
  | nil => exact h
  | snoc _ hStep ih => exact .snoc (ih h) hStep

/-- The node can be reached in at most so many steps. -/
def Within (adj : V → V → Prop) (n : Nat) (u v : V) : Prop := ∃ k ≤ n, Walk adj k u v

/-- The shortest walk to the node has so many steps. -/
def Distance (adj : V → V → Prop) (u v : V) (n : Nat) : Prop := Walk adj n u v ∧ ∀ k < n, ¬ Walk adj k u v

theorem Walk.exists_distance {n : Nat} {u v : V} (h : Walk adj n u v) : ∃ k ≤ n, Distance adj u v k := by
  induction n using Nat.strongRecOn with
  | ind n ih =>
    by_cases hShorter : ∃ k < n, Walk adj k u v
    · obtain ⟨k, hk, hWalk⟩ := hShorter
      obtain ⟨m, hm, hDistance⟩ := ih k hk hWalk
      exact ⟨m, Nat.le_trans hm (Nat.le_of_lt hk), hDistance⟩
    · exact ⟨n, Nat.le_refl n, h, fun k hk hWalk => hShorter ⟨k, hk, hWalk⟩⟩

theorem within_iff_distance {n : Nat} {u v : V} : Within adj n u v ↔ ∃ k ≤ n, Distance adj u v k := by
  constructor
  · rintro ⟨k, hk, hWalk⟩
    obtain ⟨m, hm, hDistance⟩ := hWalk.exists_distance
    exact ⟨m, Nat.le_trans hm hk, hDistance⟩
  · rintro ⟨k, hk, hDistance⟩
    exact ⟨k, hk, hDistance.1⟩

theorem Distance.unique {u v : V} {m n : Nat} (h : Distance adj u v m) (h' : Distance adj u v n) : m = n := by
  rcases Nat.lt_trichotomy m n with hLess | hEqual | hMore
  · exact absurd h.1 (h'.2 m hLess)
  · exact hEqual
  · exact absurd h'.1 (h.2 n hMore)

theorem distance_succ_iff {n : Nat} {u w : V} :
    Distance adj u w (n + 1) ↔ (∃ v, Distance adj u v n ∧ adj v w) ∧ ¬ Within adj n u w := by
  constructor
  · rintro ⟨hWalk, hNone⟩
    obtain ⟨v, hInit, hStep⟩ := walk_succ_iff.mp hWalk
    refine ⟨⟨v, ⟨hInit, fun k hk hShort => ?_⟩, hStep⟩, fun ⟨k, hk, hShort⟩ => hNone k (Nat.lt_succ_of_le hk) hShort⟩
    exact hNone (k + 1) (Nat.succ_lt_succ hk) (.snoc hShort hStep)
  · rintro ⟨⟨v, hInit, hStep⟩, hNot⟩
    exact ⟨.snoc hInit.1 hStep, fun k hk hShort => hNot ⟨k, Nat.le_of_lt_succ hk, hShort⟩⟩

/-- What a search by levels has seen after some of them, and the last level. -/
structure Level (adj : V → V → Prop) (root : V) (n : Nat) (seen frontier : List V) : Prop where
  seen_iff : ∀ v, v ∈ seen ↔ Within adj n root v
  frontier_iff : ∀ v, v ∈ frontier ↔ Distance adj root v n
  nodup : seen.Nodup

namespace Level

variable {root : V} {n : Nat} {seen frontier next : List V}

theorem start (root : V) : Level adj root 0 [root] [root] where
  seen_iff v := by
    rw [List.mem_singleton]
    constructor
    · rintro rfl
      exact ⟨0, Nat.le_refl 0, .nil v⟩
    · rintro ⟨k, hk, hWalk⟩
      obtain rfl := Nat.le_zero.mp hk
      exact hWalk.eq_of_zero.symm
  frontier_iff v := by
    rw [List.mem_singleton]
    constructor
    · rintro rfl
      exact ⟨.nil v, fun k hk => absurd hk (Nat.not_lt_zero k)⟩
    · exact fun h => h.1.eq_of_zero.symm
  nodup := List.nodup_singleton root

theorem frontier_seen (h : Level adj root n seen frontier) {v : V} (hv : v ∈ frontier) : v ∈ seen :=
  (h.seen_iff v).mpr ⟨n, Nat.le_refl n, ((h.frontier_iff v).mp hv).1⟩

/-- The next level holds the neighbours of the last one that have not been seen. -/
theorem step (h : Level adj root n seen frontier) (hNodup : next.Nodup)
    (hNext : ∀ w, w ∈ next ↔ (∃ v ∈ frontier, adj v w) ∧ w ∉ seen) :
    Level adj root (n + 1) (seen ++ next) next := by
  have hDistance : ∀ w, w ∈ next ↔ Distance adj root w (n + 1) := by
    intro w
    rw [hNext, distance_succ_iff, h.seen_iff]
    simp only [h.frontier_iff]
  refine ⟨fun w => ?_, hDistance, List.Nodup.append h.nodup hNodup fun w hSeen hNew => ((hNext w).mp hNew).2 hSeen⟩
  rw [List.mem_append, hDistance, h.seen_iff, within_iff_distance, within_iff_distance]
  constructor
  · rintro (⟨k, hk, hWalk⟩ | hLast)
    · exact ⟨k, Nat.le_succ_of_le hk, hWalk⟩
    · exact ⟨n + 1, Nat.le_refl _, hLast⟩
  · rintro ⟨k, hk, hWalk⟩
    rcases Nat.le_succ_iff.mp hk with hOld | rfl
    · exact .inl ⟨k, hOld, hWalk⟩
    · exact .inr hWalk

/-- After an empty level there is nothing more. -/
theorem stuck (h : Level adj root n seen []) {v : V} {k : Nat} (hk : n ≤ k) : ¬ Distance adj root v k := by
  induction k generalizing v with
  | zero =>
    obtain rfl := Nat.le_zero.mp hk
    exact fun hDistance => List.not_mem_nil ((h.frontier_iff v).mpr hDistance)
  | succ k ih =>
    intro hDistance
    rcases Nat.le_succ_iff.mp hk with hBefore | rfl
    · obtain ⟨⟨u, hPrior, -⟩, -⟩ := distance_succ_iff.mp hDistance
      exact ih hBefore hPrior
    · exact List.not_mem_nil ((h.frontier_iff v).mpr hDistance)

theorem seen_of_stuck (h : Level adj root n seen []) (more : Nat) (v : V) :
    v ∈ seen ↔ Within adj (n + more) root v := by
  rw [h.seen_iff, within_iff_distance, within_iff_distance]
  constructor
  · rintro ⟨k, hk, hDistance⟩
    exact ⟨k, Nat.le_add_right_of_le hk, hDistance⟩
  · rintro ⟨k, -, hDistance⟩
    exact ⟨k, Nat.le_of_not_lt fun hLess => h.stuck (Nat.le_of_lt hLess) hDistance, hDistance⟩

end Level

end Library
