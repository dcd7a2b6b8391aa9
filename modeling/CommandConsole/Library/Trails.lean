import CommandConsole.Library.Walks

/-! # Trails that meet no node twice

The trails from a node are listed depth first: an edge, what extends it, the next edge. Each node is
reached by a trail that is as short as its distance.
-/
namespace Library
set_option autoImplicit false

section FirstOf

variable {α β : Type}

/-- The first element of the list with the property. -/
def FirstWith (P : α → Prop) (l : List α) (a : α) : Prop :=
  P a ∧ ∃ before after, l = before ++ a :: after ∧ ∀ x ∈ before, ¬ P x

theorem FirstWith.mem {P : α → Prop} {l : List α} {a : α} (h : FirstWith P l a) : a ∈ l := by
  obtain ⟨-, before, after, rfl, -⟩ := h
  exact List.mem_append_right _ List.mem_cons_self

theorem FirstWith.unique {P : α → Prop} {l : List α} {a b : α} (ha : FirstWith P l a) (hb : FirstWith P l b) : a = b := by
  obtain ⟨hPa, before, after, rfl, hBefore⟩ := ha
  obtain ⟨hPb, before', after', hSplit, hBefore'⟩ := hb
  induction before generalizing before' with
  | nil =>
    cases before' with
    | nil => exact (List.cons.inj hSplit).1
    | cons x rest =>
      obtain ⟨rfl, -⟩ := List.cons.inj hSplit
      exact absurd hPa (hBefore' a List.mem_cons_self)
  | cons x rest ih =>
    cases before' with
    | nil =>
      obtain ⟨rfl, -⟩ := List.cons.inj hSplit
      exact absurd hPb (hBefore x List.mem_cons_self)
    | cons y rest' =>
      exact ih (fun z hz => hBefore z (List.mem_cons_of_mem _ hz)) rest' (List.cons.inj hSplit).2
        fun z hz => hBefore' z (List.mem_cons_of_mem _ hz)

theorem FirstWith.congr {P Q : α → Prop} {l : List α} {a : α} (h : FirstWith P l a) (hSame : ∀ x ∈ l, P x ↔ Q x) :
    FirstWith Q l a := by
  have hMem := h.mem
  obtain ⟨hP, before, after, rfl, hBefore⟩ := h
  exact ⟨(hSame a hMem).mp hP, before, after, rfl, fun x hx hQ =>
    hBefore x hx ((hSame x (List.mem_append_left _ hx)).mpr hQ)⟩

/-- The first of the least elements of the list with the property. -/
def FirstBest (P : α → Prop) (measure : α → Nat) (l : List α) (a : α) : Prop :=
  P a ∧ ∃ before after, l = before ++ a :: after ∧ (∀ x ∈ before, P x → measure a < measure x) ∧
    ∀ x ∈ after, P x → measure a ≤ measure x

namespace FirstBest

variable {P : α → Prop} {measure : α → Nat} {l : List α} {a x : α}

theorem mem (h : FirstBest P measure l a) : a ∈ l := by
  obtain ⟨-, before, after, rfl, -⟩ := h
  exact List.mem_append_right _ List.mem_cons_self

theorem le (h : FirstBest P measure l a) (hMem : x ∈ l) (hP : P x) : measure a ≤ measure x := by
  obtain ⟨-, before, after, rfl, hBefore, hAfter⟩ := h
  rcases List.mem_append.mp hMem with hx | hx
  · exact Nat.le_of_lt (hBefore x hx hP)
  · rcases List.mem_cons.mp hx with rfl | hx
    · exact Nat.le_refl _
    · exact hAfter x hx hP

theorem keep (h : FirstBest P measure l a) (hx : P x → measure a ≤ measure x) : FirstBest P measure (l ++ [x]) a := by
  obtain ⟨hP, before, after, rfl, hBefore, hAfter⟩ := h
  refine ⟨hP, before, after ++ [x], by rw [List.append_assoc, List.cons_append], hBefore, fun y hy => ?_⟩
  rcases List.mem_append.mp hy with hOld | hNew
  · exact hAfter y hOld
  · obtain rfl := List.mem_singleton.mp hNew
    exact hx

theorem replace (hP : P x) (h : ∀ y ∈ l, P y → measure x < measure y) : FirstBest P measure (l ++ [x]) x :=
  ⟨hP, l, [], rfl, h, by simp⟩

/-- In a list made of parts it comes from the first part that has an element as small. -/
theorem flatMap {f : β → List α} {parts : List β} (h : FirstBest P measure (parts.flatMap f) a) :
    ∃ part, FirstWith (fun part => ∃ x ∈ f part, P x ∧ measure x ≤ measure a) parts part ∧ a ∈ f part := by
  obtain ⟨hP, before, after, hSplit, hBefore, -⟩ := h
  induction parts generalizing before with
  | nil => simp at hSplit
  | cons part parts ih =>
    rw [List.flatMap_cons] at hSplit
    rcases List.append_eq_append_iff.mp hSplit with ⟨middle, rfl, hRest⟩ | ⟨middle, hHere, hRest⟩
    · obtain ⟨found, ⟨hFound, front, back, rfl, hFront⟩, hMem⟩ :=
        ih middle hRest fun x hx => hBefore x (List.mem_append_right _ hx)
      refine ⟨found, ⟨hFound, part :: front, back, rfl, fun other hOther => ?_⟩, hMem⟩
      rcases List.mem_cons.mp hOther with rfl | hOther
      · rintro ⟨x, hx, hPx, hLe⟩
        exact absurd (hBefore x (List.mem_append_left _ hx) hPx) (Nat.not_lt_of_le hLe)
      · exact hFront other hOther
    · cases middle with
      | nil =>
        rw [List.nil_append] at hRest
        obtain ⟨found, ⟨hFound, front, back, rfl, hFront⟩, hMem⟩ := ih [] hRest.symm (by simp)
        refine ⟨found, ⟨hFound, part :: front, back, rfl, fun other hOther => ?_⟩, hMem⟩
        rcases List.mem_cons.mp hOther with rfl | hOther
        · rintro ⟨x, hx, hPx, hLe⟩
          rw [List.append_nil] at hHere
          exact absurd (hBefore x (hHere ▸ hx) hPx) (Nat.not_lt_of_le hLe)
        · exact hFront other hOther
      | cons x middle =>
        rw [List.cons_append] at hRest
        obtain ⟨rfl, -⟩ := List.cons.inj hRest
        have hMem : a ∈ f part := hHere ▸ List.mem_append_right _ List.mem_cons_self
        exact ⟨part, ⟨⟨a, hMem, hP, Nat.le_refl _⟩, [], parts, rfl, by simp⟩, hMem⟩

end FirstBest

end FirstOf

section Trails

variable {V E : Type} (out : V → List E) (goal : E → V)

def Leading (v w : V) : Prop := ∃ e ∈ out v, goal e = w

/-- The edges lead on from each other, to nodes that have not been visited. -/
def IsTrail : V → List V → List E → Prop
  | _, _, [] => True
  | v, visited, e :: rest => e ∈ out v ∧ goal e ∉ visited ∧ IsTrail (goal e) (visited ++ [goal e]) rest

def endOf : V → List E → V
  | v, [] => v
  | _, e :: rest => endOf (goal e) rest

/-- The trails of at most so many edges, the empty one aside. -/
def trails [DecidableEq V] : Nat → V → List V → List (List E)
  | 0, _, _ => []
  | n + 1, v, visited => (out v).flatMap fun e =>
    if goal e ∈ visited then []
    else [e] :: (trails n (goal e) (visited ++ [goal e])).map (e :: ·)

variable {out goal}

theorem mem_trails [DecidableEq V] {n : Nat} {v : V} {visited : List V} {trail : List E} :
    trail ∈ trails out goal n v visited ↔ trail ≠ [] ∧ trail.length ≤ n ∧ IsTrail out goal v visited trail := by
  induction n generalizing v visited trail with
  | zero =>
    refine iff_of_false List.not_mem_nil ?_
    rintro ⟨hNonempty, hLength, -⟩
    exact hNonempty (List.length_eq_zero_iff.mp (Nat.le_zero.mp hLength))
  | succ n ih =>
    rw [trails, List.mem_flatMap]
    constructor
    · rintro ⟨e, he, hTrail⟩
      split at hTrail
      · cases hTrail
      · rename_i hNew
        rcases List.mem_cons.mp hTrail with rfl | hLonger
        · exact ⟨List.cons_ne_nil _ _, Nat.succ_le_succ (Nat.zero_le n), he, hNew, trivial⟩
        · obtain ⟨rest, hRest, rfl⟩ := List.mem_map.mp hLonger
          obtain ⟨-, hLength, hOn⟩ := ih.mp hRest
          exact ⟨List.cons_ne_nil _ _, Nat.succ_le_succ hLength, he, hNew, hOn⟩
    · rintro ⟨hNonempty, hLength, hTrail⟩
      cases trail with
      | nil => exact absurd rfl hNonempty
      | cons e rest =>
        obtain ⟨he, hNew, hOn⟩ := hTrail
        refine ⟨e, he, ?_⟩
        rw [if_neg hNew]
        cases rest with
        | nil => exact List.mem_cons_self
        | cons e' rest =>
          refine List.mem_cons_of_mem _ (List.mem_map_of_mem (ih.mpr ?_))
          exact ⟨List.cons_ne_nil _ _, Nat.le_of_succ_le_succ hLength, hOn⟩

theorem mem_trails_by [DecidableEq V] {n : Nat} {v : V} {visited : List V} {e : E} {trail : List E} (he : e ∈ out v) :
    (trail ∈ if goal e ∈ visited then []
      else [e] :: (trails out goal n (goal e) (visited ++ [goal e])).map (e :: ·)) ↔
      ∃ rest, trail = e :: rest ∧ rest.length ≤ n ∧ IsTrail out goal v visited trail := by
  split
  · rename_i hVisited
    refine iff_of_false List.not_mem_nil ?_
    rintro ⟨rest, rfl, -, -, hNew, -⟩
    exact hNew hVisited
  · rename_i hNew
    rw [List.mem_cons, List.mem_map]
    constructor
    · rintro (rfl | ⟨rest, hRest, rfl⟩)
      · exact ⟨[], rfl, Nat.zero_le n, he, hNew, trivial⟩
      · obtain ⟨-, hLength, hOn⟩ := mem_trails.mp hRest
        exact ⟨rest, rfl, hLength, he, hNew, hOn⟩
    · rintro ⟨rest, rfl, hLength, -, -, hOn⟩
      cases rest with
      | nil => exact .inl rfl
      | cons e' rest => exact .inr ⟨_, mem_trails.mpr ⟨List.cons_ne_nil _ _, hLength, hOn⟩, rfl⟩

theorem IsTrail.walk {v : V} {visited : List V} {trail : List E} (h : IsTrail out goal v visited trail) :
    Walk (Leading out goal) trail.length v (endOf goal v trail) := by
  induction trail generalizing v visited with
  | nil => exact .nil v
  | cons e rest ih => exact .cons ⟨e, h.1, rfl⟩ (ih h.2.2)

theorem IsTrail.goals {v : V} {visited : List V} {trail : List E} (h : IsTrail out goal v visited trail) :
    (trail.map goal).Nodup ∧ ∀ w ∈ trail.map goal, w ∉ visited := by
  induction trail generalizing v visited with
  | nil => exact ⟨List.nodup_nil, fun w hw => nomatch hw⟩
  | cons e rest ih =>
    obtain ⟨hNodup, hFresh⟩ := ih h.2.2
    refine ⟨List.nodup_cons.mpr ⟨fun hMem => ?_, hNodup⟩, fun w hw => ?_⟩
    · exact hFresh _ hMem (List.mem_append_right _ List.mem_cons_self)
    · rcases List.mem_cons.mp hw with rfl | hRest
      · exact h.2.1
      · exact fun hVisited => hFresh w hRest (List.mem_append_left _ hVisited)

theorem IsTrail.endOf_notMem {v : V} {visited : List V} {trail : List E} (h : IsTrail out goal v visited trail)
    (hNonempty : trail ≠ []) : endOf goal v trail ∉ visited := by
  induction trail generalizing v visited with
  | nil => exact absurd rfl hNonempty
  | cons e rest ih =>
    cases rest with
    | nil => exact h.2.1
    | cons e' rest => exact fun hMem => ih h.2.2 (List.cons_ne_nil _ _) (List.mem_append_left _ hMem)

theorem IsTrail.length_le {edges : List E} (hEdges : ∀ v, ∀ e ∈ out v, e ∈ edges) {v : V} {visited : List V}
    {trail : List E} (h : IsTrail out goal v visited trail) : trail.length ≤ edges.length := by
  have hSub : trail ⊆ edges := by
    induction trail generalizing v visited with
    | nil => exact List.nil_subset _
    | cons e rest ih => exact List.cons_subset.mpr ⟨hEdges v e h.1, ih h.2.2⟩
  exact (List.Nodup.of_map goal h.goals.1).length_le_of_subset hSub

/-- A walk that is as short as possible visits no node twice. -/
theorem exists_trail {root : V} {n : Nat} (m : Nat) {v w : V} {visited : List V} (hHere : Distance (Leading out goal) root v n)
    (hVisited : ∀ u ∈ visited, Within (Leading out goal) n root u) (hWalk : Walk (Leading out goal) m v w)
    (hShortest : Distance (Leading out goal) root w (n + m)) :
    ∃ trail, trail.length = m ∧ IsTrail out goal v visited trail ∧ endOf goal v trail = w := by
  induction m generalizing v visited n with
  | zero => exact ⟨[], rfl, trivial, hWalk.eq_of_zero⟩
  | succ m ih =>
    obtain ⟨_, ⟨e, he, rfl⟩, hRest⟩ := hWalk.head
    have hAfter : ∀ k ≤ n, ¬ Walk (Leading out goal) k root (goal e) := by
      intro k hk hShort
      have hLonger := hShort.append hRest
      exact hShortest.2 (k + m) (by omega) hLonger
    have hNext : Distance (Leading out goal) root (goal e) (n + 1) :=
      ⟨.snoc hHere.1 ⟨e, he, rfl⟩, fun k hk => hAfter k (Nat.le_of_lt_succ hk)⟩
    have hNew : goal e ∉ visited := fun hMem => by
      obtain ⟨k, hk, hShort⟩ := hVisited _ hMem
      exact hAfter k hk hShort
    have hSeen : ∀ u ∈ visited ++ [goal e], Within (Leading out goal) (n + 1) root u := by
      intro u hu
      rcases List.mem_append.mp hu with hOld | hLast
      · obtain ⟨k, hk, hShort⟩ := hVisited u hOld
        exact ⟨k, Nat.le_succ_of_le hk, hShort⟩
      · obtain rfl := List.mem_singleton.mp hLast
        exact ⟨n + 1, Nat.le_refl _, hNext.1⟩
    have hRemaining : Distance (Leading out goal) root w (n + 1 + m) := by rwa [Nat.add_right_comm, Nat.add_assoc]
    obtain ⟨trail, hLength, hTrail, hEnd⟩ := ih hNext hSeen hRest hRemaining
    exact ⟨e :: trail, congrArg Nat.succ hLength, ⟨he, hNew, hTrail⟩, hEnd⟩

theorem distance_self (root : V) : Distance (Leading out goal) root root 0 :=
  ⟨.nil root, fun k hk => absurd hk (Nat.not_lt_zero k)⟩

theorem within_root {root u : V} (h : u ∈ [root]) : Within (Leading out goal) 0 root u := by
  obtain rfl := List.mem_singleton.mp h
  exact ⟨0, Nat.le_refl 0, .nil u⟩

theorem exists_shortest_trail {root w : V} {n : Nat} (h : Distance (Leading out goal) root w n) :
    ∃ trail, trail.length = n ∧ IsTrail out goal root [root] trail ∧ endOf goal root trail = w :=
  exists_trail n (distance_self root) (fun _ => within_root) h.1 (by rwa [Nat.zero_add])

/-- A shortest walk that begins with an edge of the root, as a trail. -/
theorem exists_trail_by {root w : V} {e : E} {n : Nat} (he : e ∈ out root) (h : Distance (Leading out goal) root w (n + 1))
    (hWalk : Walk (Leading out goal) n (goal e) w) :
    ∃ rest, rest.length = n ∧ IsTrail out goal root [root] (e :: rest) ∧ endOf goal root (e :: rest) = w := by
  have hNew : goal e ≠ root := fun hSame => h.2 n (Nat.lt_succ_self n) (hSame ▸ hWalk)
  have hFirst : Distance (Leading out goal) root (goal e) 1 := by
    refine ⟨.snoc (.nil root) ⟨e, he, rfl⟩, fun k hk hShort => ?_⟩
    obtain rfl := Nat.lt_one_iff.mp hk
    exact hNew hShort.eq_of_zero.symm
  have hSeen : ∀ u ∈ [root] ++ [goal e], Within (Leading out goal) 1 root u := by
    intro u hu
    rcases List.mem_append.mp hu with hRoot | hGoal
    · obtain ⟨k, hk, hRootWalk⟩ := @within_root V E out goal root u hRoot
      exact ⟨k, Nat.le_succ_of_le hk, hRootWalk⟩
    · obtain rfl := List.mem_singleton.mp hGoal
      exact ⟨1, Nat.le_refl 1, hFirst.1⟩
  obtain ⟨rest, hLength, hTrail, hEnd⟩ := exists_trail n hFirst hSeen hWalk (by rwa [Nat.add_comm 1 n])
  exact ⟨rest, hLength, ⟨he, fun hMem => hNew (List.mem_singleton.mp hMem), hTrail⟩, hEnd⟩

/-- The shortest trail of a list of all trails is as long as the distance of its end. -/
theorem distance_of_firstBest [DecidableEq V] {edges : List E} (hEdges : ∀ v, ∀ e ∈ out v, e ∈ edges) {root w : V}
    {trail : List E} (h : FirstBest (fun x => endOf goal root x = w) List.length
      (trails out goal edges.length root [root]) trail) : Distance (Leading out goal) root w trail.length := by
  obtain ⟨hNonempty, -, hTrail⟩ := mem_trails.mp h.mem
  obtain rfl := h.1
  refine ⟨hTrail.walk, fun k hk hWalk => ?_⟩
  obtain ⟨m, hm, hDistance⟩ := hWalk.exists_distance
  obtain ⟨short, hLength, hShort, hEnd⟩ := exists_shortest_trail hDistance
  have hStays : short ≠ [] := by
    rintro rfl
    exact hTrail.endOf_notMem hNonempty (hEnd ▸ List.mem_cons_self)
  have hLe := h.le (mem_trails.mpr ⟨hStays, hShort.length_le hEdges, hShort⟩) hEnd
  omega

/-- It begins with the first edge of the root that begins a walk as short. -/
theorem firstBest_first [DecidableEq V] {edges : List E} (hEdges : ∀ v, ∀ e ∈ out v, e ∈ edges) {root w : V}
    {trail : List E} (h : FirstBest (fun x => endOf goal root x = w) List.length
      (trails out goal edges.length root [root]) trail) :
    ∃ e rest, trail = e :: rest ∧ FirstWith (fun e => Walk (Leading out goal) rest.length (goal e) w) (out root) e := by
  have hDistance := distance_of_firstBest hEdges h
  cases hCount : edges.length with
  | zero =>
    rw [hCount] at h
    exact absurd h.mem List.not_mem_nil
  | succ n =>
    rw [hCount, trails] at h
    obtain ⟨e, hFirst, hMem⟩ := h.flatMap
    obtain ⟨rest, rfl, -, -⟩ := (mem_trails_by hFirst.mem).mp hMem
    refine ⟨e, rest, rfl, hFirst.congr fun x hx => ⟨?_, fun hWalk => ?_⟩⟩
    · rintro ⟨other, hOther, rfl, hLe⟩
      obtain ⟨back, rfl, -, hTrail⟩ := (mem_trails_by hx).mp hOther
      have hSame : back.length = rest.length := by
        have hShortest := hDistance.2 (back.length + 1)
        simp only [List.length_cons] at hLe hShortest
        exact Classical.byContradiction fun hLess => hShortest (by omega) hTrail.walk
      exact hSame ▸ hTrail.2.2.walk
    · obtain ⟨back, hLength, hTrail, hEnd⟩ := exists_trail_by hx hDistance hWalk
      refine ⟨x :: back, (mem_trails_by hx).mpr ⟨back, rfl, ?_, hTrail⟩, hEnd, ?_⟩
      · have hBound := hTrail.length_le hEdges
        rw [hCount] at hBound
        exact Nat.le_of_succ_le_succ hBound
      · exact Nat.le_of_eq (congrArg Nat.succ hLength)

end Trails

end Library
