import Mathlib.Data.List.Chain

/-! # Walks along the first edges of a list

Every node is left by the first edge of the list that starts there. A walk goes on until its goal, a
node without an edge, or a node that it has visited before.
-/
namespace Library
set_option autoImplicit false

variable {V E : Type} [DecidableEq V]

inductive WalkError (V : Type) where
  | loop (node : V)
  | stuck (node : V)
  deriving DecidableEq

theorem unvisited_lt {sources : List V} {visited : List V} {node : V} (hNode : node ∈ sources)
    (hNew : node ∉ visited) : (sources.filter (· ∉ node :: visited)).length < (sources.filter (· ∉ visited)).length := by
  induction sources with
  | nil => cases hNode
  | cons head tail ih =>
    have hLe : (tail.filter (· ∉ node :: visited)).length ≤ (tail.filter (· ∉ visited)).length :=
      (List.monotone_filter_right tail fun other hOther => by
        rw [decide_eq_true_eq, List.mem_cons, not_or] at hOther
        exact decide_eq_true hOther.2).length_le
    by_cases hHead : head = node
    · subst hHead
      rw [List.filter_cons_of_neg (by simp), List.filter_cons_of_pos (by simpa using hNew), List.length_cons]
      omega
    · have hTail := ih ((List.mem_cons.mp hNode).resolve_left (Ne.symm hHead))
      by_cases hVisited : head ∈ visited
      · rw [List.filter_cons_of_neg (by simp [hVisited]), List.filter_cons_of_neg (by simp [hVisited])]
        exact hTail
      · rw [List.filter_cons_of_pos (by simp [hVisited, hHead]), List.filter_cons_of_pos (by simp [hVisited]),
          List.length_cons, List.length_cons]
        exact Nat.succ_lt_succ hTail

theorem source_of_first {source : E → V} {edges : List E} {node : V} {edge : E}
    (h : (edges.find? fun edge => source edge = node) = some edge) : source edge = node := by
  simpa using List.find?_some h

/-- The edges from the current node to the goal. -/
def walk (source target : E → V) (edges : List E) (goal : V) (visited : List V) (current : V) :
    Except (WalkError V) (List E) :=
  if current = goal then .ok []
  else if hVisited : current ∈ visited then .error (.loop current)
  else
    match hNext : edges.find? fun edge => source edge = current with
    | none => .error (.stuck current)
    | some edge => (walk source target edges goal (current :: visited) (target edge)).map (edge :: ·)
termination_by ((edges.map source).filter (· ∉ visited)).length
decreasing_by
  exact unvisited_lt (source_of_first hNext ▸ List.mem_map_of_mem (List.mem_of_find?_eq_some hNext)) hVisited

/-- The first edges lead from a node to the goal, which comes at the end only. -/
inductive Walks (source target : E → V) (edges : List E) (goal : V) : V → List E → Prop where
  | stop : Walks source target edges goal goal []
  | step {current : V} {edge : E} {rest : List E} : current ≠ goal →
      (edges.find? fun edge => source edge = current) = some edge →
      Walks source target edges goal (target edge) rest → Walks source target edges goal current (edge :: rest)

variable {source target : E → V} {edges : List E} {goal : V}

theorem walk_goal {visited : List V} : walk source target edges goal visited goal = .ok [] := by
  rw [walk, if_pos rfl]

theorem walk_step {visited : List V} {current : V} {edge : E} (hGoal : current ≠ goal) (hNew : current ∉ visited)
    (hNext : (edges.find? fun edge => source edge = current) = some edge) :
    walk source target edges goal visited current =
      (walk source target edges goal (current :: visited) (target edge)).map (edge :: ·) := by
  rw [walk, if_neg hGoal, dif_neg hNew]
  split
  · rename_i hNone
    cases hNone.symm.trans hNext
  · rename_i other hOther
    obtain rfl := Option.some.inj (hOther.symm.trans hNext)
    rfl

theorem walks_of_walk {visited : List V} {current : V} {path : List E}
    (h : walk source target edges goal visited current = .ok path) : Walks source target edges goal current path := by
  fun_induction walk source target edges goal visited current generalizing path with
  | case1 visited =>
    cases h
    exact Walks.stop
  | case2 => cases h
  | case3 => cases h
  | case4 visited current hGoal hNew edge hNext ih =>
    cases hRest : walk source target edges goal (current :: visited) (target edge) with
    | error e =>
      rw [hRest] at h
      cases h
    | ok rest =>
      rw [hRest] at h
      cases h
      exact Walks.step hGoal hNext (ih hRest)

theorem Walks.unique {current : V} {path other : List E} (h : Walks source target edges goal current path)
    (hOther : Walks source target edges goal current other) : path = other := by
  induction h generalizing other with
  | stop =>
    cases hOther with
    | stop => rfl
    | step hGoal => exact absurd rfl hGoal
  | step hGoal hNext _ ih =>
    cases hOther with
    | stop => exact absurd rfl hGoal
    | step _ hNext' hRest' =>
      obtain rfl := Option.some.inj (hNext.symm.trans hNext')
      rw [ih hRest']

/-- A walk passes through each of its nodes on the way there and on from there. -/
theorem Walks.split {current node : V} {path : List E} (h : Walks source target edges goal current path)
    (hNode : node = current ∨ ∃ edge ∈ path, target edge = node) :
    ∃ front back, path = front ++ back ∧ Walks source target edges node current front ∧
      Walks source target edges goal node back := by
  induction h with
  | stop =>
    obtain rfl | ⟨edge, hEdge, -⟩ := hNode
    · exact ⟨[], [], rfl, Walks.stop, Walks.stop⟩
    · cases hEdge
  | @step current edge rest hGoal hNext hRest ih =>
    by_cases hHere : node = current
    · subst hHere
      exact ⟨[], edge :: rest, rfl, Walks.stop, Walks.step hGoal hNext hRest⟩
    · obtain ⟨front, back, hPath, hFront, hBack⟩ := ih (by
        obtain rfl | ⟨other, hOther, hTarget⟩ := hNode
        · exact absurd rfl hHere
        · obtain rfl | hLater := List.mem_cons.mp hOther
          · exact .inl hTarget.symm
          · exact .inr ⟨other, hLater, hTarget⟩)
      exact ⟨edge :: front, back, by rw [hPath, List.cons_append], Walks.step (Ne.symm hHere) hNext hFront, hBack⟩

theorem Walks.append {current node : V} {front back path : List E} (hFront : Walks source target edges node current front)
    (hBack : Walks source target edges goal node back) (hPath : Walks source target edges goal current path)
    (hNode : node = current ∨ ∃ edge ∈ path, target edge = node) : path = front ++ back := by
  obtain ⟨front', back', rfl, hFront', hBack'⟩ := hPath.split hNode
  rw [hFront.unique hFront', hBack.unique hBack']

/-- The edges follow on each other, from the first node to the goal. -/
structure Contiguous (source target : E → V) (start goal : V) (path : List E) : Prop where
  linked : path.IsChain fun edge next => target edge = source next
  empty : path = [] → start = goal
  starts : ∀ edge ∈ path.head?, source edge = start
  ends : ∀ edge ∈ path.getLast?, target edge = goal

theorem Walks.contiguous {current : V} {path : List E} (h : Walks source target edges goal current path) :
    Contiguous source target current goal path ∧ ∀ edge ∈ path, edge ∈ edges := by
  induction h with
  | stop => exact ⟨⟨List.isChain_nil, fun _ => rfl, nofun, nofun⟩, nofun⟩
  | @step current edge rest hGoal hNext _ ih =>
    obtain ⟨⟨hLinked, hEmpty, hStarts, hEnds⟩, hMem⟩ := ih
    refine ⟨⟨?_, nofun, ?_, ?_⟩, List.forall_mem_cons.mpr ⟨List.mem_of_find?_eq_some hNext, hMem⟩⟩
    · rw [List.isChain_cons]
      exact ⟨fun next hHead => (hStarts next hHead).symm, hLinked⟩
    · rintro first hFirst
      obtain rfl := Option.some.inj hFirst
      exact source_of_first hNext
    · cases rest with
      | nil =>
        rintro last hLast
        obtain rfl := Option.some.inj hLast
        exact hEmpty rfl
      | cons next rest =>
        rw [List.getLast?_cons_cons]
        exact hEnds

end Library
