import CommandConsole.Library.Digraph
import CommandConsole.Library.InsertionMap

/-! # Ancestors with a memo that is filled on return

The recursion comes back only from nodes that no cycle can be reached from: a memo that is filled on the way
back does not stop it on the way down. Where it comes back, it has all ancestors.
-/
namespace Library
set_option autoImplicit false

open Relation (TransGen)

variable {V : Type} [DecidableEq V]

/-- The set with more elements, each in the place where it was added first. -/
def addAll (set added : List V) : List V := added.foldl (fun set v => if v ∈ set then set else set ++ [v]) set

theorem mem_addAll {set added : List V} {u : V} : u ∈ addAll set added ↔ u ∈ set ∨ u ∈ added := by
  unfold addAll
  induction added generalizing set with
  | nil => simp
  | cons v added ih =>
    rw [List.foldl_cons, ih, List.mem_cons]
    split
    · rename_i hOld
      constructor
      · rintro (hSet | hAdded)
        · exact .inl hSet
        · exact .inr (.inr hAdded)
      · rintro (hSet | rfl | hAdded)
        · exact .inl hSet
        · exact .inl hOld
        · exact .inr hAdded
    · rw [List.mem_append, List.mem_singleton, or_assoc]

abbrev Memo (V : Type) := List (V × List V)

/-- The ancestors of a node with the memo after it, none when the calls are nested deeper than `depth`. -/
def collect (parents : V → List V) : Nat → V → Memo V → Option (List V × Memo V)
  | 0, _, _ => none
  | depth + 1, v, memo =>
    match InsertionMap.get v memo with
    | some ancestors => some (ancestors, memo)
    | none =>
      ((parents v).foldlM (fun done parent =>
        (collect parents depth parent done.2).map fun inner =>
          (addAll (addAll done.1 [parent]) inner.1, inner.2)) ([], memo)).map fun done =>
        (done.1, InsertionMap.set v done.1 done.2)

def collectAll (parents : V → List V) (depth : Nat) (nodes : List V) : Option (Memo V) :=
  nodes.foldlM (fun memo v => (collect parents depth v memo).map Prod.snd) []

variable {g : Digraph V}

/-- The list has all ancestors of the node, and no cycle is behind it. -/
def Digraph.Known (g : Digraph V) (v : V) (ancestors : List V) : Prop :=
  (∀ u, u ∈ ancestors ↔ TransGen g.Leads v u) ∧ ¬ g.CyclicFrom v

def Digraph.Sound (g : Digraph V) (memo : Memo V) : Prop :=
  ∀ v ancestors, InsertionMap.get v memo = some ancestors → g.Known v ancestors

theorem Digraph.Sound.set {memo : Memo V} (h : g.Sound memo) {v : V} {ancestors : List V} (hKnown : g.Known v ancestors) :
    g.Sound (InsertionMap.set v ancestors memo) := by
  intro u found hFound
  by_cases hSame : u = v
  · rw [hSame, InsertionMap.get_set_self] at hFound
    obtain rfl := Option.some.inj hFound
    exact hSame ▸ hKnown
  · rw [InsertionMap.get_set_of_ne hSame] at hFound
    exact h u found hFound

/-- The ancestors of the parents that are done, on the way through all of them. -/
structure Digraph.Gathered (g : Digraph V) (before memo : Memo V) (parents done : List V) : Prop where
  sound : g.Sound memo
  gathered : ∀ u, u ∈ done ↔ ∃ parent ∈ parents, u = parent ∨ TransGen g.Leads parent u
  acyclic : ∀ parent ∈ parents, ¬ g.CyclicFrom parent
  grows : ∀ v ancestors, InsertionMap.get v before = some ancestors → InsertionMap.get v memo = some ancestors

theorem foldlM_collect {depth : Nat} {memo : Memo V}
    (ih : ∀ v memo ancestors memo', g.Sound memo → collect g.next depth v memo = some (ancestors, memo') →
      g.Sound memo' ∧ g.Known v ancestors ∧
        ∀ v ancestors, InsertionMap.get v memo = some ancestors → InsertionMap.get v memo' = some ancestors)
    (todo earlier done₀ : List V) (memo₀ : Memo V) (hStart : g.Gathered memo memo₀ earlier done₀) {done : List V × Memo V}
    (h : todo.foldlM (fun done parent => (collect g.next depth parent done.2).map fun inner =>
      (addAll (addAll done.1 [parent]) inner.1, inner.2)) (done₀, memo₀) = some done) :
    g.Gathered memo done.2 (earlier ++ todo) done.1 := by
  induction todo generalizing earlier done₀ memo₀ with
  | nil =>
    obtain rfl := Option.some.inj h
    rw [List.append_nil]
    exact hStart
  | cons parent todo ihTodo =>
    rw [List.foldlM_cons] at h
    obtain ⟨next, hNext, hRest⟩ := Option.bind_eq_some_iff.mp h
    obtain ⟨⟨ancestors, memo'⟩, hInner, rfl⟩ := Option.map_eq_some_iff.mp hNext
    obtain ⟨hSound', hKnown, hGrows⟩ := ih parent memo₀ ancestors memo' hStart.sound hInner
    have hMine : g.Gathered memo memo' (earlier ++ [parent]) (addAll (addAll done₀ [parent]) ancestors) := by
      refine ⟨hSound', fun u => ?_, fun other hOther => ?_, fun v found hFound => hGrows v found (hStart.grows v found hFound)⟩
      · rw [mem_addAll, mem_addAll, hStart.gathered, List.mem_singleton, hKnown.1]
        constructor
        · rintro ((⟨other, hOther, hWay⟩ | rfl) | hWay)
          · exact ⟨other, List.mem_append_left _ hOther, hWay⟩
          · exact ⟨u, List.mem_append_right _ List.mem_cons_self, .inl rfl⟩
          · exact ⟨parent, List.mem_append_right _ List.mem_cons_self, .inr hWay⟩
        · rintro ⟨other, hOther, hWay⟩
          rcases List.mem_append.mp hOther with hOld | hNew
          · exact .inl (.inl ⟨other, hOld, hWay⟩)
          · obtain rfl := List.mem_singleton.mp hNew
            rcases hWay with rfl | hWay
            · exact .inl (.inr rfl)
            · exact .inr hWay
      · rcases List.mem_append.mp hOther with hOld | hNew
        · exact hStart.acyclic other hOld
        · obtain rfl := List.mem_singleton.mp hNew
          exact hKnown.2
    have hAll := ihTodo (earlier ++ [parent]) _ memo' hMine hRest
    rwa [List.append_assoc] at hAll

theorem collect_sound (depth : Nat) (v : V) (memo : Memo V) (ancestors : List V) (memo' : Memo V) (hSound : g.Sound memo)
    (h : collect g.next depth v memo = some (ancestors, memo')) :
    g.Sound memo' ∧ g.Known v ancestors ∧
      ∀ u found, InsertionMap.get u memo = some found → InsertionMap.get u memo' = some found := by
  induction depth generalizing v memo ancestors memo' with
  | zero => cases h
  | succ depth ih =>
    rw [collect] at h
    split at h
    · rename_i found hFound
      obtain ⟨rfl, rfl⟩ := Prod.mk.inj (Option.some.inj h)
      exact ⟨hSound, hSound v found hFound, fun _ _ hOther => hOther⟩
    · rename_i hNew
      obtain ⟨done, hDone, hResult⟩ := Option.map_eq_some_iff.mp h
      obtain ⟨rfl, rfl⟩ := Prod.mk.inj hResult
      have hStart : g.Gathered memo memo [] [] :=
        ⟨hSound, fun u => by simp, fun _ hNone => (nomatch hNone), fun _ _ hFound => hFound⟩
      have hAll := foldlM_collect ih (g.next v) [] [] memo hStart hDone
      have hKnown : g.Known v done.1 := by
        refine ⟨fun u => ?_, fun hCyclic => ?_⟩
        · rw [hAll.gathered]
          constructor
          · rintro ⟨parent, hParent, rfl | hWay⟩
            · exact .single hParent
            · exact .head hParent hWay
          · intro hWay
            obtain ⟨parent, hParent, hRest⟩ := TransGen.head'_iff.mp hWay
            rcases Relation.reflTransGen_iff_eq_or_transGen.mp hRest with rfl | hRest
            · exact ⟨u, hParent, .inl rfl⟩
            · exact ⟨parent, hParent, .inr hRest⟩
        · obtain ⟨parent, hParent, hFrom⟩ := hCyclic.exists_leads
          exact hAll.acyclic parent hParent hFrom
      refine ⟨hAll.sound.set hKnown, hKnown, fun u found hFound => ?_⟩
      have hOther : u ≠ v := by
        rintro rfl
        rw [hNew] at hFound
        cases hFound
      rw [InsertionMap.get_set_of_ne hOther]
      exact hAll.grows u found hFound

theorem get_of_collect {parents : V → List V} {depth : Nat} {v : V} {memo memo' : Memo V} {ancestors : List V}
    (h : collect parents depth v memo = some (ancestors, memo')) : InsertionMap.get v memo' = some ancestors := by
  cases depth with
  | zero => cases h
  | succ depth =>
    rw [collect] at h
    split at h
    · rename_i hFound
      obtain ⟨rfl, rfl⟩ := Prod.mk.inj (Option.some.inj h)
      exact hFound
    · obtain ⟨done, -, hResult⟩ := Option.map_eq_some_iff.mp h
      obtain ⟨rfl, rfl⟩ := Prod.mk.inj hResult
      exact InsertionMap.get_set_self v done.1 done.2

theorem foldlM_isSome {α β : Type} {f : β → α → Option β} {l : List α} (h : ∀ a ∈ l, ∀ b, (f b a).isSome = true) (b : β) :
    (l.foldlM f b).isSome = true := by
  induction l generalizing b with
  | nil => rfl
  | cons a l ih =>
    obtain ⟨next, hNext⟩ := Option.isSome_iff_exists.mp (h a List.mem_cons_self b)
    rw [List.foldlM_cons, hNext]
    exact ih (fun other hOther => h other (List.mem_cons_of_mem _ hOther)) next

/-- Without cycles the nesting is no deeper than there are nodes with parents. -/
theorem collect_isSome (hAcyclic : g.Acyclic) (depth : Nat) (v : V) (memo : Memo V) (active : List V)
    (hActive : ∀ u ∈ active, TransGen g.Leads u v) (hDepth : (g.sources.filter (· ∉ active)).length < depth) :
    (collect g.next depth v memo).isSome = true := by
  induction depth generalizing v memo active with
  | zero => exact absurd hDepth (Nat.not_lt_zero _)
  | succ depth ih =>
    rw [collect]
    split
    · rfl
    · rw [Option.isSome_map]
      refine foldlM_isSome (fun parent hParent done => ?_) _
      rw [Option.isSome_map]
      have hNew : v ∉ active := fun hIn => hAcyclic v (hActive v hIn)
      have hFewer := Digraph.length_filter_notMem_cons_lt (Digraph.Leads.mem_sources hParent) hNew
      refine ih parent done.2 (v :: active) (fun u hu => ?_) (by omega)
      rcases List.mem_cons.mp hu with rfl | hu
      · exact .single hParent
      · exact (hActive u hu).tail hParent

theorem collectAll_isSome (hAcyclic : g.Acyclic) {depth : Nat} (hDepth : g.sources.length < depth) (nodes : List V) :
    (collectAll g.next depth nodes).isSome = true := by
  refine foldlM_isSome (fun v _ memo => ?_) _
  rw [Option.isSome_map]
  refine collect_isSome hAcyclic depth v memo [] (fun _ hNone => nomatch hNone) ?_
  exact Nat.lt_of_le_of_lt (List.length_filter_le _ _) hDepth

theorem collectAll_sound {depth : Nat} {nodes : List V} {memo : Memo V} (h : collectAll g.next depth nodes = some memo) :
    ∀ v ∈ nodes, ∃ ancestors, InsertionMap.get v memo = some ancestors ∧ g.Known v ancestors := by
  have hFold : ∀ (todo : List V) (memo₀ : Memo V), g.Sound memo₀ →
      todo.foldlM (fun memo v => (collect g.next depth v memo).map Prod.snd) memo₀ = some memo →
      g.Sound memo ∧ (∀ u found, InsertionMap.get u memo₀ = some found → InsertionMap.get u memo = some found) ∧
        ∀ v ∈ todo, ∃ ancestors, InsertionMap.get v memo = some ancestors := by
    intro todo
    induction todo with
    | nil =>
      rintro memo₀ hSound hDone
      obtain rfl := Option.some.inj hDone
      exact ⟨hSound, fun _ _ hFound => hFound, fun _ hNone => (nomatch hNone)⟩
    | cons v todo ih =>
      intro memo₀ hSound hDone
      rw [List.foldlM_cons] at hDone
      obtain ⟨memo₁, hFirst, hRest⟩ := Option.bind_eq_some_iff.mp hDone
      obtain ⟨⟨ancestors, memo₂⟩, hCollect, rfl⟩ := Option.map_eq_some_iff.mp hFirst
      obtain ⟨hSound', -, hGrows⟩ := collect_sound depth v memo₀ ancestors memo₂ hSound hCollect
      obtain ⟨hLast, hKeep, hAll⟩ := ih memo₂ hSound' hRest
      refine ⟨hLast, fun u found hFound => hKeep u found (hGrows u found hFound), fun u hu => ?_⟩
      rcases List.mem_cons.mp hu with rfl | hu
      · exact ⟨ancestors, hKeep u ancestors (get_of_collect hCollect)⟩
      · exact hAll u hu
  obtain ⟨hSound, -, hAll⟩ := hFold nodes [] (fun _ _ hNone => nomatch hNone) h
  intro v hv
  obtain ⟨ancestors, hFound⟩ := hAll v hv
  exact ⟨ancestors, hFound, hSound v ancestors hFound⟩

end Library
