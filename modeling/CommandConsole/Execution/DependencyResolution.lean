import CommandConsole.Execution.DependencyResolver
import CommandConsole.Library.CycleSearch
import Mathlib.Data.Set.Finite.List

/-! # Which steps are ready

The resolver looks for a cycle first and then sorts the steps into ready ones and deferred ones. Of a graph without
cycles there is always a step to go on with.
-/
namespace CommandConsole.Execution
open Library
open Relation (TransGen ReflTransGen)
set_option autoImplicit false

section Definitions

/-- A step with the fields that `normalizeStep` of the resolver sets. -/
def resolverStep (index : Nat) (step : RunStep) : RunStep :=
  { step with id := (graphNode index step).1, dependsOn := some (graphNode index step).2 }

structure DeferredStep where
  step : RunStep
  deferralReason : Option String
  deriving DecidableEq

structure Resolution where
  cycle : Option (List String)
  readySteps : List RunStep
  deferredSteps : List DeferredStep
  deriving DecidableEq

/-- The loop over the steps of a graph without cycles. -/
def sortSteps (completed failed : List String) : List RunStep → List RunStep × List DeferredStep
  | [] => ([], [])
  | step :: rest =>
    let sorted := sortSteps completed failed rest
    if (step.dependsOn.getD []).any fun dependencyId => dependencyId ∈ failed then
      (sorted.1, ⟨step, some "dependency"⟩ :: sorted.2)
    else if (step.dependsOn.getD []).all fun dependencyId => dependencyId ∈ completed then (step :: sorted.1, sorted.2)
    else (sorted.1, ⟨step, some "dependency"⟩ :: sorted.2)

def resolveDependencies (steps : List RunStep) (completed failed : List String) : Resolution :=
  match detectDependencyCycle steps with
  | some cycle => ⟨some cycle, [], (steps.mapIdx resolverStep).map fun step => ⟨step, none⟩⟩
  | none =>
    let sorted := sortSteps completed failed (steps.mapIdx resolverStep)
    ⟨none, sorted.1, sorted.2⟩

/-- The dependencies between known ids. -/
def dependencyGraph (steps : List RunStep) : Library.Digraph String where
  next id := (((buildGraph steps).of id).getD []).filter fun dependencyId => ((buildGraph steps).of dependencyId).isSome
  sources := (buildGraph steps).map Prod.fst
  next_eq_nil id hOut := by
    have hNone : (buildGraph steps).of id = none := by
      rw [Edges.of, Option.map_eq_none_iff, List.find?_eq_none]
      intro entry hEntry hId
      exact hOut (List.mem_map.mpr ⟨entry, List.mem_reverse.mp hEntry, of_decide_eq_true hId⟩)
    rw [hNone]
    rfl

end Definitions

section Search

variable {edges : Edges} {g : Library.Digraph String}

/-- How the search goes on from a state without a cycle. -/
structure CycleSearch.Next (g : Library.Digraph String) (s t : CycleSearch) : Prop where
  found : ∀ walk ∈ t.cycle, g.IsLasso walk
  back : t.cycle = none → t.visiting = s.visiting
  cleared : t.cycle = none → ∀ u ∈ t.visited, ¬ g.CyclicFrom u

theorem visit_of_found {fuel : Nat} {v : String} {trail : List String} {s : CycleSearch} (h : s.cycle.isSome = true) :
    visit edges fuel v trail s = s := by
  cases fuel with
  | zero => rfl
  | succ fuel => rw [visit, if_pos h]

/-- Visits of several nodes, all from one trail. -/
theorem foldl_visit {fuel : Nat} {trail visiting todo : List String}
    (hVisit : ∀ w ∈ todo, ∀ t : CycleSearch, t.cycle = none → t.visiting = visiting →
      (∀ u ∈ t.visited, ¬ g.CyclicFrom u) → t.Next g (visit edges fuel w trail t) ∧
        ((visit edges fuel w trail t).cycle = none → ¬ g.CyclicFrom w))
    (t : CycleSearch) (hNone : t.cycle = none) (hVisiting : t.visiting = visiting)
    (hCleared : ∀ u ∈ t.visited, ¬ g.CyclicFrom u) :
    t.Next g (todo.foldl (fun s w => visit edges fuel w trail s) t) ∧
      ((todo.foldl (fun s w => visit edges fuel w trail s) t).cycle = none → ∀ w ∈ todo, ¬ g.CyclicFrom w) := by
  induction todo generalizing t with
  | nil =>
    refine ⟨⟨fun walk hFound => ?_, fun _ => rfl, fun _ => hCleared⟩, fun _ w hw => nomatch hw⟩
    rw [List.foldl_nil, hNone] at hFound
    cases hFound
  | cons w todo ih =>
    obtain ⟨hFirst, hBehind⟩ := hVisit w List.mem_cons_self t hNone hVisiting hCleared
    rw [List.foldl_cons]
    cases hCycle : (visit edges fuel w trail t).cycle with
    | some walk =>
      have hStays : todo.foldl (fun s w => visit edges fuel w trail s) (visit edges fuel w trail t) =
          visit edges fuel w trail t := by
        clear ih hVisit
        induction todo with
        | nil => rfl
        | cons u todo ih => rw [List.foldl_cons, visit_of_found (by rw [hCycle]; rfl), ih]
      rw [hStays]
      exact ⟨hFirst, fun h => by rw [hCycle] at h; cases h⟩
    | none =>
      obtain ⟨hRest, hOthers⟩ := ih (fun u hu => hVisit u (List.mem_cons_of_mem _ hu)) _ hCycle
        ((hFirst.back hCycle).trans hVisiting) (hFirst.cleared hCycle)
      refine ⟨⟨hRest.found, fun h => (hRest.back h).trans (hFirst.back hCycle), hRest.cleared⟩, fun h u hu => ?_⟩
      rcases List.mem_cons.mp hu with rfl | hu
      · exact hBehind hCycle
      · exact hOthers h u hu

variable {steps : List RunStep}

theorem mem_sources_of_known {id : String} (h : ((buildGraph steps).of id).isSome = true) :
    id ∈ (dependencyGraph steps).sources := by
  refine Classical.byContradiction fun hOut => ?_
  have hNone : (buildGraph steps).of id = none := by
    rw [Edges.of, Option.map_eq_none_iff, List.find?_eq_none]
    intro entry hEntry hId
    exact hOut (List.mem_map.mpr ⟨entry, List.mem_reverse.mp hEntry, of_decide_eq_true hId⟩)
  rw [hNone] at h
  cases h

theorem visit_succ (fuel : Nat) (v : String) (trail : List String) (s : CycleSearch) (hNone : s.cycle = none)
    (hOff : v ∉ s.visiting) (hNew : v ∉ s.visited) :
    visit (buildGraph steps) (fuel + 1) v trail s =
      let explored := ((dependencyGraph steps).next v).foldl
        (fun search w => visit (buildGraph steps) fuel w (trail ++ [v]) search) { s with visiting := v :: s.visiting }
      { explored with visiting := explored.visiting.erase v, visited := v :: explored.visited } := by
  rw [visit, hNone, if_neg (by simp), if_neg hOff, if_neg hNew]
  dsimp only
  rw [dependencyGraph, List.foldl_filter]

theorem visit_spec (fuel : Nat) (v : String) (trail : List String) (s : CycleSearch) (hNone : s.cycle = none)
    (hKnown : v ∈ (dependencyGraph steps).sources)
    (hFuel : ((dependencyGraph steps).sources.filter (· ∉ s.visiting)).length < fuel)
    (hWalk : (trail ++ [v]).IsChain (dependencyGraph steps).Leads) (hTrail : ∀ u, u ∈ s.visiting ↔ u ∈ trail)
    (hCleared : ∀ u ∈ s.visited, ¬ (dependencyGraph steps).CyclicFrom u) :
    s.Next (dependencyGraph steps) (visit (buildGraph steps) fuel v trail s) ∧
      ((visit (buildGraph steps) fuel v trail s).cycle = none → ¬ (dependencyGraph steps).CyclicFrom v) := by
  induction fuel generalizing v trail s with
  | zero => exact absurd hFuel (Nat.not_lt_zero _)
  | succ fuel ih =>
    by_cases hMet : v ∈ s.visiting
    · rw [visit, hNone, if_neg (by simp), if_pos hMet]
      refine ⟨⟨fun walk hFound => ?_, fun h => (nomatch h), fun h => (nomatch h)⟩, fun h => (nomatch h)⟩
      obtain rfl := Option.some.inj hFound
      exact ⟨hWalk, trail, v, rfl, (hTrail v).mp hMet⟩
    by_cases hOld : v ∈ s.visited
    · rw [visit, hNone, if_neg (by simp), if_neg hMet, if_pos hOld]
      refine ⟨⟨fun walk hFound => ?_, fun _ => rfl, fun _ => hCleared⟩, fun _ => hCleared v hOld⟩
      rw [hNone] at hFound
      cases hFound
    · rw [visit_succ fuel v trail s hNone hMet hOld]
      have hFewer := Library.Digraph.length_filter_notMem_cons_lt hKnown hMet
      have hVisit : ∀ w ∈ (dependencyGraph steps).next v, ∀ t : CycleSearch, t.cycle = none → t.visiting = v :: s.visiting →
          (∀ u ∈ t.visited, ¬ (dependencyGraph steps).CyclicFrom u) →
            t.Next (dependencyGraph steps) (visit (buildGraph steps) fuel w (trail ++ [v]) t) ∧
              ((visit (buildGraph steps) fuel w (trail ++ [v]) t).cycle = none → ¬ (dependencyGraph steps).CyclicFrom w) := by
        intro w hNext t hNone' hVisiting hCleared'
        refine ih w (trail ++ [v]) t hNone' (mem_sources_of_known (List.mem_filter.mp hNext).2) ?_ ?_ ?_ hCleared'
        · rw [hVisiting]
          omega
        · refine List.isChain_append.mpr ⟨hWalk, .singleton w, fun a ha b hb => ?_⟩
          rw [List.getLast?_append, List.getLast?_singleton, Option.some_or, Option.mem_some_iff] at ha
          rw [List.head?_cons, Option.mem_some_iff] at hb
          exact ha ▸ hb ▸ hNext
        · intro u
          rw [hVisiting, List.mem_cons, List.mem_append, List.mem_singleton, hTrail u, or_comm]
      obtain ⟨hLast, hBehind⟩ := foldl_visit hVisit { s with visiting := v :: s.visiting } hNone rfl hCleared
      generalize ((dependencyGraph steps).next v).foldl
        (fun search w => visit (buildGraph steps) fuel w (trail ++ [v]) search) { s with visiting := v :: s.visiting } = last
        at hLast hBehind
      have hClear (h : last.cycle = none) : ¬ (dependencyGraph steps).CyclicFrom v := fun hCyclic => by
        obtain ⟨w, hLeads, hFrom⟩ := hCyclic.exists_leads
        exact hBehind h w hLeads hFrom
      refine ⟨⟨hLast.found, fun h => ?_, fun h u hu => ?_⟩, hClear⟩
      · change last.visiting.erase v = s.visiting
        rw [hLast.back h, List.erase_cons_head]
      · rcases List.mem_cons.mp hu with rfl | hu
        · exact hClear h
        · exact hLast.cleared h u hu

theorem detectDependencyCycle_spec (steps : List RunStep) :
    (∀ walk, detectDependencyCycle steps = some walk → (dependencyGraph steps).IsLasso walk) ∧
      (detectDependencyCycle steps = none ↔ (dependencyGraph steps).Acyclic) := by
  have hVisit : ∀ w ∈ (dependencyGraph steps).sources, ∀ t : CycleSearch, t.cycle = none → t.visiting = [] →
      (∀ u ∈ t.visited, ¬ (dependencyGraph steps).CyclicFrom u) →
        t.Next (dependencyGraph steps) (visit (buildGraph steps) ((buildGraph steps).length + 1) w [] t) ∧
          ((visit (buildGraph steps) ((buildGraph steps).length + 1) w [] t).cycle = none →
            ¬ (dependencyGraph steps).CyclicFrom w) := by
    intro w hKnown t hNone hVisiting hCleared
    refine visit_spec _ w [] t hNone hKnown ?_ (.singleton w) (fun u => by rw [hVisiting]) hCleared
    refine Nat.lt_succ_of_le (Nat.le_trans (List.length_filter_le _ _) ?_)
    rw [dependencyGraph, List.length_map]
  obtain ⟨hNext, hNone⟩ := foldl_visit hVisit ⟨[], [], none⟩ rfl rfl fun _ h => nomatch h
  have hFold : detectDependencyCycle steps = ((dependencyGraph steps).sources.foldl
      (fun s w => visit (buildGraph steps) ((buildGraph steps).length + 1) w [] s) ⟨[], [], none⟩).cycle := by
    rw [detectDependencyCycle, dependencyGraph, List.foldl_map]
  rw [hFold]
  refine ⟨hNext.found, fun h v hCycle => ?_, fun hAcyclic => ?_⟩
  · obtain ⟨w, hLeads, -⟩ := TransGen.head'_iff.mp hCycle
    exact hNone h v (Library.Digraph.Leads.mem_sources hLeads) hCycle.cyclicFrom
  · rw [Option.eq_none_iff_forall_ne_some]
    exact fun walk hFound => (hNext.found walk hFound).not_acyclic hAcyclic

end Search

section Sorting

variable {completed failed : List String}

/-- None of the dependencies failed and all are completed. -/
def RunStep.isReady (completed failed : List String) (step : RunStep) : Bool :=
  (step.dependsOn.getD []).all fun dependencyId => dependencyId ∉ failed ∧ dependencyId ∈ completed

theorem sortSteps_eq (completed failed : List String) (steps : List RunStep) :
    sortSteps completed failed steps = (steps.filter (RunStep.isReady completed failed),
      (steps.filter fun step => !step.isReady completed failed).map fun step => ⟨step, some "dependency"⟩) := by
  induction steps with
  | nil => rfl
  | cons step rest ih =>
    have hReady : step.isReady completed failed =
        (!((step.dependsOn.getD []).any fun dependencyId => dependencyId ∈ failed) &&
          (step.dependsOn.getD []).all fun dependencyId => dependencyId ∈ completed) := by
      rw [RunStep.isReady]
      induction step.dependsOn.getD [] with
      | nil => rfl
      | cons id ids ih =>
        rw [List.all_cons, List.any_cons, List.all_cons, ih]
        by_cases hFailed : id ∈ failed <;> by_cases hDone : id ∈ completed <;> simp [hFailed, hDone]
    rw [sortSteps, ih]
    by_cases hFailed : ((step.dependsOn.getD []).any fun dependencyId => dependencyId ∈ failed) = true
    · rw [if_pos hFailed]
      rw [hFailed, Bool.not_true, Bool.false_and] at hReady
      rw [List.filter_cons_of_neg (by simp [hReady]), List.filter_cons_of_pos (by simp [hReady]), List.map_cons]
    · rw [if_neg hFailed]
      rw [Bool.not_eq_true] at hFailed
      rw [hFailed, Bool.not_false, Bool.true_and] at hReady
      by_cases hDone : ((step.dependsOn.getD []).all fun dependencyId => dependencyId ∈ completed) = true
      · rw [if_pos hDone, List.filter_cons_of_pos (by rw [hReady, hDone]),
          List.filter_cons_of_neg (by simp [hReady, hDone])]
      · rw [if_neg hDone, List.filter_cons_of_neg (by rw [hReady]; exact hDone),
          List.filter_cons_of_pos (by simp [hReady, hDone]), List.map_cons]

/-- The steps as the resolver sees them. -/
def resolverSteps (steps : List RunStep) : List RunStep := steps.mapIdx resolverStep

theorem buildGraph_eq (steps : List RunStep) :
    buildGraph steps = (resolverSteps steps).map fun step => (step.id, step.dependsOn.getD []) := by
  refine List.ext_getElem (by simp [buildGraph, resolverSteps]) fun index h h' => ?_
  simp only [buildGraph, resolverSteps, List.getElem_map, List.getElem_mapIdx]
  rfl

/-- With distinct ids a step is found under its id. -/
theorem of_eq_some {steps : List RunStep} (hDistinct : ((resolverSteps steps).map RunStep.id).Nodup) {step : RunStep}
    (hStep : step ∈ resolverSteps steps) : (buildGraph steps).of step.id = some (step.dependsOn.getD []) := by
  have hEntry : (step.id, step.dependsOn.getD []) ∈ buildGraph steps := by
    rw [buildGraph_eq]
    exact List.mem_map_of_mem hStep
  have hKeys : ((buildGraph steps).map Prod.fst).Nodup := by
    rw [buildGraph_eq, List.map_map]
    exact hDistinct
  rw [Edges.of]
  cases hFound : (buildGraph steps).reverse.find? fun entry => entry.1 = step.id with
  | none =>
    have hNone := List.find?_eq_none.mp hFound _ (List.mem_reverse.mpr hEntry)
    simp at hNone
  | some entry =>
    have hMem := List.mem_reverse.mp (List.mem_of_find?_eq_some hFound)
    have hId : entry.1 = step.id := by simpa using List.find?_some hFound
    rw [List.inj_on_of_nodup_map hKeys hMem hEntry hId]
    rfl

/-- Following dependencies that are not completed comes to an end. -/
theorem exists_least_open {steps : List RunStep} (hAcyclic : (dependencyGraph steps).Acyclic)
    (hOpen : ∃ step ∈ resolverSteps steps, step.id ∉ completed) :
    ∃ step ∈ resolverSteps steps, step.id ∉ completed ∧ ∀ other ∈ resolverSteps steps,
      (dependencyGraph steps).Leads step.id other.id → other.id ∈ completed := by
  let ids : Type := {id : String // id ∈ (resolverSteps steps).map RunStep.id}
  let before : ids → ids → Prop := fun a b => TransGen (dependencyGraph steps).Leads b.1 a.1
  have hFinite : Finite ids := ((resolverSteps steps).map RunStep.id).finite_toSet
  have hTrans : IsTrans ids before := ⟨fun _ _ _ h h' => h'.trans h⟩
  have hIrrefl : Std.Irrefl before := ⟨fun a h => hAcyclic a.1 h⟩
  have hWell : WellFounded before := Finite.wellFounded_of_trans_of_irrefl before
  obtain ⟨start, hStart, hStartOpen⟩ := hOpen
  obtain ⟨⟨id, hId⟩, hIdOpen, hLeast⟩ := hWell.has_min {id : ids | id.1 ∉ completed}
    ⟨⟨start.id, List.mem_map_of_mem hStart⟩, hStartOpen⟩
  obtain ⟨step, hStep, rfl⟩ := List.mem_map.mp hId
  refine ⟨step, hStep, hIdOpen, fun other hOther hLeads => ?_⟩
  refine Classical.byContradiction fun hOtherOpen => ?_
  exact hLeast ⟨other.id, List.mem_map_of_mem hOther⟩ hOtherOpen (.single hLeads)

theorem exists_ready {steps : List RunStep} (hAcyclic : (dependencyGraph steps).Acyclic)
    (hDistinct : ((resolverSteps steps).map RunStep.id).Nodup)
    (hKnown : ∀ step ∈ resolverSteps steps, ∀ dependencyId ∈ step.dependsOn.getD [],
      ∃ other ∈ resolverSteps steps, other.id = dependencyId)
    (hFailed : ∀ step ∈ resolverSteps steps, step.id ∉ failed)
    (hOpen : ∃ step ∈ resolverSteps steps, step.id ∉ completed) :
    ∃ step ∈ resolverSteps steps, step.isReady completed failed = true ∧ step.id ∉ completed := by
  obtain ⟨step, hStep, hStepOpen, hBelow⟩ := exists_least_open hAcyclic hOpen
  refine ⟨step, hStep, ?_, hStepOpen⟩
  rw [RunStep.isReady, List.all_eq_true]
  intro dependencyId hDependency
  obtain ⟨other, hOther, rfl⟩ := hKnown step hStep dependencyId hDependency
  refine decide_eq_true ⟨hFailed other hOther, hBelow other hOther ?_⟩
  refine List.mem_filter.mpr ⟨?_, ?_⟩
  · rw [of_eq_some hDistinct hStep]
    exact hDependency
  · rw [of_eq_some hDistinct hOther]
    rfl

theorem resolveDependencies_of_acyclic {steps : List RunStep} (h : (dependencyGraph steps).Acyclic)
    (completed failed : List String) :
    resolveDependencies steps completed failed = {
      cycle := none
      readySteps := (resolverSteps steps).filter (RunStep.isReady completed failed)
      deferredSteps := ((resolverSteps steps).filter fun step => !step.isReady completed failed).map fun step =>
        ⟨step, some "dependency"⟩ } := by
  rw [resolveDependencies, (detectDependencyCycle_spec steps).2.mpr h]
  dsimp only
  rw [← resolverSteps, sortSteps_eq]

/-- The cycle search and the resolver on any list of steps. -/
theorem dependency_resolution (steps : List RunStep) (completed failed : List String) :
    ((detectDependencyCycle steps = none ↔ (dependencyGraph steps).Acyclic) ∧
      ∀ walk, detectDependencyCycle steps = some walk → (dependencyGraph steps).IsLasso walk) ∧
    ((dependencyGraph steps).Acyclic →
      (resolveDependencies steps completed failed).readySteps =
        (resolverSteps steps).filter (fun step => (step.dependsOn.getD []).all fun dependencyId =>
          dependencyId ∉ failed ∧ dependencyId ∈ completed) ∧
      (resolveDependencies steps completed failed).deferredSteps.map DeferredStep.step =
        (resolverSteps steps).filter (fun step => !(step.dependsOn.getD []).all fun dependencyId =>
          dependencyId ∉ failed ∧ dependencyId ∈ completed) ∧
      (((resolverSteps steps).map RunStep.id).Nodup →
        (∀ step ∈ resolverSteps steps, ∀ dependencyId ∈ step.dependsOn.getD [],
          ∃ other ∈ resolverSteps steps, other.id = dependencyId) →
        (∀ step ∈ resolverSteps steps, step.id ∉ failed) → (∃ step ∈ resolverSteps steps, step.id ∉ completed) →
        ∃ step ∈ (resolveDependencies steps completed failed).readySteps, step.id ∉ completed)) := by
  obtain ⟨hWalk, hNone⟩ := detectDependencyCycle_spec steps
  refine ⟨⟨hNone, hWalk⟩, fun hAcyclic => ?_⟩
  rw [resolveDependencies_of_acyclic hAcyclic]
  refine ⟨rfl, ?_, fun hDistinct hKnown hFailed hOpen => ?_⟩
  · rw [List.map_map]
    exact List.map_id _
  · obtain ⟨step, hStep, hReady, hStepOpen⟩ := exists_ready hAcyclic hDistinct hKnown hFailed hOpen
    exact ⟨step, List.mem_filter.mpr ⟨hStep, hReady⟩, hStepOpen⟩

def plainStep (id : String) (dependsOn : List String) : RunStep where
  id := id
  stageId := none
  stageSequence := none
  sequence := none
  status := "pending"
  kind := none
  actionClass := none
  action := none
  tool := none
  dependsOn := some dependsOn
  depends_on_step_ids := none
  blocking := false
  requiresReview := false
  rewritten := false
  deferred := false
  safeFallback := false
  reviewAcknowledged := false
  pauseReason := none
  blockReason := none
  rewriteReason := none
  deferReason := none
  error := none
  errorType := none
  createdAt := none
  updatedAt := none
  startedAt := none
  finishedAt := none

/-- Two steps in a row: the first one is ready. -/
theorem dependency_resolution_row :
    ∃ step ∈ (resolveDependencies [plainStep "b" ["a"], plainStep "a" []] [] []).readySteps, step.id ∉ ([] : List String) := by
  obtain ⟨⟨hNone, -⟩, hSorted⟩ := dependency_resolution [plainStep "b" ["a"], plainStep "a" []] [] []
  exact (hSorted (hNone.mp (by decide +kernel))).2.2 (by decide +kernel) (by decide +kernel) (by decide +kernel)
    (by decide +kernel)

end Sorting

end CommandConsole.Execution
