import CommandConsole.Planning.Dependencies

/-! # When the validation of dependencies answers

The two passes that gather ancestors come back only where the steps depend on each other without a cycle. There
the report has no cycle and the order, if there is one, puts every dependency before its dependents.
-/
namespace CommandConsole.Planning
open Library
open Relation (TransGen)
set_option autoImplicit false

section Graph

variable {plan : NormalizedPlan} {a b : String}

/-- A step of the plan, and one that names it as a dependency. -/
def NormalizedPlan.DependsOn (plan : NormalizedPlan) (b a : String) : Prop :=
  ∃ step ∈ plan.steps, step.id = b ∧ ∃ dependency ∈ step.dependencies, plan.resolve dependency = a

theorem stepIds_graph (plan : NormalizedPlan) : (buildDependencyGraph plan).stepIds = plan.stepIds := by
  rw [DependencyGraph.stepIds, buildDependencyGraph, NormalizedPlan.stepIds, List.map_map]
  rfl

theorem mem_edges {edge : DependencyEdge} (h : edge ∈ (buildDependencyGraph plan).edges) :
    plan.DependsOn edge.target edge.source := by
  obtain ⟨step, hStep, hEdge⟩ := List.mem_flatMap.mp h
  obtain ⟨dependency, hDependency, rfl⟩ := List.mem_map.mp hEdge
  exact ⟨step, hStep, rfl, dependency, hDependency, rfl⟩

theorem exists_edge (h : plan.DependsOn b a) :
    ∃ edge ∈ (buildDependencyGraph plan).edges, edge.source = a ∧ edge.target = b := by
  obtain ⟨step, hStep, rfl, dependency, hDependency, rfl⟩ := h
  exact ⟨_, List.mem_flatMap.mpr ⟨step, hStep, List.mem_map_of_mem hDependency⟩, rfl, rfl⟩

theorem DependsOn.mem_stepIds (h : plan.DependsOn b a) : b ∈ plan.stepIds := by
  obtain ⟨step, hStep, rfl, -⟩ := h
  exact List.mem_map_of_mem hStep

/-- The resolved dependency graph between the steps of the plan. -/
theorem successors_leads : (buildDependencyGraph plan).successors.Leads a b ↔ a ∈ plan.stepIds ∧ plan.DependsOn b a := by
  simp only [Library.Digraph.Leads, DependencyGraph.successors, stepIds_graph]
  constructor
  · intro h
    split at h
    · rename_i hStep
      obtain ⟨edge, hEdge, rfl⟩ := List.mem_map.mp h
      obtain ⟨hMem, hSource⟩ := List.mem_filter.mp hEdge
      exact ⟨hStep, of_decide_eq_true hSource ▸ mem_edges hMem⟩
    · cases h
  · rintro ⟨hStep, hDepends⟩
    obtain ⟨edge, hMem, rfl, rfl⟩ := exists_edge hDepends
    rw [if_pos hStep]
    exact List.mem_map_of_mem (List.mem_filter.mpr ⟨hMem, decide_eq_true rfl⟩)

theorem parents_leads : (buildDependencyGraph plan).parents.Leads b a ↔ plan.DependsOn b a := by
  simp only [Library.Digraph.Leads, DependencyGraph.parents, stepIds_graph]
  constructor
  · intro h
    split at h
    · obtain ⟨edge, hEdge, rfl⟩ := List.mem_map.mp h
      obtain ⟨hMem, hTarget⟩ := List.mem_filter.mp hEdge
      exact of_decide_eq_true hTarget ▸ mem_edges hMem
    · cases h
  · intro hDepends
    rw [if_pos (DependsOn.mem_stepIds hDepends)]
    obtain ⟨edge, hMem, rfl, rfl⟩ := exists_edge hDepends
    exact List.mem_map_of_mem (List.mem_filter.mpr ⟨hMem, decide_eq_true rfl⟩)

/-- A cycle of dependents is one of dependencies. -/
theorem parents_acyclic_iff :
    (buildDependencyGraph plan).parents.Acyclic ↔ (buildDependencyGraph plan).successors.Acyclic := by
  constructor
  · intro h id hCycle
    have hSwap : ∀ a b, (buildDependencyGraph plan).successors.Leads a b →
        Function.swap (buildDependencyGraph plan).parents.Leads a b :=
      fun a b hLeads => parents_leads.mpr (successors_leads.mp hLeads).2
    exact h id (Relation.transGen_swap.mp (TransGen.mono hSwap id id hCycle))
  · intro h id hCycle
    -- every step on the way to a step is one of the plan
    have hBack : ∀ u, TransGen (buildDependencyGraph plan).parents.Leads u id → id ∈ plan.stepIds →
        TransGen (buildDependencyGraph plan).successors.Leads id u := by
      intro u hWay hId
      induction hWay using TransGen.head_induction_on with
      | single hLeads => exact .single (successors_leads.mpr ⟨hId, parents_leads.mp hLeads⟩)
      | head hLeads hRest ih =>
        obtain ⟨w, hNext, -⟩ := TransGen.head'_iff.mp hRest
        exact ih.tail (successors_leads.mpr ⟨DependsOn.mem_stepIds (parents_leads.mp hNext), parents_leads.mp hLeads⟩)
    obtain ⟨w, hNext, -⟩ := TransGen.head'_iff.mp hCycle
    exact h id (hBack id hCycle (DependsOn.mem_stepIds (parents_leads.mp hNext)))

end Graph

section Ancestors

variable {plan : NormalizedPlan} {depth : Nat}

theorem ancestorMap_isSome (h : (buildDependencyGraph plan).successors.Acyclic) (hDepth : plan.steps.length < depth) :
    (buildAncestorMap (buildDependencyGraph plan) depth).isSome = true := by
  refine collectAll_isSome (parents_acyclic_iff.mpr h) ?_ _
  change (buildDependencyGraph plan).stepIds.length < depth
  rwa [stepIds_graph, NormalizedPlan.stepIds, List.length_map]

theorem acyclic_of_ancestorMap {memo : Memo String} (h : buildAncestorMap (buildDependencyGraph plan) depth = some memo) :
    (buildDependencyGraph plan).successors.Acyclic := by
  refine parents_acyclic_iff.mp fun id hCycle => ?_
  obtain ⟨w, hNext, -⟩ := TransGen.head'_iff.mp hCycle
  have hId : id ∈ (buildDependencyGraph plan).stepIds := by
    rw [stepIds_graph]
    exact DependsOn.mem_stepIds (parents_leads.mp hNext)
  obtain ⟨ancestors, -, hKnown⟩ := collectAll_sound h id hId
  exact hKnown.2 hCycle.cyclicFrom

end Ancestors

section Ordering

variable {plan : NormalizedPlan} (localeCompare : String → String → Int)

theorem findNode_mem {nodes : List DependencyNode} {id : String} {node : DependencyNode} (h : findNode nodes id = some node) :
    node ∈ nodes ∧ node.stepId = id := by
  have hFound := List.find?_some h
  exact ⟨List.mem_reverse.mp (List.mem_of_find?_eq_some h), of_decide_eq_true hFound⟩

theorem kahn_lawful (plan : NormalizedPlan) :
    ((buildDependencyGraph plan).kahn localeCompare).Lawful (buildDependencyGraph plan).nodes where
  nodup := by
    have hIds := stepIds_graph plan
    rw [DependencyGraph.stepIds] at hIds
    exact hIds ▸ plan.distinct
  found _ _ hFound := findNode_mem hFound
  perm _ := List.perm_insertionSort _ _

theorem sort_spec (plan : NormalizedPlan) : ∃ result, stableTopologicalSort (buildDependencyGraph plan) localeCompare = some result ∧
    ∀ ordered, result.1 = some ordered → ordered.Perm plan.stepIds ∧
      ∀ before id after, ordered = before ++ id :: after → ∀ a, plan.DependsOn id a → a ∈ before := by
  obtain ⟨ordered, hOrder, hSound⟩ := Kahn.order_spec (kahn_lawful localeCompare plan)
  rw [stableTopologicalSort, hOrder]
  refine ⟨_, rfl, fun found hFound => ?_⟩
  simp only at hFound
  split at hFound
  · cases hFound
  · rename_i hLength
    obtain rfl := Option.some.inj hFound
    have hIds : (buildDependencyGraph plan).nodes.map DependencyNode.stepId = plan.stepIds := stepIds_graph plan
    have hInside : ordered ⊆ plan.stepIds := by
      rw [← hIds]
      exact hSound.inside
    refine ⟨?_, fun before id after hSplit a hDepends => ?_⟩
    · refine (List.subperm_of_subset hSound.nodup hInside).perm_of_length_le ?_
      rw [← hIds, List.length_map]
      exact Nat.le_of_eq (not_not.mp hLength).symm
    · have hGrounded := hSound.grounded
      rw [hSplit] at hGrounded
      have hTail : a ∈ ((buildDependencyGraph plan).kahn localeCompare).tails id := by
        obtain ⟨edge, hEdge, rfl, rfl⟩ := exists_edge hDepends
        exact Kahn.mem_tails.mpr (List.mem_map_of_mem hEdge)
      have hBefore := hGrounded.split hTail
      rwa [List.append_nil] at hBefore

end Ordering

section Branches

variable {plan : NormalizedPlan}

/-- The branch type of every step that has one can be printed. -/
def NormalizedPlan.Printable (plan : NormalizedPlan) : Prop :=
  ∀ step ∈ plan.steps, ∀ raw, step.inputs.get "branchType" = some raw → raw.display.isSome = true

theorem branchTypeErrors_isSome {step : NormalizedPlanStep} : (branchTypeErrors step).isSome = true ↔
    ∀ raw, step.inputs.get "branchType" = some raw → raw.display.isSome = true := by
  rw [branchTypeErrors, Option.isSome_map, NormalizedPlanStep.branchText]
  split
  · rename_i hNone
    refine ⟨fun _ raw hRaw => ?_, fun _ => rfl⟩
    rw [hNone] at hRaw
    cases hRaw
  · rename_i raw hRaw
    rw [Option.isSome_map]
    constructor
    · intro hSome other hOther
      rw [hRaw] at hOther
      obtain rfl := Option.some.inj hOther
      exact hSome
    · exact fun hAll => hAll raw hRaw

theorem mapM_isSome {α β : Type} (f : α → Option β) (l : List α) :
    (l.mapM f).isSome = true ↔ ∀ a ∈ l, (f a).isSome = true := by
  induction l with
  | nil => simp
  | cons a l ih =>
    rw [List.mapM_cons, List.forall_mem_cons, ← ih]
    cases f a with
    | none => simp
    | some b =>
      cases hRest : l.mapM f with
      | none => simp
      | some rest => simp

theorem validateBranchSemantics_isSome (graph : DependencyGraph) :
    (validateBranchSemantics plan graph).isSome = true ↔ plan.Printable := by
  rw [validateBranchSemantics, Option.isSome_map, mapM_isSome]
  simp only [branchTypeErrors_isSome]
  rfl

end Branches

section Exactness

variable {plan : NormalizedPlan}

/-- The report has the cycle error exactly where the resolved graph has a cycle, with a cycle as its path, and its order
is one of all steps, each after its dependencies. -/
structure DependencyValidationReport.Exact (plan : NormalizedPlan) (report : DependencyValidationReport) : Prop where
  cyclic : (∃ error ∈ report.errors, error.code = .dependencyCycleDetected) ↔
    ∃ id, (buildDependencyGraph plan).successors.OnCycle id
  path : ∀ error ∈ report.errors, error.code = .dependencyCycleDetected →
    ∃ walk, error.path = some walk ∧ (buildDependencyGraph plan).successors.IsCycle walk
  order : ∀ ordered, report.orderedStepIds = some ordered → ordered.Perm plan.stepIds ∧
    ∀ before id after, ordered = before ++ id :: after → ∀ a, plan.DependsOn id a → a ∈ before

theorem detectDependencyCycles_spec (plan : NormalizedPlan) :
    (detectDependencyCycles (buildDependencyGraph plan) = [] ↔ (buildDependencyGraph plan).successors.Acyclic) ∧
      ∀ error ∈ detectDependencyCycles (buildDependencyGraph plan),
        ∃ walk, error.path = some walk ∧ (buildDependencyGraph plan).successors.IsCycle walk := by
  have hDepth : (buildDependencyGraph plan).successors.sources.length < (buildDependencyGraph plan).stepIds.length + 1 :=
    Nat.lt_succ_self _
  obtain ⟨hFound, hNone⟩ := firstCycle_spec hDepth (List.Subset.refl (buildDependencyGraph plan).stepIds)
  rw [detectDependencyCycles]
  split
  · rename_i hCycle
    exact ⟨⟨fun _ => hNone.mp hCycle, fun _ => rfl⟩, fun _ hError => nomatch hError⟩
  · rename_i walk hCycle
    refine ⟨⟨fun hEmpty => (nomatch hEmpty), fun hAcyclic => ?_⟩, fun error hError => ?_⟩
    · rw [hNone.mpr hAcyclic] at hCycle
      cases hCycle
    · obtain rfl := List.mem_singleton.mp hError
      exact ⟨walk, rfl, hFound walk hCycle⟩

/-- The errors of a pass that does not look for cycles. -/
def OtherCodes (errors : List DependencyValidationError) : Prop := ∀ error ∈ errors, error.code ≠ .dependencyCycleDetected

theorem OtherCodes.append {errors errors' : List DependencyValidationError} (h : OtherCodes errors) (h' : OtherCodes errors') :
    OtherCodes (errors ++ errors') := fun error hError =>
  (List.mem_append.mp hError).elim (h error) (h' error)

theorem OtherCodes.flatMap {α : Type} {f : α → List DependencyValidationError} {l : List α} (h : ∀ a ∈ l, OtherCodes (f a)) :
    OtherCodes (l.flatMap f) := by
  intro error hError
  obtain ⟨a, ha, hIn⟩ := List.mem_flatMap.mp hError
  exact h a ha error hIn

theorem otherCodes_nil : OtherCodes [] := fun _ hError => nomatch hError

theorem otherCodes_ite {c : Prop} [Decidable c] {error : DependencyValidationError} (h : error.code ≠ .dependencyCycleDetected) :
    OtherCodes (if c then [error] else []) := by
  split
  · intro other hOther
    obtain rfl := List.mem_singleton.mp hOther
    exact h
  · exact otherCodes_nil

theorem referenceErrors_code (step : NormalizedPlanStep) (seen dependencies : List String) :
    OtherCodes (referenceErrors plan step seen dependencies) := by
  induction dependencies generalizing seen with
  | nil => exact otherCodes_nil
  | cons dependency rest ih =>
    rw [referenceErrors]
    refine ((OtherCodes.append ?_ ?_).append ?_).append (ih _)
    · exact otherCodes_ite SequentialDependencyErrorCode.noConfusion
    · exact otherCodes_ite SequentialDependencyErrorCode.noConfusion
    · exact otherCodes_ite SequentialDependencyErrorCode.noConfusion

theorem duplicateErrors_code (seen : List String) (steps : List NormalizedPlanStep) :
    OtherCodes (duplicateErrors plan seen steps) := by
  induction steps generalizing seen with
  | nil => exact otherCodes_nil
  | cons step rest ih =>
    rw [duplicateErrors]
    exact ((otherCodes_ite SequentialDependencyErrorCode.noConfusion).append (referenceErrors_code step [] _)).append (ih _)

theorem gateErrors_code (graph : DependencyGraph) (ancestors : Memo String) (node : DependencyNode)
    (step : NormalizedPlanStep) : OtherCodes (gateErrors graph ancestors node step) := by
  rw [gateErrors]
  refine (OtherCodes.append ?_ ?_).append ?_
  · exact otherCodes_ite SequentialDependencyErrorCode.noConfusion
  · exact otherCodes_ite SequentialDependencyErrorCode.noConfusion
  · exact otherCodes_ite SequentialDependencyErrorCode.noConfusion

theorem gateInheritance_code {graph : DependencyGraph} {depth : Nat} {errors : List DependencyValidationError}
    (h : validateGateInheritance plan graph depth = some errors) : OtherCodes errors := by
  obtain ⟨ancestors, -, rfl⟩ := Option.map_eq_some_iff.mp h
  refine OtherCodes.flatMap fun node _ => ?_
  split
  · exact gateErrors_code graph ancestors node _
  · exact otherCodes_nil

theorem branchTypeErrors_code {step : NormalizedPlanStep} {errors : List DependencyValidationError}
    (h : branchTypeErrors step = some errors) : OtherCodes errors := by
  obtain ⟨text, -, rfl⟩ := Option.map_eq_some_iff.mp h
  cases text with
  | none => exact otherCodes_nil
  | some text =>
    dsimp only
    split
    · exact otherCodes_nil
    · intro error hError
      obtain rfl := List.mem_singleton.mp hError
      exact SequentialDependencyErrorCode.noConfusion

theorem verificationErrors_code (graph : DependencyGraph) (node : DependencyNode) :
    OtherCodes (verificationErrors plan graph node) := by
  have hLate : OtherCodes [verificationErrors.late node] := by
    intro error hError
    obtain rfl := List.mem_singleton.mp hError
    exact SequentialDependencyErrorCode.noConfusion
  rw [verificationErrors]
  split
  · dsimp only
    split
    · split
      · exact hLate
      · exact otherCodes_nil
    · exact hLate
  · exact otherCodes_nil

theorem branchErrors_code (graph : DependencyGraph) (node : DependencyNode) : OtherCodes (branchErrors plan graph node) := by
  rw [branchErrors]
  refine ((OtherCodes.append ?_ ?_).append ?_).append (verificationErrors_code graph node)
  · exact otherCodes_ite SequentialDependencyErrorCode.noConfusion
  · exact otherCodes_ite SequentialDependencyErrorCode.noConfusion
  · exact otherCodes_ite SequentialDependencyErrorCode.noConfusion

theorem mapM_mem {α β : Type} {f : α → Option β} {l : List α} {results : List β} (h : l.mapM f = some results) :
    ∀ b ∈ results, ∃ a ∈ l, f a = some b := by
  induction l generalizing results with
  | nil =>
    rw [List.mapM_nil] at h
    obtain rfl := Option.some.inj h
    exact fun _ hb => nomatch hb
  | cons a l ih =>
    rw [List.mapM_cons] at h
    obtain ⟨first, hFirst, hRest⟩ := Option.bind_eq_some_iff.mp h
    obtain ⟨rest, hMore, hResults⟩ := Option.bind_eq_some_iff.mp hRest
    obtain rfl := Option.some.inj hResults
    intro b hb
    rcases List.mem_cons.mp hb with rfl | hb
    · exact ⟨a, List.mem_cons_self, hFirst⟩
    · obtain ⟨other, hOther, hSame⟩ := ih hMore b hb
      exact ⟨other, List.mem_cons_of_mem _ hOther, hSame⟩

theorem branchSemantics_code {graph : DependencyGraph} {errors : List DependencyValidationError}
    (h : validateBranchSemantics plan graph = some errors) : OtherCodes errors := by
  obtain ⟨found, hFound, rfl⟩ := Option.map_eq_some_iff.mp h
  refine OtherCodes.append (fun error hError => ?_) (OtherCodes.flatMap fun node _ => branchErrors_code graph node)
  obtain ⟨part, hPart, hIn⟩ := List.mem_flatten.mp hError
  obtain ⟨step, -, hStep⟩ := mapM_mem hFound part hPart
  exact branchTypeErrors_code hStep error hIn

theorem policyErrors_code (graph : DependencyGraph) (ancestors : Memo String) (step : NormalizedPlanStep)
    (node : DependencyNode) : OtherCodes (policyErrors graph ancestors step node) := by
  rw [policyErrors]
  refine ((((OtherCodes.append ?_ ?_).append ?_).append ?_).append ?_).append ?_
  all_goals exact otherCodes_ite SequentialDependencyErrorCode.noConfusion

theorem policies_code {graph : DependencyGraph} {depth : Nat} {errors : List DependencyValidationError}
    (h : validateDependencyPolicies plan graph depth = some errors) : OtherCodes errors := by
  obtain ⟨ancestors, -, rfl⟩ := Option.map_eq_some_iff.mp h
  refine OtherCodes.flatMap fun step _ => ?_
  split
  · exact policyErrors_code graph ancestors step _
  · exact otherCodes_nil

theorem sort_code {graph : DependencyGraph} {localeCompare : String → String → Int}
    {result : Option (List String) × List DependencyValidationError} (h : stableTopologicalSort graph localeCompare = some result) :
    OtherCodes result.2 := by
  obtain ⟨ordered, -, rfl⟩ := Option.map_eq_some_iff.mp h
  split
  · intro error hError
    obtain rfl := List.mem_singleton.mp hError
    exact SequentialDependencyErrorCode.noConfusion
  · exact otherCodes_nil

variable {localeCompare : String → String → Int} {fingerprint : DependencyGraph → String} {depth : Nat}

/-- The passes that a report puts together. -/
theorem validate_eq_some {report : DependencyValidationReport}
    (h : validateSequentialDependencies localeCompare fingerprint depth (some plan) = some report) :
    ∃ ordering gates branches policies,
      stableTopologicalSort (buildDependencyGraph plan) localeCompare = some ordering ∧
      validateGateInheritance plan (buildDependencyGraph plan) depth = some gates ∧
      validateBranchSemantics plan (buildDependencyGraph plan) = some branches ∧
      validateDependencyPolicies plan (buildDependencyGraph plan) depth = some policies ∧
      report.errors = validateDependencyReferences plan ++ detectDependencyCycles (buildDependencyGraph plan) ++
        ordering.2 ++ gates ++ branches ++ policies ∧
      report.orderedStepIds = ordering.1 ∧ (report.ok = true ↔ report.errors = []) := by
  rw [validateSequentialDependencies] at h
  obtain ⟨ordering, hOrdering, h⟩ := Option.bind_eq_some_iff.mp h
  obtain ⟨gates, hGates, h⟩ := Option.bind_eq_some_iff.mp h
  obtain ⟨branches, hBranches, h⟩ := Option.bind_eq_some_iff.mp h
  obtain ⟨policies, hPolicies, h⟩ := Option.bind_eq_some_iff.mp h
  obtain rfl := Option.some.inj h
  exact ⟨ordering, gates, branches, policies, hOrdering, hGates, hBranches, hPolicies, rfl, rfl, decide_eq_true_iff⟩

theorem validate_exact {report : DependencyValidationReport}
    (h : validateSequentialDependencies localeCompare fingerprint depth (some plan) = some report) :
    report.Exact plan := by
  obtain ⟨ordering, gates, branches, policies, hOrdering, hGates, hBranches, hPolicies, hErrors, hOrdered, -⟩ :=
    validate_eq_some h
  obtain ⟨hNone, hPath⟩ := detectDependencyCycles_spec plan
  have hOnly : ∀ error ∈ report.errors, error.code = .dependencyCycleDetected →
      error ∈ detectDependencyCycles (buildDependencyGraph plan) := by
    intro error hError hCode
    rw [hErrors] at hError
    simp only [List.mem_append] at hError
    rcases hError with ((((hIn | hIn) | hIn) | hIn) | hIn) | hIn
    · exact absurd hCode (duplicateErrors_code [] plan.steps error hIn)
    · exact hIn
    · exact absurd hCode (sort_code hOrdering error hIn)
    · exact absurd hCode (gateInheritance_code hGates error hIn)
    · exact absurd hCode (branchSemantics_code hBranches error hIn)
    · exact absurd hCode (policies_code hPolicies error hIn)
  have hAcyclic : (buildDependencyGraph plan).successors.Acyclic := by
    obtain ⟨ancestors, hAncestors, -⟩ := Option.map_eq_some_iff.mp hGates
    exact acyclic_of_ancestorMap hAncestors
  refine ⟨⟨fun hFound => ?_, fun hCycle => ?_⟩, fun error hError hCode => hPath error (hOnly error hError hCode), ?_⟩
  · obtain ⟨error, hError, hCode⟩ := hFound
    have hIn := hOnly error hError hCode
    rw [hNone.mpr hAcyclic] at hIn
    cases hIn
  · obtain ⟨id, hOn⟩ := hCycle
    exact absurd hOn (hAcyclic id)
  · obtain ⟨result, hSort, hOrder⟩ := sort_spec localeCompare plan
    rw [hOrdering] at hSort
    obtain rfl := Option.some.inj hSort
    rw [hOrdered]
    exact hOrder

theorem validate_isSome (hAcyclic : (buildDependencyGraph plan).successors.Acyclic) (hPrintable : plan.Printable)
    (hDepth : plan.steps.length < depth) :
    ∃ report, validateSequentialDependencies localeCompare fingerprint depth (some plan) = some report := by
  obtain ⟨ordering, hOrdering, -⟩ := sort_spec localeCompare plan
  obtain ⟨ancestors, hAncestors⟩ := Option.isSome_iff_exists.mp (ancestorMap_isSome hAcyclic hDepth)
  obtain ⟨branches, hBranches⟩ :=
    Option.isSome_iff_exists.mp ((validateBranchSemantics_isSome (buildDependencyGraph plan)).mpr hPrintable)
  rw [validateSequentialDependencies]
  simp only [hOrdering, validateGateInheritance, validateDependencyPolicies, hAncestors, hBranches, Option.map_some]
  exact ⟨_, rfl⟩

theorem answered_only {report : DependencyValidationReport}
    (h : validateSequentialDependencies localeCompare fingerprint depth (some plan) = some report) :
    (∀ id, ¬ (buildDependencyGraph plan).successors.OnCycle id) ∧ plan.Printable := by
  obtain ⟨ordering, gates, branches, policies, -, hGates, hBranches, -⟩ := validate_eq_some h
  obtain ⟨ancestors, hAncestors, -⟩ := Option.map_eq_some_iff.mp hGates
  refine ⟨acyclic_of_ancestorMap hAncestors, (validateBranchSemantics_isSome (buildDependencyGraph plan)).mp ?_⟩
  rw [hBranches]
  rfl

/-- A report, and an exact one, is there for every large enough depth exactly where the steps depend on each other
without a cycle and every branch type can be printed. Elsewhere there is none for any depth. -/
theorem validation_answers_iff (localeCompare : String → String → Int) (fingerprint : DependencyGraph → String)
    (plan : NormalizedPlan) :
    ((∃ depth, ∀ more, ∃ report,
      validateSequentialDependencies localeCompare fingerprint (depth + more) (some plan) = some report ∧ report.Exact plan) ↔
        (∀ id, ¬ (buildDependencyGraph plan).successors.OnCycle id) ∧ plan.Printable) ∧
      (¬ ((∀ id, ¬ (buildDependencyGraph plan).successors.OnCycle id) ∧ plan.Printable) →
        ∀ depth, validateSequentialDependencies localeCompare fingerprint depth (some plan) = none) := by
  refine ⟨⟨?_, ?_⟩, fun hNot depth => ?_⟩
  · rintro ⟨depth, hAll⟩
    obtain ⟨report, hReport, -⟩ := hAll 0
    exact answered_only hReport
  · rintro ⟨hAcyclic, hPrintable⟩
    refine ⟨plan.steps.length + 1, fun more => ?_⟩
    obtain ⟨report, hReport⟩ := @validate_isSome plan localeCompare fingerprint (plan.steps.length + 1 + more) hAcyclic
      hPrintable (by omega)
    exact ⟨report, hReport, validate_exact hReport⟩
  · cases hReport : validateSequentialDependencies localeCompare fingerprint depth (some plan) with
    | none => rfl
    | some report => exact absurd (answered_only hReport) hNot

end Exactness

section Examples

/-- Two steps that depend on each other. -/
def mutualPlan : NormalizedPlan where
  planId := "plan"
  validatedGraphHash := "hash"
  steps := [⟨"step-001", some "a", 0, "analysis", [], [], ["b"], .optional⟩,
    ⟨"step-002", some "b", 1, "analysis", [], [], ["a"], .optional⟩]
  distinct := by decide

def shadowed : Json := .object [("toString", .null)]

/-- One step whose branch type has a member `toString`. -/
def unprintablePlan : NormalizedPlan where
  planId := "plan"
  validatedGraphHash := "hash"
  steps := [⟨"step-001", some "a", 0, "analysis", [], [("branchType", shadowed)], [], .optional⟩]
  distinct := by decide

theorem mutualPlan_cyclic : (buildDependencyGraph mutualPlan).successors.OnCycle "step-001" :=
  Relation.TransGen.tail (Relation.TransGen.single (show "step-002" ∈ _ by decide)) (show "step-001" ∈ _ by decide)

/-- The cycle has been found, and there is no report of it. -/
theorem cycle_without_report :
    (detectDependencyCycles (buildDependencyGraph mutualPlan)).map DependencyValidationError.path =
        [some ["step-001", "step-002", "step-001"]] ∧
      (∀ localeCompare fingerprint depth,
        validateSequentialDependencies localeCompare fingerprint depth (some mutualPlan) = none) ∧
      (∀ localeCompare fingerprint depth,
        validateSequentialDependencies localeCompare fingerprint depth (some unprintablePlan) = none) ∧
      ¬ ∀ (localeCompare : String → String → Int) (fingerprint : DependencyGraph → String) (plan : NormalizedPlan),
        ∃ depth report, validateSequentialDependencies localeCompare fingerprint depth (some plan) = some report ∧
          report.Exact plan := by
  have hCyclic : ∀ localeCompare fingerprint depth,
      validateSequentialDependencies localeCompare fingerprint depth (some mutualPlan) = none := by
    intro localeCompare fingerprint depth
    rw [Option.eq_none_iff_forall_ne_some]
    exact fun report hReport => (answered_only hReport).1 "step-001" mutualPlan_cyclic
  refine ⟨by decide +kernel, hCyclic, fun localeCompare fingerprint depth => ?_, fun hAll => ?_⟩
  · rw [Option.eq_none_iff_forall_ne_some]
    intro report hReport
    have hDisplay := (answered_only hReport).2 _ (List.mem_singleton.mpr rfl) shadowed rfl
    exact absurd hDisplay (by decide)
  · obtain ⟨depth, report, hReport, -⟩ := hAll (fun _ _ => 0) (fun _ => "") mutualPlan
    rw [hCyclic] at hReport
    cases hReport

end Examples

end CommandConsole.Planning
