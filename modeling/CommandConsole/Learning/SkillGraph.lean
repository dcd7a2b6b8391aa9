import Mathlib.Data.List.Sort
import Mathlib.Algebra.Order.Ring.Rat
import CommandConsole.Library.DepthFirst
import CommandConsole.Learning.ProvenanceLedger

/-! # Skill dependency graph

An edge leads from the skill that is required to the skill that needs it. The
edge validator looks at one edge; the integrity inspection looks at a whole graph
for unknown skills, duplicate edges and cycles of hard prerequisites.
-/
namespace CommandConsole.Learning
open Library Relation
open CommandConsole.Execution (isBlank trimmed)
set_option autoImplicit false

/-- A finite number, or none for NaN and the infinities. -/
abbrev JsNumber := Option Rat

inductive SkillDependencyType where
  | prerequisite
  | supporting
  | related
  deriving DecidableEq

def SkillDependencyType.text : SkillDependencyType → String
  | prerequisite => "PREREQUISITE"
  | supporting => "SUPPORTING"
  | related => "RELATED"

inductive SkillDependencyLifecycle where
  | candidate
  | active
  | superseded
  | rejected
  deriving DecidableEq

structure SkillDependencyProvenance where
  provenanceIds : List String
  assertedBy : ProvenanceActor
  assertedAt : String
  deriving DecidableEq

/-- The threshold is null, or a number. -/
structure SkillDependency where
  dependencyId : String
  prerequisite : String
  dependent : String
  relationshipType : SkillDependencyType
  strength : JsNumber
  requiredMasteryThreshold : Option JsNumber
  evidenceIds : List String
  provenance : SkillDependencyProvenance
  lifecycle : SkillDependencyLifecycle
  graphVersionId : String
  rationale : String
  deriving DecidableEq

inductive SkillViolationCode where
  | canonicalSkillMissing
  | duplicateDependency
  | hardPrerequisiteCycle
  | selfDependencyForbidden
  | dependencyStrengthInvalid
  | prerequisiteThresholdInvalid
  | nonPrerequisiteThresholdForbidden
  | dependencyEvidenceRequired
  | dependencyProvenanceRequired
  | graphVersionAndRationaleRequired
  | canonicalSkillReferenceRequired
  deriving DecidableEq

def SkillViolationCode.text : SkillViolationCode → String
  | canonicalSkillMissing => "CANONICAL_SKILL_MISSING"
  | duplicateDependency => "DUPLICATE_DEPENDENCY"
  | hardPrerequisiteCycle => "HARD_PREREQUISITE_CYCLE"
  | selfDependencyForbidden => "SELF_DEPENDENCY_FORBIDDEN"
  | dependencyStrengthInvalid => "DEPENDENCY_STRENGTH_INVALID"
  | prerequisiteThresholdInvalid => "PREREQUISITE_THRESHOLD_INVALID"
  | nonPrerequisiteThresholdForbidden => "NON_PREREQUISITE_THRESHOLD_FORBIDDEN"
  | dependencyEvidenceRequired => "DEPENDENCY_EVIDENCE_REQUIRED"
  | dependencyProvenanceRequired => "DEPENDENCY_PROVENANCE_REQUIRED"
  | graphVersionAndRationaleRequired => "GRAPH_VERSION_AND_RATIONALE_REQUIRED"
  | canonicalSkillReferenceRequired => "CANONICAL_SKILL_REFERENCE_REQUIRED"

section Validator

def outside (number : JsNumber) (low high : Rat) : Bool :=
  match number with
  | none => true
  | some value => decide (value < low) || decide (high < value)

def blankTexts (texts : List String) : Bool := texts.isEmpty || texts.any isBlank

def violation (condition : Bool) (code : SkillViolationCode) : List SkillViolationCode :=
  if condition then [code] else []

def thresholdViolations (dependency : SkillDependency) : List SkillViolationCode :=
  match dependency.relationshipType with
  | .prerequisite =>
    violation (match dependency.requiredMasteryThreshold with
      | none => true
      | some threshold => outside threshold 0 100) .prerequisiteThresholdInvalid
  | _ => violation dependency.requiredMasteryThreshold.isSome .nonPrerequisiteThresholdForbidden

/-- The reason codes of `SkillDependencyGraphValidator.validate`, none for a valid edge. -/
def edgeViolations (dependency : SkillDependency) : List SkillViolationCode :=
  violation (isBlank dependency.dependencyId || isBlank dependency.prerequisite || isBlank dependency.dependent)
      .canonicalSkillReferenceRequired ++
    violation (!isBlank dependency.prerequisite && trimmed dependency.prerequisite = trimmed dependency.dependent)
      .selfDependencyForbidden ++
    violation (outside dependency.strength 0 1) .dependencyStrengthInvalid ++
    thresholdViolations dependency ++
    violation (blankTexts dependency.evidenceIds) .dependencyEvidenceRequired ++
    violation (blankTexts dependency.provenance.provenanceIds || isBlank dependency.provenance.assertedBy.actorId ||
      isBlank dependency.provenance.assertedAt) .dependencyProvenanceRequired ++
    violation (isBlank dependency.graphVersionId || isBlank dependency.rationale) .graphVersionAndRationaleRequired

structure SkillDependencyValidation where
  dependencyId : String
  valid : Bool
  reasonCodes : List String
  deriving DecidableEq

def validate (dependency : SkillDependency) : SkillDependencyValidation where
  dependencyId := dependency.dependencyId
  valid := (edgeViolations dependency).isEmpty
  reasonCodes :=
    if (edgeViolations dependency).isEmpty then ["SKILL_DEPENDENCY_VALID"]
    else (edgeViolations dependency).map SkillViolationCode.text

end Validator

section Integrity

structure SkillGraphViolation where
  code : SkillViolationCode
  dependencyIds : List String
  detail : String
  deriving DecidableEq

structure SkillGraphReport where
  valid : Bool
  violations : List SkillGraphViolation
  deriving DecidableEq

def dependencyReport (canonicalSkillIds : List String) (dependency : SkillDependency) : List SkillGraphViolation :=
  (edgeViolations dependency).map (fun code =>
    ⟨code, [dependency.dependencyId], "Dependency " ++ dependency.dependencyId ++ " failed " ++ code.text ++ "."⟩) ++
  ([dependency.prerequisite, dependency.dependent].filter (· ∉ canonicalSkillIds)).map fun skillId =>
    ⟨.canonicalSkillMissing, [dependency.dependencyId],
      "Dependency " ++ dependency.dependencyId ++ " references unknown canonical skill " ++ skillId ++ "."⟩

/-- The key of an edge: its three parts joined by U+0000. -/
def edgeKey (dependency : SkillDependency) : String :=
  dependency.prerequisite ++ "\x00" ++ dependency.dependent ++ "\x00" ++ dependency.relationshipType.text

def duplicateDetail : String :=
  "Multiple dependencies describe the same prerequisite, dependent, and relationship type."

def duplicateReport (dependencies : List SkillDependency) : List SkillGraphViolation :=
  ((dependencies.map edgeKey).eraseDups.map fun key =>
      (dependencies.filter fun dependency => edgeKey dependency = key).map (·.dependencyId)).filterMap
    fun dependencyIds =>
      if 1 < dependencyIds.length then some ⟨.duplicateDependency, dependencyIds, duplicateDetail⟩ else none

def isHard (dependency : SkillDependency) : Bool := dependency.relationshipType = .prerequisite

def hardEdges (dependencies : List SkillDependency) (skillId : String) : List SkillDependency :=
  (dependencies.filter isHard).filter fun edge => edge.prerequisite = skillId

/-- The cycles found so far, by the sorted ids of their edges, and the reports about them. -/
structure CycleLog where
  keys : List String
  violations : List SkillGraphViolation
  deriving DecidableEq

def reportCycle (skillId : String) (path : List SkillDependency) (log : CycleLog) : CycleLog :=
  let start := path.findIdx? fun edge => edge.prerequisite = skillId
  let tail := match start with
    | some index => path.drop index
    | none => path.getLast?.toList
  let dependencyIds := ((tail ++ path.getLast?.toList).map (·.dependencyId)).eraseDups
  let key := String.intercalate "|" (dependencyIds.insertionSort (· ≤ ·))
  if key ∈ log.keys then log
  else
    ⟨log.keys ++ [key], log.violations ++ [⟨.hardPrerequisiteCycle, dependencyIds,
      "Hard prerequisite cycle detected: " ++ String.intercalate " -> " dependencyIds ++ "."⟩]⟩

def hardSearch (dependencies : List SkillDependency) : DepthFirst String SkillDependency CycleLog where
  edges := hardEdges dependencies
  target := (·.dependent)
  found := reportCycle

/-- A visit is at most as deep as there are edges, and one more. -/
def cycleReport (dependencies : List SkillDependency) (canonicalSkillIds : List String) : List SkillGraphViolation :=
  ((hardSearch dependencies).sweep (dependencies.length + 1) canonicalSkillIds ⟨[], []⟩).violations

/-- `SkillGraphIntegrityService.inspect`. -/
def inspect (dependencies : List SkillDependency) (canonicalSkillIds : List String) : SkillGraphReport :=
  let violations := dependencies.flatMap (dependencyReport canonicalSkillIds) ++ duplicateReport dependencies ++
    cycleReport dependencies canonicalSkillIds
  ⟨violations.isEmpty, violations⟩

end Integrity

section ValidGraphs

/-- The graph of the hard prerequisites, each skill with the skills that need it. -/
def hardGraph (dependencies : List SkillDependency) : Library.Digraph String where
  next skillId := (hardEdges dependencies skillId).map (·.dependent)
  sources := dependencies.map (·.prerequisite)
  next_eq_nil skillId hOut := by
    rw [List.map_eq_nil_iff, hardEdges, List.filter_eq_nil_iff]
    intro edge hEdge hFrom
    exact hOut (List.mem_map.mpr ⟨edge, List.mem_of_mem_filter hEdge, of_decide_eq_true hFrom⟩)

theorem hardGraph_leads (dependencies : List SkillDependency) (a b : String) :
    (hardGraph dependencies).Leads a b ↔
      ∃ edge ∈ dependencies, isHard edge = true ∧ edge.prerequisite = a ∧ edge.dependent = b := by
  simp only [Library.Digraph.Leads, hardGraph, hardEdges, List.mem_map, List.mem_filter, decide_eq_true_iff]
  constructor
  · rintro ⟨edge, ⟨⟨hMem, hHard⟩, hFrom⟩, hTo⟩
    exact ⟨edge, hMem, hHard, hFrom, hTo⟩
  · rintro ⟨edge, hMem, hHard, hFrom, hTo⟩
    exact ⟨edge, ⟨⟨hMem, hHard⟩, hFrom⟩, hTo⟩

/-- Edges of one prerequisite, dependent and relationship type. -/
def SameEdge (left right : SkillDependency) : Prop :=
  left.prerequisite = right.prerequisite ∧ left.dependent = right.dependent ∧
    left.relationshipType = right.relationshipType

instance (left right : SkillDependency) : Decidable (SameEdge left right) :=
  inferInstanceAs (Decidable (_ ∧ _ ∧ _))

structure Admissible (canonicalSkillIds : List String) (dependency : SkillDependency) : Prop where
  valid : edgeViolations dependency = []
  prerequisite : dependency.prerequisite ∈ canonicalSkillIds
  dependent : dependency.dependent ∈ canonicalSkillIds

/-- What the inspection asks of a graph. -/
structure ValidGraph (canonicalSkillIds : List String) (dependencies : List SkillDependency) : Prop where
  edges : ∀ dependency ∈ dependencies, Admissible canonicalSkillIds dependency
  distinct : dependencies.Pairwise fun left right => ¬ SameEdge left right
  acyclic : (hardGraph dependencies).Acyclic

def NoNul (text : String) : Prop := '\x00' ∉ text.toList

instance (text : String) : Decidable (NoNul text) := inferInstanceAs (Decidable (¬ _))

theorem split_nul {left left' right right' : List Char} (hLeft : '\x00' ∉ left) (hLeft' : '\x00' ∉ left')
    (h : left ++ '\x00' :: right = left' ++ '\x00' :: right') : left = left' ∧ right = right' := by
  induction left generalizing left' with
  | nil =>
    cases left' with
    | nil => exact ⟨rfl, (List.cons.inj h).2⟩
    | cons c left' => exact absurd (List.mem_cons.mpr (.inl (List.cons.inj h).1)) hLeft'
  | cons c left ih =>
    cases left' with
    | nil => exact absurd (List.mem_cons.mpr (.inl (List.cons.inj h).1.symm)) hLeft
    | cons c' left' =>
      obtain ⟨rfl, hRest⟩ := List.cons.inj h
      obtain ⟨rfl, hRight⟩ := ih (fun hMem => hLeft (List.mem_cons_of_mem _ hMem))
        (fun hMem => hLeft' (List.mem_cons_of_mem _ hMem)) hRest
      exact ⟨rfl, hRight⟩

theorem toList_edgeKey (dependency : SkillDependency) :
    (edgeKey dependency).toList = dependency.prerequisite.toList ++ '\x00' ::
      (dependency.dependent.toList ++ '\x00' :: dependency.relationshipType.text.toList) := by
  simp [edgeKey]

theorem relationshipType_text_injective {left right : SkillDependencyType} (h : left.text = right.text) :
    left = right := by
  cases left <;> cases right <;> first | rfl | exact absurd h (by decide)

/-- The joined key tells edges apart whose skill ids hold no U+0000. -/
theorem sameEdge_of_edgeKey_eq {left right : SkillDependency}
    (hLeft : NoNul left.prerequisite ∧ NoNul left.dependent)
    (hRight : NoNul right.prerequisite ∧ NoNul right.dependent) (h : edgeKey left = edgeKey right) :
    SameEdge left right := by
  have hKeys := congrArg String.toList h
  rw [toList_edgeKey, toList_edgeKey] at hKeys
  obtain ⟨hFrom, hRest⟩ := split_nul hLeft.1 hRight.1 hKeys
  obtain ⟨hTo, hType⟩ := split_nul hLeft.2 hRight.2 hRest
  exact ⟨String.toList_inj.mp hFrom, String.toList_inj.mp hTo,
    relationshipType_text_injective (String.toList_inj.mp hType)⟩

variable {canonicalSkillIds : List String} {dependencies : List SkillDependency}

theorem dependencyReport_eq_nil {dependency : SkillDependency} (h : Admissible canonicalSkillIds dependency) :
    dependencyReport canonicalSkillIds dependency = [] := by
  simp [dependencyReport, h.valid, h.prerequisite, h.dependent]

theorem duplicateReport_eq_nil (h : dependencies.Pairwise fun left right => edgeKey left ≠ edgeKey right) :
    duplicateReport dependencies = [] := by
  refine List.filterMap_eq_nil_iff.mpr fun ids hIds => ?_
  obtain ⟨key, _, rfl⟩ := List.mem_map.mp hIds
  refine if_neg (Nat.not_lt.mpr ?_)
  rw [List.length_map]
  -- two edges under one key would stand in this order in the graph
  have hSub := List.filter_sublist (p := fun dependency => decide (edgeKey dependency = key)) (l := dependencies)
  have hOrder := h.sublist hSub
  cases hEdges : dependencies.filter fun dependency => decide (edgeKey dependency = key) with
  | nil => exact Nat.zero_le _
  | cons first rest =>
    cases rest with
    | nil => exact Nat.le_refl _
    | cons second rest =>
      have hFirst : edgeKey first = key := of_decide_eq_true (List.mem_filter.mp
        (hEdges ▸ List.mem_cons_self .. : first ∈ dependencies.filter _)).2
      have hSecond : edgeKey second = key := of_decide_eq_true (List.mem_filter.mp
        (hEdges ▸ List.mem_cons_of_mem _ (List.mem_cons_self ..) : second ∈ dependencies.filter _)).2
      rw [hEdges] at hOrder
      exact absurd (hFirst.trans hSecond.symm) (List.rel_of_pairwise_cons hOrder (List.mem_cons_self ..))

theorem hardSearch_leads (dependencies : List SkillDependency) :
    (hardSearch dependencies).Leads = (hardGraph dependencies).Leads := by
  funext a b
  exact propext List.mem_map.symm

theorem cycleReport_eq_nil (h : (hardGraph dependencies).Acyclic) : cycleReport dependencies canonicalSkillIds = [] := by
  rw [cycleReport, DepthFirst.sweep_of_acyclic]
  rw [hardSearch_leads]
  exact h

/-- A valid graph whose skill ids hold no U+0000 passes the inspection. -/
theorem inspect_valid (h : ValidGraph canonicalSkillIds dependencies)
    (hIds : ∀ skillId ∈ canonicalSkillIds, NoNul skillId) : (inspect dependencies canonicalSkillIds).valid = true := by
  have hKeys : dependencies.Pairwise fun left right => edgeKey left ≠ edgeKey right := by
    refine h.distinct.imp_of_mem fun {left right} hLeft hRight hDistinct hKey => hDistinct ?_
    exact sameEdge_of_edgeKey_eq
      ⟨hIds _ (h.edges left hLeft).prerequisite, hIds _ (h.edges left hLeft).dependent⟩
      ⟨hIds _ (h.edges right hRight).prerequisite, hIds _ (h.edges right hRight).dependent⟩ hKey
  have hReports : dependencies.flatMap (dependencyReport canonicalSkillIds) = [] :=
    List.flatMap_eq_nil_iff.mpr fun dependency hMem => dependencyReport_eq_nil (h.edges dependency hMem)
  rw [inspect, hReports, duplicateReport_eq_nil hKeys, cycleReport_eq_nil h.acyclic]
  rfl

theorem ValidGraph.sublist {fewer : List SkillDependency} (h : ValidGraph canonicalSkillIds dependencies)
    (hSub : fewer.Sublist dependencies) : ValidGraph canonicalSkillIds fewer where
  edges dependency hMem := h.edges dependency (hSub.subset hMem)
  distinct := h.distinct.sublist hSub
  acyclic := h.acyclic.of_leads fun a b hLeads => by
    obtain ⟨edge, hMem, hEdge⟩ := (hardGraph_leads _ a b).mp hLeads
    exact (hardGraph_leads _ a b).mpr ⟨edge, hSub.subset hMem, hEdge⟩

theorem ValidGraph.snoc {dependency : SkillDependency} (h : ValidGraph canonicalSkillIds dependencies)
    (hEdge : Admissible canonicalSkillIds dependency) (hNew : ∀ other ∈ dependencies, ¬ SameEdge other dependency)
    (hBack : isHard dependency = true →
      ¬ ReflTransGen (hardGraph dependencies).Leads dependency.dependent dependency.prerequisite) :
    ValidGraph canonicalSkillIds (dependencies ++ [dependency]) where
  edges other hMem := by
    rcases List.mem_append.mp hMem with hOld | hLast
    · exact h.edges other hOld
    · obtain rfl := List.mem_singleton.mp hLast
      exact hEdge
  distinct := by
    refine List.pairwise_append.mpr ⟨h.distinct, List.pairwise_singleton _ _, fun other hOther last hLast => ?_⟩
    obtain rfl := List.mem_singleton.mp hLast
    exact hNew other hOther
  acyclic := by
    have hLeads : ∀ a b, (hardGraph (dependencies ++ [dependency])).Leads a b →
        (hardGraph dependencies).Leads a b ∨
          isHard dependency = true ∧ dependency.prerequisite = a ∧ dependency.dependent = b := by
      intro a b hLeads
      obtain ⟨edge, hMem, hHard⟩ := (hardGraph_leads _ a b).mp hLeads
      rcases List.mem_append.mp hMem with hOld | hLast
      · exact .inl ((hardGraph_leads _ a b).mpr ⟨edge, hOld, hHard⟩)
      · obtain rfl := List.mem_singleton.mp hLast
        exact .inr hHard
    cases hHard : isHard dependency with
    | false =>
      refine h.acyclic.of_leads fun a b hab => (hLeads a b hab).resolve_right ?_
      rw [hHard]
      exact fun hFalse => Bool.noConfusion hFalse.1
    | true =>
      refine h.acyclic.insert (fun a b hab => ?_) (hBack hHard)
      exact (hLeads a b hab).imp_right fun ⟨_, hFrom, hTo⟩ => ⟨hFrom.symm, hTo.symm⟩

end ValidGraphs
end CommandConsole.Learning
