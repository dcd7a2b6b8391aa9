import CommandConsole.Library.InsertionMap
import CommandConsole.Library.Trails
import Mathlib.Data.List.Sort
import Mathlib.Data.Rat.Floor

/-! # Skill dependencies

The traversal of a graph of skills enumerates the dependency paths that meet no skill twice and keeps
the shortest path to each skill. The analysis of a weak or stale skill lists what lies downstream of it.
-/
namespace CommandConsole.Skills
open Library
set_option autoImplicit false

section Graph

inductive SkillDependencyType where
  | prerequisite
  | supporting
  | related
  deriving DecidableEq

structure SkillDependency where
  dependencyId : String
  prerequisite : String
  dependent : String
  relationshipType : SkillDependencyType
  strength : Rat
  requiredMasteryThreshold : Option Rat
  deriving DecidableEq

/-- A set of dependencies, each with its own id. -/
structure SkillGraph where
  dependencies : List SkillDependency
  distinct : (dependencies.map SkillDependency.dependencyId).Nodup

inductive TraversalDirection where
  | upstream
  | downstream
  deriving DecidableEq

def origin : TraversalDirection → SkillDependency → String
  | .upstream, dependency => dependency.dependent
  | .downstream, dependency => dependency.prerequisite

def goal : TraversalDirection → SkillDependency → String
  | .upstream, dependency => dependency.prerequisite
  | .downstream, dependency => dependency.dependent

end Graph

section Traversal

structure SkillGraphTraversalEntry where
  skillId : String
  depth : Nat
  viaDependencyIds : List String
  deriving DecidableEq

structure SkillGraphDependencyPath where
  skillIds : List String
  dependencyIds : List String
  deriving DecidableEq

structure SkillGraphTraversal where
  direct : List SkillGraphTraversalEntry
  transitive : List SkillGraphTraversalEntry
  paths : List SkillGraphDependencyPath
  deriving DecidableEq

structure Found where
  entries : List (String × SkillGraphTraversalEntry)
  paths : List SkillGraphDependencyPath
  deriving DecidableEq

variable (direction : TraversalDirection) (eligible : List SkillDependency)

def adjacency (skillId : String) : List SkillDependency := eligible.filter fun dependency => origin direction dependency = skillId

/-- A path that ends at a skill, of which it becomes the entry where it is the shortest so far. -/
def Found.record (found : Found) (skillPath dependencyPath : List String) (skillId : String) : Found :=
  let entry : SkillGraphTraversalEntry := ⟨skillId, dependencyPath.length, dependencyPath⟩
  let entries := match InsertionMap.get skillId found.entries with
    | none => InsertionMap.set skillId entry found.entries
    | some prior =>
      if dependencyPath.length < prior.depth then InsertionMap.set skillId entry found.entries else found.entries
  let paths := if adjacency direction eligible skillId = [] then found.paths ++ [⟨skillPath, dependencyPath⟩] else found.paths
  ⟨entries, paths⟩

/-- The recursion goes no deeper than there are dependencies. -/
def visit : Nat → String → List String → List String → List String → Found → Found
  | 0, _, _, _, _, found => found
  | fuel + 1, currentSkillId, skillPath, dependencyPath, visited, found =>
    (adjacency direction eligible currentSkillId).foldl (fun found dependency =>
      let nextSkillId := goal direction dependency
      if nextSkillId ∈ visited then found
      else
        let nextSkillPath := skillPath ++ [nextSkillId]
        let nextDependencyPath := dependencyPath ++ [dependency.dependencyId]
        visit fuel nextSkillId nextSkillPath nextDependencyPath (visited ++ [nextSkillId])
          (found.record direction eligible nextSkillPath nextDependencyPath nextSkillId)) found

def traverse (localeCompare : String → String → Int) (skillId : String) (dependencies : List SkillDependency)
    (direction : TraversalDirection) (relationshipTypes : List SkillDependencyType) : SkillGraphTraversal :=
  let eligible := dependencies.filter fun dependency => dependency.relationshipType ∈ relationshipTypes
  let found := visit direction eligible eligible.length skillId [skillId] [] [skillId] ⟨[], []⟩
  { direct := (adjacency direction eligible skillId).map fun dependency =>
      ⟨goal direction dependency, 1, [dependency.dependencyId]⟩
    transitive := (found.entries.map Prod.snd).insertionSort fun left right =>
      left.depth < right.depth ∨ left.depth = right.depth ∧ localeCompare left.skillId right.skillId ≤ 0
    paths := found.paths }

def downstream (localeCompare : String → String → Int) (skillId : String) (dependencies : List SkillDependency) :
    SkillGraphTraversal := traverse localeCompare skillId dependencies .downstream [.prerequisite]

end Traversal

section BlastRadius

inductive SkillGraphRiskTrigger where
  | weakened
  | stale
  | evidenceRevoked
  deriving DecidableEq

structure SkillRegistryEntry where
  estimatedMastery : Option Rat
  mastery : Option Rat
  deriving DecidableEq

structure SkillBlastRadiusEntry where
  skillId : String
  depth : Nat
  dependencyIds : List String
  reevaluationPriority : Rat
  reason : String
  deriving DecidableEq

inductive BlastRadiusStatus where
  | potentialImpact
  | noImpact
  | insufficientEvidence
  deriving DecidableEq

structure SkillBlastRadiusAnalysis where
  sourceSkillId : String
  trigger : SkillGraphRiskTrigger
  status : BlastRadiusStatus
  directlyAffected : List SkillBlastRadiusEntry
  potentiallyAffected : List SkillBlastRadiusEntry
  reason : String
  deriving DecidableEq

structure BlastRadiusInput where
  sourceSkillId : String
  trigger : SkillGraphRiskTrigger
  graph : SkillGraph
  registryEntries : String → Option SkillRegistryEntry

namespace BlastRadiusInput

variable (input : BlastRadiusInput)

def sourceMastery : Option Rat :=
  (input.registryEntries input.sourceSkillId).bind fun entry => entry.estimatedMastery.or entry.mastery

def directEdges : List SkillDependency :=
  input.graph.dependencies.filter fun dependency =>
    dependency.relationshipType = .prerequisite ∧ dependency.prerequisite = input.sourceSkillId

/-- A missing threshold is compared as zero. -/
def affects (dependency : SkillDependency) : Bool :=
  input.trigger != .weakened ||
    match input.sourceMastery with
    | none => true
    | some mastery => mastery < dependency.requiredMasteryThreshold.getD 0

def affectedDirectEdges : List SkillDependency := input.directEdges.filter input.affects

/-- A quotient by zero is infinite, here with a positive numerator. -/
def shortfall (mastery : Rat) (dependency : SkillDependency) : Rat :=
  let threshold := dependency.requiredMasteryThreshold.getD 0
  if threshold = 0 then 1 else min 1 ((threshold - mastery) / threshold)

def severity : Rat :=
  match input.trigger, input.sourceMastery with
  | .weakened, some mastery => ((input.affectedDirectEdges.map (shortfall mastery)).max?).getD 0
  | _, _ => 1 / 2

/-- `Number(value.toFixed(4))` -/
def toFixed4 (value : Rat) : Rat :=
  if value < 0 then -((⌊-value * 10000 + 1 / 2⌋ : Int) : Rat) / 10000 else ((⌊value * 10000 + 1 / 2⌋ : Int) : Rat) / 10000

def strengthOf (dependencyId : String) : Rat :=
  ((input.graph.dependencies.find? fun dependency => dependency.dependencyId = dependencyId).map
    SkillDependency.strength).getD 0

def toEntry (entry : SkillGraphTraversalEntry) : SkillBlastRadiusEntry where
  skillId := entry.skillId
  depth := entry.depth
  dependencyIds := entry.viaDependencyIds
  reevaluationPriority := toFixed4 <| input.severity *
    (entry.viaDependencyIds.foldl (fun product dependencyId => product * input.strengthOf dependencyId) 1) / entry.depth
  reason :=
    if entry.depth = 1 then "Direct prerequisite dependency is affected by " ++ input.sourceSkillId ++ "."
    else "Potential impact propagates from " ++ input.sourceSkillId ++ " through " ++ toString entry.depth ++
      " prerequisite levels."

def directIds : List String := input.affectedDirectEdges.map SkillDependency.dependencyId

/-- The first dependency of the path is one of those affected. -/
def beginsAffected (entry : SkillGraphTraversalEntry) : Bool :=
  match entry.viaDependencyIds.head? with
  | none => false
  | some dependencyId => input.directIds.contains dependencyId

def prioritized (entries : List SkillGraphTraversalEntry) : List SkillBlastRadiusEntry :=
  (entries.map input.toEntry).insertionSort fun left right => right.reevaluationPriority ≤ left.reevaluationPriority

def analyze (localeCompare : String → String → Int) : SkillBlastRadiusAnalysis :=
  if input.registryEntries input.sourceSkillId = none ∧ input.trigger = .weakened then
    ⟨input.sourceSkillId, input.trigger, .insufficientEvidence, [], [],
      "A weakened-skill analysis requires a canonical source skill projection."⟩
  else if input.affectedDirectEdges = [] then
    ⟨input.sourceSkillId, input.trigger, .noImpact, [], [],
      "No direct prerequisite threshold is currently affected by the trigger."⟩
  else
    let downstream := Skills.downstream localeCompare input.sourceSkillId input.graph.dependencies
    ⟨input.sourceSkillId, input.trigger, .potentialImpact,
      input.prioritized (downstream.direct.filter fun entry => input.beginsAffected entry),
      input.prioritized (downstream.transitive.filter fun entry => entry.depth > 1 && input.beginsAffected entry),
      "Affected skills are prioritized for reevaluation; their canonical mastery remains unchanged."⟩

end BlastRadiusInput

end BlastRadius

end CommandConsole.Skills
