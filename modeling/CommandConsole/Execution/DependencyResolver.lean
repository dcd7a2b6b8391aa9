import CommandConsole.Execution.StepController

/-! # Cycles and missing prerequisites

Two checks on the staged run come before anything is routed: no step depends on
itself through others, and every prerequisite is a step of the run.
-/
namespace CommandConsole.Execution
open Library
set_option autoImplicit false

/-- An id with the ids it depends on. -/
abbrev Edges := List (String × List String)

/-- `normalizeStep` of the resolver. -/
def graphNode (index : Nat) (step : RunStep) : String × List String :=
  ((truthy (some step.id)).getD s!"step_{index + 1}",
    match step.dependsOn, truthy (step.source.bind PlanStep.requiresPrerequisite) with
    | some ids, _ => (ids.filter fun dependencyId => dependencyId ≠ "").eraseDups
    | none, some prerequisite => [prerequisite]
    | none, none => [])

def buildGraph (steps : List RunStep) : Edges := steps.mapIdx graphNode

/-- In a `Map` the last entry of an id stands. -/
def Edges.of (edges : Edges) (stepId : String) : Option (List String) :=
  (edges.reverse.find? fun entry => entry.1 = stepId).map Prod.snd

structure CycleSearch where
  visiting : List String
  visited : List String
  cycle : Option (List String)

/-- Each call below the first adds an id to `visiting`, so one more than the number of ids is fuel enough. -/
def visit (edges : Edges) : Nat → String → List String → CycleSearch → CycleSearch
  | 0, _, _, search => search
  | fuel + 1, stepId, trail, search =>
    if search.cycle.isSome then search
    else if stepId ∈ search.visiting then { search with cycle := some (trail ++ [stepId]) }
    else if stepId ∈ search.visited then search
    else
      let explored := ((edges.of stepId).getD []).foldl
        (fun search dependencyId =>
          if (edges.of dependencyId).isSome then visit edges fuel dependencyId (trail ++ [stepId]) search
          else search)
        { search with visiting := stepId :: search.visiting }
      { explored with
        visiting := explored.visiting.erase stepId
        visited := stepId :: explored.visited }

def detectDependencyCycle (steps : List RunStep) : Option (List String) :=
  let edges := buildGraph steps
  (edges.foldl (fun search entry => visit edges (edges.length + 1) entry.1 [] search) ⟨[], [], none⟩).cycle

/-- The first step with a prerequisite that is no step of the run, and that prerequisite. -/
def missingPrerequisite (steps : List RunStep) : Option (RunStep × String) :=
  steps.findSome? fun step =>
    ((step.dependsOn.getD []).find? fun dependencyId => steps.all fun other => other.id ≠ dependencyId).map
      fun dependencyId => (step, dependencyId)

end CommandConsole.Execution
