import CommandConsole.Library.Ancestors
import CommandConsole.Library.CycleSearch
import CommandConsole.Library.Kahn
import CommandConsole.Planning.NormalizedPlan
import Mathlib.Data.List.Sort

/-! # Validation of the dependencies of a plan

Six passes look at one graph, each whatever the others find: references, cycles, an order of the steps, gates
among the ancestors of a step, branches, and policies.
-/
namespace CommandConsole.Planning
open Library
open CommandConsole.Execution (isBlank)
set_option autoImplicit false

section Graph

inductive BranchType where
  | normal
  | failure
  | rollback
  | terminal
  deriving DecidableEq

def BranchType.ofText? : String → Option BranchType
  | "normal" => some normal
  | "failure" => some failure
  | "rollback" => some rollback
  | "terminal" => some terminal
  | _ => none

structure DependencyNode where
  stepId : String
  sourceId : Option String
  sequenceIndex : Nat
  stepType : String
  operation : Option String
  branchType : BranchType
  requiresApproval : Bool
  requiresPreflight : Option Bool
  isDestructive : Option Bool
  hasExternalSideEffect : Option Bool
  idempotencyKey : Option String
  declaredPriority : Option String
  deriving DecidableEq

inductive EdgeType where
  | dependsOn
  | approvalGate
  | preflightGate
  | verification
  | rollback
  | failureBranch
  deriving DecidableEq

structure DependencyEdge where
  source : String
  target : String
  edgeType : EdgeType
  deriving DecidableEq

structure DependencyGraph where
  planId : String
  nodes : List DependencyNode
  edges : List DependencyEdge
  roots : List String
  terminalStepIds : List String
  graphHash : String
  graphVersion : String
  deriving DecidableEq

def resolveBranchType (step : NormalizedPlanStep) : BranchType :=
  match step.inputs.get "branchType" with
  | some (.string text) => (BranchType.ofText? text).getD .normal
  | _ => .normal

def buildNode (step : NormalizedPlanStep) : DependencyNode where
  stepId := step.id
  sourceId := step.sourceId
  sequenceIndex := step.index
  stepType := step.type
  operation := readString step.action "operation"
  branchType := resolveBranchType step
  requiresApproval := step.approvalMode = .required
  requiresPreflight := readBoolean step.inputs "requiresPreflight"
  isDestructive := readBoolean step.inputs "isDestructive"
  hasExternalSideEffect := readBoolean step.inputs "hasExternalSideEffect"
  idempotencyKey := readString step.inputs "idempotencyKey"
  declaredPriority := readString step.inputs "priority"

def edgeTypeFor (source : DependencyNode) : EdgeType :=
  if source.operation = some "approval_gate" then .approvalGate
  else if source.operation = some "preflight_check" then .preflightGate
  else if source.operation = some "verify" then .verification
  else if source.branchType = .rollback then .rollback
  else if source.branchType = .failure then .failureBranch
  else .dependsOn

/-- Of several steps with one authored id the last one counts, and an empty id counts as none. -/
def NormalizedPlan.bySource? (plan : NormalizedPlan) (sourceId : String) : Option NormalizedPlanStep :=
  if sourceId = "" then none else plan.steps.reverse.find? fun step => step.sourceId = some sourceId

/-- A canonical id stands for itself, an authored one for the step that has it. -/
def NormalizedPlan.resolve (plan : NormalizedPlan) (dependency : String) : String :=
  if dependency ∈ plan.stepIds then dependency
  else ((plan.bySource? dependency).map NormalizedPlanStep.id).getD dependency

def findNode (nodes : List DependencyNode) (stepId : String) : Option DependencyNode :=
  nodes.reverse.find? fun node => node.stepId = stepId

def buildDependencyGraph (plan : NormalizedPlan) : DependencyGraph :=
  let nodes := plan.steps.map buildNode
  let edges := plan.steps.flatMap fun step => step.dependencies.map fun dependency =>
    { source := plan.resolve dependency
      target := step.id
      edgeType := ((findNode nodes (plan.resolve dependency)).map edgeTypeFor).getD .dependsOn : DependencyEdge }
  { planId := plan.planId
    nodes := nodes
    edges := edges
    roots := (nodes.map DependencyNode.stepId).filter fun id => id ∉ edges.map DependencyEdge.target
    terminalStepIds := (nodes.map DependencyNode.stepId).filter fun id => id ∉ edges.map DependencyEdge.source
    graphHash := plan.validatedGraphHash
    graphVersion := "4.2D" }

def DependencyGraph.stepIds (graph : DependencyGraph) : List String := graph.nodes.map DependencyNode.stepId

def DependencyGraph.node? (graph : DependencyGraph) (stepId : String) : Option DependencyNode := findNode graph.nodes stepId

/-- The edges that leave a node. -/
def DependencyGraph.successors (graph : DependencyGraph) : Library.Digraph String where
  next id := if id ∈ graph.stepIds then (graph.edges.filter fun edge => edge.source = id).map DependencyEdge.target else []
  sources := graph.stepIds
  next_eq_nil _ hOut := if_neg hOut

/-- The edges that enter a node. -/
def DependencyGraph.parents (graph : DependencyGraph) : Library.Digraph String where
  next id := if id ∈ graph.stepIds then (graph.edges.filter fun edge => edge.target = id).map DependencyEdge.source else []
  sources := graph.stepIds
  next_eq_nil _ hOut := if_neg hOut

def DependencyGraph.dependents (graph : DependencyGraph) (stepId : String) : List DependencyNode :=
  (graph.successors.next stepId).filterMap graph.node?

end Graph

section Report

inductive SequentialDependencyErrorCode where
  | dependencyReferenceNotFound
  | duplicateStepId
  | selfDependencyBlocked
  | duplicateDependencyFound
  | disabledStepReferenced
  | dependencyCycleDetected
  | orderingNonDeterministic
  | approvalGateBypassed
  | gateInheritanceBroken
  | preflightRequired
  | verificationOrderInvalid
  | rollbackOrderInvalid
  | terminalStepHasDependents
  | failureBranchUsedAsSuccessPath
  | dependencyPolicyViolation
  deriving DecidableEq

structure DependencyValidationError where
  code : SequentialDependencyErrorCode
  message : String
  stepId : Option String := none
  path : Option (List String) := none
  deriving DecidableEq

structure DependencyValidationReport where
  ok : Bool
  planId : String
  graph : Option DependencyGraph
  orderedStepIds : Option (List String)
  dependencyGraphFingerprint : Option String
  errors : List DependencyValidationError
  warnings : List String
  deriving DecidableEq

def stepPath (index : Nat) (rest : List String) : Option (List String) := some (["steps", toString index] ++ rest)

end Report

section Passes

variable (plan : NormalizedPlan) (graph : DependencyGraph)

def referenceErrors (step : NormalizedPlanStep) : List String → List String → List DependencyValidationError
  | _, [] => []
  | seen, dependency :: rest =>
    let resolved := plan.resolve dependency
    (if resolved ∉ plan.stepIds then
      [⟨.dependencyReferenceNotFound, "Dependency " ++ dependency ++ " was not found in the normalized plan.",
        some step.id, stepPath step.index ["dependencies"]⟩]
    else []) ++
    (if resolved = step.id ∨ some dependency = step.sourceId then
      [⟨.selfDependencyBlocked, "Step " ++ step.id ++ " cannot depend on itself.", some step.id,
        stepPath step.index ["dependencies"]⟩]
    else []) ++
    (if resolved ∈ seen then
      [⟨.duplicateDependencyFound, "Step " ++ step.id ++ " declares dependency " ++ dependency ++ " more than once.",
        some step.id, stepPath step.index ["dependencies"]⟩]
    else []) ++ referenceErrors step (seen ++ [resolved]) rest

def duplicateErrors : List String → List NormalizedPlanStep → List DependencyValidationError
  | _, [] => []
  | seen, step :: rest =>
    (if step.id ∈ seen then
      [⟨.duplicateStepId, "Duplicate step id " ++ step.id ++ " detected.", some step.id, stepPath step.index ["id"]⟩]
    else []) ++ referenceErrors plan step [] step.dependencies ++ duplicateErrors (seen ++ [step.id]) rest

def validateDependencyReferences : List DependencyValidationError := duplicateErrors plan [] plan.steps

def detectDependencyCycles : List DependencyValidationError :=
  match firstCycle graph.successors.next (graph.stepIds.length + 1) graph.stepIds with
  | none => []
  | some cyclePath =>
    [⟨.dependencyCycleDetected, "Dependency cycle detected: " ++ " -> ".intercalate cyclePath, cyclePath.head?,
      some cyclePath⟩]

/-- The comparison of two nodes. -/
def compareNodes (localeCompare : String → String → Int) (left right : DependencyNode) : Int :=
  let results := [(left.sequenceIndex : Int) - right.sequenceIndex, localeCompare left.stepId right.stepId,
    localeCompare left.stepType right.stepType,
    localeCompare (left.declaredPriority.getD "") (right.declaredPriority.getD ""),
    localeCompare left.stepId right.stepId]
  (results.find? fun result => result ≠ 0).getD 0

def sortNodes (localeCompare : String → String → Int) (nodes : List DependencyNode) : List DependencyNode :=
  nodes.insertionSort fun left right => compareNodes localeCompare left right ≤ 0

def DependencyGraph.kahn (localeCompare : String → String → Int) : Kahn DependencyNode String where
  key := DependencyNode.stepId
  find := graph.node?
  arrange := sortNodes localeCompare
  edges := graph.edges.map fun edge => (edge.source, edge.target)

/-- The order, or the error that there is none. -/
def stableTopologicalSort (localeCompare : String → String → Int) :
    Option (Option (List String) × List DependencyValidationError) :=
  ((graph.kahn localeCompare).order graph.nodes).map fun ordered =>
    if ordered.length ≠ graph.nodes.length then
      (none, [⟨.orderingNonDeterministic, "Stable topological ordering could not be produced.", none, none⟩])
    else (some ordered, [])

/-- The ancestors of every step, none when the calls are nested deeper than `depth`. -/
def buildAncestorMap (depth : Nat) : Option (Memo String) := collectAll graph.parents.next depth graph.stepIds

def ancestorNodes (ancestors : Memo String) (stepId : String) : List DependencyNode :=
  ((InsertionMap.get stepId ancestors).getD []).filterMap graph.node?

def DependencyNode.isApprovalGate (node : DependencyNode) : Bool := node.operation = some "approval_gate"

def DependencyNode.isPreflightGate (node : DependencyNode) : Bool := node.operation = some "preflight_check"

def gateErrors (ancestors : Memo String) (node : DependencyNode) (step : NormalizedPlanStep) :
    List DependencyValidationError :=
  let above := ancestorNodes graph ancestors node.stepId
  (if node.requiresApproval ∧ ¬ above.any DependencyNode.isApprovalGate then
    [⟨.approvalGateBypassed, "Step " ++ node.stepId ++ " requires an approval gate ancestor.", some node.stepId,
      stepPath step.index []⟩]
  else []) ++
  (if (node.requiresPreflight = some true ∨ node.isDestructive = some true) ∧ ¬ above.any DependencyNode.isPreflightGate then
    [⟨.preflightRequired, "Step " ++ node.stepId ++ " requires a preflight gate ancestor.", some node.stepId,
      stepPath step.index []⟩]
  else []) ++
  (if node.isApprovalGate ∧ above.any (fun ancestor =>
      ancestor.isDestructive = some true ∨ ancestor.hasExternalSideEffect = some true) then
    [⟨.gateInheritanceBroken, "Approval gate " ++ node.stepId ++ " cannot depend on mutation execution.",
      some node.stepId, stepPath step.index []⟩]
  else [])

def validateGateInheritance (depth : Nat) : Option (List DependencyValidationError) :=
  (buildAncestorMap graph depth).map fun ancestors =>
    graph.nodes.flatMap fun node =>
      match plan.steps.reverse.find? fun step => step.id = node.stepId with
      | some step => gateErrors graph ancestors node step
      | none => []

/-- The text of the branch type of a step, where it has one. -/
def NormalizedPlanStep.branchText (step : NormalizedPlanStep) : Option (Option String) :=
  match step.inputs.get "branchType" with
  | none => some none
  | some raw => raw.display.map some

def branchTypeErrors (step : NormalizedPlanStep) : Option (List DependencyValidationError) :=
  step.branchText.map fun text =>
    match text with
    | none => []
    | some text =>
      if (BranchType.ofText? text).isSome then []
      else [⟨.dependencyPolicyViolation, "Unknown branch semantics " ++ text ++ " are not allowed.", some step.id,
        stepPath step.index ["inputs", "branchType"]⟩]

def verificationErrors (node : DependencyNode) : List DependencyValidationError :=
  if node.operation = some "verify" then
    let verified := match (plan.steps.find? fun step => step.id = node.stepId).bind fun step =>
        step.inputs.get "verifiesStepId" with
      | some (.string text) => if text = "" then none else graph.node? text
      | _ => none
    match verified with
    | some target => if node.sequenceIndex ≤ target.sequenceIndex then [late] else []
    | none => [late]
  else []
where
  late : DependencyValidationError :=
    ⟨.verificationOrderInvalid, "Verification step " ++ node.stepId ++ " must come after the step it verifies.",
      some node.stepId, none⟩

def branchErrors (node : DependencyNode) : List DependencyValidationError :=
  let below := graph.dependents node.stepId
  (if node.branchType = .rollback ∧ below.any (fun dependent => dependent.branchType = .normal) then
    [⟨.rollbackOrderInvalid, "Rollback step " ++ node.stepId ++ " cannot feed the normal success path.",
      some node.stepId, none⟩]
  else []) ++
  (if node.branchType = .failure ∧ below.any (fun dependent => dependent.branchType = .normal) then
    [⟨.failureBranchUsedAsSuccessPath, "Failure branch step " ++ node.stepId ++
      " cannot be reused as a success dependency.", some node.stepId, none⟩]
  else []) ++
  (if node.branchType = .terminal ∧ below ≠ [] then
    [⟨.terminalStepHasDependents, "Terminal step " ++ node.stepId ++ " cannot have dependents.", some node.stepId, none⟩]
  else []) ++
  verificationErrors plan graph node

/-- None where a branch type cannot be printed. -/
def validateBranchSemantics : Option (List DependencyValidationError) :=
  (plan.steps.mapM branchTypeErrors).map fun errors => errors.flatten ++ graph.nodes.flatMap (branchErrors plan graph)

def policyErrors (ancestors : Memo String) (step : NormalizedPlanStep) (node : DependencyNode) :
    List DependencyValidationError :=
  let above := ancestorNodes graph ancestors step.id
  let destructive := node.isDestructive = some true
  (if readBoolean step.inputs "disabled" = some true then
    [⟨.disabledStepReferenced, "Disabled step " ++ step.id ++ " cannot participate in dependency execution order.",
      some step.id, stepPath step.index []⟩]
  else []) ++
  (if (step.inputs.get "dynamicDependencyRef").isSome then
    [⟨.dependencyPolicyViolation, "Dynamic dependency references are not allowed for " ++ step.id ++ ".", some step.id,
      stepPath step.index ["inputs", "dynamicDependencyRef"]⟩]
  else []) ++
  (if readString step.inputs "targetEnvironment" = some "production" ∧ destructive ∧
      ¬ above.any DependencyNode.isApprovalGate then
    [⟨.approvalGateBypassed, "Production mutation " ++ step.id ++ " requires an approval gate ancestor.", some step.id, none⟩]
  else []) ++
  (if destructive ∧ ¬ above.any DependencyNode.isPreflightGate then
    [⟨.preflightRequired, "Destructive step " ++ step.id ++ " requires a preflight gate ancestor.", some step.id, none⟩]
  else []) ++
  (if node.hasExternalSideEffect = some true ∧ node.idempotencyKey = none then
    [⟨.dependencyPolicyViolation, "External side-effect step " ++ step.id ++ " requires idempotency metadata.",
      some step.id, none⟩]
  else []) ++
  (if node.branchType = .rollback ∧ (graph.dependents step.id).any (fun dependent => dependent.branchType = .normal) then
    [⟨.rollbackOrderInvalid, "Rollback step " ++ step.id ++ " cannot be used as forward execution.", some step.id, none⟩]
  else [])

def validateDependencyPolicies (depth : Nat) : Option (List DependencyValidationError) :=
  (buildAncestorMap graph depth).map fun ancestors =>
    plan.steps.flatMap fun step =>
      match graph.node? step.id with
      | some node => policyErrors graph ancestors step node
      | none => []

end Passes

/-- The report on what may be a normalized plan, none when a pass throws or when the calls of one are nested deeper
than `depth`. -/
def validateSequentialDependencies (localeCompare : String → String → Int) (fingerprint : DependencyGraph → String)
    (depth : Nat) (input : Option NormalizedPlan) : Option DependencyValidationReport :=
  match input with
  | none =>
    some ⟨false, "unknown-plan", none, none, none, [⟨.dependencyPolicyViolation,
      "Phase 4.2D only accepts 4.2C-normalized plan artifacts.", none, none⟩], []⟩
  | some plan => do
    let graph := buildDependencyGraph plan
    let reference := validateDependencyReferences plan
    let cycle := detectDependencyCycles graph
    let ordering ← stableTopologicalSort graph localeCompare
    let gateInheritance ← validateGateInheritance plan graph depth
    let branchSemantics ← validateBranchSemantics plan graph
    let policy ← validateDependencyPolicies plan graph depth
    let errors := reference ++ cycle ++ ordering.2 ++ gateInheritance ++ branchSemantics ++ policy
    pure ⟨errors = [], plan.planId, some graph, ordering.1, if errors = [] then some (fingerprint graph) else none, errors, []⟩

end CommandConsole.Planning
