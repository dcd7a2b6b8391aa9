import CommandConsole.Library.Process
import CommandConsole.Learning.SkillGraph

/-! # Evolution of the skill graph

The artifacts of a workspace are appended and never rewritten. Every version of
the graph is an artifact that lists the ids of its edges; the active graph is the
latest version with its ids looked up among the admitted edges. An append may
fail, and so may the audit of a new version.
-/
namespace CommandConsole.Learning
open Library
open CommandConsole.Execution (isBlank)
set_option autoImplicit false

section Artifacts

structure SkillGraphVersion where
  graphVersionId : String
  previousGraphVersionId : Option String
  dependencyIds : List String
  changeReason : String
  createdBy : ProvenanceActor
  createdAt : String
  deriving DecidableEq

structure SkillDependencySupersession where
  supersessionId : String
  supersededDependencyId : String
  replacementDependencyId : String
  reviewId : String
  graphVersionId : String
  createdAt : String
  deriving DecidableEq

inductive ArtifactContent where
  | candidate (dependency : SkillDependency)
  | admitted (dependency : SkillDependency)
  | superseded (supersession : SkillDependencySupersession)
  | version (version : SkillGraphVersion)
  deriving DecidableEq

def ArtifactContent.artifactId : ArtifactContent → String
  | candidate dependency => "SKILL_DEPENDENCY_CANDIDATE:" ++ dependency.dependencyId
  | admitted dependency => "SKILL_DEPENDENCY_ADMITTED:" ++ dependency.dependencyId
  | superseded supersession => "SKILL_DEPENDENCY_SUPERSEDED:" ++ supersession.supersessionId
  | version next => "SKILL_GRAPH_VERSION:" ++ next.graphVersionId

/-- An edge as a JSON column keeps it: NaN and the infinities become null. -/
def SkillDependency.stored (dependency : SkillDependency) : SkillDependency :=
  { dependency with requiredMasteryThreshold := dependency.requiredMasteryThreshold.join.map some }

def ArtifactContent.stored : ArtifactContent → ArtifactContent
  | candidate dependency => candidate dependency.stored
  | admitted dependency => admitted dependency.stored
  | other => other

structure SkillGraphArtifact where
  content : ArtifactContent
  createdAt : Int
  deriving DecidableEq

def SkillGraphArtifact.artifactId (artifact : SkillGraphArtifact) : String := artifact.content.artifactId

abbrev SkillGraphStore := PlainTable SkillGraphArtifact.artifactId

/-- `listWorkspaceArtifacts()`, the oldest first. -/
def listWorkspaceArtifacts (store : SkillGraphStore) : List SkillGraphArtifact :=
  store.rows.insertionSort fun left right => left.createdAt ≤ right.createdAt

def admittedOf (artifacts : List SkillGraphArtifact) : List SkillDependency :=
  artifacts.filterMap fun artifact =>
    match artifact.content with
    | .admitted dependency => some dependency
    | _ => none

def versionsOf (artifacts : List SkillGraphArtifact) : List SkillGraphVersion :=
  artifacts.filterMap fun artifact =>
    match artifact.content with
    | .version version => some version
    | _ => none

structure SkillGraphProjection where
  dependencies : List SkillDependency
  latestVersion : Option SkillGraphVersion
  deriving DecidableEq

/-- `admittedById.get(id)`: a later entry of the map replaces an earlier one. -/
def admittedById (admitted : List SkillDependency) (id : String) : Option SkillDependency :=
  admitted.reverse.find? fun dependency => dependency.dependencyId = id

/-- `SkillGraphProjectionService.get`. -/
def project (store : SkillGraphStore) : SkillGraphProjection :=
  let artifacts := listWorkspaceArtifacts store
  match (versionsOf artifacts).getLast? with
  | none => ⟨[], none⟩
  | some latest => ⟨latest.dependencyIds.filterMap (admittedById (admittedOf artifacts)), some latest⟩

end Artifacts

section Services

inductive GateOutcome where
  | accept
  | defer
  | reject
  deriving DecidableEq

structure GateDecision where
  candidateId : String
  outcome : GateOutcome
  deriving DecidableEq

structure SkillDependencyAdmissionRequest where
  dependency : SkillDependency
  gateDecision : GateDecision
  changeReason : String
  deriving DecidableEq

structure SkillDependencyAdmissionResult where
  outcome : GateOutcome
  dependencyValidation : SkillDependencyValidation
  graphVersion : Option SkillGraphVersion
  deriving DecidableEq

inductive ReviewDecision where
  | approve
  | reject
  | supersede
  deriving DecidableEq

structure SkillDependencyHumanReview where
  reviewId : String
  dependencyId : String
  decision : ReviewDecision
  actor : ProvenanceActor
  reason : String
  reviewedAt : String
  deriving DecidableEq

structure SkillSupersessionInput where
  review : SkillDependencyHumanReview
  supersessionId : String
  replacement : SkillDependency
  gateDecision : GateDecision
  deriving DecidableEq

/-- What the services are configured with: how a text is read as a date, and whether versions are audited. -/
structure SkillGraphConfig where
  dateOf : String → Option Int
  audited : Bool

/-- A call that works on the artifacts; the environment says which requests to it fail. -/
abbrev SkillGraphCall (α : Type) : Type := Process Bool String SkillGraphStore α

variable (config : SkillGraphConfig)

/-- `append`: an exact replay changes nothing, another payload under the same id is refused. -/
def appendArtifact (content : ArtifactContent) (createdAt : String) : SkillGraphCall Unit := do
  let fails ← Process.ask
  if fails then throw "artifact store unavailable"
  else
    let existing ← Process.read fun store : SkillGraphStore => store.find? content.stored.artifactId
    match existing with
    | some artifact =>
      if artifact.content ≠ content.stored then throw "skill graph artifact id collision" else pure ()
    | none =>
      match config.dateOf createdAt with
      | none => throw "Invalid Date"
      | some date => Process.modify fun store => store.put ⟨content.stored, date⟩

/-- The two audit events of a new version. -/
def auditVersion : SkillGraphCall Unit :=
  if config.audited then do
    let firstFails ← Process.ask
    if firstFails then throw "audit event refused"
    else
      let secondFails ← Process.ask
      if secondFails then throw "audit event refused" else pure ()
  else pure ()

def admittedVersion (projection : SkillGraphProjection) (request : SkillDependencyAdmissionRequest) :
    SkillGraphVersion where
  graphVersionId := request.dependency.graphVersionId
  previousGraphVersionId := projection.latestVersion.map (·.graphVersionId)
  dependencyIds := projection.dependencies.map (·.dependencyId) ++ [request.dependency.dependencyId]
  changeReason := request.changeReason
  createdBy := request.dependency.provenance.assertedBy
  createdAt := request.dependency.provenance.assertedAt

/-- `SkillDependencyAdmissionService.admit`. -/
def admitDependency (request : SkillDependencyAdmissionRequest) : SkillGraphCall SkillDependencyAdmissionResult := do
  let dependency := request.dependency
  let validation := validate dependency
  appendArtifact config (.candidate dependency) dependency.provenance.assertedAt
  if !validation.valid then pure ⟨.reject, validation, none⟩
  else if request.gateDecision.outcome ≠ .accept || request.gateDecision.candidateId ≠ dependency.dependencyId then
    pure ⟨if request.gateDecision.outcome = .reject then .reject else .defer, validation, none⟩
  else
    let projection ← Process.read project
    if projection.dependencies.any fun item => SameEdge item dependency then
      throw "active skill dependency already exists"
    else
      let version := admittedVersion projection request
      appendArtifact config (.admitted { dependency with lifecycle := .active }) dependency.provenance.assertedAt
      appendArtifact config (.version version) version.createdAt
      auditVersion config
      pure ⟨.accept, validation, some version⟩

/-- The edges that stay when the reviewed one is superseded. -/
def remaining (projection : SkillGraphProjection) (input : SkillSupersessionInput) : List SkillDependency :=
  projection.dependencies.filter fun dependency => dependency.dependencyId ≠ input.review.dependencyId

def supersedingVersion (projection : SkillGraphProjection) (input : SkillSupersessionInput) : SkillGraphVersion where
  graphVersionId := input.replacement.graphVersionId
  previousGraphVersionId := projection.latestVersion.map (·.graphVersionId)
  dependencyIds := (remaining projection input).map (·.dependencyId) ++ [input.replacement.dependencyId]
  changeReason := input.review.reason
  createdBy := input.review.actor
  createdAt := input.review.reviewedAt

def supersessionOf (input : SkillSupersessionInput) : SkillDependencySupersession where
  supersessionId := input.supersessionId
  supersededDependencyId := input.review.dependencyId
  replacementDependencyId := input.replacement.dependencyId
  reviewId := input.review.reviewId
  graphVersionId := input.replacement.graphVersionId
  createdAt := input.review.reviewedAt

/-- `SkillGraphEvolutionService.supersede`. -/
def supersedeDependency (input : SkillSupersessionInput) : SkillGraphCall SkillGraphVersion := do
  if input.review.actor.actorType ≠ .human || isBlank input.review.actor.actorId || isBlank input.review.reason then
    throw "skill graph evolution requires a human review with reason"
  else if input.review.decision ≠ .supersede then throw "supersession requires a SUPERSEDE review"
  else if input.gateDecision.outcome ≠ .accept ||
      input.gateDecision.candidateId ≠ input.replacement.dependencyId then
    throw "replacement dependency requires matching accepted gate decision"
  else
    let projection ← Process.read project
    if !projection.dependencies.any fun dependency => dependency.dependencyId = input.review.dependencyId then
      throw "only an active dependency can be superseded"
    else if !(validate input.replacement).valid then
      throw ("invalid replacement dependency: " ++ String.intercalate ", " (validate input.replacement).reasonCodes)
    else
      let replacement := { input.replacement with lifecycle := .active }
      let version := supersedingVersion projection input
      appendArtifact config (.candidate replacement) replacement.provenance.assertedAt
      appendArtifact config (.admitted replacement) input.review.reviewedAt
      appendArtifact config (.superseded (supersessionOf input)) (supersessionOf input).createdAt
      appendArtifact config (.version version) version.createdAt
      auditVersion config
      pure version

end Services
end CommandConsole.Learning
