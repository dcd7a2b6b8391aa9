import CommandConsole.Library.Run
import CommandConsole.Learning.SkillGraphEvolution

/-! # History of the skill graph

Every call either leaves the versions as they are or adds one. The version added
lists the edges of the one before it, without the superseded edge and with the
admitted one. Nothing but the edges of a version decides what is projected from it.
-/
namespace CommandConsole.Learning
open Library Relation
set_option autoImplicit false

section Listing

variable {α : Type} (r : α → α → Prop) [DecidableRel r]

theorem orderedInsert_of_forall {a : α} {l : List α} (h : ∀ b ∈ l, r a b) : l.orderedInsert r a = a :: l := by
  cases l with
  | nil => rfl
  | cons b l => exact List.orderedInsert_cons_of_le r l (h b (List.mem_cons_self ..))

theorem filter_orderedInsert [IsTrans α r] (p : α → Bool) (a : α) {l : List α} (hl : l.Pairwise r) :
    (l.orderedInsert r a).filter p = if p a then (l.filter p).orderedInsert r a else l.filter p := by
  induction l with
  | nil => cases hp : p a <;> simp [hp]
  | cons b l ih =>
    obtain ⟨hb, hRest⟩ := List.pairwise_cons.mp hl
    by_cases hab : r a b
    · rw [List.orderedInsert_cons_of_le r l hab]
      have hAll : ∀ c ∈ (b :: l).filter p, r a c := by
        intro c hc
        rcases List.mem_cons.mp (List.mem_of_mem_filter hc) with rfl | hc
        · exact hab
        · exact trans_of r hab (hb c hc)
      rw [orderedInsert_of_forall r hAll, List.filter_cons]
    · rw [List.orderedInsert_of_not_le r l hab, List.filter_cons, ih hRest, List.filter_cons]
      cases p a with
      | false => rfl
      | true =>
        cases p b with
        | false => rfl
        | true => exact (List.orderedInsert_of_not_le r _ hab).symm

/-- A stable sort keeps the order of any part of the list. -/
theorem filter_insertionSort [IsTrans α r] [Std.Total r] (p : α → Bool) (l : List α) :
    (l.insertionSort r).filter p = (l.filter p).insertionSort r := by
  induction l with
  | nil => rfl
  | cons a l ih =>
    rw [List.insertionSort_cons, filter_orderedInsert r p a (List.pairwise_insertionSort r l), ih, List.filter_cons]
    cases p a with
    | false => rfl
    | true => rfl

end Listing

section Projections

def Admitted (store : SkillGraphStore) (dependency : SkillDependency) : Prop :=
  ∃ artifact ∈ store.rows, artifact.content = .admitted dependency

def versionsIn (store : SkillGraphStore) : List SkillGraphVersion := versionsOf store.rows

theorem mem_admittedOf {artifacts : List SkillGraphArtifact} {dependency : SkillDependency} :
    dependency ∈ admittedOf artifacts ↔ ∃ artifact ∈ artifacts, artifact.content = .admitted dependency := by
  rw [admittedOf, List.mem_filterMap]
  refine exists_congr fun artifact => and_congr_right fun _ => ?_
  obtain ⟨content, _⟩ := artifact
  cases content <;> simp

theorem mem_versionsOf {artifacts : List SkillGraphArtifact} {version : SkillGraphVersion} :
    version ∈ versionsOf artifacts ↔ ∃ artifact ∈ artifacts, artifact.content = .version version := by
  rw [versionsOf, List.mem_filterMap]
  refine exists_congr fun artifact => and_congr_right fun _ => ?_
  obtain ⟨content, _⟩ := artifact
  cases content <;> simp

theorem Admitted.unique {store : SkillGraphStore} {left right : SkillDependency} (hLeft : Admitted store left)
    (hRight : Admitted store right) (hId : left.dependencyId = right.dependencyId) : left = right := by
  obtain ⟨first, hFirst, hFirstContent⟩ := hLeft
  obtain ⟨second, hSecond, hSecondContent⟩ := hRight
  have hKey : first.artifactId = second.artifactId := by
    rw [SkillGraphArtifact.artifactId, SkillGraphArtifact.artifactId, hFirstContent, hSecondContent]
    exact congrArg ("SKILL_DEPENDENCY_ADMITTED:" ++ ·) hId
  have hSame := store.eq_of_key_eq hFirst hSecond hKey
  rw [hSame, hSecondContent] at hFirstContent
  exact (ArtifactContent.admitted.inj hFirstContent).symm

theorem admittedById_of_admitted {store : SkillGraphStore} {dependency : SkillDependency}
    (h : Admitted store dependency) :
    admittedById (admittedOf (listWorkspaceArtifacts store)) dependency.dependencyId = some dependency := by
  have hListed : ∀ other, other ∈ (admittedOf (listWorkspaceArtifacts store)).reverse ↔ Admitted store other := by
    intro other
    rw [List.mem_reverse, mem_admittedOf]
    exact exists_congr fun artifact => and_congr_left fun _ => List.mem_insertionSort _
  rw [admittedById]
  cases hFind : (admittedOf (listWorkspaceArtifacts store)).reverse.find?
      fun other => other.dependencyId = dependency.dependencyId with
  | none => exact absurd (decide_eq_true rfl) (List.find?_eq_none.mp hFind dependency ((hListed dependency).mpr h))
  | some other =>
    have hOther := (hListed other).mp (List.mem_of_find?_eq_some hFind)
    have hId : other.dependencyId = dependency.dependencyId := by simpa using List.find?_some hFind
    rw [hOther.unique h hId]

theorem filterMap_admittedById {store : SkillGraphStore} (edges : List SkillDependency)
    (h : ∀ edge ∈ edges, Admitted store edge) :
    (edges.map (·.dependencyId)).filterMap (admittedById (admittedOf (listWorkspaceArtifacts store))) = edges := by
  induction edges with
  | nil => rfl
  | cons edge edges ih =>
    rw [List.map_cons, List.filterMap_cons, admittedById_of_admitted (h edge (List.mem_cons_self ..)),
      ih fun other hOther => h other (List.mem_cons_of_mem _ hOther)]

/-- The latest of the versions, by the dates of their artifacts. -/
def latestVersion (store : SkillGraphStore) : Option SkillGraphVersion :=
  (versionsOf (listWorkspaceArtifacts store)).getLast?

theorem project_eq (store : SkillGraphStore) :
    project store = match latestVersion store with
      | none => ⟨[], none⟩
      | some latest =>
        ⟨latest.dependencyIds.filterMap (admittedById (admittedOf (listWorkspaceArtifacts store))), some latest⟩ := rfl

theorem latestVersion_mem {store : SkillGraphStore} {version : SkillGraphVersion}
    (h : latestVersion store = some version) : version ∈ versionsIn store := by
  obtain ⟨artifact, hMem, hContent⟩ := mem_versionsOf.mp (List.mem_of_getLast? h)
  exact mem_versionsOf.mpr ⟨artifact, (List.mem_insertionSort _).mp hMem, hContent⟩

theorem latestVersion_eq_none {store : SkillGraphStore} (h : latestVersion store = none) : versionsIn store = [] := by
  rw [latestVersion, List.getLast?_eq_none_iff] at h
  refine List.eq_nil_iff_forall_not_mem.mpr fun version hMem => ?_
  obtain ⟨artifact, hRow, hContent⟩ := mem_versionsOf.mp hMem
  have hListed : version ∈ versionsOf (listWorkspaceArtifacts store) :=
    mem_versionsOf.mpr ⟨artifact, (List.mem_insertionSort _).mpr hRow, hContent⟩
  rw [h] at hListed
  cases hListed

end Projections

section Growth

def isVersion (artifact : SkillGraphArtifact) : Bool :=
  match artifact.content with
  | .version _ => true
  | _ => false

theorem versionsOf_filter (artifacts : List SkillGraphArtifact) :
    versionsOf (artifacts.filter isVersion) = versionsOf artifacts := by
  rw [versionsOf, versionsOf, List.filterMap_filter]
  refine List.filterMap_congr fun artifact _ => ?_
  obtain ⟨content, _⟩ := artifact
  cases content <;> rfl

/-- The later store has more artifacts, but no version more. -/
def Quiet (store later : SkillGraphStore) : Prop :=
  ∃ extra, later.rows = store.rows ++ extra ∧ extra.filter isVersion = []

theorem Quiet.refl (store : SkillGraphStore) : Quiet store store := ⟨[], (List.append_nil _).symm, rfl⟩

theorem Quiet.snoc {store later next : SkillGraphStore} {content : ArtifactContent} {date : Int}
    (h : Quiet store later) (hRows : next.rows = later.rows ++ [⟨content, date⟩])
    (hContent : isVersion ⟨content, date⟩ = false) : Quiet store next := by
  obtain ⟨extra, hLater, hNone⟩ := h
  refine ⟨extra ++ [⟨content, date⟩], by rw [hRows, hLater, List.append_assoc], ?_⟩
  rw [List.filter_append, hNone, List.filter_cons_of_neg (by rw [hContent]; exact Bool.false_ne_true)]
  rfl

theorem Quiet.filter {store later : SkillGraphStore} (h : Quiet store later) :
    later.rows.filter isVersion = store.rows.filter isVersion := by
  obtain ⟨extra, hRows, hNone⟩ := h
  rw [hRows, List.filter_append, hNone, List.append_nil]

theorem Quiet.versionsIn {store later : SkillGraphStore} (h : Quiet store later) :
    versionsIn later = versionsIn store := by
  rw [Learning.versionsIn, Learning.versionsIn, ← versionsOf_filter, h.filter, versionsOf_filter]

instance : IsTrans SkillGraphArtifact fun left right => left.createdAt ≤ right.createdAt :=
  ⟨fun _ _ _ h h' => Int.le_trans h h'⟩

instance : Std.Total fun left right : SkillGraphArtifact => left.createdAt ≤ right.createdAt :=
  ⟨fun left right => Int.le_total left.createdAt right.createdAt⟩

theorem Quiet.latestVersion {store later : SkillGraphStore} (h : Quiet store later) :
    latestVersion later = latestVersion store := by
  rw [Learning.latestVersion, Learning.latestVersion, ← versionsOf_filter, listWorkspaceArtifacts,
    filter_insertionSort, h.filter, ← filter_insertionSort, versionsOf_filter, listWorkspaceArtifacts]

theorem Quiet.admitted {store later : SkillGraphStore} (h : Quiet store later) {dependency : SkillDependency}
    (hAdmitted : Admitted store dependency) : Admitted later dependency := by
  obtain ⟨artifact, hMem, hContent⟩ := hAdmitted
  obtain ⟨extra, hRows, _⟩ := h
  exact ⟨artifact, hRows ▸ List.mem_append_left _ hMem, hContent⟩

end Growth

section Governed

/-- The edges that a version lists. -/
structure Lists (store : SkillGraphStore) (version : SkillGraphVersion) (edges : List SkillDependency) : Prop where
  ids : edges.map (·.dependencyId) = version.dependencyIds
  admitted : ∀ edge ∈ edges, Admitted store edge

/-- Every version lists the edges of a valid graph. -/
def Governed (canonicalSkillIds : List String) (store : SkillGraphStore) : Prop :=
  ∀ version ∈ versionsIn store, ∃ edges, Lists store version edges ∧ ValidGraph canonicalSkillIds edges

theorem Lists.later {store later : SkillGraphStore} {version : SkillGraphVersion} {edges : List SkillDependency}
    (h : Lists store version edges) (hQuiet : Quiet store later) : Lists later version edges :=
  ⟨h.ids, fun edge hMem => hQuiet.admitted (h.admitted edge hMem)⟩

theorem Governed.later {canonicalSkillIds : List String} {store later : SkillGraphStore}
    (h : Governed canonicalSkillIds store) (hQuiet : Quiet store later) : Governed canonicalSkillIds later := by
  intro version hMem
  rw [hQuiet.versionsIn] at hMem
  obtain ⟨edges, hLists, hValid⟩ := h version hMem
  exact ⟨edges, hLists.later hQuiet, hValid⟩

theorem project_of_lists {store : SkillGraphStore} {version : SkillGraphVersion} {edges : List SkillDependency}
    (hLatest : latestVersion store = some version) (h : Lists store version edges) :
    project store = ⟨edges, some version⟩ := by
  rw [project_eq, hLatest]
  dsimp only
  rw [← h.ids, filterMap_admittedById edges h.admitted]

/-- What a projection gives: no graph before the first version, then the edges of the latest one. -/
theorem Governed.project_cases {canonicalSkillIds : List String} {store : SkillGraphStore}
    (h : Governed canonicalSkillIds store) :
    (versionsIn store = [] ∧ project store = ⟨[], none⟩) ∨
      ∃ version ∈ versionsIn store, ∃ edges, project store = ⟨edges, some version⟩ ∧
        Lists store version edges ∧ ValidGraph canonicalSkillIds edges := by
  cases hLatest : latestVersion store with
  | none =>
    refine .inl ⟨latestVersion_eq_none hLatest, ?_⟩
    rw [project_eq, hLatest]
  | some version =>
    have hMem := latestVersion_mem hLatest
    obtain ⟨edges, hLists, hValid⟩ := h version hMem
    exact .inr ⟨version, hMem, edges, project_of_lists hLatest hLists, hLists, hValid⟩

theorem validGraph_nil (canonicalSkillIds : List String) : ValidGraph canonicalSkillIds [] where
  edges _ hMem := by cases hMem
  distinct := .nil
  acyclic v hCycle := by
    obtain ⟨w, hLeads, _⟩ := TransGen.head'_iff.mp hCycle
    obtain ⟨edge, hMem, _⟩ := (hardGraph_leads [] v w).mp hLeads
    cases hMem

theorem Governed.project_valid {canonicalSkillIds : List String} {store : SkillGraphStore}
    (h : Governed canonicalSkillIds store) : ValidGraph canonicalSkillIds (project store).dependencies := by
  rcases h.project_cases with ⟨_, hProject⟩ | ⟨version, _, edges, hProject, _, hValid⟩
  · rw [hProject]
    exact validGraph_nil canonicalSkillIds
  · rw [hProject]
    exact hValid

/-- Artifacts other than versions do not change what is projected. -/
theorem Governed.project_quiet {canonicalSkillIds : List String} {store later : SkillGraphStore}
    (h : Governed canonicalSkillIds store) (hQuiet : Quiet store later) : project later = project store := by
  have hSame := hQuiet.latestVersion
  cases hLatest : latestVersion store with
  | none => rw [project_eq, project_eq, hSame, hLatest]
  | some version =>
    obtain ⟨edges, hLists, _⟩ := h version (latestVersion_mem hLatest)
    rw [project_of_lists hLatest hLists, project_of_lists (hSame.trans hLatest) (hLists.later hQuiet)]

end Governed

section Calls

inductive SkillGraphOp where
  | admission (request : SkillDependencyAdmissionRequest) (failures : Nat → Bool)
  | supersession (input : SkillSupersessionInput) (failures : Nat → Bool)

def skillGraphStep (config : SkillGraphConfig) (op : SkillGraphOp) (store : SkillGraphStore) : SkillGraphStore :=
  match op with
  | .admission request failures => (admitDependency config request failures 0 store).2.2
  | .supersession input failures => (supersedeDependency config input failures 0 store).2.2

namespace SkillGraphOp

/-- The edge that the call is about, as it is admitted. -/
def edge : SkillGraphOp → SkillDependency
  | admission request _ => { request.dependency with lifecycle := .active }
  | supersession input _ => { input.replacement with lifecycle := .active }

/-- The edges of the next version besides that edge. -/
def kept (op : SkillGraphOp) (projection : SkillGraphProjection) : List SkillDependency :=
  match op with
  | admission _ _ => projection.dependencies
  | supersession input _ => remaining projection input

/-- The ids of the next version, from those of the version before it. -/
def Continues (op : SkillGraphOp) (prior ids : List String) : Prop :=
  match op with
  | admission request _ => ids = prior ++ [request.dependency.dependencyId]
  | supersession input _ => input.review.dependencyId ∈ prior ∧
      ids = prior.filter (· ≠ input.review.dependencyId) ++ [input.replacement.dependencyId]

/-- The call is about canonical skills; a valid edge that is hard closes no cycle, and a valid
replacement duplicates no edge that stays. -/
structure Fits (canonicalSkillIds : List String) (op : SkillGraphOp) (store : SkillGraphStore) : Prop where
  prerequisite : op.edge.prerequisite ∈ canonicalSkillIds
  dependent : op.edge.dependent ∈ canonicalSkillIds
  acyclic : edgeViolations op.edge = [] → isHard op.edge = true →
    (hardGraph (op.kept (project store))).search op.edge.dependent op.edge.prerequisite = false
  distinct : edgeViolations op.edge = [] → ∀ input failures, op = .supersession input failures →
    ∀ other ∈ op.kept (project store), ¬ SameEdge other op.edge

end SkillGraphOp

/-- The ids of the version that a new version names as the one before it. -/
def PriorIds (store : SkillGraphStore) : Option String → List String → Prop
  | none, ids => versionsIn store = [] ∧ ids = []
  | some id, ids => ∃ prior ∈ versionsIn store, prior.graphVersionId = id ∧ ids = prior.dependencyIds

structure Extends (store : SkillGraphStore) (op : SkillGraphOp) (version : SkillGraphVersion) : Prop where
  named : version.graphVersionId = op.edge.graphVersionId
  ids : ∃ prior, PriorIds store version.previousGraphVersionId prior ∧ op.Continues prior version.dependencyIds

/-- What a call leaves behind: no new version, or one that goes on from the version before it. -/
def Outcome (canonicalSkillIds : List String) (op : SkillGraphOp) (store later : SkillGraphStore) : Prop :=
  Quiet store later ∨
    ∃ middle version date edges, Quiet store middle ∧ later.rows = middle.rows ++ [⟨.version version, date⟩] ∧
      Extends store op version ∧ Lists middle version edges ∧ ValidGraph canonicalSkillIds edges

section Rules

variable {config : SkillGraphConfig} {P Q E : SkillGraphStore → Prop}

theorem appendArtifact_triple {content : ArtifactContent} {createdAt : String}
    (hSame : ∀ store, P store → (∃ artifact ∈ store.rows, artifact.content = content.stored) → Q store)
    (hNew : ∀ (store later : SkillGraphStore) date, P store →
      later.rows = store.rows ++ [⟨content.stored, date⟩] → Q later)
    (hFail : ∀ store, P store → E store) :
    Process.Triple P (appendArtifact config content createdAt) (fun _ => Q) E := by
  unfold appendArtifact
  refine .bind (Q := fun _ => P) (.ask fun _ _ h => h) fun fails => .ite (fun _ => .throw _ hFail) fun _ => ?_
  refine .bind (Q := fun existing store => P store ∧ existing = store.find? content.stored.artifactId)
    (.read fun _ h => ⟨h, rfl⟩) fun existing => ?_
  cases existing with
  | some artifact =>
    refine .ite (fun _ => .throw _ fun store h => hFail store h.1) fun hContent => .pure _ fun store h => ?_
    exact hSame store h.1 ⟨artifact, Table.find?_mem h.2.symm, Classical.not_not.mp hContent⟩
  | none =>
    cases config.dateOf createdAt with
    | none => exact .throw _ fun store h => hFail store h.1
    | some date => exact .modify fun store h => hNew store _ date h.1 (PlainTable.rows_put h.2.symm)

/-- An artifact that is no version may be appended to a store without a new version. -/
theorem appendArtifact_quiet (store : SkillGraphStore) {content : ArtifactContent} {createdAt : String}
    (hPre : ∀ later, P later → Quiet store later) (hContent : ∀ date, isVersion ⟨content.stored, date⟩ = false)
    (hFail : ∀ later, Quiet store later → E later) :
    Process.Triple P (appendArtifact config content createdAt)
      (fun _ later => Quiet store later ∧ ∃ artifact ∈ later.rows, artifact.content = content.stored) E := by
  refine appendArtifact_triple (fun later h hMem => ⟨hPre later h, hMem⟩) ?_ fun later h => hFail later (hPre later h)
  intro later next date h hRows
  refine ⟨(hPre later h).snoc hRows (hContent date), ⟨content.stored, date⟩, ?_, rfl⟩
  rw [hRows]
  exact List.mem_append_right _ (List.mem_singleton_self _)

theorem auditVersion_triple (hDone : ∀ store, P store → Q store) (hFail : ∀ store, P store → E store) :
    Process.Triple P (auditVersion config) (fun _ => Q) E := by
  unfold auditVersion
  refine .ite (fun _ => ?_) fun _ => .pure _ hDone
  refine .bind (Q := fun _ => P) (.ask fun _ _ h => h) fun _ => .ite (fun _ => .throw _ hFail) fun _ => ?_
  exact .bind (Q := fun _ => P) (.ask fun _ _ h => h) fun _ => .ite (fun _ => .throw _ hFail) fun _ => .pure _ hDone

end Rules

section Outcomes

variable {config : SkillGraphConfig} {canonicalSkillIds : List String} {store : SkillGraphStore} {op : SkillGraphOp}

theorem stored_eq_of_valid {dependency : SkillDependency} (h : edgeViolations dependency = []) :
    dependency.stored = dependency := by
  simp only [edgeViolations, List.append_eq_nil_iff] at h
  obtain ⟨⟨⟨⟨_, hThreshold⟩, _⟩, _⟩, _⟩ := h
  obtain ⟨id, prerequisite, dependent, type, strength, threshold, evidence, provenance, lifecycle, version, rationale⟩ :=
    dependency
  match threshold with
  | none => rfl
  | some (some _) => rfl
  | some none =>
    rw [thresholdViolations] at hThreshold
    cases type <;> simp [violation, outside] at hThreshold

theorem admitted_of_mem {dependency : SkillDependency} (hEdge : edgeViolations dependency = [])
    (h : ∃ artifact ∈ store.rows, artifact.content =
      (ArtifactContent.admitted { dependency with lifecycle := .active }).stored) :
    Admitted store { dependency with lifecycle := .active } := by
  obtain ⟨artifact, hMem, hContent⟩ := h
  have hStored : ({ dependency with lifecycle := .active } : SkillDependency).stored =
      { dependency with lifecycle := .active } := stored_eq_of_valid hEdge
  exact ⟨artifact, hMem, hContent.trans (congrArg ArtifactContent.admitted hStored)⟩

theorem kept_sublist (op : SkillGraphOp) (projection : SkillGraphProjection) :
    (op.kept projection).Sublist projection.dependencies := by
  cases op with
  | admission _ _ => exact .refl _
  | supersession _ _ => exact List.filter_sublist

theorem Governed.project_lists (h : Governed canonicalSkillIds store) :
    (∀ edge ∈ (project store).dependencies, Admitted store edge) ∧
      PriorIds store ((project store).latestVersion.map (·.graphVersionId))
        ((project store).dependencies.map (·.dependencyId)) := by
  rcases h.project_cases with ⟨hNone, hProject⟩ | ⟨version, hMem, edges, hProject, hLists, _⟩
  · rw [hProject]
    exact ⟨fun edge hEdge => (by cases hEdge), hNone, rfl⟩
  · rw [hProject]
    exact ⟨hLists.admitted, version, hMem, rfl, hLists.ids⟩

/-- The graph of the next version is valid when the call fits. -/
theorem SkillGraphOp.Fits.valid (hFits : op.Fits canonicalSkillIds store) (hGoverned : Governed canonicalSkillIds store)
    (hEdge : edgeViolations op.edge = []) (hNew : ∀ other ∈ op.kept (project store), ¬ SameEdge other op.edge) :
    ValidGraph canonicalSkillIds (op.kept (project store) ++ [op.edge]) := by
  refine (hGoverned.project_valid.sublist (kept_sublist op _)).snoc ⟨hEdge, hFits.prerequisite, hFits.dependent⟩ hNew ?_
  intro hHard hReach
  have hFound := (Library.Digraph.search_iff _ _ _).mpr hReach
  rw [hFits.acyclic hEdge hHard] at hFound
  cases hFound

/-- The append of the version ends the call in one of the two ways. -/
theorem appendVersion_triple {version : SkillGraphVersion} {createdAt : String}
    (hGoverned : Governed canonicalSkillIds store)
    (hValid : ValidGraph canonicalSkillIds (op.kept (project store) ++ [op.edge]))
    (hIds : version.dependencyIds = (op.kept (project store) ++ [op.edge]).map (·.dependencyId))
    (hPrevious : version.previousGraphVersionId = (project store).latestVersion.map (·.graphVersionId))
    (hNamed : version.graphVersionId = op.edge.graphVersionId)
    (hContinues : op.Continues ((project store).dependencies.map (·.dependencyId)) version.dependencyIds) :
    Process.Triple (fun later => Quiet store later ∧ Admitted later op.edge)
      (appendArtifact config (.version version) createdAt) (fun _ => Outcome canonicalSkillIds op store)
      (Outcome canonicalSkillIds op store) := by
  obtain ⟨hAdmitted, hPrior⟩ := hGoverned.project_lists
  refine appendArtifact_triple (fun later h _ => .inl h.1) (fun middle later date h hRows => .inr ?_)
    fun later h => .inl h.1
  refine ⟨middle, version, date, _, h.1, hRows, ⟨hNamed, _, hPrevious ▸ hPrior, hContinues⟩, ⟨hIds.symm, ?_⟩, hValid⟩
  intro edge hEdge
  rcases List.mem_append.mp hEdge with hKept | hLast
  · exact h.1.admitted (hAdmitted edge ((kept_sublist op _).subset hKept))
  · obtain rfl := List.mem_singleton.mp hLast
    exact h.2

theorem admit_outcome {request : SkillDependencyAdmissionRequest} {failures : Nat → Bool}
    (hGoverned : Governed canonicalSkillIds store)
    (hFits : (SkillGraphOp.admission request failures).Fits canonicalSkillIds store) :
    Process.Triple (fun later => later = store) (admitDependency config request)
      (fun _ => Outcome canonicalSkillIds (.admission request failures) store)
      (Outcome canonicalSkillIds (.admission request failures) store) := by
  unfold admitDependency
  refine .bind (appendArtifact_quiet store (fun later h => h ▸ .refl store) (fun _ => rfl)
    fun later h => .inl h) fun _ => ?_
  refine .ite (fun _ => .pure _ fun later h => .inl h.1) fun hValid => ?_
  refine .ite (fun _ => .pure _ fun later h => .inl h.1) fun _ => ?_
  refine .bind (Q := fun projection later => Quiet store later ∧ projection = project store)
    (.read fun later h => ⟨h.1, hGoverned.project_quiet h.1⟩) fun projection => .fact fun hProjection => ?_
  subst hProjection
  refine .ite (fun _ => .throw _ fun later h => .inl h) fun hNew => ?_
  have hEdge : edgeViolations request.dependency = [] := by simpa [validate] using hValid
  have hDistinct : ∀ other ∈ (project store).dependencies, ¬ SameEdge other request.dependency := by
    simpa using hNew
  refine .bind (appendArtifact_quiet store (fun later h => h) (fun _ => rfl) fun later h => .inl h) fun _ => ?_
  refine .bind (Q := fun _ => Outcome canonicalSkillIds (.admission request failures) store) ?_ fun _ =>
    .bind (Q := fun _ => Outcome canonicalSkillIds (.admission request failures) store)
      (auditVersion_triple (fun _ h => h) fun _ h => h) fun _ => .pure _ fun _ h => h
  have hIds : (admittedVersion (project store) request).dependencyIds =
      ((SkillGraphOp.admission request failures).kept (project store) ++
        [(SkillGraphOp.admission request failures).edge]).map (·.dependencyId) := by
    rw [List.map_append]
    rfl
  refine (appendVersion_triple hGoverned (hFits.valid hGoverned hEdge hDistinct) hIds rfl rfl rfl).strengthen ?_
  exact fun later h => ⟨h.1, admitted_of_mem hEdge h.2⟩

/-- The ids of the edges that stay are the ids before, without the superseded one. -/
theorem map_remaining (projection : SkillGraphProjection) (input : SkillSupersessionInput) :
    (remaining projection input).map (·.dependencyId) =
      (projection.dependencies.map (·.dependencyId)).filter (· ≠ input.review.dependencyId) := by
  rw [remaining, List.filter_map]
  rfl

theorem supersede_outcome {input : SkillSupersessionInput} {failures : Nat → Bool}
    (hGoverned : Governed canonicalSkillIds store)
    (hFits : (SkillGraphOp.supersession input failures).Fits canonicalSkillIds store) :
    Process.Triple (fun later => later = store) (supersedeDependency config input)
      (fun _ => Outcome canonicalSkillIds (.supersession input failures) store)
      (Outcome canonicalSkillIds (.supersession input failures) store) := by
  have hQuiet : ∀ later, later = store → Outcome canonicalSkillIds (.supersession input failures) store later :=
    fun later h => .inl (h ▸ .refl store)
  unfold supersedeDependency
  refine .ite (fun _ => .throw _ hQuiet) fun _ => .ite (fun _ => .throw _ hQuiet) fun _ =>
    .ite (fun _ => .throw _ hQuiet) fun _ => ?_
  refine .bind (Q := fun projection later => later = store ∧ projection = project store)
    (.read fun later h => ⟨h, h ▸ rfl⟩) fun projection => .fact fun hProjection => ?_
  subst hProjection
  refine .ite (fun _ => .throw _ hQuiet) fun hActive => .ite (fun _ => .throw _ hQuiet) fun hValid => ?_
  have hEdge : edgeViolations input.replacement = [] := by simpa [validate] using hValid
  have hPrior : input.review.dependencyId ∈ (project store).dependencies.map (·.dependencyId) := by
    simp only [Bool.not_eq_true', Bool.not_eq_false, List.any_eq_true, decide_eq_true_eq] at hActive
    exact List.mem_map.mpr hActive
  have hIds : (supersedingVersion (project store) input).dependencyIds =
      ((SkillGraphOp.supersession input failures).kept (project store) ++
        [(SkillGraphOp.supersession input failures).edge]).map (·.dependencyId) := by
    rw [List.map_append]
    rfl
  have hContinues : (SkillGraphOp.supersession input failures).Continues
      ((project store).dependencies.map (·.dependencyId)) (supersedingVersion (project store) input).dependencyIds :=
    ⟨hPrior, by rw [← map_remaining]; rfl⟩
  refine .bind (appendArtifact_quiet store (fun later h => h ▸ .refl store) (fun _ => rfl)
    fun later h => .inl h) fun _ => ?_
  refine .bind (appendArtifact_quiet store (fun later h => h.1) (fun _ => rfl) fun later h => .inl h)
    fun _ => ?_
  refine .bind (Q := fun _ later => Quiet store later ∧ Admitted later (SkillGraphOp.supersession input failures).edge)
    ?_ fun _ => ?_
  · refine appendArtifact_triple (fun later h _ => ⟨h.1, admitted_of_mem hEdge h.2⟩) ?_ fun later h => .inl h.1
    intro later next date h hRows
    have hNext : Quiet later next := Quiet.snoc (.refl later) hRows rfl
    exact ⟨h.1.snoc hRows rfl, hNext.admitted (admitted_of_mem hEdge h.2)⟩
  · refine .bind (appendVersion_triple hGoverned
      (hFits.valid hGoverned hEdge (hFits.distinct hEdge input failures rfl)) hIds rfl rfl hContinues) fun _ => ?_
    exact .bind (Q := fun _ => Outcome canonicalSkillIds (.supersession input failures) store)
      (auditVersion_triple (fun _ h => h) fun _ h => h) fun _ => .pure _ fun _ h => h

/-- Every call that fits leaves one of the two outcomes behind, whether it returns or throws. -/
theorem step_outcome (hGoverned : Governed canonicalSkillIds store) (hFits : op.Fits canonicalSkillIds store) :
    Outcome canonicalSkillIds op store (skillGraphStep config op store) := by
  cases op with
  | admission request failures => exact (admit_outcome hGoverned hFits).state failures 0 rfl
  | supersession input failures => exact (supersede_outcome hGoverned hFits).state failures 0 rfl

theorem Outcome.governed {later : SkillGraphStore} (h : Outcome canonicalSkillIds op store later)
    (hGoverned : Governed canonicalSkillIds store) : Governed canonicalSkillIds later := by
  rcases h with hQuiet | ⟨middle, version, date, edges, hQuiet, hRows, _, hLists, hValid⟩
  · exact hGoverned.later hQuiet
  · intro other hMem
    obtain ⟨artifact, hArtifact, hContent⟩ := mem_versionsOf.mp hMem
    have hAdmitted : ∀ edge, Admitted middle edge → Admitted later edge := by
      rintro edge ⟨row, hRow, hEdge⟩
      exact ⟨row, hRows ▸ List.mem_append_left _ hRow, hEdge⟩
    rw [hRows] at hArtifact
    rcases List.mem_append.mp hArtifact with hOld | hLast
    · obtain ⟨oldEdges, hOldLists, hOldValid⟩ :=
        hGoverned.later hQuiet other (mem_versionsOf.mpr ⟨artifact, hOld, hContent⟩)
      exact ⟨oldEdges, ⟨hOldLists.ids, fun edge hEdge => hAdmitted edge (hOldLists.admitted edge hEdge)⟩, hOldValid⟩
    · obtain rfl := List.mem_singleton.mp hLast
      obtain rfl := ArtifactContent.version.inj hContent
      exact ⟨edges, ⟨hLists.ids, fun edge hEdge => hAdmitted edge (hLists.admitted edge hEdge)⟩, hValid⟩

theorem Outcome.versions {later : SkillGraphStore} (h : Outcome canonicalSkillIds op store later) :
    versionsIn later = versionsIn store ∨
      ∃ version, versionsIn later = versionsIn store ++ [version] ∧ Extends store op version := by
  rcases h with hQuiet | ⟨middle, version, date, edges, hQuiet, hRows, hExtends, _⟩
  · exact .inl hQuiet.versionsIn
  · refine .inr ⟨version, ?_, hExtends⟩
    rw [← hQuiet.versionsIn, versionsIn, hRows, versionsOf, List.filterMap_append]
    rfl

theorem governed_empty : Governed canonicalSkillIds (.empty : SkillGraphStore) := fun _ hMem => by cases hMem

/-- In a run of calls that fit, every graph that is projected passes the inspection, and every call adds
at most one version, which continues the version that it names as the one before it. -/
theorem skill_graph_stays_valid (config : SkillGraphConfig) (canonicalSkillIds : List String)
    (hIds : ∀ skillId ∈ canonicalSkillIds, NoNul skillId) (store : SkillGraphStore)
    (h : Reaches (skillGraphStep config) (fun op store => op.Fits canonicalSkillIds store) .empty store) :
    (inspect (project store).dependencies canonicalSkillIds).valid = true ∧
      ∀ op : SkillGraphOp, op.Fits canonicalSkillIds store →
        versionsIn (skillGraphStep config op store) = versionsIn store ∨
          ∃ version, versionsIn (skillGraphStep config op store) = versionsIn store ++ [version] ∧
            Extends store op version := by
  have hGoverned : Governed canonicalSkillIds store :=
    h.invariant governed_empty fun op s hs hFits => (step_outcome hs hFits).governed hs
  exact ⟨inspect_valid hGoverned.project_valid hIds, fun op hFits => (step_outcome hGoverned hFits).versions⟩

end Outcomes

/-- The call is about canonical skills and carries an accepted gate decision for its edge. -/
def SkillGraphOp.Authorized (canonicalSkillIds : List String) (op : SkillGraphOp) : Prop :=
  op.edge.prerequisite ∈ canonicalSkillIds ∧ op.edge.dependent ∈ canonicalSkillIds ∧
    match op with
    | .admission request _ => request.gateDecision = ⟨request.dependency.dependencyId, .accept⟩
    | .supersession input _ => input.gateDecision = ⟨input.replacement.dependencyId, .accept⟩

def plannedSkills : List String := ["SK-DEPENDENCY-ANALYSIS", "SK-ROADMAP-PLANNING"]

def plannedDependency (dependencyId prerequisite dependent graphVersionId : String) : SkillDependency where
  dependencyId
  prerequisite
  dependent
  relationshipType := .prerequisite
  strength := some (43 / 50)
  requiredMasteryThreshold := some (some 70)
  evidenceIds := ["EV-044"]
  provenance := ⟨["PR-044"], ⟨"human:teacher", .human⟩, "2026-09-01T00:00:00.000Z"⟩
  lifecycle := .candidate
  graphVersionId
  rationale := "Dependency analysis establishes the sequencing constraints used by roadmap planning."

def admission (dependency : SkillDependency) : SkillGraphOp :=
  .admission ⟨dependency, ⟨dependency.dependencyId, .accept⟩, "Human review HR-144."⟩ fun _ => false

def forthAdmission : SkillGraphOp :=
  admission (plannedDependency "SD-044" "SK-DEPENDENCY-ANALYSIS" "SK-ROADMAP-PLANNING" "SG-V1")

def backAdmission : SkillGraphOp :=
  admission (plannedDependency "SD-045" "SK-ROADMAP-PLANNING" "SK-DEPENDENCY-ANALYSIS" "SG-V2")

def plannedConfig : SkillGraphConfig where
  dateOf text := if text = "2026-09-01T00:00:00.000Z" then some 1788220800000 else none
  audited := false

theorem skill_graph_stays_valid_admission :
    (inspect (project (skillGraphStep plannedConfig forthAdmission .empty)).dependencies plannedSkills).valid = true := by
  have hFits : forthAdmission.Fits plannedSkills .empty :=
    ⟨by decide, by decide, fun _ _ => by decide +kernel, fun _ _ _ h => by cases h⟩
  exact (skill_graph_stays_valid plannedConfig plannedSkills (by decide) _ (.step forthAdmission .refl hFits)).1

/-- Two admitted edges that answer each other are a hard cycle in a version recorded as passed. -/
theorem opposite_admissions_make_cycle :
    ¬ ∀ store, Reaches (skillGraphStep plannedConfig) (fun op _ => op.Authorized plannedSkills) .empty store →
      (inspect (project store).dependencies plannedSkills).valid = true := by
  intro h
  have hForth : forthAdmission.Authorized plannedSkills := ⟨by decide, by decide, rfl⟩
  have hBack : backAdmission.Authorized plannedSkills := ⟨by decide, by decide, rfl⟩
  exact absurd (h _ (.step backAdmission (.step forthAdmission .refl hForth) hBack)) (by decide +kernel)

end Calls
end CommandConsole.Learning
