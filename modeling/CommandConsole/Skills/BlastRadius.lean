import CommandConsole.Skills.DependencyGraph

/-! # What lies downstream of a skill

The traversal finds every skill that the prerequisites lead to, at its distance. The analysis keeps those
whose own shortest path begins with an affected dependency.
-/
namespace CommandConsole.Skills
open Library
set_option autoImplicit false

section Enumeration

variable {direction : TraversalDirection} {eligible : List SkillDependency}

/-- The visit of a path. -/
def recordTrail (direction : TraversalDirection) (eligible : List SkillDependency) (currentSkillId : String)
    (skillPath dependencyPath : List String) (found : Found) (trail : List SkillDependency) : Found :=
  found.record direction eligible (skillPath ++ trail.map (goal direction))
    (dependencyPath ++ trail.map SkillDependency.dependencyId) (endOf (goal direction) currentSkillId trail)

theorem visit_eq (fuel : Nat) (currentSkillId : String) (skillPath dependencyPath visited : List String) (found : Found) :
    visit direction eligible fuel currentSkillId skillPath dependencyPath visited found =
      (trails (adjacency direction eligible) (goal direction) fuel currentSkillId visited).foldl
        (recordTrail direction eligible currentSkillId skillPath dependencyPath) found := by
  induction fuel generalizing currentSkillId skillPath dependencyPath visited found with
  | zero => rfl
  | succ fuel ih =>
    rw [visit, trails, List.foldl_flatMap]
    refine congrArg (fun step => List.foldl step found (adjacency direction eligible currentSkillId)) ?_
    funext found dependency
    by_cases hVisited : goal direction dependency ∈ visited
    · rw [if_pos hVisited, if_pos hVisited]
      rfl
    · rw [if_neg hVisited, if_neg hVisited, List.foldl_cons, List.foldl_map, ih]
      refine congrArg (fun step => List.foldl step _ _) ?_
      funext found trail
      simp only [recordTrail, endOf, List.map_cons, List.append_assoc, List.singleton_append]

/-- The entries that a list of paths leaves: for each end the first of its shortest paths. -/
structure Recorded (direction : TraversalDirection) (skillId : String) (paths : List (List SkillDependency))
    (entries : List (String × SkillGraphTraversalEntry)) : Prop where
  once : (entries.map Prod.fst).Nodup
  absent : ∀ t, InsertionMap.get t entries = none → ∀ trail ∈ paths, endOf (goal direction) skillId trail ≠ t
  kept : ∀ t entry, InsertionMap.get t entries = some entry → ∃ trail,
    FirstBest (fun x => endOf (goal direction) skillId x = t) List.length paths trail ∧
    entry = ⟨t, trail.length, trail.map SkillDependency.dependencyId⟩

theorem Recorded.record {skillId : String} {paths : List (List SkillDependency)} {found : Found}
    (h : Recorded direction skillId paths found.entries) (trail : List SkillDependency) :
    Recorded direction skillId (paths ++ [trail])
      (recordTrail direction eligible skillId [skillId] [] found trail).entries := by
  have hPlace : ∀ entry, entry = (⟨endOf (goal direction) skillId trail, trail.length,
      trail.map SkillDependency.dependencyId⟩ : SkillGraphTraversalEntry) →
      (∀ x ∈ paths, endOf (goal direction) skillId x = endOf (goal direction) skillId trail → trail.length < x.length) →
      Recorded direction skillId (paths ++ [trail])
        (InsertionMap.set (endOf (goal direction) skillId trail) entry found.entries) := by
    rintro _ rfl hShorter
    refine ⟨InsertionMap.nodup_set h.once, fun t hNone x hx => ?_, fun t entry hGet => ?_⟩
    · by_cases hEnd : t = endOf (goal direction) skillId trail
      · rw [hEnd, InsertionMap.get_set_self] at hNone
        cases hNone
      · rw [InsertionMap.get_set_of_ne hEnd] at hNone
        rcases List.mem_append.mp hx with hOld | hNew
        · exact h.absent t hNone x hOld
        · exact List.mem_singleton.mp hNew ▸ Ne.symm hEnd
    · by_cases hEnd : t = endOf (goal direction) skillId trail
      · subst hEnd
        rw [InsertionMap.get_set_self] at hGet
        exact ⟨trail, .replace rfl hShorter, (Option.some.inj hGet).symm⟩
      · rw [InsertionMap.get_set_of_ne hEnd] at hGet
        obtain ⟨best, hBest, rfl⟩ := h.kept t entry hGet
        exact ⟨best, hBest.keep fun hSame => absurd hSame.symm hEnd, rfl⟩
  have hKeep : ∀ prior, InsertionMap.get (endOf (goal direction) skillId trail) found.entries = some prior →
      ¬ trail.length < prior.depth → Recorded direction skillId (paths ++ [trail]) found.entries := by
    intro prior hPrior hLonger
    refine ⟨h.once, fun t hNone x hx => ?_, fun t entry hGet => ?_⟩
    · rcases List.mem_append.mp hx with hOld | hNew
      · exact h.absent t hNone x hOld
      · obtain rfl := List.mem_singleton.mp hNew
        rintro rfl
        rw [hPrior] at hNone
        cases hNone
    · obtain ⟨best, hBest, rfl⟩ := h.kept t entry hGet
      refine ⟨best, hBest.keep fun hSame => ?_, rfl⟩
      rw [← hSame, hPrior] at hGet
      obtain rfl := Option.some.inj hGet
      exact Nat.le_of_not_lt hLonger
  simp only [recordTrail, Found.record, List.nil_append, List.length_map]
  cases hPrior : InsertionMap.get (endOf (goal direction) skillId trail) found.entries with
  | none => exact hPlace _ rfl fun x hx hSame => absurd hSame (h.absent _ hPrior x hx)
  | some prior =>
    dsimp only
    split
    · rename_i hShorter
      refine hPlace _ rfl fun x hx hSame => ?_
      obtain ⟨best, hBest, rfl⟩ := h.kept _ prior hPrior
      exact Nat.lt_of_lt_of_le hShorter (hBest.le hx hSame)
    · rename_i hLonger
      exact hKeep prior hPrior hLonger

theorem recorded_foldl {skillId : String} (more : List (List SkillDependency)) {paths : List (List SkillDependency)}
    {found : Found} (h : Recorded direction skillId paths found.entries) :
    Recorded direction skillId (paths ++ more)
      (more.foldl (recordTrail direction eligible skillId [skillId] []) found).entries := by
  induction more generalizing paths found with
  | nil =>
    rw [List.append_nil]
    exact h
  | cons trail more ih =>
    rw [List.foldl_cons, List.append_cons]
    exact ih (h.record trail)

theorem recorded_visit (direction : TraversalDirection) (eligible : List SkillDependency) (skillId : String) :
    Recorded direction skillId (trails (adjacency direction eligible) (goal direction) eligible.length skillId [skillId])
      (visit direction eligible eligible.length skillId [skillId] [] [skillId] ⟨[], []⟩).entries := by
  have hEmpty : Recorded direction skillId [] (Found.mk [] []).entries :=
    ⟨List.nodup_nil, fun _ _ trail hTrail => absurd hTrail List.not_mem_nil, fun _ _ hGet => nomatch hGet⟩
  rw [visit_eq]
  exact recorded_foldl _ hEmpty

end Enumeration

section Downstream

variable {dependencies : List SkillDependency} {skillId : String} {localeCompare : String → String → Int}

/-- The first skill is a prerequisite of the second. -/
def Requires (dependencies : List SkillDependency) (v w : String) : Prop :=
  ∃ dependency ∈ dependencies, dependency.relationshipType = .prerequisite ∧ dependency.prerequisite = v ∧
    dependency.dependent = w

/-- The prerequisites lead on from each other, from the one skill to the other. -/
def LeadsAlong (dependencies : List SkillDependency) : String → List SkillDependency → String → Prop
  | v, [], w => v = w
  | v, dependency :: rest, w => dependency ∈ dependencies ∧ dependency.relationshipType = .prerequisite ∧
    dependency.prerequisite = v ∧ LeadsAlong dependencies dependency.dependent rest w

structure DownstreamExact (dependencies : List SkillDependency) (skillId : String) (found : SkillGraphTraversal) : Prop where
  reached : ∀ t, (∃ entry ∈ found.transitive, entry.skillId = t) ↔
    t ≠ skillId ∧ ∃ n, Walk (Requires dependencies) n skillId t
  shortest : ∀ entry ∈ found.transitive, Distance (Requires dependencies) skillId entry.skillId entry.depth
  path : ∀ entry ∈ found.transitive, ∃ path, LeadsAlong dependencies skillId path entry.skillId ∧
    path.length = entry.depth ∧ path.map SkillDependency.dependencyId = entry.viaDependencyIds
  once : (found.transitive.map SkillGraphTraversalEntry.skillId).Nodup

def prerequisites (dependencies : List SkillDependency) : List SkillDependency :=
  dependencies.filter fun dependency => dependency.relationshipType ∈ [SkillDependencyType.prerequisite]

theorem mem_adjacency {v : String} {dependency : SkillDependency} :
    dependency ∈ adjacency .downstream (prerequisites dependencies) v ↔
      dependency ∈ dependencies ∧ dependency.relationshipType = .prerequisite ∧ dependency.prerequisite = v := by
  rw [adjacency, List.mem_filter, decide_eq_true_iff, prerequisites, List.mem_filter, decide_eq_true_iff,
    List.mem_singleton, and_assoc]
  rfl

theorem leading_eq : Leading (adjacency .downstream (prerequisites dependencies)) (goal .downstream) =
    Requires dependencies := by
  funext v w
  simp only [Leading, Requires, mem_adjacency, goal, and_assoc]

theorem leadsAlong_of_trail {v : String} {visited : List String} {trail : List SkillDependency}
    (h : IsTrail (adjacency .downstream (prerequisites dependencies)) (goal .downstream) v visited trail) :
    LeadsAlong dependencies v trail (endOf (goal .downstream) v trail) := by
  induction trail generalizing v visited with
  | nil => rfl
  | cons dependency rest ih =>
    obtain ⟨hMem, hType, hOrigin⟩ := mem_adjacency.mp h.1
    exact ⟨hMem, hType, hOrigin, ih h.2.2⟩

theorem adjacency_subset (v : String) (dependency : SkillDependency)
    (h : dependency ∈ adjacency .downstream (prerequisites dependencies) v) : dependency ∈ prerequisites dependencies :=
  (List.mem_filter.mp h).1

/-- The path that is kept for a skill. -/
def Kept (dependencies : List SkillDependency) (skillId t : String) (trail : List SkillDependency) : Prop :=
  FirstBest (fun x => endOf (goal .downstream) skillId x = t) List.length
    (trails (adjacency .downstream (prerequisites dependencies)) (goal .downstream) (prerequisites dependencies).length
      skillId [skillId]) trail

theorem mem_transitive {entry : SkillGraphTraversalEntry} :
    entry ∈ (downstream localeCompare skillId dependencies).transitive ↔
      InsertionMap.get entry.skillId (visit .downstream (prerequisites dependencies) (prerequisites dependencies).length
        skillId [skillId] [] [skillId] ⟨[], []⟩).entries = some entry := by
  have hRecorded := recorded_visit .downstream (prerequisites dependencies) skillId
  rw [downstream, traverse]
  dsimp only
  rw [List.mem_insertionSort, List.mem_map]
  constructor
  · rintro ⟨⟨t, entry⟩, hMem, rfl⟩
    have hGet := InsertionMap.get_of_mem hRecorded.once hMem
    obtain ⟨trail, -, rfl⟩ := hRecorded.kept t entry hGet
    exact hGet
  · exact fun hGet => ⟨_, InsertionMap.mem_of_get hGet, rfl⟩

theorem kept_of_mem {entry : SkillGraphTraversalEntry} (h : entry ∈ (downstream localeCompare skillId dependencies).transitive) :
    ∃ trail, Kept dependencies skillId entry.skillId trail ∧ trail.length = entry.depth ∧
      trail.map SkillDependency.dependencyId = entry.viaDependencyIds := by
  obtain ⟨trail, hBest, hEntry⟩ := (recorded_visit .downstream (prerequisites dependencies) skillId).kept _ entry
    (mem_transitive.mp h)
  exact ⟨trail, hBest, (congrArg SkillGraphTraversalEntry.depth hEntry).symm,
    (congrArg SkillGraphTraversalEntry.viaDependencyIds hEntry).symm⟩

theorem Kept.distance {t : String} {trail : List SkillDependency} (h : Kept dependencies skillId t trail) :
    Distance (Requires dependencies) skillId t trail.length := by
  rw [← leading_eq]
  exact distance_of_firstBest adjacency_subset h

theorem exists_entry {t : String} (hOther : t ≠ skillId) (h : ∃ n, Walk (Requires dependencies) n skillId t) :
    ∃ entry ∈ (downstream localeCompare skillId dependencies).transitive, entry.skillId = t := by
  obtain ⟨n, hWalk⟩ := h
  obtain ⟨k, -, hDistance⟩ := hWalk.exists_distance
  rw [← leading_eq] at hDistance
  obtain ⟨trail, -, hTrail, hEnd⟩ := exists_shortest_trail hDistance
  have hNonempty : trail ≠ [] := by
    rintro rfl
    exact hOther hEnd.symm
  have hRecorded := recorded_visit .downstream (prerequisites dependencies) skillId
  have hMem := mem_trails.mpr ⟨hNonempty, hTrail.length_le adjacency_subset, hTrail⟩
  cases hGet : InsertionMap.get t (visit .downstream (prerequisites dependencies) (prerequisites dependencies).length
      skillId [skillId] [] [skillId] ⟨[], []⟩).entries with
  | none => exact absurd hEnd (hRecorded.absent t hGet trail hMem)
  | some entry =>
    obtain ⟨best, -, rfl⟩ := hRecorded.kept t entry hGet
    refine ⟨⟨t, best.length, best.map SkillDependency.dependencyId⟩, mem_transitive.mpr ?_, rfl⟩
    exact hGet

/-- The traversal is exact. -/
theorem downstream_exact (localeCompare : String → String → Int) (skillId : String) (dependencies : List SkillDependency) :
    DownstreamExact dependencies skillId (downstream localeCompare skillId dependencies) where
  reached t := by
    constructor
    · rintro ⟨entry, hEntry, rfl⟩
      obtain ⟨trail, hKept, -⟩ := kept_of_mem hEntry
      obtain ⟨hNonempty, -, hTrail⟩ := mem_trails.mp hKept.mem
      refine ⟨fun hSame => ?_, trail.length, hKept.distance.1⟩
      have hNew := hTrail.endOf_notMem hNonempty
      rw [hKept.1] at hNew
      exact hNew (List.mem_singleton.mpr hSame)
    · exact fun h => exists_entry h.1 h.2
  shortest entry hEntry := by
    obtain ⟨trail, hKept, hLength, -⟩ := kept_of_mem hEntry
    exact hLength ▸ hKept.distance
  path entry hEntry := by
    obtain ⟨trail, hKept, hLength, hIds⟩ := kept_of_mem hEntry
    have hAlong := leadsAlong_of_trail (mem_trails.mp hKept.mem).2.2
    rw [hKept.1] at hAlong
    exact ⟨trail, hAlong, hLength, hIds⟩
  once := by
    have hRecorded := recorded_visit .downstream (prerequisites dependencies) skillId
    have hKeys : ∀ pair ∈ (visit .downstream (prerequisites dependencies) (prerequisites dependencies).length
        skillId [skillId] [] [skillId] ⟨[], []⟩).entries, pair.2.skillId = pair.1 := by
      rintro ⟨t, entry⟩ hMem
      obtain ⟨trail, -, rfl⟩ := hRecorded.kept t entry (InsertionMap.get_of_mem hRecorded.once hMem)
      rfl
    rw [downstream, traverse]
    dsimp only
    refine ((List.perm_insertionSort _ _).map SkillGraphTraversalEntry.skillId).nodup_iff.mpr ?_
    rw [List.map_map]
    exact (congrArg List.Nodup (List.map_congr_left hKeys)).mpr hRecorded.once

end Downstream

section BlastRadius

variable (input : BlastRadiusInput)

/-- The dependency is affected by the trigger; a weakened skill needs a record. -/
def AffectedBy (dependency : SkillDependency) : Prop :=
  dependency ∈ input.affectedDirectEdges ∧
    ¬(input.registryEntries input.sourceSkillId = none ∧ input.trigger = .weakened)

/-- A path whose first dependency is affected leads to the skill. -/
def AffectedReach (t : String) : Prop :=
  ∃ dependency, AffectedBy input dependency ∧ ∃ n, Walk (Requires input.graph.dependencies) n dependency.dependent t

/-- An affected dependency leads to the skill itself. -/
def AffectedDirectly (t : String) : Prop := ∃ dependency, AffectedBy input dependency ∧ dependency.dependent = t

/-- The skill is no direct dependent, and the first dependency of the source from which the rest of a shortest
path leads to it is affected. -/
def AffectedFirst (t : String) : Prop :=
  ∃ n, 1 ≤ n ∧ Distance (Requires input.graph.dependencies) input.sourceSkillId t (n + 1) ∧
    ∃ dependency, AffectedBy input dependency ∧
      FirstWith (fun edge => Walk (Requires input.graph.dependencies) n edge.dependent t) input.directEdges dependency

def Listed (localeCompare : String → String → Int) (t : String) : Prop :=
  let analysis := input.analyze localeCompare
  ∃ entry ∈ analysis.directlyAffected ++ analysis.potentiallyAffected, entry.skillId = t

variable {input}

theorem adjacency_source :
    adjacency .downstream (prerequisites input.graph.dependencies) input.sourceSkillId = input.directEdges := by
  rw [adjacency, prerequisites, BlastRadiusInput.directEdges, List.filter_filter]
  refine List.filter_congr fun dependency _ => ?_
  rw [Bool.eq_iff_iff, Bool.and_eq_true, decide_eq_true_iff, decide_eq_true_iff, decide_eq_true_iff, List.mem_singleton]
  exact And.comm

theorem mem_directIds {dependency : SkillDependency} (h : dependency ∈ input.graph.dependencies) :
    dependency.dependencyId ∈ input.directIds ↔ dependency ∈ input.affectedDirectEdges := by
  refine ⟨fun hMem => ?_, List.mem_map_of_mem⟩
  obtain ⟨other, hOther, hId⟩ := List.mem_map.mp hMem
  have hDependency := (List.mem_filter.mp (List.mem_filter.mp hOther).1).1
  exact List.inj_on_of_nodup_map input.graph.distinct hDependency h hId ▸ hOther

theorem mem_prioritized {entries : List SkillGraphTraversalEntry} {t : String} :
    (∃ entry ∈ input.prioritized entries, entry.skillId = t) ↔ ∃ entry ∈ entries, entry.skillId = t := by
  simp only [BlastRadiusInput.prioritized, List.mem_insertionSort, List.mem_map, exists_exists_and_eq_and,
    BlastRadiusInput.toEntry]

theorem beginsAffected_cons {dependency : SkillDependency} {skillId : String} {depth : Nat} {rest : List String}
    (h : dependency ∈ input.graph.dependencies) :
    input.beginsAffected ⟨skillId, depth, dependency.dependencyId :: rest⟩ = true ↔
      dependency ∈ input.affectedDirectEdges := by
  rw [← mem_directIds h, BlastRadiusInput.beginsAffected]
  exact List.contains_iff_mem

theorem affected_subset {dependency : SkillDependency} (h : dependency ∈ input.affectedDirectEdges) :
    dependency ∈ input.directEdges := (List.mem_filter.mp h).1

theorem mem_directEdges {dependency : SkillDependency} : dependency ∈ input.directEdges ↔
    dependency ∈ input.graph.dependencies ∧ dependency.relationshipType = .prerequisite ∧
      dependency.prerequisite = input.sourceSkillId := by
  rw [← adjacency_source, mem_adjacency]

variable {localeCompare : String → String → Int}

theorem direct_affected {t : String} :
    (∃ entry ∈ (downstream localeCompare input.sourceSkillId input.graph.dependencies).direct.filter
      (input.beginsAffected ·), entry.skillId = t) ↔ ∃ dependency ∈ input.affectedDirectEdges, dependency.dependent = t := by
  have hDirect : (downstream localeCompare input.sourceSkillId input.graph.dependencies).direct =
      input.directEdges.map fun dependency => ⟨dependency.dependent, 1, [dependency.dependencyId]⟩ := by
    rw [← adjacency_source]
    rfl
  rw [hDirect]
  constructor
  · rintro ⟨entry, hEntry, rfl⟩
    obtain ⟨hMem, hBegins⟩ := List.mem_filter.mp hEntry
    obtain ⟨dependency, hEdge, rfl⟩ := List.mem_map.mp hMem
    exact ⟨dependency, (beginsAffected_cons (mem_directEdges.mp hEdge).1).mp hBegins, rfl⟩
  · rintro ⟨dependency, hAffected, rfl⟩
    have hEdge := affected_subset hAffected
    refine ⟨_, List.mem_filter.mpr ⟨List.mem_map_of_mem hEdge, ?_⟩, rfl⟩
    exact (beginsAffected_cons (mem_directEdges.mp hEdge).1).mpr hAffected

/-- The path that is kept for a skill begins with the first dependency of the source that begins a shortest one. -/
theorem Kept.first {t : String} {trail : List SkillDependency}
    (h : Kept input.graph.dependencies input.sourceSkillId t trail) :
    ∃ dependency rest, trail = dependency :: rest ∧ FirstWith (fun edge =>
      Walk (Requires input.graph.dependencies) rest.length edge.dependent t) input.directEdges dependency := by
  have hFirst := firstBest_first adjacency_subset h
  rw [leading_eq, adjacency_source] at hFirst
  exact hFirst

theorem transitive_affected {t : String} :
    (∃ entry ∈ (downstream localeCompare input.sourceSkillId input.graph.dependencies).transitive.filter
      (fun entry => entry.depth > 1 && input.beginsAffected entry), entry.skillId = t) ↔
      ∃ n, 1 ≤ n ∧ Distance (Requires input.graph.dependencies) input.sourceSkillId t (n + 1) ∧
        ∃ dependency ∈ input.affectedDirectEdges, FirstWith (fun edge =>
          Walk (Requires input.graph.dependencies) n edge.dependent t) input.directEdges dependency := by
  constructor
  · rintro ⟨entry, hEntry, rfl⟩
    obtain ⟨hMem, hTest⟩ := List.mem_filter.mp hEntry
    obtain ⟨hDepth, hBegins⟩ := (Bool.and_eq_true _ _).mp hTest
    obtain ⟨trail, hKept, hLength, hIds⟩ := kept_of_mem hMem
    obtain ⟨dependency, rest, rfl, hFirst⟩ := hKept.first
    have hDeep := of_decide_eq_true hDepth
    rw [List.length_cons] at hLength
    have hEntry' : entry = ⟨entry.skillId, entry.depth, dependency.dependencyId :: rest.map SkillDependency.dependencyId⟩ := by
      rw [← List.map_cons, hIds]
    rw [hEntry'] at hBegins
    refine ⟨rest.length, by omega, hKept.distance, dependency, ?_, hFirst⟩
    exact (beginsAffected_cons (mem_directEdges.mp hFirst.mem).1).mp hBegins
  · rintro ⟨n, hn, hDistance, dependency, hAffected, hFirst⟩
    have hOther : t ≠ input.sourceSkillId := by
      rintro rfl
      exact hDistance.2 0 (Nat.succ_pos n) (.nil _)
    obtain ⟨entry, hMem, rfl⟩ := @exists_entry input.graph.dependencies input.sourceSkillId localeCompare t hOther ⟨n + 1, hDistance.1⟩
    obtain ⟨trail, hKept, hLength, hIds⟩ := kept_of_mem hMem
    obtain ⟨first, rest, rfl, hKeptFirst⟩ := hKept.first
    have hSame : rest.length = n := Nat.succ.inj (hKept.distance.unique hDistance)
    subst hSame
    obtain rfl := hKeptFirst.unique hFirst
    rw [List.length_cons] at hLength
    have hEntry : entry = ⟨entry.skillId, entry.depth, first.dependencyId :: rest.map SkillDependency.dependencyId⟩ := by
      rw [← List.map_cons, hIds]
    refine ⟨entry, List.mem_filter.mpr ⟨hMem, (Bool.and_eq_true _ _).mpr ⟨decide_eq_true (by omega), ?_⟩⟩, rfl⟩
    rw [hEntry]
    exact (beginsAffected_cons (mem_directEdges.mp hFirst.mem).1).mpr hAffected

/-- What the analysis lists. -/
theorem listed_iff {t : String} : Listed input localeCompare t ↔ AffectedDirectly input t ∨ AffectedFirst input t := by
  simp only [Listed, BlastRadiusInput.analyze, AffectedDirectly, AffectedFirst, AffectedBy]
  split
  · rename_i hMissing
    refine iff_of_false (by simp) ?_
    rintro (⟨dependency, hAffected, -⟩ | ⟨n, -, -, dependency, hAffected, -⟩)
    · exact hAffected.2 hMissing
    · exact hAffected.2 hMissing
  · rename_i hPresent
    split
    · rename_i hNone
      refine iff_of_false (by simp) ?_
      rw [hNone]
      rintro (⟨dependency, hAffected, -⟩ | ⟨n, -, -, dependency, hAffected, -⟩)
      · exact List.not_mem_nil hAffected.1
      · exact List.not_mem_nil hAffected.1
    · simp only [List.mem_append, or_and_right, exists_or, mem_prioritized, direct_affected, transitive_affected,
        hPresent, not_false_eq_true, and_true]

theorem affectedReach_of_direct {t : String} (h : AffectedDirectly input t) : AffectedReach input t := by
  obtain ⟨dependency, hAffected, rfl⟩ := h
  exact ⟨dependency, hAffected, 0, .nil _⟩

theorem affectedReach_of_first {t : String} (h : AffectedFirst input t) : AffectedReach input t := by
  obtain ⟨n, -, -, dependency, hAffected, hFirst⟩ := h
  exact ⟨dependency, hAffected, n, hFirst.1⟩

/-- The traversal is exact, and the analysis where every skill that an affected dependency leads to is found by one. -/
theorem blast_radius_complete_iff (input : BlastRadiusInput) (localeCompare : String → String → Int) :
    DownstreamExact input.graph.dependencies input.sourceSkillId
      (downstream localeCompare input.sourceSkillId input.graph.dependencies) ∧
    ((∀ t, t ≠ input.sourceSkillId → (Listed input localeCompare t ↔ AffectedReach input t)) ↔
      ∀ t, t ≠ input.sourceSkillId → AffectedReach input t → AffectedDirectly input t ∨ AffectedFirst input t) := by
  refine ⟨downstream_exact localeCompare _ _, fun h t hOther hReach => ?_, fun h t hOther => ?_⟩
  · exact listed_iff.mp ((h t hOther).mpr hReach)
  · rw [listed_iff]
    exact ⟨fun hListed => hListed.elim affectedReach_of_direct affectedReach_of_first, h t hOther⟩

def requires (id prerequisite dependent : String) (threshold : Rat) : SkillDependency :=
  ⟨id, prerequisite, dependent, .prerequisite, 4 / 5, some threshold⟩

/-- A roadmap needs little of the weakened skill itself, and a plan that needs more of it. -/
def weakenedPlanning : BlastRadiusInput where
  sourceSkillId := "estimation"
  trigger := .weakened
  graph := ⟨[requires "d1" "estimation" "roadmap" 30, requires "d2" "estimation" "plan" 70,
    requires "d3" "plan" "roadmap" 60], by decide⟩
  registryEntries skillId := if skillId = "estimation" then some ⟨some 50, none⟩ else none

theorem roadmap_is_lost :
    ((weakenedPlanning.analyze fun _ _ => 0).directlyAffected.map SkillBlastRadiusEntry.skillId = ["plan"] ∧
      (weakenedPlanning.analyze fun _ _ => 0).potentiallyAffected = []) ∧
    AffectedReach weakenedPlanning "roadmap" ∧
    ¬ ∀ input localeCompare t, t ≠ input.sourceSkillId → (Listed input localeCompare t ↔ AffectedReach input t) := by
  have hLists : (weakenedPlanning.analyze fun _ _ => 0).directlyAffected.map SkillBlastRadiusEntry.skillId = ["plan"] ∧
      (weakenedPlanning.analyze fun _ _ => 0).potentiallyAffected = [] := by decide +kernel
  have hReach : AffectedReach weakenedPlanning "roadmap" := by
    refine ⟨requires "d2" "estimation" "plan" 70, ⟨by decide +kernel, by decide +kernel⟩, 1, .snoc (.nil _) ?_⟩
    exact ⟨requires "d3" "plan" "roadmap" 60, by decide +kernel, rfl, rfl, rfl⟩
  refine ⟨hLists, hReach, fun h => ?_⟩
  obtain ⟨entry, hEntry, hSkill⟩ := (h weakenedPlanning (fun _ _ => 0) "roadmap" (by decide)).mpr hReach
  rw [hLists.2, List.append_nil] at hEntry
  have hMem := @List.mem_map_of_mem _ _ _ _ SkillBlastRadiusEntry.skillId hEntry
  rw [hLists.1, hSkill] at hMem
  revert hMem
  decide

end BlastRadius

end CommandConsole.Skills
