import CommandConsole.Library.EdgeWalk

/-! # Migration of versioned replay artifacts

A chain of registered steps leads from one schema version to another; each step transforms the
artifact, must keep its identity anchors and is recorded in the lineage.
-/
namespace CommandConsole.Planning
open Library
set_option autoImplicit false

inductive CompatibilityLevel where
  | identical
  | forwardCompatible
  | requiresMigration
  | incompatible
  deriving DecidableEq

inductive ApprovalImpactState where
  | preserved
  | requiresReview
  | invalidated
  | expired
  deriving DecidableEq

inductive VersioningFailureCode where
  | versionUnsupported
  | schemaRegistryMissing
  | migrationChainInvalid
  | migrationStepUnsupported
  | migrationOutputInvalid
  | hashLineageMismatch
  | replayCompatibilityFailed
  | governanceMigrationBlocked
  | approvalInvalidated
  | hashCanonicalizationFailed
  | hashScopeInvalid
  deriving DecidableEq

structure VersioningFailure where
  code : VersioningFailureCode
  message : String
  path : Option String
  deriving DecidableEq

structure MigrationLineageEntry where
  fromVersion : String
  toVersion : String
  lineageHash : String
  deriving DecidableEq

structure ImmutableReplayIdentityRoot where
  executionTruthHash : String
  executionCompatibilityHash : String
  initialReplaySnapshotHash : String
  canonicalOriginVersion : String
  deriving DecidableEq

structure ReplayLineageInvariant where
  originalExecutionTruthHash : String
  originalExecutionCompatibilityHash : String
  replaySnapshotHash : String
  migrationLineageHashes : List String
  deriving DecidableEq

structure ReplayAuditAnchors where
  executionTruthHash : String
  executionCompatibilityHash : String
  replaySnapshotHash : String
  deriving DecidableEq

/-- The audit result and the compatibility contract are carried along; of the first, a step of the
registry reads the anchors. -/
structure VersionedReplayArtifact (Audit Contract : Type) where
  version : String
  replayAuditResult : ReplayAuditAnchors × Audit
  executionCompatibilityContract : Contract
  immutableReplayIdentityRoot : ImmutableReplayIdentityRoot
  replayLineageInvariant : ReplayLineageInvariant
  migrationLineage : List MigrationLineageEntry
  approvalImpact : ApprovalImpactState
  governanceImpact : ApprovalImpactState
  schemaHash : String
  contentHash : String
  deriving DecidableEq

structure SchemaDescriptor where
  version : String
  compatibilityLevel : CompatibilityLevel
  deprecated : Bool
  migrationTargets : List String
  deriving DecidableEq

/-- What is hashed, with the domain of the hash. -/
inductive StableContent where
  | plan (version : String) (root : ImmutableReplayIdentityRoot) (lineage : ReplayLineageInvariant)
      (approvalImpact governanceImpact : ApprovalImpactState) (replayAuditAnchors : ReplayAuditAnchors)
  | evidenceBundle (descriptor : SchemaDescriptor)
  | migrationLineage (fromVersion toVersion sourceHash targetHash : String)
  deriving DecidableEq

structure SchemaRegistryEntry where
  descriptor : SchemaDescriptor
  schemaHash : String
  deriving DecidableEq

structure DeterministicMigrationResult (Audit Contract : Type) where
  ok : Bool
  output : Option (VersionedReplayArtifact Audit Contract)
  errorCode : Option VersioningFailureCode
  message : Option String

structure MigrationStep (Audit Contract : Type) where
  fromVersion : String
  toVersion : String
  migrate : VersionedReplayArtifact Audit Contract → DeterministicMigrationResult Audit Contract

section Engine

variable {Audit Contract : Type} (hashStableContent : StableContent → String)

def createVersioningFailure (code : VersioningFailureCode) (message : String) (path : Option String) :
    VersioningFailure := ⟨code, message, path⟩

def createEntry (version : String) (compatibilityLevel : CompatibilityLevel) (deprecated : Bool)
    (migrationTargets : List String) : SchemaRegistryEntry :=
  let descriptor : SchemaDescriptor := ⟨version, compatibilityLevel, deprecated, migrationTargets⟩
  ⟨descriptor, hashStableContent (.evidenceBundle descriptor)⟩

def registry : List SchemaRegistryEntry :=
  [createEntry hashStableContent "4.2H" .requiresMigration false ["4.2H.1"],
    createEntry hashStableContent "4.2H.1" .requiresMigration false ["4.2I"],
    createEntry hashStableContent "4.2I" .identical false []]

def getSchemaRegistryEntry (version : String) : Option SchemaRegistryEntry :=
  (registry hashStableContent).find? fun entry => entry.descriptor.version = version

def success (output : VersionedReplayArtifact Audit Contract) : DeterministicMigrationResult Audit Contract :=
  ⟨true, some output, none, none⟩

def bumpVersion (input : VersionedReplayArtifact Audit Contract) (toVersion : String) :
    VersionedReplayArtifact Audit Contract :=
  let migrated := { input with version := toVersion }
  { migrated with
    contentHash := hashStableContent (.plan migrated.version migrated.immutableReplayIdentityRoot
      migrated.replayLineageInvariant migrated.approvalImpact migrated.governanceImpact migrated.replayAuditResult.1) }

def getMigrationSteps : List (MigrationStep Audit Contract) :=
  [⟨"4.2H", "4.2H.1", fun input => success (bumpVersion hashStableContent input "4.2H.1")⟩,
    ⟨"4.2H.1", "4.2I", fun input => success (bumpVersion hashStableContent input "4.2I")⟩]

def chainFailure (toVersion : String) : WalkError String → List VersioningFailure
  | .loop current => [createVersioningFailure .migrationChainInvalid
      ("Migration loop detected at " ++ current ++ ".") (some "migrationChain")]
  | .stuck current => [createVersioningFailure .migrationStepUnsupported
      ("No migration step found from " ++ current ++ " to " ++ toVersion ++ ".") (some "migrationChain")]

def resolveMigrationChain (fromVersion toVersion : String) (steps : List (MigrationStep Audit Contract)) :
    Except (List VersioningFailure) (List (MigrationStep Audit Contract)) :=
  (walk MigrationStep.fromVersion MigrationStep.toVersion steps toVersion [] fromVersion).mapError
    (chainFailure toVersion)

/-- The three anchors that no step may change. -/
def anchors (artifact : VersionedReplayArtifact Audit Contract) : String × String × String :=
  (artifact.immutableReplayIdentityRoot.executionTruthHash,
    artifact.immutableReplayIdentityRoot.executionCompatibilityHash,
    artifact.immutableReplayIdentityRoot.initialReplaySnapshotHash)

/-- One pass of the loop over the chain. -/
def applyStep (step : MigrationStep Audit Contract) (current : VersionedReplayArtifact Audit Contract) :
    Except (List VersioningFailure) (VersionedReplayArtifact Audit Contract × MigrationLineageEntry) :=
  let migrated := step.migrate current
  match migrated.ok, migrated.output with
  | true, some output =>
    if anchors output ≠ anchors current then
      .error [createVersioningFailure .hashLineageMismatch "Migration changed immutable replay identity anchors."
        (some "immutableReplayIdentityRoot")]
    else
      let lineageHash := hashStableContent
        (.migrationLineage step.fromVersion step.toVersion current.contentHash output.contentHash)
      let entry : MigrationLineageEntry := ⟨step.fromVersion, step.toVersion, lineageHash⟩
      .ok ({ output with migrationLineage := current.migrationLineage ++ [entry] }, entry)
  | _, _ => .error [createVersioningFailure (migrated.errorCode.getD .migrationOutputInvalid)
      (migrated.message.getD "Migration failed.") (some "migration")]

def applyChain : List (MigrationStep Audit Contract) → VersionedReplayArtifact Audit Contract →
    List MigrationLineageEntry →
    Except (List VersioningFailure) (VersionedReplayArtifact Audit Contract × List MigrationLineageEntry)
  | [], current, lineage => .ok (current, lineage)
  | step :: rest, current, lineage =>
    match applyStep hashStableContent step current with
    | .error failures => .error failures
    | .ok (next, entry) => applyChain rest next (lineage ++ [entry])

def migrateVersionedArtifact (artifact : VersionedReplayArtifact Audit Contract) (targetVersion : String)
    (steps : List (MigrationStep Audit Contract)) :
    Except (List VersioningFailure) (VersionedReplayArtifact Audit Contract × List MigrationLineageEntry) :=
  match getSchemaRegistryEntry hashStableContent artifact.version,
      getSchemaRegistryEntry hashStableContent targetVersion with
  | some _, some _ =>
    match resolveMigrationChain artifact.version targetVersion steps with
    | .error failures => .error failures
    | .ok chain => applyChain hashStableContent chain artifact []
  | _, _ => .error [createVersioningFailure .schemaRegistryMissing
      "Schema registry entry missing for source or target version." (some "schemaRegistry")]

end Engine

section Chains

variable {Audit Contract : Type} {hashStableContent : StableContent → String}

abbrev StepWalks (steps : List (MigrationStep Audit Contract)) :=
  Walks MigrationStep.fromVersion MigrationStep.toVersion steps

theorem resolve_walks {steps chain : List (MigrationStep Audit Contract)} {fromVersion toVersion : String}
    (h : resolveMigrationChain fromVersion toVersion steps = .ok chain) :
    StepWalks steps toVersion fromVersion chain := by
  rw [resolveMigrationChain] at h
  cases hWalk : walk MigrationStep.fromVersion MigrationStep.toVersion steps toVersion [] fromVersion with
  | error e =>
    rw [hWalk] at h
    cases h
  | ok path =>
    rw [hWalk] at h
    cases h
    exact walks_of_walk hWalk

theorem applyStep_anchors {step : MigrationStep Audit Contract} {current next : VersionedReplayArtifact Audit Contract}
    {entry : MigrationLineageEntry} (h : applyStep hashStableContent step current = .ok (next, entry)) :
    anchors next = anchors current ∧ next.migrationLineage = current.migrationLineage ++ [entry] := by
  rw [applyStep] at h
  dsimp only at h
  split at h
  · split at h
    · cases h
    · rename_i hAnchors
      cases h
      exact ⟨not_not.mp hAnchors, rfl⟩
  · cases h

/-- The artifact and the returned lineage grow by the same entries, whatever was there before. -/
theorem applyChain_lineage {chain : List (MigrationStep Audit Contract)}
    {current final : VersionedReplayArtifact Audit Contract} {lineage total : List MigrationLineageEntry}
    (h : applyChain hashStableContent chain current lineage = .ok (final, total)) :
    ∃ added, total = lineage ++ added ∧ final.migrationLineage = current.migrationLineage ++ added ∧
      anchors final = anchors current ∧
      ∀ before, applyChain hashStableContent chain current before = .ok (final, before ++ added) := by
  induction chain generalizing current lineage with
  | nil =>
    cases h
    exact ⟨[], (List.append_nil _).symm, (List.append_nil _).symm, rfl, fun before => by
      rw [List.append_nil]
      rfl⟩
  | cons step rest ih =>
    rw [applyChain] at h
    cases hStep : applyStep hashStableContent step current with
    | error failures =>
      rw [hStep] at h
      cases h
    | ok result =>
      obtain ⟨next, entry⟩ := result
      rw [hStep] at h
      obtain ⟨hAnchors, hLineage⟩ := applyStep_anchors hStep
      obtain ⟨added, hTotal, hFinal, hSame, hAny⟩ := ih h
      refine ⟨entry :: added, ?_, ?_, hSame.trans hAnchors, fun before => ?_⟩
      · rw [hTotal, List.append_assoc]
        rfl
      · rw [hFinal, hLineage, List.append_assoc]
        rfl
      · rw [applyChain, hStep]
        dsimp only
        rw [hAny, List.append_assoc]
        rfl

theorem applyChain_append {front back : List (MigrationStep Audit Contract)}
    {current mid : VersionedReplayArtifact Audit Contract} {lineage total : List MigrationLineageEntry}
    (h : applyChain hashStableContent front current lineage = .ok (mid, total)) :
    applyChain hashStableContent (front ++ back) current lineage = applyChain hashStableContent back mid total := by
  induction front generalizing current lineage with
  | nil =>
    cases h
    rfl
  | cons step rest ih =>
    rw [applyChain] at h
    rw [List.cons_append, applyChain]
    cases hStep : applyStep hashStableContent step current with
    | error failures =>
      rw [hStep] at h
      cases h
    | ok result =>
      rw [hStep] at h
      exact ih h

/-- What a successful migration went through. -/
theorem migrate_cases {artifact final : VersionedReplayArtifact Audit Contract} {targetVersion : String}
    {steps : List (MigrationStep Audit Contract)} {lineage : List MigrationLineageEntry}
    (h : migrateVersionedArtifact hashStableContent artifact targetVersion steps = .ok (final, lineage)) :
    ∃ source target chain, getSchemaRegistryEntry hashStableContent artifact.version = some source ∧
      getSchemaRegistryEntry hashStableContent targetVersion = some target ∧
      resolveMigrationChain artifact.version targetVersion steps = .ok chain ∧
      applyChain hashStableContent chain artifact [] = .ok (final, lineage) := by
  rw [migrateVersionedArtifact] at h
  split at h
  · rename_i source target hSource hTarget
    split at h
    · cases h
    · rename_i chain hChain
      exact ⟨source, target, chain, hSource, hTarget, hChain, h⟩
  · cases h

theorem migrate_compose {artifact mid final : VersionedReplayArtifact Audit Contract} {b c : String}
    {steps chain : List (MigrationStep Audit Contract)} {first second : List MigrationLineageEntry}
    (hFirst : migrateVersionedArtifact hashStableContent artifact b steps = .ok (mid, first))
    (hVersion : mid.version = b)
    (hSecond : migrateVersionedArtifact hashStableContent mid c steps = .ok (final, second))
    (hChain : resolveMigrationChain artifact.version c steps = .ok chain)
    (hOn : b = artifact.version ∨ ∃ step ∈ chain, step.toVersion = b) :
    migrateVersionedArtifact hashStableContent artifact c steps = .ok (final, first ++ second) := by
  obtain ⟨source, _, front, hSource, -, hFront, hApplied⟩ := migrate_cases hFirst
  obtain ⟨_, target, back, -, hTarget, hBack, hApplied'⟩ := migrate_cases hSecond
  rw [hVersion] at hBack
  obtain rfl := Walks.append (resolve_walks hFront) (resolve_walks hBack) (resolve_walks hChain) hOn
  obtain ⟨added, rfl, -, -, hAny⟩ := applyChain_lineage hApplied'
  rw [migrateVersionedArtifact, hSource, hTarget]
  dsimp only
  rw [hChain]
  dsimp only
  rw [applyChain_append hApplied, hAny]

end Chains

/-- Migrating in two stages through a version on the way is migrating at once; chains are contiguous
walks of registered steps, and the anchors survive. -/
theorem migration_chains_compose {Audit Contract : Type} (hashStableContent : StableContent → String)
    (steps : List (MigrationStep Audit Contract)) :
    (∀ (a b c : String) (artifact mid final : VersionedReplayArtifact Audit Contract)
        (chain : List (MigrationStep Audit Contract)) (first second : List MigrationLineageEntry),
      artifact.version = a → mid.version = b →
      migrateVersionedArtifact hashStableContent artifact b steps = .ok (mid, first) →
      migrateVersionedArtifact hashStableContent mid c steps = .ok (final, second) →
      resolveMigrationChain a c steps = .ok chain → (b = a ∨ ∃ step ∈ chain, step.toVersion = b) →
      migrateVersionedArtifact hashStableContent artifact c steps = .ok (final, first ++ second) ∧
        final.migrationLineage = artifact.migrationLineage ++ (first ++ second)) ∧
    (∀ (a b : String) (chain : List (MigrationStep Audit Contract)), resolveMigrationChain a b steps = .ok chain →
      Contiguous MigrationStep.fromVersion MigrationStep.toVersion a b chain ∧ ∀ step ∈ chain, step ∈ steps) ∧
    ∀ (artifact final : VersionedReplayArtifact Audit Contract) (b : String) (lineage : List MigrationLineageEntry),
      migrateVersionedArtifact hashStableContent artifact b steps = .ok (final, lineage) →
      anchors final = anchors artifact := by
  refine ⟨?_, fun a b chain hChain => (resolve_walks hChain).contiguous, ?_⟩
  · rintro a b c artifact mid final chain first second rfl hVersion hFirst hSecond hChain hOn
    have hDirect := migrate_compose hFirst hVersion hSecond hChain hOn
    obtain ⟨_, _, _, -, -, -, hApplied⟩ := migrate_cases hDirect
    obtain ⟨added, hTotal, hLineage, -⟩ := applyChain_lineage hApplied
    rw [List.nil_append] at hTotal
    exact ⟨hDirect, by rw [hLineage, hTotal]⟩
  · intro artifact final b lineage hMigrated
    obtain ⟨_, _, _, -, -, -, hApplied⟩ := migrate_cases hMigrated
    obtain ⟨_, -, -, hAnchors, -⟩ := applyChain_lineage hApplied
    exact hAnchors

/-- The hashes of one artifact on its way through the registered steps. -/
def sampleHash : StableContent → String
  | .plan version _ _ _ _ _ =>
    if version = "4.2H.1" then "6668168e77b54c36f1839b3da5b8bae80ca3271bd8211d6154273ce7b5f7c837"
    else "f2038b2433dd5f643a2c56d820bf2398ae56344fb7288c74ee1372d6da0e08bf"
  | .evidenceBundle descriptor =>
    if descriptor.version = "4.2H" then "7e181e9d48c631b8a5016a90b98d5caaed4ed32c7f234173e138f4a1ef213c8d"
    else if descriptor.version = "4.2H.1" then "efe4ca77619f44bf012966fd5f45fd7d5dab943640ff7c424acea5cb37bd701c"
    else "21011464074413643ce061cf623328dd1218418ed81178f74460bc66b8682f44"
  | .migrationLineage fromVersion _ _ _ =>
    if fromVersion = "4.2H" then "494316631ded72ec4abb59a4ccbb85f1ad1f5adcbcaf20761d53c8818b9d428f"
    else "ed9cb0989f795eae12b1380dc8950e5ad278a5ce0695372ff095784121d04461"

def sampleArtifact : VersionedReplayArtifact Unit Unit where
  version := "4.2H"
  replayAuditResult := (⟨"t", "c", "s"⟩, ())
  executionCompatibilityContract := ()
  immutableReplayIdentityRoot := ⟨"t", "c", "s", "4.2H"⟩
  replayLineageInvariant := ⟨"t", "c", "s", []⟩
  migrationLineage := []
  approvalImpact := .preserved
  governanceImpact := .preserved
  schemaHash := sampleHash (.evidenceBundle ⟨"4.2H", .requiresMigration, false, ["4.2H.1"]⟩)
  contentHash := "h0"

def sampleSteps : List (MigrationStep Unit Unit) := getMigrationSteps sampleHash

def sampleMid : VersionedReplayArtifact Unit Unit :=
  { bumpVersion sampleHash sampleArtifact "4.2H.1" with
    migrationLineage := [⟨"4.2H", "4.2H.1", sampleHash (.migrationLineage "4.2H" "4.2H.1" "h0"
      (bumpVersion sampleHash sampleArtifact "4.2H.1").contentHash)⟩] }

theorem sample_chains : resolveMigrationChain "4.2H" "4.2H.1" sampleSteps = .ok (sampleSteps.take 1) ∧
    resolveMigrationChain "4.2H.1" "4.2I" sampleSteps = .ok (sampleSteps.drop 1) ∧
    resolveMigrationChain "4.2H" "4.2I" sampleSteps = .ok sampleSteps := by
  refine ⟨?_, ?_, ?_⟩ <;> rw [resolveMigrationChain]
  · rw [walk_step (by decide) List.not_mem_nil rfl, walk_goal]
    rfl
  · rw [walk_step (by decide) List.not_mem_nil rfl, walk_goal]
    rfl
  · rw [walk_step (by decide) List.not_mem_nil rfl, walk_step (by decide) (by decide) rfl, walk_goal]
    rfl

theorem migration_chains_compose_registered : ∃ final lineage,
    migrateVersionedArtifact sampleHash sampleArtifact "4.2I" sampleSteps = .ok (final, lineage) ∧
      lineage.length = 2 ∧ final.migrationLineage = lineage := by
  obtain ⟨hFirst, hSecond, hBoth⟩ := sample_chains
  have hMid : migrateVersionedArtifact sampleHash sampleArtifact "4.2H.1" sampleSteps =
      .ok (sampleMid, sampleMid.migrationLineage) := by
    rw [migrateVersionedArtifact, show sampleArtifact.version = "4.2H" from rfl, hFirst]
    rfl
  obtain ⟨final, second, hFinal, hLength⟩ : ∃ final second,
      migrateVersionedArtifact sampleHash sampleMid "4.2I" sampleSteps = .ok (final, second) ∧ second.length = 1 := by
    rw [migrateVersionedArtifact, show sampleMid.version = "4.2H.1" from rfl, hSecond]
    exact ⟨_, _, rfl, rfl⟩
  obtain ⟨hDirect, hLineage⟩ := (migration_chains_compose sampleHash sampleSteps).1 "4.2H" "4.2H.1" "4.2I"
    sampleArtifact sampleMid final sampleSteps _ second rfl rfl hMid hFinal hBoth
    (.inr ⟨_, List.mem_cons_self, rfl⟩)
  exact ⟨final, _, hDirect, by rw [List.length_append, hLength]; rfl, hLineage⟩

end CommandConsole.Planning
