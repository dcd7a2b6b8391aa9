import CommandConsole.DurableLearning.PrismaWriter

/-! # Durable learning commits what was evaluated

Both writers bind a commit to the evaluated request by its fingerprint, but the controlled writer stores
the content and provenance of the admission request and the Prisma writer those of the request that comes
with the commit. The Prisma writer raises the version it compares; the controlled writer does not.
-/
namespace CommandConsole.DurableLearning
open Library
open CommandConsole.Knowledge
set_option autoImplicit false

theorem durable_commits_exact (localeCompare : Text → Text → Int) (ids : KnowledgeIds) (readings : TextReadings) :
    (∀ (request gateRequest : DurableLearningGateRequest) (appended : Bool) (admission : RegistryAdmission),
      (∀ records crowd, Reaches (Crowd.step (commitRules localeCompare ids)) AdmitsAlone
          (Crowd.init (RegistryWorld.holding records)) crowd →
        ∀ call ∈ crowd.calls, call.input = ⟨gateRequest, evaluate localeCompare appended request, admission⟩ →
          ∀ stored, call.Created stored → AsEvaluated request stored.record.content stored.record.classification
            (some stored.scope) stored.record.provenance) ↔
        (authorizationIsBound localeCompare ⟨gateRequest, evaluate localeCompare appended request, admission⟩ = true →
          admission.Admissible → admission.Agrees request)) ∧
    (∀ (workspaceId : String) (request gateRequest : DurableLearningGateRequest) (appended : Bool)
        (admission : RegistryAdmission),
      (∀ refused db row, PrismaCommit.Creates localeCompare readings
          ⟨workspaceId, gateRequest, evaluate localeCompare appended request, admission⟩ refused db row →
        AsEvaluated request row.candidate.content row.candidate.classification row.scope row.candidate.provenance) ↔
        (PrismaCommit.Storable localeCompare readings
            ⟨workspaceId, gateRequest, evaluate localeCompare appended request, admission⟩ →
          gateRequest.candidate.content = request.candidate.content ∧
            gateRequest.candidate.provenance = request.candidate.provenance)) ∧
    (∀ records crowd, Reaches (Crowd.step (commitRules localeCompare ids)) VersionFree
        (Crowd.init (RegistryWorld.holding records)) crowd →
      ∀ (i j : Nat) (left right : CommitCall) (version : String), crowd.calls[i]? = some left →
        crowd.calls[j]? = some right → left.succeeded = true → right.succeeded = true →
          left.version? = some version → right.version? = some version → i = j) ∧
    ∀ (commit commit' : PrismaCommit) (refused refused' : Bool) (db later : RegistryDatabase) (row row' : DurableRow),
      commit.Creates localeCompare readings refused db row →
      Reaches (prismaStep localeCompare readings) (fun _ _ => True)
        (prismaStep localeCompare readings (commit, refused) db) later →
      commit'.workspaceId = commit.workspaceId → commit'.Creates localeCompare readings refused' later row' →
        commit'.expectedVersion? readings ≠ commit.expectedVersion? readings :=
  ⟨fun _ _ _ _ => controlled_contents, fun _ _ _ _ _ => prisma_contents,
    fun _ _ h _ _ _ _ _ => one_commit_per_version h,
    fun _ _ _ _ _ _ _ _ h hLater hWorkspace h' => one_row_per_version h hLater hWorkspace h'⟩

section Sample

def codeUnitOrder (left right : Text) : Int := if left < right then -1 else if left = right then 0 else 1

def sampleProvenance : ClassificationProvenance where
  observationId := "obs-1"
  sourceId := "source-1"
  sourceType := .operatorStatement
  originatingActorId := "user:owner"
  observedAt := "2026-08-31T00:00:00.000Z"
  correlationId := none

def sampleRequest : DurableLearningGateRequest where
  evaluationId := "evaluation-1"
  candidate := ⟨"candidate-1", "Noesis uses PostgreSQL.", .projectDecision, sampleProvenance⟩
  classification := ⟨some .projectDecision, .classified, .durableCandidate, []⟩
  scope := ⟨some ⟨⟨.project, some "noesis"⟩, {}⟩, .resolved, []⟩
  authority := .allow
  conflict := .allow
  validation := .valid
  constitution := ⟨.accept, true⟩
  sourceCriticism := none
  epistemicPosition := none
  context := ⟨"9.0.0", "1.0.0", "1.0.0", "1.0.0", "1.0.0", "8.0.0", "381", .explicit, "user:owner", none⟩

def sampleAdmission (content : String) : RegistryAdmission where
  request :=
    { candidate := ⟨"candidate-1", content, .projectDecision, sampleProvenance⟩
      classification := ⟨some .projectDecision, sampleProvenance, "TEST", "UNCHANGED", false⟩
      scopeResolution := ⟨some ⟨.project, some "noesis"⟩, .resolved, sampleProvenance, "TEST", "UNCHANGED"⟩
      conflictDetection := ⟨"candidate-1", "knowledge-1", .unrelated, none, none, "UNCHANGED"⟩
      validation := ⟨"candidate-1", .valid, sampleProvenance, "UNCHANGED", false⟩
      decision := ⟨"candidate-1", .accept, .acceptedForAdmission, true, "1", "1", sampleProvenance, "UNCHANGED", false⟩ }
  scopeDetails := {}

theorem sample_checked : ∀ check ∈ checksOf sampleRequest, check.status = .pass := by decide +kernel

theorem sample_bound (content : String) :
    authorizationIsBound codeUnitOrder ⟨sampleRequest, evaluate codeUnitOrder true sampleRequest, sampleAdmission content⟩ =
      true := by
  obtain ⟨hAccept, hEvaluation, hGiven⟩ := evaluate_accepts codeUnitOrder sample_checked
  unfold authorizationIsBound
  dsimp only
  rw [hAccept, hEvaluation, hGiven]
  simp only [authorization, decide_eq_true_eq, true_and]
  exact ⟨sameScope_iff.mpr rfl, rfl, rfl, sameScope_iff.mpr rfl⟩

theorem sample_admissible (content : String) :
    verifyAdmission (sampleAdmission content).request = .ok ⟨.project, some "noesis"⟩ := rfl

/-- The gate evaluated one content, and the commit stores the other content of its admission request. -/
theorem commits_other_content :
    ∃ crowd : Crowd CommitCall RegistryWorld, Reaches (Crowd.step (commitRules codeUnitOrder KnowledgeIds.default))
        (fun _ _ => True) (Crowd.init (RegistryWorld.holding fun _ => none)) crowd ∧
      ∃ call ∈ crowd.calls, call.input = ⟨sampleRequest, evaluate codeUnitOrder true sampleRequest,
          sampleAdmission "Noesis uses MySQL."⟩ ∧
        ∃ stored, call.Created stored ∧ stored.record.content ≠ sampleRequest.candidate.content := by
  obtain ⟨crowd, hReached, call, hMem, hInput, hWritten⟩ :=
    commit_alone KnowledgeIds.default (sample_bound "Noesis uses MySQL.")
      (sample_admissible "Noesis uses MySQL.") "2026-08-31T00:02:00.000Z"
  exact ⟨crowd, hReached.mono fun _ _ _ => trivial, call, hMem, hInput, _, .inl hWritten, by decide⟩

/-- With the content that was evaluated, the commit stores what was evaluated. -/
theorem durable_commits_exact_sample :
    ∃ crowd : Crowd CommitCall RegistryWorld, Reaches (Crowd.step (commitRules codeUnitOrder KnowledgeIds.default))
        AdmitsAlone (Crowd.init (RegistryWorld.holding fun _ => none)) crowd ∧
      ∃ call ∈ crowd.calls, ∃ stored, call.Created stored ∧
        AsEvaluated sampleRequest stored.record.content stored.record.classification (some stored.scope)
          stored.record.provenance := by
  obtain ⟨crowd, hReached, call, hMem, hInput, hWritten⟩ :=
    commit_alone KnowledgeIds.default (sample_bound "Noesis uses PostgreSQL.")
      (sample_admissible "Noesis uses PostgreSQL.") "2026-08-31T00:02:00.000Z"
  refine ⟨crowd, hReached, call, hMem, _, .inl hWritten, ?_⟩
  exact ((durable_commits_exact codeUnitOrder KnowledgeIds.default ⟨fun text => text.toNat?, fun _ => true⟩).1
    sampleRequest sampleRequest true (sampleAdmission "Noesis uses PostgreSQL.")).mpr
    (fun _ _ => ⟨rfl, rfl, rfl⟩) _ crowd hReached call hMem hInput _ (.inl hWritten)

end Sample

end CommandConsole.DurableLearning
