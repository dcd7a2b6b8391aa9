import CommandConsole.DurableLearning.ControlledCommits

/-! # The Prisma registry writer

A commit is one serializable transaction: it compares the registry version of its workspace, raises it,
and stores the candidate of the request that the caller brings under the scope that was authorized.
-/
namespace CommandConsole.DurableLearning
open Library
open CommandConsole.Execution (isBlank)
open CommandConsole.Knowledge
set_option autoImplicit false

section Rows

structure DurableRow where
  knowledgeId : String
  workspaceId : String
  candidateId : String
  candidateFingerprint : String
  gateDecisionId : String
  registryVersion : Nat
  candidate : DurableKnowledgeCandidate
  scope : Option GateScope
  decision : GateDecision
  policyVersion : String
  constitutionVersion : String
  deriving DecidableEq

structure LearningAuditRow where
  eventId : String
  workspaceId : String
  sequence : Nat
  occurredAt : String
  deriving DecidableEq

/-- The version of the registry of each workspace that has one, and the rows of all workspaces. -/
structure RegistryDatabase where
  versions : String → Option Nat
  durable : List DurableRow
  audit : List LearningAuditRow

/-- What `Number(text)` is where it is an integer that is not negative, and whether `new Date(text)` is valid. -/
structure TextReadings where
  number : String → Option Nat
  isDate : String → Bool

structure PrismaCommit where
  workspaceId : String
  input : CommitInput

end Rows

section Transaction

variable (localeCompare : Text → Text → Int) (readings : TextReadings)

/-- The first check of `commit`, without the version text. -/
def PrismaCommit.authorized? (commit : PrismaCommit) : Option CommitAuthorization :=
  match commit.input.decision.commitAuthorization with
  | none => none
  | some authorization =>
    if !isBlank commit.workspaceId ∧ commit.input.decision.outcome = .accept ∧
        authorization.candidateId = commit.input.gateRequest.candidate.candidateId ∧
        authorization.candidateFingerprint = createGateInputFingerprint localeCompare commit.input.gateRequest ∧
        authorization.classification = commit.input.gateRequest.candidate.classification ∧
        sameScope authorization.scope commit.input.gateRequest.scope.scope ∧
        authorization.gateVersion = commit.input.gateRequest.context.gateVersion ∧
        authorization.registryVersion = commit.input.gateRequest.context.registryVersion ∧
        commit.input.admission.request.candidate.candidateId = authorization.candidateId then some authorization
    else none

def durableRow (commit : PrismaCommit) (authorization : CommitAuthorization) (nextVersion : Nat) : DurableRow where
  knowledgeId := "knowledge:" ++ commit.workspaceId ++ ":" ++ authorization.candidateId
  workspaceId := commit.workspaceId
  candidateId := authorization.candidateId
  candidateFingerprint := authorization.candidateFingerprint
  gateDecisionId := authorization.evaluationId
  registryVersion := nextVersion
  candidate := commit.input.gateRequest.candidate
  scope := authorization.scope
  decision := commit.input.decision
  policyVersion := commit.input.admission.request.decision.policyVersion
  constitutionVersion := commit.input.admission.request.decision.constitutionVersion

def auditRow (commit : PrismaCommit) (authorization : CommitAuthorization) (sequence : Nat) : LearningAuditRow where
  eventId := "learning-audit:commit:" ++ authorization.evaluationId
  workspaceId := commit.workspaceId
  sequence := sequence
  occurredAt := commit.input.gateRequest.candidate.provenance.observedAt

/-- The unique columns of the rows are free, and the instant of the audit row is one. -/
def RegistryDatabase.takes (db : RegistryDatabase) (row : DurableRow) (audit : LearningAuditRow) : Bool :=
  (db.durable.all fun other => other.knowledgeId ≠ row.knowledgeId ∧
    ¬ (other.workspaceId = row.workspaceId ∧ other.gateDecisionId = row.gateDecisionId)) &&
  (db.audit.all fun other => other.eventId ≠ audit.eventId ∧
    ¬ (other.workspaceId = audit.workspaceId ∧ other.sequence = audit.sequence)) &&
  readings.isDate audit.occurredAt

/-- The body of the transaction, none where it throws. -/
def commitTransaction (commit : PrismaCommit) (authorization : CommitAuthorization) (expectedVersion : Nat)
    (db : RegistryDatabase) : Option (ControlledRegistryWriteResult × RegistryDatabase) :=
  let currentVersion := (db.versions commit.workspaceId).getD 0
  match db.durable.find? fun row => row.workspaceId = commit.workspaceId ∧ row.candidateId = authorization.candidateId with
  | some existing =>
    if existing.candidateFingerprint ≠ authorization.candidateFingerprint ∨
        existing.gateDecisionId ≠ authorization.evaluationId then some (authorizationInvalid, db)
    else some ({ status := .committed, reasonCode := .idempotentReplay }, db)
  | none =>
    if currentVersion ≠ expectedVersion then some (versionChanged, db)
    else
      let row := durableRow commit authorization (currentVersion + 1)
      let audit := auditRow commit authorization
        ((db.audit.filter fun row => row.workspaceId = commit.workspaceId).length + 1)
      if db.takes readings row audit then
        some ({ status := .committed, reasonCode := .durableKnowledgeCommitted, persistenceEffect := .created },
          { versions := Function.update db.versions commit.workspaceId (some (currentVersion + 1))
            durable := db.durable ++ [row]
            audit := db.audit ++ [audit] })
      else none

/-- `commit`, where `refused` tells whether the database fails the transaction. -/
def prismaCommit (commit : PrismaCommit) (refused : Bool) (db : RegistryDatabase) :
    ControlledRegistryWriteResult × RegistryDatabase :=
  match commit.authorized? localeCompare with
  | none => (authorizationInvalid, db)
  | some authorization =>
    match readings.number authorization.registryVersion with
    | none => (authorizationInvalid, db)
    | some expectedVersion =>
      if refused then (versionChanged, db)
      else (commitTransaction readings commit authorization expectedVersion db).getD (versionChanged, db)

def prismaStep (op : PrismaCommit × Bool) (db : RegistryDatabase) : RegistryDatabase :=
  (prismaCommit localeCompare readings op.1 op.2 db).2

end Transaction

section Statement

/-- The version that the commit expects, where its text is one. -/
def PrismaCommit.expectedVersion? (readings : TextReadings) (commit : PrismaCommit) : Option Nat :=
  commit.input.decision.commitAuthorization.bind fun authorization => readings.number authorization.registryVersion

/-- The commit creates the row. -/
def PrismaCommit.Creates (localeCompare : Text → Text → Int) (readings : TextReadings) (commit : PrismaCommit)
    (refused : Bool) (db : RegistryDatabase) (row : DurableRow) : Prop :=
  (prismaCommit localeCompare readings commit refused db).1.persistenceEffect = .created ∧
    (prismaCommit localeCompare readings commit refused db).2.durable = db.durable ++ [row]

/-- The writer can store the candidate under its authorization. -/
structure PrismaCommit.Storable (localeCompare : Text → Text → Int) (readings : TextReadings) (commit : PrismaCommit) :
    Prop where
  authorized : (commit.authorized? localeCompare).isSome
  version : (commit.expectedVersion? readings).isSome
  instant : readings.isDate commit.input.gateRequest.candidate.provenance.observedAt = true

end Statement

section Commits

variable {localeCompare : Text → Text → Int} {readings : TextReadings} {commit : PrismaCommit} {refused : Bool}
  {db : RegistryDatabase}

theorem PrismaCommit.authorized?_some {authorization : CommitAuthorization}
    (h : commit.authorized? localeCompare = some authorization) :
    commit.input.decision.commitAuthorization = some authorization ∧
      authorization.classification = commit.input.gateRequest.candidate.classification := by
  unfold PrismaCommit.authorized? at h
  split at h
  · cases h
  · split at h
    · rename_i hChecks
      cases h
      exact ⟨‹_›, hChecks.2.2.2.2.1⟩
    · cases h

/-- A commit leaves the database as it is, or stores its row under the next version. -/
theorem prismaCommit_cases (localeCompare : Text → Text → Int) (readings : TextReadings) (commit : PrismaCommit)
    (refused : Bool) (db : RegistryDatabase) :
    ((prismaCommit localeCompare readings commit refused db).2 = db ∧
      (prismaCommit localeCompare readings commit refused db).1.persistenceEffect = .none) ∨
    ∃ authorization expectedVersion audit, commit.authorized? localeCompare = some authorization ∧
      readings.number authorization.registryVersion = some expectedVersion ∧
      (db.versions commit.workspaceId).getD 0 = expectedVersion ∧
      readings.isDate commit.input.gateRequest.candidate.provenance.observedAt = true ∧
      (prismaCommit localeCompare readings commit refused db).1.persistenceEffect = .created ∧
      (prismaCommit localeCompare readings commit refused db).2 =
        { versions := Function.update db.versions commit.workspaceId (some (expectedVersion + 1))
          durable := db.durable ++ [durableRow commit authorization (expectedVersion + 1)]
          audit := db.audit ++ [audit] } := by
  unfold prismaCommit
  split
  · exact .inl ⟨rfl, rfl⟩
  · rename_i authorization hAuthorized
    split
    · exact .inl ⟨rfl, rfl⟩
    · rename_i expectedVersion hNumber
      split
      · exact .inl ⟨rfl, rfl⟩
      · unfold commitTransaction
        dsimp only
        split
        · split <;> exact .inl ⟨rfl, rfl⟩
        · split
          · exact .inl ⟨rfl, rfl⟩
          · rename_i hVersion
            obtain rfl := not_not.mp hVersion
            split
            · rename_i hTakes
              refine .inr ⟨authorization, _, _, hAuthorized, hNumber, rfl, ?_, rfl, rfl⟩
              rw [RegistryDatabase.takes, Bool.and_eq_true] at hTakes
              exact hTakes.2
            · exact .inl ⟨rfl, rfl⟩

theorem PrismaCommit.Creates.row {row : DurableRow} (h : commit.Creates localeCompare readings refused db row) :
    ∃ authorization expectedVersion, commit.authorized? localeCompare = some authorization ∧
      readings.number authorization.registryVersion = some expectedVersion ∧
      (db.versions commit.workspaceId).getD 0 = expectedVersion ∧
      readings.isDate commit.input.gateRequest.candidate.provenance.observedAt = true ∧
      row = durableRow commit authorization (expectedVersion + 1) ∧
      (prismaCommit localeCompare readings commit refused db).2.versions =
        Function.update db.versions commit.workspaceId (some (expectedVersion + 1)) := by
  obtain ⟨hCreated, hRow⟩ := h
  obtain ⟨_, hNone⟩ | ⟨authorization, expectedVersion, audit, hAuthorized, hNumber, hVersion, hInstant, _, hAfter⟩ :=
    prismaCommit_cases localeCompare readings commit refused db
  · rw [hCreated] at hNone
    cases hNone
  · rw [hAfter] at hRow ⊢
    obtain ⟨-, hRows⟩ := List.append_inj hRow rfl
    exact ⟨authorization, expectedVersion, hAuthorized, hNumber, hVersion, hInstant, (List.singleton_inj.mp hRows).symm, rfl⟩

def RegistryDatabase.version (db : RegistryDatabase) (workspaceId : String) : Nat := (db.versions workspaceId).getD 0

theorem prismaCommit_version (op : PrismaCommit × Bool) (workspaceId : String) :
    db.version workspaceId ≤ (prismaStep localeCompare readings op db).version workspaceId := by
  obtain ⟨hSame, _⟩ | ⟨_, expectedVersion, _, _, _, hVersion, _, _, hAfter⟩ :=
    prismaCommit_cases localeCompare readings op.1 op.2 db
  · rw [prismaStep, hSame]
  · rw [prismaStep, hAfter]
    change _ ≤ (Function.update db.versions op.1.workspaceId (some (expectedVersion + 1)) workspaceId).getD 0
    by_cases hWorkspace : workspaceId = op.1.workspaceId
    · rw [hWorkspace, Function.update_self, RegistryDatabase.version, hVersion, Option.getD_some]
      omega
    · rw [Function.update_of_ne hWorkspace]
      exact Nat.le_refl _

/-- The registry of a workspace only moves on to later versions. -/
theorem version_later {guard : PrismaCommit × Bool → RegistryDatabase → Prop} {later : RegistryDatabase}
    (h : Reaches (prismaStep localeCompare readings) guard db later) (workspaceId : String) :
    db.version workspaceId ≤ later.version workspaceId := by
  induction h with
  | refl => exact Nat.le_refl _
  | step op _ _ ih => exact Nat.le_trans ih (prismaCommit_version op workspaceId)

theorem expectedVersion_eq {authorization : CommitAuthorization} {expectedVersion : Nat}
    (hAuthorized : commit.authorized? localeCompare = some authorization)
    (hNumber : readings.number authorization.registryVersion = some expectedVersion) :
    commit.expectedVersion? readings = some expectedVersion := by
  rw [PrismaCommit.expectedVersion?, (PrismaCommit.authorized?_some hAuthorized).1, Option.bind_some, hNumber]

/-- Once a commit has created a row, no later commit of its workspace creates one at its version. -/
theorem one_row_per_version {commit' : PrismaCommit} {refused' : Bool} {later : RegistryDatabase} {row row' : DurableRow}
    (h : commit.Creates localeCompare readings refused db row)
    (hLater : Reaches (prismaStep localeCompare readings) (fun _ _ => True)
      (prismaStep localeCompare readings (commit, refused) db) later)
    (hWorkspace : commit'.workspaceId = commit.workspaceId)
    (h' : commit'.Creates localeCompare readings refused' later row') :
    commit'.expectedVersion? readings ≠ commit.expectedVersion? readings := by
  obtain ⟨_, expectedVersion, hAuthorized, hNumber, _, _, _, hAfter⟩ := h.row
  obtain ⟨_, expectedVersion', hAuthorized', hNumber', hVersion', _, _, _⟩ := h'.row
  have hRaised : (prismaStep localeCompare readings (commit, refused) db).version commit.workspaceId =
      expectedVersion + 1 := by
    rw [prismaStep, RegistryDatabase.version, hAfter, Function.update_self, Option.getD_some]
  have hOn := version_later hLater commit.workspaceId
  rw [expectedVersion_eq hAuthorized hNumber, expectedVersion_eq hAuthorized' hNumber']
  rw [hRaised, RegistryDatabase.version, ← hWorkspace, hVersion'] at hOn
  simp only [ne_eq, Option.some.injEq]
  omega

end Commits

section Contents

variable {localeCompare : Text → Text → Int} {readings : TextReadings} {workspaceId : String} {appended : Bool}
  {request gateRequest : DurableLearningGateRequest} {admission : RegistryAdmission}

theorem creates_alone {commit : PrismaCommit} (h : commit.Storable localeCompare readings) :
    ∃ authorization db row, commit.Creates localeCompare readings false db row ∧
      row.candidate = commit.input.gateRequest.candidate ∧
      commit.input.decision.commitAuthorization = some authorization := by
  obtain ⟨authorization, hAuthorized⟩ := Option.isSome_iff_exists.mp h.authorized
  obtain ⟨expectedVersion, hExpected⟩ := Option.isSome_iff_exists.mp h.version
  have hGiven := (PrismaCommit.authorized?_some hAuthorized).1
  have hNumber : readings.number authorization.registryVersion = some expectedVersion := by
    rwa [PrismaCommit.expectedVersion?, hGiven, Option.bind_some] at hExpected
  let db : RegistryDatabase := ⟨fun _ => some expectedVersion, [], []⟩
  have hTakes : ∀ row, db.takes readings row (auditRow commit authorization 1) = true := fun _ => h.instant
  have hCommitted : prismaCommit localeCompare readings commit false db =
      ({ status := .committed, reasonCode := .durableKnowledgeCommitted, persistenceEffect := .created },
        { versions := Function.update db.versions commit.workspaceId (some (expectedVersion + 1))
          durable := [durableRow commit authorization (expectedVersion + 1)]
          audit := [auditRow commit authorization 1] }) := by
    unfold prismaCommit
    simp only [hAuthorized, hNumber]
    rw [if_neg Bool.false_ne_true]
    unfold commitTransaction
    dsimp only [db, List.find?_nil, Option.getD_some]
    rw [if_neg (not_not.mpr rfl)]
    exact congrArg (fun outcome => Option.getD outcome _) (if_pos (hTakes _))
  refine ⟨authorization, db, durableRow commit authorization (expectedVersion + 1), ⟨?_, ?_⟩, rfl, hGiven⟩
  · rw [hCommitted]
  · rw [hCommitted]
    rfl

/-- The Prisma writer creates the row that was evaluated exactly if no request that it can store under the
authorization has another content or provenance. -/
theorem prisma_contents :
    (∀ refused db row, PrismaCommit.Creates localeCompare readings
        ⟨workspaceId, gateRequest, evaluate localeCompare appended request, admission⟩ refused db row →
      AsEvaluated request row.candidate.content row.candidate.classification row.scope row.candidate.provenance) ↔
      (PrismaCommit.Storable localeCompare readings
          ⟨workspaceId, gateRequest, evaluate localeCompare appended request, admission⟩ →
        gateRequest.candidate.content = request.candidate.content ∧
          gateRequest.candidate.provenance = request.candidate.provenance) := by
  constructor
  · intro h hStorable
    obtain ⟨_, db, row, hCreates, hCandidate, _⟩ := creates_alone hStorable
    have hRow := h false db row hCreates
    rw [hCandidate] at hRow
    exact ⟨hRow.content, hRow.provenance⟩
  · rintro h refused db row hCreates
    obtain ⟨authorization, expectedVersion, hAuthorized, hNumber, _, hInstant, rfl, _⟩ := hCreates.row
    obtain ⟨hGiven, hClassification⟩ := PrismaCommit.authorized?_some hAuthorized
    obtain ⟨hChecked, rfl⟩ := evaluate_authorization hGiven
    have hAuthorized? : (PrismaCommit.authorized? localeCompare
        ⟨workspaceId, gateRequest, evaluate localeCompare appended request, admission⟩).isSome = true := by
      rw [hAuthorized, Option.isSome_some]
    have hExpected : (PrismaCommit.expectedVersion? readings
        ⟨workspaceId, gateRequest, evaluate localeCompare appended request, admission⟩).isSome = true := by
      rw [expectedVersion_eq hAuthorized hNumber, Option.isSome_some]
    obtain ⟨hContent, hProvenance⟩ := h ⟨hAuthorized?, hExpected, hInstant⟩
    exact ⟨hContent, hClassification.symm, rfl, hProvenance, hChecked⟩

end Contents

end CommandConsole.DurableLearning
