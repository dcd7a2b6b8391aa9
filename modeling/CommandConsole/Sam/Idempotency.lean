import CommandConsole.Library.JsonObject

/-! # Idempotency records of the S.A.M. bridge

A proposal has a key, which does not name its attempt, and the store keeps a record under
the key and one under the attempt, both inside the scope of the tenant.
-/
namespace CommandConsole.Sam
open Library
set_option autoImplicit false

section Proposals

inductive SamActionType where
  | recoverExecution
  | pauseExecution
  | resumeExecution
  | cancelExecution
  | exportEvidence
  | addOperatorNote
  | inspectState
  | unknown
  deriving DecidableEq

inductive SamActor where
  | ai
  | operator
  | system
  deriving DecidableEq

inductive SamRiskLevel where
  | low
  | medium
  | high
  | critical
  deriving DecidableEq

@[ext]
structure TenantContext where
  tenantId : String
  workspaceId : String
  tenantNamed : tenantId ≠ ""

instance : DecidableEq TenantContext := fun left right =>
  decidable_of_iff (left.tenantId = right.tenantId ∧ left.workspaceId = right.workspaceId) TenantContext.ext_iff.symm

/-- A proposal that `validateSamProposal` accepts, its texts trimmed. -/
structure SamProposal where
  proposalId : String
  executionId : String
  attemptId : String
  actionType : SamActionType
  requestedBy : SamActor
  reason : String
  riskLevel : SamRiskLevel
  confidence : Numeral
  params : Value.Members
  tenantContext : Option TenantContext
  executionNamed : executionId ≠ ""
  attemptNamed : attemptId ≠ ""
  actionKnown : actionType ≠ .unknown

namespace SamProposal

def tenantId (proposal : SamProposal) : Option String := proposal.tenantContext.map TenantContext.tenantId

def workspaceId (proposal : SamProposal) : Option String := proposal.tenantContext.map TenantContext.workspaceId

/-- `params?.realExecution === true` -/
def realExecution (proposal : SamProposal) : Bool :=
  match proposal.params.find? fun member => member.1 = Value.units "realExecution" with
  | some (_, Value.bool true) => true
  | _ => false

end SamProposal

inductive SamApprovalStatus where
  | required
  | granted
  | denied
  | notApplicable
  deriving DecidableEq

structure SamApprovalInput where
  status : SamApprovalStatus
  approvedBy : Option String
  reason : Option String
  deriving DecidableEq

/-- What `hashSamProposal` is applied to, for the hash of a proposal and for its key. -/
inductive SamHashInput where
  | proposal (tenantId workspaceId executionId : String) (actionType : SamActionType) (requestedBy : SamActor)
      (reason : String) (riskLevel : SamRiskLevel) (confidence : Numeral) (params : Value.Members)
  | key (tenantId workspaceId executionId : String) (actionType : SamActionType) (proposalHash : String)
      (status : SamApprovalStatus) (approvedBy : String)

variable (hashSamProposal : SamHashInput → String)

def proposalHash (proposal : SamProposal) : String :=
  hashSamProposal (.proposal (proposal.tenantId.getD "") (proposal.workspaceId.getD "") proposal.executionId
    proposal.actionType proposal.requestedBy proposal.reason proposal.riskLevel proposal.confidence proposal.params)

def createSamIdempotencyKey (proposal : SamProposal) (approval : Option SamApprovalInput) : String :=
  hashSamProposal (.key (proposal.tenantId.getD "") (proposal.workspaceId.getD "") proposal.executionId
    proposal.actionType (proposalHash hashSamProposal proposal)
    ((approval.map SamApprovalInput.status).getD .required) ((approval.bind SamApprovalInput.approvedBy).getD ""))

end Proposals

section Results

structure SamPreflightChecks where
  readModelAvailable : Bool
  operatorActionAllowed : Bool
  evidenceValid : Bool
  timelineConsistent : Bool
  lockValid : Bool
  disputedState : Bool
  deriving DecidableEq

structure SamPreflightSource where
  readModel : Option String
  operatorView : Option String
  evidence : Option String
  timeline : Option String
  deriving DecidableEq

structure SamPreflightResult where
  allowed : Bool
  blocked : Bool
  reason : Option String
  checks : SamPreflightChecks
  source : SamPreflightSource
  deriving DecidableEq

structure SamApprovalResult where
  required : Bool
  granted : Bool
  denied : Bool
  status : SamApprovalStatus
  approvedBy : Option String
  reason : Option String
  deriving DecidableEq

structure SamDryRunResult where
  wouldExecute : Bool
  actionType : SamActionType
  summary : String
  expectedEffects : List String
  blockedEffects : List String
  deriving DecidableEq

structure SamAuditResult where
  attempted : Bool
  appended : Bool
  auditId : Option String
  skipped : Bool
  reason : Option String
  deriving DecidableEq

inductive SamStage where
  | proposal
  | preflight
  | approval
  | audit
  | blocked
  | completed
  deriving DecidableEq

structure SamError where
  code : String
  message : String
  stage : SamStage
  recoverable : Bool
  deriving DecidableEq

structure SamBridgeResult where
  ok : Bool
  proposalId : String
  executionId : String
  tenantId : Option String
  workspaceId : Option String
  attemptId : Option String
  idempotencyKey : Option String
  stage : SamStage
  blocked : Bool
  reason : Option String
  preflight : SamPreflightResult
  approval : SamApprovalResult
  dryRun : SamDryRunResult
  audit : SamAuditResult
  errors : List SamError
  deriving DecidableEq

end Results

section Store

inductive SamRecordStatus where
  | pending
  | completed
  | failed
  | blocked
  | ambiguous
  deriving DecidableEq

structure SamIdempotencyInput where
  tenantId : Option String
  workspaceId : Option String
  executionId : String
  attemptId : String
  idempotencyKey : String
  actionType : SamActionType
  proposalHash : String
  deriving DecidableEq

structure SamStoredIdempotencyResult extends SamIdempotencyInput where
  result : Option SamBridgeResult
  status : SamRecordStatus
  replayable : Bool
  deriving DecidableEq

def scopedKey (key : String) (tenantId : Option String) : String := tenantId.getD "__global__" ++ "::" ++ key

/-- The two maps. -/
structure SamIdempotencyStore where
  byKey : String → Option SamStoredIdempotencyResult
  byAttempt : String → Option SamStoredIdempotencyResult

def SamIdempotencyStore.empty : SamIdempotencyStore := ⟨fun _ => none, fun _ => none⟩

namespace SamIdempotencyInput

def keySlot (input : SamIdempotencyInput) : String := scopedKey input.idempotencyKey input.tenantId

def attemptSlot (input : SamIdempotencyInput) : String := scopedKey input.attemptId input.tenantId

end SamIdempotencyInput

def storeSamIdempotencyResult (record : SamStoredIdempotencyResult) (store : SamIdempotencyStore) :
    SamIdempotencyStore where
  byKey := Function.update store.byKey record.keySlot (some record)
  byAttempt := Function.update store.byAttempt record.attemptSlot (some record)

theorem byKey_store (record : SamStoredIdempotencyResult) (store : SamIdempotencyStore) (slot : String) :
    (storeSamIdempotencyResult record store).byKey slot =
      if slot = record.keySlot then some record else store.byKey slot := by
  simp only [storeSamIdempotencyResult, Function.update_apply]

theorem byAttempt_store (record : SamStoredIdempotencyResult) (store : SamIdempotencyStore) (slot : String) :
    (storeSamIdempotencyResult record store).byAttempt slot =
      if slot = record.attemptSlot then some record else store.byAttempt slot := by
  simp only [storeSamIdempotencyResult, Function.update_apply]

end Store

section Decision

inductive SamRetrySafety where
  | safeReplay
  | duplicateReturn
  | blockedConflict
  | blockedAmbiguous
  | requiresApproval
  deriving DecidableEq

def evaluateSamRetrySafety (existing : SamStoredIdempotencyResult) (incoming : SamIdempotencyInput) :
    SamRetrySafety :=
  if existing.attemptId = incoming.attemptId ∧ existing.idempotencyKey ≠ incoming.idempotencyKey then .blockedConflict
  else if existing.proposalHash ≠ incoming.proposalHash then .blockedConflict
  else
    match existing.status with
    | .ambiguous | .pending => .blockedAmbiguous
    | .failed => if existing.replayable then .safeReplay else .requiresApproval
    | .completed | .blocked => .duplicateReturn

inductive SamIdempotencyDecision where
  | newAttempt (reason : Option String)
  | duplicateReturned (result : Option SamBridgeResult) (reason : String)
  | blockedConflict (reason : String)
  | unsafeRetry (reason : String)
  | blockedAmbiguous (reason : String)
  deriving DecidableEq

def evaluateSamDeduplication (input : SamIdempotencyInput) (store : SamIdempotencyStore) :
    SamIdempotencyDecision :=
  if (store.byAttempt input.attemptSlot).any fun existing => existing.idempotencyKey ≠ input.idempotencyKey then
    .blockedConflict "SAM_IDEMPOTENCY_CONFLICT"
  else
    match store.byKey input.keySlot with
    | none => .newAttempt none
    | some existing =>
      match evaluateSamRetrySafety existing input with
      | .duplicateReturn => .duplicateReturned existing.result "SAME_KEY_SAME_RESULT"
      | .safeReplay => .newAttempt (some "SAFE_REPLAY")
      | .blockedConflict => .blockedConflict "SAM_IDEMPOTENCY_CONFLICT"
      | .blockedAmbiguous => .blockedAmbiguous "SAM_IDEMPOTENCY_AMBIGUOUS"
      | .requiresApproval => .unsafeRetry "SAM_UNSAFE_RETRY"

def pendingRecord (input : SamIdempotencyInput) : SamStoredIdempotencyResult :=
  { input with result := none, status := .pending, replayable := false }

def ensureIdempotentExecution (input : SamIdempotencyInput) (store : SamIdempotencyStore) :
    SamIdempotencyDecision × SamIdempotencyStore :=
  if input.executionId = "" ∨ input.attemptId = "" ∨ input.idempotencyKey = "" ∨ input.proposalHash = "" then
    (.blockedAmbiguous "SAM_IDEMPOTENCY_INPUT_INVALID", store)
  else
    match evaluateSamDeduplication input store with
    | .newAttempt reason => (.newAttempt reason, storeSamIdempotencyResult (pendingRecord input) store)
    | decision => (decision, store)

end Decision

end CommandConsole.Sam
