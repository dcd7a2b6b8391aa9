import CommandConsole.Execution.Text

/-! # Operational policies

The repository of policy versions, their activation under an approved proposal and the rollback to an
earlier version. A call carries what its proposal repository, its authorizer, its clock and its audit
ledger answer.
-/
namespace CommandConsole.Policies
open Execution
set_option autoImplicit false

inductive ProposalState where
  | proposed
  | underReview
  | approvedForPolicyChange
  | rejected
  | withdrawn
  deriving DecidableEq

structure GovernanceReviewProposal where
  proposalId : String
  affectedPolicyIds : List String
  state : ProposalState
  deriving DecidableEq

structure PolicyVersion where
  policyId : String
  version : String
  scopeKey : String
  contentHash : String
  impactAnalysis : String
  migrationPlan : String
  rollbackPlan : String
  effectiveAt : String
  activatedAt : String
  activatedBy : String
  proposalId : String
  constitutionVersion : String
  deriving DecidableEq

structure ActivationRequest where
  proposalId : String
  policyId : String
  version : String
  scopeKey : String
  contentHash : String
  impactAnalysis : String
  migrationPlan : String
  rollbackPlan : String
  effectiveAt : String
  activatorId : String
  constitutionVersion : String
  deriving DecidableEq

structure RollbackRequest where
  policyId : String
  scopeKey : String
  targetVersion : String
  rollbackActorId : String
  reason : String
  deriving DecidableEq

inductive ActivationReason where
  | operationalPolicyActivated
  | idempotentReplay
  | proposalNotFound
  | proposalNotApproved
  | constitutionMutationProhibited
  | unauthorizedActivator
  | activationInputMissing
  | activationVersionConflict
  | persistenceFailed
  deriving DecidableEq

inductive RollbackReason where
  | operationalPolicyRolledBack
  | idempotentReplay
  | constitutionMutationProhibited
  | activePolicyNotFound
  | rollbackTargetNotFound
  | rollbackTargetInvalid
  | rollbackReasonMissing
  | unauthorizedRollbackActor
  | persistenceFailed
  deriving DecidableEq

inductive ActivationStatus where
  | activated
  | rejected
  | persistenceFailed
  deriving DecidableEq

inductive RollbackStatus where
  | rolledBack
  | rejected
  | persistenceFailed
  deriving DecidableEq

inductive PersistenceEffect where
  | created
  | updated
  | none
  deriving DecidableEq

structure PolicyResult (Status Reason : Type) where
  status : Status
  reasonCode : Reason
  policyVersion : Option PolicyVersion
  created : Bool
  idempotentReplay : Bool
  persistenceEffect : PersistenceEffect
  deriving DecidableEq

/-- Two maps with concatenated keys. -/
structure PolicyRepository where
  versions : String → Option PolicyVersion
  activeByPolicyScope : String → Option PolicyVersion

def pairKey (policyId scopeKey : String) : String := policyId ++ ":" ++ scopeKey

def versionKey (policyId scopeKey version : String) : String := policyId ++ ":" ++ scopeKey ++ ":" ++ version

namespace PolicyRepository

def empty : PolicyRepository := ⟨fun _ => none, fun _ => none⟩

def getByPolicyVersion (repository : PolicyRepository) (policyId version scopeKey : String) : Option PolicyVersion :=
  repository.versions (versionKey policyId scopeKey version)

def getActive (repository : PolicyRepository) (policyId scopeKey : String) : Option PolicyVersion :=
  repository.activeByPolicyScope (pairKey policyId scopeKey)

def activate (repository : PolicyRepository) (version : PolicyVersion) : PolicyVersion × PolicyRepository :=
  let key := versionKey version.policyId version.scopeKey version.version
  match repository.versions key with
  | some existing => (existing, repository)
  | none => (version,
      ⟨Function.update repository.versions key (some version),
        Function.update repository.activeByPolicyScope (pairKey version.policyId version.scopeKey) (some version)⟩)

/-- None where it throws. -/
def reactivate (repository : PolicyRepository) (policyId version scopeKey : String) :
    Option (PolicyVersion × PolicyRepository) :=
  (repository.versions (versionKey policyId scopeKey version)).map fun target =>
    (target, { repository with
      activeByPolicyScope := Function.update repository.activeByPolicyScope (pairKey policyId scopeKey) (some target) })

end PolicyRepository

def containsWord (word : List Char) : List Char → Bool
  | [] => word.isEmpty
  | letter :: rest => word.isPrefixOf (letter :: rest) || containsWord word rest

/-- `/constitution/i.test(policyId)`. -/
def constitutionPolicy (policyId : String) : Bool := containsWord "constitution".toList (policyId.toList.map Char.toLower)

/-- `Date.parse`, none for NaN. -/
abbrev DateParse := String → Option Int

def hasRequiredInput (dateParse : DateParse) (request : ActivationRequest) : Bool :=
  !isBlank request.policyId && !isBlank request.version && !isBlank request.scopeKey && !isBlank request.contentHash &&
    !isBlank request.impactAnalysis && !isBlank request.migrationPlan && !isBlank request.rollbackPlan &&
    !isBlank request.activatorId && !isBlank request.constitutionVersion && (dateParse request.effectiveAt).isSome

def rejectedActivation (reasonCode : ActivationReason) : PolicyResult ActivationStatus ActivationReason :=
  ⟨.rejected, reasonCode, none, false, false, .none⟩

def rejectedRollback (reasonCode : RollbackReason) : PolicyResult RollbackStatus RollbackReason :=
  ⟨.rejected, reasonCode, none, false, false, .none⟩

/-- The answers of the other services to one call; an audit append that throws is not appended. -/
structure Answers where
  proposal : Option GovernanceReviewProposal
  authorized : Bool
  now : String
  appended : Bool
  deriving DecidableEq

def approves (proposal : GovernanceReviewProposal) (policyId : String) : Bool :=
  proposal.state == .approvedForPolicyChange && proposal.affectedPolicyIds.contains policyId

def newVersion (request : ActivationRequest) (activatedAt : String) : PolicyVersion where
  policyId := request.policyId
  version := request.version
  scopeKey := request.scopeKey
  contentHash := request.contentHash
  impactAnalysis := request.impactAnalysis
  migrationPlan := request.migrationPlan
  rollbackPlan := request.rollbackPlan
  effectiveAt := request.effectiveAt
  activatedAt := activatedAt
  activatedBy := request.activatorId
  proposalId := request.proposalId
  constitutionVersion := request.constitutionVersion

def sameActivation (existing : PolicyVersion) (request : ActivationRequest) : Bool :=
  existing.proposalId == request.proposalId && existing.contentHash == request.contentHash

/-- The checks before the repository is asked for the version. -/
def refusal? (dateParse : DateParse) (request : ActivationRequest) (answers : Answers) : Option ActivationReason :=
  if constitutionPolicy request.policyId then some .constitutionMutationProhibited
  else if !hasRequiredInput dateParse request then some .activationInputMissing
  else
    match answers.proposal with
    | none => some .proposalNotFound
    | some proposal =>
      if !approves proposal request.policyId then some .proposalNotApproved
      else if !answers.authorized then some .unauthorizedActivator
      else none

def activate (dateParse : DateParse) (request : ActivationRequest) (answers : Answers) (repository : PolicyRepository) :
    PolicyResult ActivationStatus ActivationReason × PolicyRepository :=
  match refusal? dateParse request answers with
  | some reasonCode => (rejectedActivation reasonCode, repository)
  | none =>
    match repository.getByPolicyVersion request.policyId request.version request.scopeKey with
    | some existing =>
      if sameActivation existing request then
        (⟨.activated, .idempotentReplay, some existing, false, true, .none⟩, repository)
      else (rejectedActivation .activationVersionConflict, repository)
    | none =>
      let (activated, repository) := repository.activate (newVersion request answers.now)
      if answers.appended then
        (⟨.activated, .operationalPolicyActivated, some activated, true, false, .created⟩, repository)
      else (⟨.persistenceFailed, .persistenceFailed, none, false, false, .none⟩, repository)

/-- `Date.parse(left) >= Date.parse(right)`. -/
def notEarlier (dateParse : DateParse) (left right : String) : Bool :=
  match dateParse left, dateParse right with
  | some l, some r => r ≤ l
  | _, _ => false

def rollback (dateParse : DateParse) (request : RollbackRequest) (answers : Answers) (repository : PolicyRepository) :
    PolicyResult RollbackStatus RollbackReason × PolicyRepository :=
  if constitutionPolicy request.policyId then (rejectedRollback .constitutionMutationProhibited, repository)
  else if isBlank request.reason then (rejectedRollback .rollbackReasonMissing, repository)
  else
    match repository.getActive request.policyId request.scopeKey with
    | none => (rejectedRollback .activePolicyNotFound, repository)
    | some active =>
      match repository.getByPolicyVersion request.policyId request.targetVersion request.scopeKey with
      | none => (rejectedRollback .rollbackTargetNotFound, repository)
      | some target =>
        if target.version = active.version then
          (⟨.rolledBack, .idempotentReplay, some active, false, true, .none⟩, repository)
        else if notEarlier dateParse target.activatedAt active.activatedAt then
          (rejectedRollback .rollbackTargetInvalid, repository)
        else if !answers.authorized then (rejectedRollback .unauthorizedRollbackActor, repository)
        else
          match repository.reactivate request.policyId request.targetVersion request.scopeKey with
          | none => (⟨.persistenceFailed, .persistenceFailed, none, false, false, .none⟩, repository)
          | some (reactivated, repository) =>
            if answers.appended then
              (⟨.rolledBack, .operationalPolicyRolledBack, some reactivated, true, false, .updated⟩, repository)
            else (⟨.persistenceFailed, .persistenceFailed, none, false, false, .none⟩, repository)

end CommandConsole.Policies
