import CommandConsole.Identity.Accounts

/-! # Household invitations

The owner of a household invites a user, who accepts or lets the owner revoke,
and may later be removed. Each call reads in several statements and writes in
one commit; an invitation row carries no version that the commit could check.
-/
namespace CommandConsole.Billing
open Library Identity
set_option autoImplicit false

section Rows

inductive InvitationStatus where
  | pending
  | accepted
  | revoked
  deriving DecidableEq

structure HouseholdInvitation where
  id : String
  householdId : String
  inviterUserId : String
  targetUserId : String
  status : InvitationStatus
  expiresAtUtc : Int
  deriving DecidableEq

structure Household where
  id : String
  ownerUserId : String
  deriving DecidableEq

structure HouseholdUser where
  id : String
  normalizedUsername : String
  deriving DecidableEq

inductive AuditAction where
  | created
  | accepted
  | revoked
  | removed
  | denied
  deriving DecidableEq

/-- A row of `household_invitation_audit_events`. -/
structure AuditEvent where
  householdId : String
  actorUserId : String
  action : AuditAction
  reasonCode : String
  occurredAtUtc : Int
  deriving DecidableEq

/-- A membership is the pair of its household and its user. -/
structure BillingDatabase where
  users : Table HouseholdUser.id fun user => some user.normalizedUsername
  households : PlainTable Household.id
  memberships : List (String × String)
  invitations : PlainTable HouseholdInvitation.id
  auditEvents : List AuditEvent

def HouseholdInvitation.openAt (invitation : HouseholdInvitation) (instant : Int) : Bool :=
  invitation.status = .pending && decide (instant < invitation.expiresAtUtc)

end Rows

section Calls

inductive InvitationRequest where
  | create (householdId actorId targetUsername : String)
  | accept (invitationId actorId : String)
  | revoke (invitationId actorId : String)
  | remove (householdId actorId memberUserId : String)
  deriving DecidableEq

inductive CreateOutcome where
  | created
  | forbidden
  | targetUnavailable
  | alreadyMember
  | alreadyPending
  | rateLimited
  deriving DecidableEq

inductive ResolveOutcome where
  | accepted
  | revoked
  | forbidden
  | notFound
  | expired
  deriving DecidableEq

inductive RemoveOutcome where
  | removed
  | forbidden
  | notFound
  | cannotRemoveOwner
  deriving DecidableEq

inductive InvitationReply where
  | creation (outcome : CreateOutcome)
  | resolution (outcome : ResolveOutcome)
  | removal (outcome : RemoveOutcome)
  | threw
  deriving DecidableEq

/-- Where a call stands; it holds what it has read. -/
inductive Stage where
  | received
  | counting (now : Int)
  | targeting (now : Int)
  | enrolling (targetId : String) (now : Int)
  | limiting (targetId : String) (now : Int)
  | repeating (targetId : String) (now : Int)
  | inviting (targetId : String) (now : Int)
  | joining (invitation : HouseholdInvitation) (now : Int)
  | accepting (invitation : HouseholdInvitation) (now : Int) (isMember : Bool)
  | acceptedBefore (invitation : HouseholdInvitation) (now : Int)
  | revoking (invitation : HouseholdInvitation) (now : Int)
  | removing
  | deleting
  | denying (event : AuditEvent) (reply : InvitationReply)
  | ended (reply : InvitationReply)
  deriving DecidableEq

structure InvitationCall where
  request : InvitationRequest
  stage : Stage
  deriving DecidableEq

/-- The database, the calls, and the invitations that have yielded a membership; the latter decide nothing. -/
structure Households where
  now : Int
  db : BillingDatabase
  calls : List InvitationCall
  joins : List String

end Calls

def maximumPendingInvitations : Nat := 10

def maximumInvitationAttemptsPerDay : Nat := 20

def hoursMs (hours : Int) : Int := hours * 3600000

section Database

variable (db : BillingDatabase)

def BillingDatabase.isMember (householdId userId : String) : Bool := (householdId, userId) ∈ db.memberships

/-- The attempts of the actor in the last day. -/
def BillingDatabase.attemptCount (householdId actorId : String) (now : Int) : Nat :=
  db.auditEvents.countP fun item =>
    item.householdId = householdId && item.actorUserId = actorId && decide (now - hoursMs 24 ≤ item.occurredAtUtc) &&
      (item.action = .created || (item.action = .denied && item.reasonCode.startsWith "invite_create_"))

def BillingDatabase.openInvitations (householdId : String) (instant : Int) : List HouseholdInvitation :=
  db.invitations.rows.filter fun item => item.householdId = householdId && item.openAt instant

def BillingDatabase.audit (event : AuditEvent) : BillingDatabase := { db with auditEvents := db.auditEvents ++ [event] }

/-- Saves a tracked invitation, whose row must still be there. -/
def BillingDatabase.resolve (invitationId : String) (status : InvitationStatus) : Option BillingDatabase :=
  if (db.invitations.find? invitationId).isSome then
    some
      { db with
        invitations := db.invitations.update (fun item => item.id = invitationId) fun item => { item with status } }
  else none

def BillingDatabase.insertMembership (householdId userId : String) : Option BillingDatabase :=
  if db.isMember householdId userId then none
  else some { db with memberships := db.memberships ++ [(householdId, userId)] }

def BillingDatabase.deleteMembership (householdId userId : String) : Option BillingDatabase :=
  if db.isMember householdId userId then
    some { db with memberships := db.memberships.filter fun item => item ≠ (householdId, userId) }
  else none

/-- The writes of `AcceptAsync`. -/
def BillingDatabase.accept (invitation : HouseholdInvitation) (actorId : String) (now : Int) (isMember : Bool) :
    Option BillingDatabase := do
  let joined ← if isMember then some db else db.insertMembership invitation.householdId actorId
  let resolved ← joined.resolve invitation.id .accepted
  some (resolved.audit ⟨invitation.householdId, actorId, .accepted, "invite_accepted", now⟩)

/-- The writes of `RevokeAsync`. -/
def BillingDatabase.revoke (invitation : HouseholdInvitation) (actorId : String) (now : Int) :
    Option BillingDatabase := do
  let resolved ← db.resolve invitation.id .revoked
  some (resolved.audit ⟨invitation.householdId, actorId, .revoked, "invite_revoked", now⟩)

/-- The writes of `CreateAsync`. -/
def BillingDatabase.invite (invitationId householdId actorId targetId : String) (now : Int) :
    Option BillingDatabase := do
  let invitations ← db.invitations.insert
    ⟨invitationId, householdId, actorId, targetId, .pending, now + hoursMs (7 * 24)⟩
  some (({ db with invitations } : BillingDatabase).audit ⟨householdId, actorId, .created, "invite_created", now⟩)

/-- The writes of `RemoveAsync`. -/
def BillingDatabase.remove (householdId actorId memberUserId : String) (now : Int) : Option BillingDatabase := do
  let removed ← db.deleteMembership householdId memberUserId
  some (removed.audit ⟨householdId, actorId, .removed, "removed", now⟩)

end Database

inductive InvitationOp where
  | tick (ms : Nat)
  | call (request : InvitationRequest)
  | run (call : Nat) (newId : String)
  deriving DecidableEq

namespace Households

variable (trimUpper : String → String) (s : Households)

def setStage (i : Nat) (request : InvitationRequest) (stage : Stage) : Households :=
  { s with calls := s.calls.set i ⟨request, stage⟩ }

/-- The end of a call with the database that its commit has made, if it has not thrown. -/
def commit (i : Nat) (request : InvitationRequest) (db? : Option BillingDatabase) (reply : InvitationReply)
    (joins : List String) : Households :=
  match db? with
  | none => s.setStage i request (.ended .threw)
  | some db => { s.setStage i request (.ended reply) with db, joins := s.joins ++ joins }

section Create

variable (i : Nat) (householdId actorId targetUsername : String)

def deny (now : Int) (outcome : CreateOutcome) (reasonCode : String) : Stage :=
  .denying ⟨householdId, actorId, .denied, reasonCode, now⟩ (.creation outcome)

/-- The next stage of `CreateAsync` after its next read. -/
def createStage : Stage → Stage
  | .received =>
    match s.db.households.find? householdId with
    | none => .ended (.creation .forbidden)
    | some household =>
      if household.ownerUserId ≠ actorId then deny householdId actorId s.now .forbidden "invite_forbidden"
      else .counting s.now
  | .counting now =>
    if maximumInvitationAttemptsPerDay ≤ s.db.attemptCount householdId actorId now then
      deny householdId actorId now .rateLimited "invite_create_rate_limited"
    else .targeting now
  | .targeting now =>
    if isNullOrWhiteSpace targetUsername then .ended .threw
    else
      match s.db.users.rows.find? fun user => user.normalizedUsername = trimUpper targetUsername with
      | none => deny householdId actorId now .targetUnavailable "invite_create_target_unavailable"
      | some target =>
        if target.id = actorId then
          deny householdId actorId now .targetUnavailable "invite_create_target_unavailable"
        else .enrolling target.id now
  | .enrolling targetId now =>
    if s.db.isMember householdId targetId then
      deny householdId actorId now .alreadyMember "invite_create_already_member"
    else .limiting targetId now
  | .limiting targetId now =>
    if maximumPendingInvitations ≤ (s.db.openInvitations householdId now).length then
      deny householdId actorId now .rateLimited "invite_create_pending_limit"
    else .repeating targetId now
  | .repeating targetId now =>
    if (s.db.openInvitations householdId now).any fun item => item.targetUserId = targetId then
      deny householdId actorId now .alreadyPending "invite_create_already_pending"
    else .inviting targetId now
  | stage => stage

end Create

section Resolve

def denyResolve (invitation : HouseholdInvitation) (actorId : String) (now : Int) (outcome : ResolveOutcome)
    (reasonCode : String) : Stage :=
  .denying ⟨invitation.householdId, actorId, .denied, reasonCode, now⟩ (.resolution outcome)

def acceptStage (invitationId actorId : String) : Stage → Stage
  | .received =>
    match s.db.invitations.find? invitationId with
    | none => .ended (.resolution .notFound)
    | some invitation =>
      if invitation.targetUserId ≠ actorId then
        denyResolve invitation actorId s.now .forbidden "invite_accept_forbidden"
      else if invitation.status = .accepted then .acceptedBefore invitation s.now
      else if invitation.status ≠ .pending ∨ invitation.expiresAtUtc ≤ s.now then
        denyResolve invitation actorId s.now .expired "invite_expired"
      else .joining invitation s.now
  | .joining invitation now => .accepting invitation now (s.db.isMember invitation.householdId actorId)
  | stage => stage

def revokeStage (invitationId actorId : String) : Stage → Stage
  | .received =>
    match s.db.invitations.find? invitationId with
    | none => .ended (.resolution .notFound)
    | some invitation =>
      if invitation.inviterUserId ≠ actorId ∨ invitation.status ≠ .pending then
        denyResolve invitation actorId s.now .forbidden "invite_revoke_forbidden"
      else .revoking invitation s.now
  | stage => stage

def removeStage (householdId actorId memberUserId : String) : Stage → Stage
  | .received =>
    match s.db.households.find? householdId with
    | none => .ended (.removal .forbidden)
    | some household =>
      if household.ownerUserId ≠ actorId then .ended (.removal .forbidden)
      else if household.ownerUserId = memberUserId then .ended (.removal .cannotRemoveOwner)
      else .removing
  | .removing => if s.db.isMember householdId memberUserId then .deleting else .ended (.removal .notFound)
  | stage => stage

end Resolve

section Statements

variable (i : Nat)

def runCreate (newId householdId actorId targetUsername : String) : Stage → Households
  | .inviting targetId now =>
    s.commit i (.create householdId actorId targetUsername) (s.db.invite newId householdId actorId targetId now)
      (.creation .created) []
  | stage =>
    s.setStage i (.create householdId actorId targetUsername)
      (s.createStage trimUpper householdId actorId targetUsername stage)

def runAccept (invitationId actorId : String) : Stage → Households
  | .accepting invitation now isMember =>
    s.commit i (.accept invitationId actorId) (s.db.accept invitation actorId now isMember) (.resolution .accepted)
      (if isMember then [] else [invitation.id])
  | .acceptedBefore invitation now =>
    s.commit i (.accept invitationId actorId)
      (some (s.db.audit ⟨invitation.householdId, actorId, .accepted, "invite_duplicate_accept", now⟩))
      (.resolution .accepted) []
  | stage => s.setStage i (.accept invitationId actorId) (s.acceptStage invitationId actorId stage)

def runRevoke (invitationId actorId : String) : Stage → Households
  | .revoking invitation now =>
    s.commit i (.revoke invitationId actorId) (s.db.revoke invitation actorId now) (.resolution .revoked) []
  | stage => s.setStage i (.revoke invitationId actorId) (s.revokeStage invitationId actorId stage)

def runRemove (householdId actorId memberUserId : String) : Stage → Households
  | .deleting =>
    s.commit i (.remove householdId actorId memberUserId) (s.db.remove householdId actorId memberUserId s.now)
      (.removal .removed) []
  | stage =>
    s.setStage i (.remove householdId actorId memberUserId) (s.removeStage householdId actorId memberUserId stage)

/-- The next statement of a call: a commit, or the read that leads to its next stage. -/
def runCall (newId : String) (call : InvitationCall) : Households :=
  match call.stage with
  | .denying event reply => s.commit i call.request (some (s.db.audit event)) reply []
  | .ended _ => s
  | stage =>
    match call.request with
    | .create householdId actorId targetUsername =>
      s.runCreate trimUpper i newId householdId actorId targetUsername stage
    | .accept invitationId actorId => s.runAccept i invitationId actorId stage
    | .revoke invitationId actorId => s.runRevoke i invitationId actorId stage
    | .remove householdId actorId memberUserId => s.runRemove i householdId actorId memberUserId stage

end Statements

def step : InvitationOp → Households → Households
  | .tick ms, s => { s with now := s.now + ms }
  | .call request, s => { s with calls := s.calls ++ [⟨request, .received⟩] }
  | .run i newId, s =>
    match s.calls[i]? with
    | none => s
    | some call => s.runCall trimUpper i newId call

end Households

end CommandConsole.Billing
