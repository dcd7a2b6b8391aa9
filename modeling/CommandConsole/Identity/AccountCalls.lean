import CommandConsole.Identity.Accounts

/-! # Calls of the authentication services

A call stands between two of its statements. What it has read stays with it
until its commit, whatever the other calls write in the meantime. A commit that
throws leaves the database as it was and ends the call.
-/
namespace CommandConsole.Identity
open Library
set_option autoImplicit false

inductive Request where
  | login (username password : String)
  | changePassword (userId newPassword : String)
  | requestReset (email : String) (isRateLimited : Bool)
  | completeReset (token newPassword : String)
  | increment (userId : String)
  | assignRole (userId roleId : String)
  | removeRole (userId roleId : String)
  | replaceRolePermissions (roleId : String) (permissionIds : List String)
  deriving DecidableEq

inductive Reply where
  | returned
  | rejected
  | session (rawToken : String)
  | completed (done : Bool)
  | threw
  deriving DecidableEq

/-- The stages of the calls. `readAt` is the number of invalidations before the user was read, and
`seen` the number of reset tokens that there were when the call took its time. -/
inductive Call where
  | received (request : Request)
  | verified (user : User) (password : String) (rehash : Bool) (readAt : Nat)
  | changing (user : User) (newPassword : String)
  | requesting (userId : String) (now : Int)
  | superseding (userId : String) (now : Int) (active : List String)
  | delivering (tokenHash : String)
  | resetting (tokenHash newPassword : String) (now : Int) (seen : Nat)
  | accepted (reset : PasswordResetToken) (user : User) (newPassword : String) (now : Int) (seen readAt : Nat)
  | revoking (reset : PasswordResetToken) (user : User) (newPassword : String) (now : Int) (seen readAt : Nat)
      (sessions : List String)
  | assigning (userId roleId : String)
  | replacing (roleId : String) (requested userIds : List String)
  | granting (roleId : String) (requested userIds current : List String)
  | ended (reply : Reply)
  deriving DecidableEq

inductive Reason where
  | passwordRehash
  | passwordChange
  | passwordReset
  | authorizationChange
  deriving DecidableEq

/-- A committed step of a security version, with the call that made it. -/
structure Invalidation where
  userId : String
  call : Nat
  reason : Reason
  deriving DecidableEq

/-- A session that a call of `LoginAsync` made, and when that call had read its user. -/
structure Login where
  tokenHash : String
  userId : String
  call : Nat
  readAt : Nat
  deriving DecidableEq

inductive ResetEvent where
  | issued (tokenHash userId : String)
  | completed (tokenHash userId : String)
  deriving DecidableEq

/-- The database and the calls; the logs of what was committed decide nothing. -/
structure Accounts where
  now : Int
  db : Database
  calls : List Call
  invalidations : List Invalidation
  logins : List Login
  resetEvents : List ResetEvent

/-- What a statement draws: a generated token, the salt of a hash, and whether a delivery succeeds. -/
structure Draw where
  rawToken : String
  salt : String
  sent : Bool
  deriving DecidableEq

inductive AccountOp where
  | tick (ms : Nat)
  | call (request : Request)
  | run (call : Nat) (draw : Draw)
  deriving DecidableEq

namespace Accounts

variable (services : Services) (s : Accounts)

def setCall (i : Nat) (call : Call) : Accounts := { s with calls := s.calls.set i call }

/-- The end of a call, with the database that its commit has made, if it has not thrown. -/
def commit (i : Nat) (db? : Option Database) (reply : Reply) (record : Accounts → Accounts) : Accounts :=
  match db? with
  | none => s.setCall i (.ended .threw)
  | some db => record { s.setCall i (.ended reply) with db }

def recordInvalidations (call : Nat) (userIds : List String) (reason : Reason) : Accounts :=
  { s with invalidations := s.invalidations ++ userIds.map fun userId => ⟨userId, call, reason⟩ }

def recordLogin (login : Login) : Accounts := { s with logins := s.logins ++ [login] }

def recordReset (event : ResetEvent) : Accounts := { s with resetEvents := s.resetEvents ++ [event] }

section Statements

/-- `LoginAsync` up to the check of the password. -/
def startLogin (i : Nat) (username password : String) : Accounts :=
  if isNullOrWhiteSpace username || isNullOrWhiteSpace password then s.setCall i (.ended .rejected)
  else
    match s.db.users.rows.find? fun user => user.normalizedUsername = services.trimUpper username with
    | none => s.setCall i (.ended .rejected)
    | some user =>
      let verification := services.verify user.passwordHash password
      if !user.isActive || verification = .failed then s.setCall i (.ended .rejected)
      else s.setCall i (.verified user password (verification = .rehashNeeded) s.invalidations.length)

def commitLogin (i : Nat) (user : User) (password : String) (rehash : Bool) (readAt : Nat) (draw : Draw) : Accounts :=
  let tokenHash := services.digest draw.rawToken
  s.commit i (s.db.login services user password rehash s.now draw.salt tokenHash) (.session draw.rawToken) fun t =>
    (t.recordInvalidations i (if rehash then [user.id] else []) .passwordRehash).recordLogin
      ⟨tokenHash, user.id, i, readAt⟩

def startChange (i : Nat) (userId newPassword : String) : Accounts :=
  if isNullOrWhiteSpace newPassword then s.setCall i (.ended .threw)
  else
    match s.db.users.find? userId with
    | none => s.setCall i (.ended .threw)
    | some user => s.setCall i (.changing user newPassword)

def commitChange (i : Nat) (user : User) (newPassword : String) (draw : Draw) : Accounts :=
  s.commit i (s.db.savePassword user (services.hashPassword draw.salt newPassword)) .returned fun t =>
    t.recordInvalidations i [user.id] .passwordChange

/-- `RequestAsync` up to its transaction. -/
def startRequest (i : Nat) (email : String) (isRateLimited : Bool) : Accounts :=
  if isRateLimited then s.setCall i (.ended .returned)
  else
    match normalizeEmail services email with
    | none => s.setCall i (.ended .returned)
    | some normalized =>
      match s.db.contacts.rows.find? fun contact =>
          contact.normalizedEmail = normalized && contact.verifiedAtUtc.isSome &&
            (s.db.users.find? contact.userId).any fun user => user.isActive with
      | none => s.setCall i (.ended .returned)
      | some contact => s.setCall i (.requesting contact.userId s.now)

def activeResets (userId : String) (now : Int) : List PasswordResetToken :=
  s.db.resets.rows.filter fun reset => reset.userId = userId && reset.activeAt now

def readActive (i : Nat) (userId : String) (now : Int) : Accounts :=
  s.setCall i (.superseding userId now ((s.activeResets userId now).map PasswordResetToken.tokenHash))

def commitRequest (i : Nat) (userId : String) (now : Int) (active : List String) (draw : Draw) : Accounts :=
  let tokenHash := services.digest draw.rawToken
  match s.db.issueReset userId tokenHash active now with
  | none => s.setCall i (.ended .threw)
  | some db => { s.setCall i (.delivering tokenHash) with db }.recordReset (.issued tokenHash userId)

/-- A token that was not delivered is superseded. -/
def deliver (i : Nat) (tokenHash : String) (draw : Draw) : Accounts :=
  if draw.sent then s.setCall i (.ended .returned)
  else { s.setCall i (.ended .returned) with db := s.db.supersede tokenHash s.now }

def startComplete (i : Nat) (token newPassword : String) : Accounts :=
  if !isStructurallyValid token then s.setCall i (.ended (.completed false))
  else s.setCall i (.resetting (services.digest token) newPassword s.now s.db.resets.rows.length)

/-- The check of the token, which is read together with its user. -/
def readReset (i : Nat) (tokenHash newPassword : String) (now : Int) (seen : Nat) : Accounts :=
  match s.db.resets.find? tokenHash with
  | none => s.setCall i (.ended (.completed false))
  | some reset =>
    match s.db.users.find? reset.userId with
    | none => s.setCall i (.ended (.completed false))
    | some user =>
      if !reset.activeAt now || !user.isActive then s.setCall i (.ended (.completed false))
      else if isNullOrWhiteSpace newPassword then s.setCall i (.ended .threw)
      else s.setCall i (.accepted reset user newPassword now seen s.invalidations.length)

def readSessions (i : Nat) (reset : PasswordResetToken) (user : User) (newPassword : String) (now : Int)
    (seen readAt : Nat) : Accounts :=
  s.setCall i (.revoking reset user newPassword now seen readAt
    ((s.db.sessions.rows.filter fun session => session.userId = reset.userId && session.revokedAtUtc.isNone).map
      Session.tokenHash))

def commitComplete (i : Nat) (reset : PasswordResetToken) (user : User) (newPassword : String) (now : Int)
    (sessions : List String) (draw : Draw) : Accounts :=
  s.commit i (s.db.completeReset reset user (services.hashPassword draw.salt newPassword) sessions now)
    (.completed true) fun t =>
      (t.recordInvalidations i [user.id] .passwordReset).recordReset (.completed reset.tokenHash reset.userId)

def commitInvalidation (i : Nat) (db? : Option Database) (userIds : List String) : Accounts :=
  s.commit i db? .returned fun t => t.recordInvalidations i userIds .authorizationChange

def startAssign (i : Nat) (userId roleId : String) : Accounts :=
  if (userId, roleId) ∈ s.db.userRoles then s.setCall i (.ended .returned)
  else s.setCall i (.assigning userId roleId)

def commitRemove (i : Nat) (userId roleId : String) : Accounts :=
  if (userId, roleId) ∉ s.db.userRoles then s.setCall i (.ended .returned)
  else s.commitInvalidation i (s.db.removeRole userId roleId) [userId]

def readRoleUsers (i : Nat) (roleId : String) (permissionIds : List String) : Accounts :=
  s.setCall i (.replacing roleId permissionIds.dedup
    ((s.db.userRoles.filter fun item => item.2 = roleId).map Prod.fst))

def readRolePermissions (i : Nat) (roleId : String) (requested userIds : List String) : Accounts :=
  let current := (s.db.rolePermissions.filter fun item => item.1 = roleId).map Prod.snd
  if (∀ permissionId ∈ current, permissionId ∈ requested) ∧ ∀ permissionId ∈ requested, permissionId ∈ current then
    s.setCall i (.ended .returned)
  else s.setCall i (.granting roleId requested userIds current)

end Statements

def startCall (i : Nat) : Request → Accounts
  | .login username password => s.startLogin services i username password
  | .changePassword userId newPassword => s.startChange i userId newPassword
  | .requestReset email isRateLimited => s.startRequest services i email isRateLimited
  | .completeReset token newPassword => s.startComplete services i token newPassword
  | .increment userId => s.commitInvalidation i (s.db.incrementVersions [userId]) [userId]
  | .assignRole userId roleId => s.startAssign i userId roleId
  | .removeRole userId roleId => s.commitRemove i userId roleId
  | .replaceRolePermissions roleId permissionIds => s.readRoleUsers i roleId permissionIds

/-- The next statement of a call. -/
def runCall (i : Nat) (draw : Draw) : Call → Accounts
  | .received request => s.startCall services i request
  | .verified user password rehash readAt => s.commitLogin services i user password rehash readAt draw
  | .changing user newPassword => s.commitChange services i user newPassword draw
  | .requesting userId now => s.readActive i userId now
  | .superseding userId now active => s.commitRequest services i userId now active draw
  | .delivering tokenHash => s.deliver i tokenHash draw
  | .resetting tokenHash newPassword now seen => s.readReset i tokenHash newPassword now seen
  | .accepted reset user newPassword now seen readAt => s.readSessions i reset user newPassword now seen readAt
  | .revoking reset user newPassword now _ _ sessions =>
    s.commitComplete services i reset user newPassword now sessions draw
  | .assigning userId roleId => s.commitInvalidation i (s.db.assignRole userId roleId) [userId]
  | .replacing roleId requested userIds => s.readRolePermissions i roleId requested userIds
  | .granting roleId requested userIds current =>
    s.commitInvalidation i (s.db.replacePermissions roleId requested userIds current) userIds
  | .ended _ => s

def step : AccountOp → Accounts → Accounts
  | .tick ms, s => { s with now := s.now + ms }
  | .call request, s => { s with calls := s.calls ++ [.received request] }
  | .run i draw, s =>
    match s.calls[i]? with
    | none => s
    | some call => s.runCall services i draw call

end Accounts

end CommandConsole.Identity
