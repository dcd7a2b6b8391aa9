import CommandConsole.Library.Table
import CommandConsole.Library.Run
import Mathlib.Algebra.GroupWithZero.Nat
import Mathlib.Algebra.Group.Int.Defs

/-! # Accounts, sessions and password resets

The authentication services share one database under read committed isolation.
A call reads with statements of its own and writes in one commit at its end;
other calls may run in between. An update of a tracked user affects its row
only while the security version is the one that was read.
-/
namespace CommandConsole.Identity
open Library
set_option autoImplicit false

section Rows

structure User where
  id : String
  normalizedUsername : String
  passwordHash : String
  isActive : Bool
  securityVersion : Int
  deriving DecidableEq

/-- Instants are milliseconds. -/
structure Session where
  tokenHash : String
  userId : String
  securityVersionSnapshot : Int
  expiresAtUtc : Int
  revokedAtUtc : Option Int
  deriving DecidableEq

structure PasswordResetToken where
  tokenHash : String
  userId : String
  expiresAtUtc : Int
  consumedAtUtc : Option Int
  supersededAtUtc : Option Int
  deriving DecidableEq

structure RecoveryContact where
  userId : String
  normalizedEmail : String
  verifiedAtUtc : Option Int
  deriving DecidableEq

/-- The pairs are (UserId, RoleId) and (RoleId, PermissionId). -/
structure Database where
  users : Table User.id fun user => some user.normalizedUsername
  sessions : PlainTable Session.tokenHash
  resets : PlainTable PasswordResetToken.tokenHash
  contacts : Table RecoveryContact.userId fun contact => some contact.normalizedEmail
  roles : List String
  permissions : List String
  userRoles : List (String × String)
  rolePermissions : List (String × String)

end Rows

section Text

def isWhiteSpace (c : Char) : Bool :=
  c ∈ ['\t', '\n', '\x0b', '\x0c', '\r', ' ', '\u0085', '\u00a0', '\u1680', '\u2000', '\u2001', '\u2002', '\u2003',
    '\u2004', '\u2005', '\u2006', '\u2007', '\u2008', '\u2009', '\u200a', '\u2028', '\u2029', '\u202f', '\u205f',
    '\u3000']

def isNullOrWhiteSpace (value : String) : Bool := value.toList.all isWhiteSpace

/-- The length in UTF-16 code units. -/
def utf16Length (value : String) : Nat := (value.toList.map fun c => if c.toNat < 65536 then 1 else 2).sum

def isStructurallyValid (token : String) : Bool :=
  utf16Length token = 43 && token.toList.all fun c => c.isAlphanum || c = '-' || c = '_'

end Text

inductive PasswordVerificationOutcome where
  | failed
  | success
  | rehashNeeded
  deriving DecidableEq

/-- The password hasher, the keyed digest of tokens, `Trim().ToUpperInvariant()` and the lifetime
of sessions. -/
structure Services where
  hashPassword : (salt password : String) → String
  verifyHashedPassword : (storedHash password : String) → PasswordVerificationOutcome
  digest : String → String
  trimUpper : String → String
  lifetime : Int

section Versions

def maxVersion : Int := 2 ^ 63 - 1

def minVersion : Int := -2 ^ 63

/-- `SecurityVersion++` on a `long`. -/
def incremented (version : Int) : Int := if version = maxVersion then minVersion else version + 1

/-- Saves a tracked user with a new password; the check constraint refuses a version that is not positive. -/
def Database.savePassword (db : Database) (user : User) (passwordHash : String) : Option Database :=
  match db.users.find? user.id with
  | none => none
  | some row =>
    if row.securityVersion = user.securityVersion ∧ 0 < incremented user.securityVersion then
      some
        { db with
          users := db.users.update (fun row => row.id = user.id) fun row =>
            { row with passwordHash, securityVersion := incremented user.securityVersion } }
    else none

/-- The update by one of the rows with the given ids, which must all be there. -/
def Database.incrementVersions (db : Database) (userIds : List String) : Option Database :=
  let affected := db.users.rows.filter fun user => user.id ∈ userIds
  if affected.all (fun user => decide (0 < user.securityVersion + 1 ∧ user.securityVersion + 1 ≤ maxVersion)) ∧
      affected.length = userIds.length then
    some
      { db with
        users := db.users.update (fun user => user.id ∈ userIds) fun user =>
          { user with securityVersion := user.securityVersion + 1 } }
  else none

end Versions

section Sessions

variable (services : Services)

def Services.verify (storedHash password : String) : PasswordVerificationOutcome :=
  if isNullOrWhiteSpace storedHash || isNullOrWhiteSpace password then .failed
  else services.verifyHashedPassword storedHash password

def Services.hash (salt password : String) : Option String :=
  if isNullOrWhiteSpace password then none else some (services.hashPassword salt password)

def createSession (userId : String) (securityVersion : Int) (tokenDigest : String)
    (expiresAtUtc createdAtUtc : Int) : Option Session :=
  if securityVersion ≤ 0 then none
  else if isNullOrWhiteSpace tokenDigest then none
  else if 128 < utf16Length tokenDigest then none
  else if expiresAtUtc ≤ createdAtUtc then none
  else some ⟨tokenDigest, userId, securityVersion, expiresAtUtc, none⟩

inductive SessionValidationOutcome where
  | valid
  | missing
  | malformed
  | expired
  | revoked
  | disabledUser
  | securityVersionMismatch
  deriving DecidableEq

/-- The session is read together with its user. -/
def validateAsync (db : Database) (now : Int) (rawToken : String) : SessionValidationOutcome :=
  if !isStructurallyValid rawToken then .malformed
  else
    match db.sessions.find? (services.digest rawToken) with
    | none => .missing
    | some session =>
      match db.users.find? session.userId with
      | none => .missing
      | some user =>
        if session.expiresAtUtc ≤ now then .expired
        else if session.revokedAtUtc.isSome then .revoked
        else if !user.isActive then .disabledUser
        else if session.securityVersionSnapshot ≠ user.securityVersion then .securityVersionMismatch
        else .valid

/-- The writes at the end of `LoginAsync`. -/
def Database.login (db : Database) (user : User) (password : String) (rehash : Bool) (now : Int)
    (salt tokenHash : String) : Option Database :=
  if rehash then do
    let passwordHash ← services.hash salt password
    let session ←
      createSession user.id (incremented user.securityVersion) tokenHash (now + services.lifetime) now
    let saved ← db.savePassword user passwordHash
    let sessions ← saved.sessions.insert session
    some { saved with sessions }
  else do
    let session ← createSession user.id user.securityVersion tokenHash (now + services.lifetime) now
    let _ ← db.users.find? user.id
    let sessions ← db.sessions.insert session
    some { db with sessions }

end Sessions

section Resets

def resetLifetime : Int := 15 * 60 * 1000

def PasswordResetToken.activeAt (reset : PasswordResetToken) (instant : Int) : Bool :=
  reset.consumedAtUtc.isNone && reset.supersededAtUtc.isNone && decide (instant < reset.expiresAtUtc)

/-- `NormalizeEmail`. -/
def normalizeEmail (services : Services) (email : String) : Option String :=
  let normalized := services.trimUpper email
  if utf16Length normalized < 3 || 320 < utf16Length normalized || normalized.toList.count '@' ≠ 1 then none
  else if normalized.toList.head? = some '@' || normalized.toList.getLast? = some '@' ||
      ' ' ∈ normalized.toList then none
  else some normalized

/-- The writes of `RequestAsync` after it has read the active tokens. -/
def Database.issueReset (db : Database) (userId tokenHash : String) (active : List String) (now : Int) :
    Option Database := do
  let _ ← db.users.find? userId
  let superseded := db.resets.update (fun reset => reset.tokenHash ∈ active) fun reset =>
    { reset with supersededAtUtc := some now }
  let resets ← superseded.insert ⟨tokenHash, userId, now + resetLifetime, none, none⟩
  some { db with resets }

def Database.supersede (db : Database) (tokenHash : String) (now : Int) : Database :=
  { db with
    resets := db.resets.update (fun reset => reset.tokenHash = tokenHash) fun reset =>
      { reset with supersededAtUtc := some now } }

/-- The writes at the end of `CompleteAsync`. -/
def Database.completeReset (db : Database) (reset : PasswordResetToken) (user : User) (passwordHash : String)
    (sessions : List String) (now : Int) : Option Database := do
  let saved ← db.savePassword user passwordHash
  some
    { saved with
      resets := saved.resets.update (fun row => row.tokenHash = reset.tokenHash) fun row =>
        { row with consumedAtUtc := some now }
      sessions := saved.sessions.update (fun session => session.tokenHash ∈ sessions) fun session =>
        { session with revokedAtUtc := some now } }

end Resets

section Roles

def Database.assignRole (db : Database) (userId roleId : String) : Option Database :=
  if (userId, roleId) ∈ db.userRoles ∨ roleId ∉ db.roles then none
  else { db with userRoles := db.userRoles ++ [(userId, roleId)] }.incrementVersions [userId]

/-- Nothing is written when the user does not have the role. -/
def Database.removeRole (db : Database) (userId roleId : String) : Option Database :=
  if (userId, roleId) ∉ db.userRoles then none
  else { db with userRoles := db.userRoles.filter fun item => item ≠ (userId, roleId) }.incrementVersions [userId]

/-- The writes of `ReplaceRolePermissionsAsync` after its reads; a removed pair must still be there and
an added one must not. -/
def Database.replacePermissions (db : Database) (roleId : String) (requested userIds current : List String) :
    Option Database :=
  let removed := current.filter fun permissionId => permissionId ∉ requested
  let added := requested.filter fun permissionId => permissionId ∉ current
  if (∀ permissionId ∈ removed, (roleId, permissionId) ∈ db.rolePermissions) ∧
      (∀ permissionId ∈ added, (roleId, permissionId) ∉ db.rolePermissions ∧ permissionId ∈ db.permissions) ∧
      (added ≠ [] → roleId ∈ db.roles) then
    let replaced :=
      { db with
        rolePermissions :=
          (db.rolePermissions.filter fun item => ¬(item.1 = roleId ∧ item.2 ∈ removed)) ++
            added.map fun permissionId => (roleId, permissionId) }
    if userIds = [] then some replaced else replaced.incrementVersions userIds
  else none

end Roles

end CommandConsole.Identity
