import CommandConsole.Identity.AccountCalls
import CommandConsole.Library.Stamp
import Mathlib.Data.List.Perm.Subperm

/-! # What one statement of a call can do

Every step of the calls is one of a few effects. A committed change of the users
moves the security version of every invalidated user by one and keeps those of
the others, so that a version counts the invalidations of its user.
-/
namespace CommandConsole.Identity
open Library
set_option autoImplicit false

section Versions

def Database.version? (db : Database) (userId : String) : Option Int :=
  (db.users.find? userId).map User.securityVersion

/-- The security versions of the given users have gone up by one. -/
structure Database.Moves (db next : Database) (userIds : List String) : Prop where
  nodup : userIds.Nodup
  version : ∀ userId, next.version? userId =
    (db.version? userId).map fun version => if userId ∈ userIds then version + 1 else version

variable {db next : Database} {userIds : List String}

theorem Database.moves_self : db.Moves db [] := by
  refine ⟨.nil, ?_⟩
  intro userId
  cases db.version? userId with
  | none => rfl
  | some version => simp

theorem incremented_pos {version : Int} (h : 0 < incremented version) : incremented version = version + 1 := by
  unfold incremented at h ⊢
  split
  · rename_i hMax
    rw [if_pos hMax] at h
    exact absurd h (by decide)
  · rfl

theorem incrementVersions_tables (h : db.incrementVersions userIds = some next) :
    next.sessions = db.sessions ∧ next.resets = db.resets := by
  unfold Database.incrementVersions at h
  simp only [Option.ite_none_right_eq_some, Option.some.injEq] at h
  obtain ⟨-, rfl⟩ := h
  exact ⟨rfl, rfl⟩

/-- The rows that were counted are rows of different users, so no id stands twice in the list. -/
theorem incrementVersions_moves (h : db.incrementVersions userIds = some next) : db.Moves next userIds := by
  unfold Database.incrementVersions at h
  simp only [Option.ite_none_right_eq_some, Option.some.injEq] at h
  obtain ⟨⟨-, hCount⟩, rfl⟩ := h
  constructor
  · have hIds : ((db.users.rows.filter fun user => user.id ∈ userIds).map User.id).Nodup := by
      rw [List.nodup_iff_pairwise_ne, List.pairwise_map]
      exact (db.users.unique.filter _).imp fun hDistinct => hDistinct.1
    have hSub : ((db.users.rows.filter fun user => user.id ∈ userIds).map User.id) ⊆ userIds := by
      intro id hId
      obtain ⟨user, hUser, rfl⟩ := List.mem_map.mp hId
      simpa using (List.mem_filter.mp hUser).2
    have hPerm := (hIds.subperm hSub).perm_of_length_le (Nat.le_of_eq (by rw [List.length_map, hCount]))
    exact hPerm.nodup_iff.mp hIds
  · intro userId
    simp only [Database.version?, Table.find?_update]
    cases hFind : db.users.find? userId with
    | none => rfl
    | some user =>
      obtain rfl := Table.find?_key hFind
      by_cases hIn : user.id ∈ userIds <;> simp [hIn]

/-- The tracked user is saved only while its version is the current one. -/
theorem savePassword_some {user : User} {passwordHash : String} (h : db.savePassword user passwordHash = some next) :
    db.version? user.id = some user.securityVersion ∧ incremented user.securityVersion = user.securityVersion + 1 ∧
      db.Moves next [user.id] ∧ next.sessions = db.sessions ∧ next.resets = db.resets := by
  unfold Database.savePassword at h
  split at h
  · cases h
  · rename_i row hRow
    simp only [Option.ite_none_right_eq_some, Option.some.injEq] at h
    obtain ⟨⟨hVersion, hPositive⟩, rfl⟩ := h
    have hNext := incremented_pos hPositive
    refine ⟨by rw [Database.version?, hRow, Option.map_some, hVersion], hNext, ⟨List.nodup_cons.mpr ⟨List.not_mem_nil, .nil⟩, ?_⟩, rfl, rfl⟩
    intro userId
    simp only [Database.version?, Table.find?_update]
    cases hFind : db.users.find? userId with
    | none => rfl
    | some found =>
      obtain rfl := Table.find?_key hFind
      by_cases hId : found.id = user.id
      · rw [hId, hRow] at hFind
        cases hFind
        simp [hId, hNext, hVersion]
      · simp [hId]

end Versions

section Commits

variable {services : Services} {db next : Database} {userIds : List String}

/-- A commit that moves the versions of the given users and writes neither sessions nor reset tokens. -/
structure Database.Invalidates (db next : Database) (userIds : List String) : Prop where
  moves : db.Moves next userIds
  sessions : next.sessions = db.sessions
  resets : next.resets = db.resets

/-- The other tables of the database that a commit starts from do not matter. -/
theorem Database.Invalidates.of_tables {other : Database} (h : other.Invalidates next userIds)
    (hUsers : other.users = db.users) (hSessions : other.sessions = db.sessions) (hResets : other.resets = db.resets) :
    db.Invalidates next userIds := by
  refine ⟨⟨h.moves.nodup, ?_⟩, h.sessions.trans hSessions, h.resets.trans hResets⟩
  intro userId
  rw [h.moves.version userId, Database.version?, Database.version?, hUsers]

theorem incrementVersions_invalidates (h : db.incrementVersions userIds = some next) :
    db.Invalidates next userIds :=
  ⟨incrementVersions_moves h, (incrementVersions_tables h).1, (incrementVersions_tables h).2⟩

theorem savePassword_invalidates {user : User} {passwordHash : String}
    (h : db.savePassword user passwordHash = some next) : db.Invalidates next [user.id] := by
  obtain ⟨-, -, hMoves, hSessions, hResets⟩ := savePassword_some h
  exact ⟨hMoves, hSessions, hResets⟩

theorem assignRole_invalidates {userId roleId : String} (h : db.assignRole userId roleId = some next) :
    db.Invalidates next [userId] := by
  unfold Database.assignRole at h
  split at h
  · cases h
  · exact (incrementVersions_invalidates h).of_tables rfl rfl rfl

theorem removeRole_invalidates {userId roleId : String} (h : db.removeRole userId roleId = some next) :
    db.Invalidates next [userId] := by
  unfold Database.removeRole at h
  split at h
  · cases h
  · exact (incrementVersions_invalidates h).of_tables rfl rfl rfl

theorem replacePermissions_invalidates {roleId : String} {requested current : List String}
    (h : db.replacePermissions roleId requested userIds current = some next) : db.Invalidates next userIds := by
  unfold Database.replacePermissions at h
  simp only [Option.ite_none_right_eq_some] at h
  obtain ⟨-, h⟩ := h
  split at h
  · rename_i hNone
    cases h
    rw [hNone]
    exact Database.Invalidates.of_tables ⟨Database.moves_self, rfl, rfl⟩ rfl rfl rfl
  · exact (incrementVersions_invalidates h).of_tables rfl rfl rfl

/-- The session of a login carries the version that its user has after the commit. -/
theorem login_some {user : User} {password salt tokenHash : String} {rehash : Bool} {now : Int}
    (h : db.login services user password rehash now salt tokenHash = some next) :
    ∃ session, session.tokenHash = tokenHash ∧ session.userId = user.id ∧
      session.securityVersionSnapshot = (if rehash then user.securityVersion + 1 else user.securityVersion) ∧
      db.sessions.find? tokenHash = none ∧ next.sessions.rows = db.sessions.rows ++ [session] ∧
      next.resets = db.resets ∧ db.Moves next (if rehash then [user.id] else []) ∧
      (rehash = true → db.version? user.id = some user.securityVersion) := by
  have hCreated : ∀ version expires session, createSession user.id version tokenHash expires now = some session →
      session.tokenHash = tokenHash ∧ session.userId = user.id ∧ session.securityVersionSnapshot = version := by
    intro version expires session hSession
    unfold createSession at hSession
    split at hSession
    · cases hSession
    · split at hSession
      · cases hSession
      · split at hSession
        · cases hSession
        · split at hSession
          · cases hSession
          · cases hSession
            exact ⟨rfl, rfl, rfl⟩
  unfold Database.login at h
  cases rehash with
  | true =>
    simp only [if_true, Option.bind_eq_bind, Option.bind_eq_some_iff] at h
    obtain ⟨passwordHash, -, session, hSession, saved, hSaved, sessions, hInsert, hNext⟩ := h
    cases hNext
    obtain ⟨hHash, hUser, hSnapshot⟩ := hCreated _ _ _ hSession
    obtain ⟨hCurrent, hIncremented, hMoves, hSessions, hResets⟩ := savePassword_some hSaved
    obtain ⟨hFree, -, hRows⟩ := Table.insert_eq_some hInsert
    rw [hSessions] at hFree hRows
    exact ⟨session, hHash, hUser, hSnapshot.trans hIncremented, hHash ▸ hFree, hRows, hResets,
      ⟨hMoves.nodup, hMoves.version⟩, fun _ => hCurrent⟩
  | false =>
    simp only [Bool.false_eq_true, if_false, Option.bind_eq_bind, Option.bind_eq_some_iff] at h
    obtain ⟨session, hSession, row, -, sessions, hInsert, hNext⟩ := h
    cases hNext
    obtain ⟨hHash, hUser, hSnapshot⟩ := hCreated _ _ _ hSession
    obtain ⟨hFree, -, hRows⟩ := Table.insert_eq_some hInsert
    obtain ⟨hNodup, hVersion⟩ := db.moves_self
    exact ⟨session, hHash, hUser, hSnapshot, hHash ▸ hFree, hRows, rfl, ⟨hNodup, hVersion⟩, fun h => by cases h⟩

theorem issueReset_some {userId tokenHash : String} {active : List String} {now : Int}
    (h : db.issueReset userId tokenHash active now = some next) :
    next.users = db.users ∧ next.sessions = db.sessions ∧ db.resets.find? tokenHash = none ∧
      next.resets.rows =
        (db.resets.update (fun reset => reset.tokenHash ∈ active) fun reset =>
          { reset with supersededAtUtc := some now }).rows ++
          [⟨tokenHash, userId, now + resetLifetime, none, none⟩] := by
  simp only [Database.issueReset, Option.bind_eq_bind, Option.bind_eq_some_iff] at h
  obtain ⟨user, -, resets, hInsert, hNext⟩ := h
  cases hNext
  obtain ⟨hFree, -, hRows⟩ := Table.insert_eq_some hInsert
  rw [Table.find?_update, Option.map_eq_none_iff] at hFree
  exact ⟨rfl, rfl, hFree, hRows⟩

theorem completeReset_some {reset : PasswordResetToken} {user : User} {passwordHash : String}
    {sessions : List String} {now : Int} (h : db.completeReset reset user passwordHash sessions now = some next) :
    db.version? user.id = some user.securityVersion ∧ db.Moves next [user.id] ∧
      next.resets = (db.resets.update (fun row => row.tokenHash = reset.tokenHash) fun row =>
        { row with consumedAtUtc := some now }) ∧
      next.sessions = (db.sessions.update (fun session => session.tokenHash ∈ sessions) fun session =>
        { session with revokedAtUtc := some now }) := by
  simp only [Database.completeReset, Option.bind_eq_bind, Option.bind_eq_some_iff] at h
  obtain ⟨saved, hSaved, hNext⟩ := h
  cases hNext
  obtain ⟨hCurrent, -, hMoves, hSessions, hResets⟩ := savePassword_some hSaved
  exact ⟨hCurrent, ⟨hMoves.nodup, hMoves.version⟩, by simp only [hResets], by simp only [hSessions]⟩

end Commits

section Effects

/-- A stage that holds nothing which a later step relies on. -/
def Call.plain : Call → Bool
  | .received _ | .changing _ _ | .delivering _ | .assigning _ _ | .replacing _ _ _ | .granting _ _ _ _ |
    .ended _ => true
  | _ => false

/-- A run is restricted by what the next statement of a call is and the state that it finds. -/
def runGuard (guard : Accounts → Call → Prop) : AccountOp → Accounts → Prop
  | .run i _, s => ∀ call ∈ s.calls[i]?, guard s call
  | _, _ => True

instance (guard : Accounts → Call → Prop) [∀ s call, Decidable (guard s call)] :
    ∀ op s, Decidable (runGuard guard op s)
  | .run i _, s => inferInstanceAs (Decidable (∀ call ∈ s.calls[i]?, guard s call))
  | .tick _, _ | .call _, _ => inferInstanceAs (Decidable True)

/-- Every step that the guard admits is one of these. -/
inductive Effect (services : Services) (guard : Accounts → Call → Prop) (s : Accounts) : Accounts → Prop where
  | tick (ms : Nat) : Effect services guard s { s with now := s.now + ms }
  | receive (request : Request) : Effect services guard s { s with calls := s.calls ++ [.received request] }
  | proceed (i : Nat) (call : Call) (hPlain : call.plain = true) : Effect services guard s (s.setCall i call)
  | verify (i : Nat) (user : User) (password : String) (rehash : Bool)
      (hUser : s.db.users.find? user.id = some user) :
      Effect services guard s (s.setCall i (.verified user password rehash s.invalidations.length))
  | request (i : Nat) (userId : String) : Effect services guard s (s.setCall i (.requesting userId s.now))
  | readActive (i : Nat) (userId : String) (now : Int) (active : List String)
      (hCall : s.calls[i]? = some (.requesting userId now)) :
      Effect services guard s (s.setCall i (.superseding userId now active))
  | startComplete (i : Nat) (tokenHash newPassword : String) :
      Effect services guard s (s.setCall i (.resetting tokenHash newPassword s.now s.db.resets.rows.length))
  | accept (i : Nat) (reset : PasswordResetToken) (user : User) (newPassword : String) (now : Int) (seen : Nat)
      (hCall : s.calls[i]? = some (.resetting reset.tokenHash newPassword now seen))
      (hReset : s.db.resets.find? reset.tokenHash = some reset)
      (hUser : s.db.users.find? reset.userId = some user) (hActive : reset.activeAt now = true) :
      Effect services guard s (s.setCall i (.accepted reset user newPassword now seen s.invalidations.length))
  | readSessions (i : Nat) (reset : PasswordResetToken) (user : User) (newPassword : String) (now : Int)
      (seen readAt : Nat) (sessions : List String)
      (hCall : s.calls[i]? = some (.accepted reset user newPassword now seen readAt)) :
      Effect services guard s (s.setCall i (.revoking reset user newPassword now seen readAt sessions))
  | login (i : Nat) (user : User) (password salt tokenHash : String) (rehash : Bool) (readAt : Nat) (reply : Reply)
      (db : Database) (hCall : s.calls[i]? = some (.verified user password rehash readAt))
      (hDb : s.db.login services user password rehash s.now salt tokenHash = some db) :
      Effect services guard s
        ((({ s.setCall i (.ended reply) with db } : Accounts).recordInvalidations i
          (if rehash then [user.id] else []) .passwordRehash).recordLogin ⟨tokenHash, user.id, i, readAt⟩)
  | invalidate (i : Nat) (userIds : List String) (reason : Reason) (reply : Reply) (db : Database)
      (hDb : s.db.Invalidates db userIds) :
      Effect services guard s (({ s.setCall i (.ended reply) with db } : Accounts).recordInvalidations i userIds reason)
  | issue (i : Nat) (userId tokenHash : String) (now : Int) (active : List String) (db : Database)
      (hCall : s.calls[i]? = some (.superseding userId now active)) (hGuard : guard s (.superseding userId now active))
      (hDb : s.db.issueReset userId tokenHash active now = some db) :
      Effect services guard s
        (({ s.setCall i (.delivering tokenHash) with db } : Accounts).recordReset (.issued tokenHash userId))
  | withdraw (i : Nat) (tokenHash : String) (reply : Reply) :
      Effect services guard s { s.setCall i (.ended reply) with db := s.db.supersede tokenHash s.now }
  | complete (i : Nat) (reset : PasswordResetToken) (user : User) (newPassword passwordHash : String) (now : Int)
      (seen readAt : Nat) (sessions : List String) (reply : Reply) (db : Database)
      (hCall : s.calls[i]? = some (.revoking reset user newPassword now seen readAt sessions))
      (hGuard : guard s (.revoking reset user newPassword now seen readAt sessions))
      (hDb : s.db.completeReset reset user passwordHash sessions now = some db) :
      Effect services guard s
        ((({ s.setCall i (.ended reply) with db } : Accounts).recordInvalidations i [user.id] .passwordReset).recordReset
          (.completed reset.tokenHash reset.userId))

variable {services : Services} {guard : Accounts → Call → Prop} {s : Accounts} {i : Nat} {draw : Draw}

theorem Accounts.commit_cases (db? : Option Database) (reply : Reply) (record : Accounts → Accounts) :
    (db? = none ∧ s.commit i db? reply record = s.setCall i (.ended .threw)) ∨
      ∃ db, db? = some db ∧ s.commit i db? reply record = record { s.setCall i (.ended reply) with db } := by
  cases db? with
  | none => exact .inl ⟨rfl, rfl⟩
  | some db => exact .inr ⟨db, rfl, rfl⟩

theorem commitInvalidation_effect {db? : Option Database} {userIds : List String}
    (h : ∀ db, db? = some db → s.db.Invalidates db userIds) :
    Effect services guard s (s.commitInvalidation i db? userIds) := by
  unfold Accounts.commitInvalidation
  obtain ⟨-, hEq⟩ | ⟨db, hDb, hEq⟩ := s.commit_cases (i := i) db? .returned fun t =>
    t.recordInvalidations i userIds .authorizationChange
  · rw [hEq]
    exact .proceed _ _ rfl
  · rw [hEq]
    exact .invalidate i userIds _ _ db (h db hDb)

theorem startCall_effect (request : Request) : Effect services guard s (s.startCall services i request) := by
  cases request with
  | login username password =>
    rw [Accounts.startCall, Accounts.startLogin]
    split
    · exact .proceed _ _ rfl
    · split
      · exact .proceed _ _ rfl
      · rename_i user hUser
        have hFind : s.db.users.find? user.id = some user :=
          (Table.find?_eq_some _ _ _).mpr ⟨List.mem_of_find?_eq_some hUser, rfl⟩
        simp only
        split
        · exact .proceed _ _ rfl
        · exact .verify i user password _ hFind
  | changePassword userId newPassword =>
    rw [Accounts.startCall, Accounts.startChange]
    split
    · exact .proceed _ _ rfl
    · split <;> exact .proceed _ _ rfl
  | requestReset email isRateLimited =>
    rw [Accounts.startCall, Accounts.startRequest]
    split
    · exact .proceed _ _ rfl
    · split
      · exact .proceed _ _ rfl
      · split
        · exact .proceed _ _ rfl
        · exact .request _ _
  | completeReset token newPassword =>
    rw [Accounts.startCall, Accounts.startComplete]
    split
    · exact .proceed _ _ rfl
    · exact .startComplete _ _ _
  | increment userId => exact commitInvalidation_effect fun _ h => incrementVersions_invalidates h
  | assignRole userId roleId =>
    rw [Accounts.startCall, Accounts.startAssign]
    split <;> exact .proceed _ _ rfl
  | removeRole userId roleId =>
    rw [Accounts.startCall, Accounts.commitRemove]
    split
    · exact .proceed _ _ rfl
    · exact commitInvalidation_effect fun _ h => removeRole_invalidates h
  | replaceRolePermissions roleId permissionIds => exact .proceed _ _ rfl

theorem runCall_effect {call : Call} (hCall : s.calls[i]? = some call) (hGuard : guard s call) :
    s.runCall services i draw call = s ∨ Effect services guard s (s.runCall services i draw call) := by
  cases call with
  | received request => exact .inr (startCall_effect request)
  | verified user password rehash readAt =>
    right
    rw [Accounts.runCall, Accounts.commitLogin]
    obtain ⟨-, hEq⟩ | ⟨db, hDb, hEq⟩ := s.commit_cases (i := i) _ _ _
    · rw [hEq]
      exact .proceed _ _ rfl
    · rw [hEq]
      exact .login i user password _ _ rehash readAt _ db hCall hDb
  | changing user newPassword =>
    right
    rw [Accounts.runCall, Accounts.commitChange]
    obtain ⟨-, hEq⟩ | ⟨db, hDb, hEq⟩ := s.commit_cases (i := i) _ _ _
    · rw [hEq]
      exact .proceed _ _ rfl
    · rw [hEq]
      exact .invalidate i _ _ _ db (savePassword_invalidates hDb)
  | requesting userId now => exact .inr (.readActive i userId now _ hCall)
  | superseding userId now active =>
    right
    rw [Accounts.runCall, Accounts.commitRequest]
    simp only
    split
    · exact .proceed _ _ rfl
    · rename_i db hDb
      exact .issue i userId _ now active db hCall hGuard hDb
  | delivering tokenHash =>
    right
    rw [Accounts.runCall, Accounts.deliver]
    split
    · exact .proceed _ _ rfl
    · exact .withdraw _ _ _
  | resetting tokenHash newPassword now seen =>
    right
    rw [Accounts.runCall, Accounts.readReset]
    split
    · exact .proceed _ _ rfl
    · rename_i reset hReset
      obtain rfl := Table.find?_key hReset
      split
      · exact .proceed _ _ rfl
      · rename_i user hUser
        split
        · exact .proceed _ _ rfl
        · rename_i hActive
          split
          · exact .proceed _ _ rfl
          · exact .accept i reset user newPassword now seen hCall hReset hUser (by simp_all)
  | accepted reset user newPassword now seen readAt =>
    exact .inr (.readSessions i reset user newPassword now seen readAt _ hCall)
  | revoking reset user newPassword now seen readAt sessions =>
    right
    rw [Accounts.runCall, Accounts.commitComplete]
    obtain ⟨-, hEq⟩ | ⟨db, hDb, hEq⟩ := s.commit_cases (i := i) _ _ _
    · rw [hEq]
      exact .proceed _ _ rfl
    · rw [hEq]
      exact .complete i reset user newPassword _ now seen readAt sessions _ db hCall hGuard hDb
  | assigning userId roleId => exact .inr (commitInvalidation_effect fun _ h => assignRole_invalidates h)
  | replacing roleId requested userIds =>
    right
    rw [Accounts.runCall, Accounts.readRolePermissions]
    split <;> exact .proceed _ _ rfl
  | granting roleId requested userIds current =>
    exact .inr (commitInvalidation_effect fun _ h => replacePermissions_invalidates h)
  | ended reply => exact .inl rfl

theorem step_effect (op : AccountOp) (hGuard : runGuard guard op s) :
    Accounts.step services op s = s ∨ Effect services guard s (Accounts.step services op s) := by
  cases op with
  | tick ms => exact .inr (.tick ms)
  | call request => exact .inr (.receive request)
  | run i draw =>
    rw [Accounts.step]
    split
    · exact .inl rfl
    · rename_i call hCall
      exact runCall_effect hCall (hGuard call hCall)

end Effects

end CommandConsole.Identity
