import CommandConsole.Identity.VersionStamps

/-! # Sessions and the invalidations of their users

A session carries the version of its user that the login has read, or the next
one when the login itself has saved the user with a new hash. It validates only
while no other invalidation of the user has been committed since that reading.
-/
namespace CommandConsole.Identity
open Library
set_option autoImplicit false

/-- The invalidation that a login makes when it saves a new hash. -/
def Login.own (login : Login) : Invalidation := ⟨login.userId, login.call, .passwordRehash⟩

/-- The session of a login is stored with the version that the login has read or made. -/
def Login.Backed (start : Database) (s : Accounts) (login : Login) : Prop :=
  ∃ session, s.db.sessions.find? login.tokenHash = some session ∧ session.userId = login.userId ∧
    (StampedAt start s.invalidations login.userId login.readAt session.securityVersionSnapshot ∨
      login.own ∈ s.invalidations.drop login.readAt ∧
        StampedAt start s.invalidations login.userId login.readAt (session.securityVersionSnapshot - 1))

section Effects

variable {services : Services} {guard : Accounts → Call → Prop} {start : Database} {s next : Accounts}

theorem Effect.log (h : Effect services guard s next) : ∃ more, next.invalidations = s.invalidations ++ more := by
  cases h with
  | login | invalidate | complete => exact ⟨_, rfl⟩
  | _ => exact ⟨[], (List.append_nil _).symm⟩

/-- A stored session keeps its user and its snapshot. -/
theorem Effect.session (h : Effect services guard s next) {tokenHash : String} {session : Session}
    (hSession : s.db.sessions.find? tokenHash = some session) :
    ∃ later, next.db.sessions.find? tokenHash = some later ∧ later.userId = session.userId ∧
      later.securityVersionSnapshot = session.securityVersionSnapshot := by
  cases h with
  | login i user password salt hash rehash readAt reply db hCall hDb =>
    obtain ⟨added, -, -, -, -, hRows, -⟩ := login_some hDb
    obtain ⟨hMem, hKey⟩ := (Table.find?_eq_some _ _ _).mp hSession
    have hStill : db.sessions.find? tokenHash = some session :=
      (Table.find?_eq_some _ _ _).mpr ⟨hRows ▸ List.mem_append_left _ hMem, hKey⟩
    exact ⟨session, hStill, rfl, rfl⟩
  | invalidate i userIds reason reply db hDb =>
    have hStill : db.sessions.find? tokenHash = some session := hDb.sessions ▸ hSession
    exact ⟨session, hStill, rfl, rfl⟩
  | issue i userId hash now active db hCall hGuard hDb =>
    obtain ⟨-, hSessions, -, -⟩ := issueReset_some hDb
    have hStill : db.sessions.find? tokenHash = some session := hSessions ▸ hSession
    exact ⟨session, hStill, rfl, rfl⟩
  | complete i reset user newPassword passwordHash now seen readAt sessions reply db hCall hGuard hDb =>
    obtain ⟨-, -, -, hSessions⟩ := completeReset_some hDb
    have hStill : db.sessions.find? tokenHash =
        some (if session.tokenHash ∈ sessions then { session with revokedAtUtc := some now } else session) := by
      rw [hSessions, Table.find?_update, hSession]
      simp
    refine ⟨_, hStill, ?_, ?_⟩ <;> split <;> rfl
  | _ => exact ⟨session, hSession, rfl, rfl⟩

theorem StampedAt.bound {log : List Invalidation} {userId : String} {readAt : Nat} {version : Int}
    (h : StampedAt start log userId readAt version) : readAt ≤ log.length := by
  obtain ⟨base, -, hStamp⟩ := h
  exact hStamp.bound

theorem Login.Backed.effect {login : Login} (h : login.Backed start s) (hEffect : Effect services guard s next) :
    login.Backed start next := by
  obtain ⟨session, hSession, hUser, hStamp⟩ := h
  obtain ⟨later, hLater, hLaterUser, hSnapshot⟩ := hEffect.session hSession
  obtain ⟨more, hLog⟩ := hEffect.log
  refine ⟨later, hLater, hLaterUser.trans hUser, ?_⟩
  rw [hSnapshot, hLog]
  rcases hStamp with hRead | ⟨hOwn, hRead⟩
  · exact .inl (hRead.append more)
  · refine .inr ⟨?_, hRead.append more⟩
    rw [List.drop_append_of_le_length hRead.bound]
    exact List.mem_append_left _ hOwn

/-- The commit of a login, whose user was read with a stamp. -/
theorem Effect.newLogin (hEffect : Effect services guard s next) (h : s.Stamped start) {login : Login}
    (hLogin : login ∈ next.logins) : login ∈ s.logins ∨ login.Backed start next := by
  cases hEffect with
  | login i user password salt tokenHash rehash readAt reply db hCall hDb =>
    rcases List.mem_append.mp hLogin with hOld | hNew
    · exact .inl hOld
    · rw [List.mem_singleton.mp hNew]
      obtain ⟨session, hHash, hUser, hSnapshot, -, hRows, -, -, -⟩ := login_some hDb
      have hRead : StampedAt start s.invalidations user.id readAt user.securityVersion := h.calls _ (s.call_mem hCall)
      have hStored : db.sessions.find? tokenHash = some session :=
        (Table.find?_eq_some _ _ _).mpr ⟨hRows ▸ List.mem_append_right _ (List.mem_singleton_self _), hHash⟩
      refine .inr ⟨session, hStored, hUser, ?_⟩
      cases rehash with
      | false =>
        rw [hSnapshot]
        exact .inl (hRead.append _)
      | true =>
        have hBefore : session.securityVersionSnapshot - 1 = user.securityVersion := by
          rw [hSnapshot, if_pos rfl, Int.add_sub_cancel]
        rw [hBefore]
        refine .inr ⟨?_, hRead.append _⟩
        simp only [Accounts.recordLogin, Accounts.recordInvalidations, Accounts.setCall]
        rw [List.drop_append_of_le_length hRead.bound]
        exact List.mem_append_right _ (List.mem_singleton_self _)
  | _ => exact .inl hLogin

end Effects

section Validation

variable {services : Services} {start : Database} {s : Accounts}

theorem validateAsync_valid {db : Database} {now : Int} {rawToken : String}
    (h : validateAsync services db now rawToken = .valid) :
    ∃ session, db.sessions.find? (services.digest rawToken) = some session ∧
      db.version? session.userId = some session.securityVersionSnapshot := by
  unfold validateAsync at h
  split at h
  · cases h
  · split at h
    · cases h
    · rename_i session hSession
      split at h
      · cases h
      · rename_i user hUser
        refine ⟨session, hSession, ?_⟩
        by_cases hVersion : session.securityVersionSnapshot = user.securityVersion
        · rw [Database.version?, hUser, Option.map_some, hVersion]
        · simp only [hVersion, ne_eq, not_false_eq_true, if_true] at h
          split at h
          · cases h
          · split at h
            · cases h
            · split at h <;> cases h

/-- A session that validates has seen every invalidation of its user but the own one of its login. -/
theorem Login.Backed.seen {login : Login} (h : login.Backed start s) (hStamped : s.Stamped start) {rawToken : String}
    (hToken : services.digest rawToken = login.tokenHash)
    (hValid : validateAsync services s.db s.now rawToken = .valid) {entry : Invalidation}
    (hEntry : entry ∈ s.invalidations.drop login.readAt) (hUser : entry.userId = login.userId) :
    entry = login.own := by
  obtain ⟨session, hSession, hLoginUser, hStamp⟩ := h
  obtain ⟨found, hFound, hCurrent⟩ := validateAsync_valid hValid
  rw [hToken, hSession, Option.some.injEq] at hFound
  subst hFound
  rw [hLoginUser] at hCurrent
  rcases hStamp with hRead | ⟨hOwn, base, hBase, hStamp⟩
  · exact absurd hUser (hStamped.current hRead hCurrent hEntry)
  · rw [hStamped.versions, hBase, Option.map_some, Option.some.injEq] at hCurrent
    exact hStamp.next (by omega) hOwn (decide_eq_true rfl) hEntry (decide_eq_true hUser)

/-- A committed invalidation raises the version of its user. -/
theorem Accounts.Stamped.lt_of_mem {next : Accounts} {more : List Invalidation} (h : s.Stamped start)
    (hNext : next.Stamped start) (hLog : next.invalidations = s.invalidations ++ more) {entry : Invalidation}
    (hEntry : entry ∈ more) {version : Int} (hVersion : s.db.version? entry.userId = some version) :
    ∃ later, next.db.version? entry.userId = some later ∧ version < later := by
  rw [h.versions] at hVersion
  obtain ⟨base, hBase, rfl⟩ := Option.map_eq_some_iff.mp hVersion
  refine ⟨counted (about entry.userId) base next.invalidations, by rw [hNext.versions, hBase, Option.map_some], ?_⟩
  have hPositive : 0 < more.countP (about entry.userId) :=
    List.countP_pos_iff.mpr ⟨entry, hEntry, decide_eq_true rfl⟩
  rw [hLog, counted_append]
  omega

theorem runGuard_true (op : AccountOp) (s : Accounts) : runGuard (fun _ _ => True) op s := by
  cases op with
  | run => exact fun _ _ => trivial
  | _ => trivial

end Validation

/-- From any database and in every run, a security version goes up by one with every invalidation
of its user, and a session validates only if no invalidation of its user was committed after its
login had read the user, the login's own save of a new hash apart. -/
theorem valid_session_has_seen_invalidations (services : Services) (start s : Accounts) (hStart : start.Initial)
    (hRun : Reaches (Accounts.step services) (fun _ _ => True) start s) :
    (∀ userId, s.db.version? userId =
      (start.db.version? userId).map fun version => version + (s.invalidations.countP (about userId) : Int)) ∧
    (∀ op userId version, s.db.version? userId = some version →
      (∃ entry ∈ (Accounts.step services op s).invalidations.drop s.invalidations.length, entry.userId = userId) →
        ∃ later, (Accounts.step services op s).db.version? userId = some later ∧ version < later) ∧
    ∀ login ∈ s.logins, ∀ rawToken, services.digest rawToken = login.tokenHash →
      validateAsync services s.db s.now rawToken = .valid →
        ∀ entry ∈ s.invalidations.drop login.readAt, entry.userId = login.userId → entry = login.own := by
  have hGuarded : Reaches (Accounts.step services) (runGuard fun _ _ => True) start s :=
    hRun.mono fun op t _ => runGuard_true op t
  obtain ⟨hStamped, hLogins⟩ := reaches_invariant (P := fun s => ∀ login ∈ s.logins, login.Backed start.db s)
    hGuarded hStart (by rw [hStart.logins]; exact fun _ h => absurd h List.not_mem_nil)
    (fun s next hEffect hStamped hLogins login hLogin =>
      (hEffect.newLogin hStamped hLogin).elim (fun hOld => (hLogins login hOld).effect hEffect) id)
  refine ⟨hStamped.versions, ?_, ?_⟩
  · rintro op userId version hVersion ⟨entry, hEntry, rfl⟩
    have hStep : Accounts.step services op s = s ∨
        Effect services (fun _ _ => True) s (Accounts.step services op s) := step_effect op (runGuard_true op s)
    rcases hStep with hSame | hEffect
    · rw [hSame, List.drop_length] at hEntry
      cases hEntry
    · obtain ⟨more, hLog⟩ := hEffect.log
      rw [hLog, List.drop_left] at hEntry
      exact hStamped.lt_of_mem (hEffect.stamped hStamped) hLog hEntry hVersion
  · intro login hLogin rawToken hToken hValid entry hEntry hUser
    exact (hLogins login hLogin).seen hStamped hToken hValid hEntry hUser

section Runs

/-- The first login saves a new hash; the second one has read its user before a change of the password. -/
def loginSteps : List AccountOp :=
  [.call (.login "ADA" "secret"), .run 0 (sampleDraw 'a'), .run 0 (sampleDraw 'a')]

def racingSteps : List AccountOp :=
  [.call (.login "ADA" "secret"), .run 1 (sampleDraw 'b'), .call (.changePassword "u" "other"),
    .run 2 (sampleDraw 'c'), .run 2 (sampleDraw 'c'), .run 1 (sampleDraw 'b')]

theorem rehashed_session_validates :
    let s := runAll (Accounts.step sampleServices) sampleAccounts loginSteps
    validateAsync sampleServices s.db s.now (sampleToken 'a') = .valid ∧ s.db.version? "u" = some 2 ∧
      ∀ entry ∈ s.invalidations, entry.userId = "u" → entry = ⟨"u", 0, .passwordRehash⟩ := by
  intro s
  have hValid : validateAsync sampleServices s.db s.now (sampleToken 'a') = .valid := by decide +kernel
  have hLogin : (⟨sampleToken 'a', "u", 0, 0⟩ : Login) ∈ s.logins := by decide +kernel
  have hCount : (s.invalidations.countP (about "u") : Int) = 1 := by decide +kernel
  obtain ⟨hVersions, -, hSeen⟩ := valid_session_has_seen_invalidations sampleServices sampleAccounts s
    ⟨rfl, rfl, rfl, rfl⟩ (reaches_runAll _ _ _)
  refine ⟨hValid, ?_, hSeen _ hLogin (sampleToken 'a') rfl hValid⟩
  rw [hVersions, hCount]
  rfl

example : validateAsync sampleServices
    (runAll (Accounts.step sampleServices) sampleAccounts (loginSteps ++ racingSteps)).db 10 (sampleToken 'b') =
      .securityVersionMismatch := by decide +kernel

end Runs

end CommandConsole.Identity
