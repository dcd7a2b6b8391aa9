import CommandConsole.Identity.AccountSteps

/-! # Security versions count invalidations

A user that a call has read carries a stamp: the value of its security version
when the log of invalidations had a certain length. Every effect keeps the
stamps of the calls and lets the versions follow the log.
-/
namespace CommandConsole.Identity
open Library
set_option autoImplicit false

def about (userId : String) (entry : Invalidation) : Bool := entry.userId = userId

/-- The version of a user that was read when there were `readAt` invalidations. -/
def StampedAt (start : Database) (log : List Invalidation) (userId : String) (readAt : Nat) (version : Int) : Prop :=
  ∃ base, start.version? userId = some base ∧ Stamp (about userId) base log readAt version

def Call.Stamped (start : Database) (log : List Invalidation) : Call → Prop
  | .verified user _ _ readAt | .accepted _ user _ _ _ readAt | .revoking _ user _ _ _ readAt _ =>
    StampedAt start log user.id readAt user.securityVersion
  | _ => True

/-- Every version has moved by the invalidations of its user since the start. -/
structure Accounts.Stamped (start : Database) (s : Accounts) : Prop where
  versions : ∀ userId, s.db.version? userId =
    (start.version? userId).map fun base => counted (about userId) base s.invalidations
  calls : ∀ call ∈ s.calls, call.Stamped start s.invalidations

section Stamps

variable {start : Database} {s next : Accounts} {log : List Invalidation} {userId : String} {readAt : Nat}
  {version : Int}

theorem StampedAt.append (h : StampedAt start log userId readAt version) (more : List Invalidation) :
    StampedAt start (log ++ more) userId readAt version := by
  obtain ⟨base, hBase, hStamp⟩ := h
  exact ⟨base, hBase, hStamp.append more⟩

theorem Call.Stamped.append {call : Call} (h : call.Stamped start log) (more : List Invalidation) :
    call.Stamped start (log ++ more) := by
  cases call with
  | verified | accepted | revoking => exact StampedAt.append h more
  | _ => trivial

theorem Call.stamped_of_plain {call : Call} (h : call.plain = true) : call.Stamped start log := by
  cases call with
  | verified | accepted | revoking => cases h
  | _ => trivial

theorem countP_about {userIds : List String} (hNodup : userIds.Nodup) (call : Nat) (reason : Reason) :
    (userIds.map fun id => (⟨id, call, reason⟩ : Invalidation)).countP (about userId) =
      if userId ∈ userIds then 1 else 0 := by
  rw [List.countP_map, ← hNodup.count, List.count]
  congr

namespace Accounts.Stamped

theorem read (h : s.Stamped start) {user : User} (hUser : s.db.users.find? user.id = some user) :
    StampedAt start s.invalidations user.id s.invalidations.length user.securityVersion := by
  have hVersion : s.db.version? user.id = some user.securityVersion := by rw [Database.version?, hUser, Option.map_some]
  rw [h.versions] at hVersion
  obtain ⟨base, hBase, hEq⟩ := Option.map_eq_some_iff.mp hVersion
  exact ⟨base, hBase, hEq ▸ Stamp.read⟩

/-- A version that is still the current one has seen every invalidation of its user. -/
theorem current (h : s.Stamped start) (hStamp : StampedAt start s.invalidations userId readAt version)
    (hCurrent : s.db.version? userId = some version) {entry : Invalidation}
    (hEntry : entry ∈ s.invalidations.drop readAt) : entry.userId ≠ userId := by
  obtain ⟨base, hBase, hStamp⟩ := hStamp
  rw [h.versions, hBase, Option.map_some, Option.some.injEq] at hCurrent
  simpa [about] using hStamp.current hCurrent.symm hEntry

/-- The versions after a commit that invalidates the given users. -/
theorem moves (h : s.Stamped start) {db : Database} {userIds : List String} (hMoves : s.db.Moves db userIds)
    (call : Nat) (reason : Reason) (userId : String) :
    db.version? userId = (start.version? userId).map fun base =>
      counted (about userId) base (s.invalidations ++ userIds.map fun id => ⟨id, call, reason⟩) := by
  rw [hMoves.version, h.versions, Option.map_map]
  congr 1
  funext base
  rw [counted_append, countP_about hMoves.nodup, Function.comp_apply]
  split
  · rfl
  · exact (Int.add_zero _).symm

theorem setCall (h : s.Stamped start) (i : Nat) (call : Call) (hCall : call.Stamped start s.invalidations) :
    (s.setCall i call).Stamped start := by
  refine ⟨h.versions, ?_⟩
  intro other hOther
  rcases List.mem_or_eq_of_mem_set hOther with hOld | rfl
  · exact h.calls other hOld
  · exact hCall

/-- A commit that ends its call, with the invalidations that it adds. -/
theorem commit (h : s.Stamped start) (i : Nat) (reply : Reply) {db : Database} {userIds : List String}
    (hMoves : s.db.Moves db userIds) (reason : Reason) :
    (({ s.setCall i (.ended reply) with db } : Accounts).recordInvalidations i userIds reason).Stamped start := by
  refine ⟨h.moves hMoves i reason, ?_⟩
  intro other hOther
  exact ((h.setCall i (.ended reply) trivial).calls other hOther).append _

end Accounts.Stamped

variable {services : Services} {guard : Accounts → Call → Prop}

theorem Accounts.call_mem {i : Nat} {call : Call} (h : s.calls[i]? = some call) : call ∈ s.calls :=
  List.mem_of_getElem? h

theorem Effect.stamped (hEffect : Effect services guard s next) (h : s.Stamped start) : next.Stamped start := by
  cases hEffect with
  | tick => exact ⟨h.versions, h.calls⟩
  | receive request =>
    refine ⟨h.versions, ?_⟩
    intro call hCall
    rcases List.mem_append.mp hCall with hOld | hNew
    · exact h.calls call hOld
    · rw [List.mem_singleton.mp hNew]
      trivial
  | proceed i call hPlain => exact h.setCall i call (Call.stamped_of_plain hPlain)
  | verify i user password rehash hUser =>
    exact h.setCall i (.verified user password rehash _) (h.read hUser)
  | accept i reset user newPassword now seen hCall hReset hUser hActive =>
    exact h.setCall i (.accepted reset user newPassword now seen _) (h.read (Table.find?_key hUser ▸ hUser))
  | readSessions i reset user newPassword now seen readAt sessions hCall =>
    have hStamp : StampedAt start s.invalidations user.id readAt user.securityVersion := h.calls _ (s.call_mem hCall)
    exact h.setCall i (.revoking reset user newPassword now seen readAt sessions) hStamp
  | request i userId => exact h.setCall i (.requesting userId s.now) trivial
  | readActive i userId now active => exact h.setCall i (.superseding userId now active) trivial
  | startComplete i tokenHash newPassword => exact h.setCall i (.resetting tokenHash newPassword _ _) trivial
  | login i user password salt tokenHash rehash readAt reply db hCall hDb =>
    obtain ⟨session, -, -, -, -, -, -, hMoves, -⟩ := login_some hDb
    obtain ⟨hVersions, hCalls⟩ := h.commit i reply hMoves .passwordRehash
    exact ⟨hVersions, hCalls⟩
  | invalidate i userIds reason reply db hDb => exact h.commit i reply hDb.moves reason
  | issue i userId tokenHash now active db hCall hGuard hDb =>
    obtain ⟨hUsers, -, -, -⟩ := issueReset_some hDb
    refine ⟨?_, (h.setCall i (.delivering tokenHash) trivial).calls⟩
    intro userId
    exact (congrArg (fun users => (Table.find? users userId).map User.securityVersion) hUsers).trans (h.versions userId)
  | withdraw i tokenHash reply => exact ⟨h.versions, (h.setCall i (.ended reply) trivial).calls⟩
  | complete i reset user newPassword passwordHash now seen readAt sessions reply db hCall hGuard hDb =>
    obtain ⟨-, hMoves, -, -⟩ := completeReset_some hDb
    obtain ⟨hVersions, hCalls⟩ := h.commit i reply hMoves .passwordReset
    exact ⟨hVersions, hCalls⟩

end Stamps

section Runs

variable {services : Services} {guard : Accounts → Call → Prop} {start s : Accounts}

/-- No call is under way and nothing has been recorded. -/
structure Accounts.Initial (s : Accounts) : Prop where
  calls : s.calls = []
  invalidations : s.invalidations = []
  logins : s.logins = []
  resetEvents : s.resetEvents = []

theorem Accounts.Initial.stamped (h : start.Initial) : start.Stamped start.db := by
  constructor
  · intro userId
    rw [h.invalidations]
    cases start.db.version? userId with
    | none => rfl
    | some base => exact congrArg some (Int.add_zero base).symm
  · intro call hCall
    rw [h.calls] at hCall
    cases hCall

/-- An invariant that every effect keeps, with the stamps at hand, holds in every state of a run. -/
theorem reaches_invariant {P : Accounts → Prop} (hRun : Reaches (Accounts.step services) (runGuard guard) start s)
    (hInitial : start.Initial) (hStart : P start)
    (hKeep : ∀ s next, Effect services guard s next → s.Stamped start.db → P s → P next) :
    s.Stamped start.db ∧ P s := by
  refine hRun.invariant (P := fun s => s.Stamped start.db ∧ P s) ⟨hInitial.stamped, hStart⟩ ?_
  rintro op s ⟨hStamped, hP⟩ hGuard
  have hStep : Accounts.step services op s = s ∨ Effect services guard s (Accounts.step services op s) :=
    step_effect op hGuard
  rcases hStep with hSame | hEffect
  · rw [hSame]
    exact ⟨hStamped, hP⟩
  · exact ⟨hEffect.stamped hStamped, hKeep s _ hEffect hStamped hP⟩

end Runs

section Samples

def sampleServices : Services where
  hashPassword salt password := salt ++ password
  verifyHashedPassword storedHash password :=
    if storedHash = password then .rehashNeeded
    else if storedHash = "salt." ++ password then .success
    else .failed
  digest := id
  trimUpper := id
  lifetime := 3600000

/-- One active user with a verified contact. -/
def sampleAccounts : Accounts where
  now := 10
  db :=
    { users := ⟨[⟨"u", "ADA", "secret", true, 1⟩], List.pairwise_singleton _ _⟩
      sessions := .empty
      resets := .empty
      contacts := ⟨[⟨"u", "ADA@HOME", some 1⟩], List.pairwise_singleton _ _⟩
      roles := []
      permissions := []
      userRoles := []
      rolePermissions := [] }
  calls := []
  invalidations := []
  logins := []
  resetEvents := []

def sampleToken (c : Char) : String := String.ofList (List.replicate 43 c)

def sampleDraw (c : Char) : Draw := ⟨sampleToken c, "salt.", true⟩

end Samples

end CommandConsole.Identity
