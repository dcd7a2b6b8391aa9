import CommandConsole.Identity.SessionRevocation
import CommandConsole.Library.Aging

/-! # Reset tokens

A token is consumed together with a step of its user's security version, so two
completions of one token cannot both find the version that they have read. That
a new token supersedes the earlier ones rests on two readings that nothing locks.
-/
namespace CommandConsole.Identity
open Library
set_option autoImplicit false

section Tokens

variable {services : Services} {guard : Accounts → Call → Prop} {s next : Accounts}

/-- What the later versions of a row keep. -/
structure PasswordResetToken.Ages (reset later : PasswordResetToken) : Prop where
  tokenHash : later.tokenHash = reset.tokenHash
  userId : later.userId = reset.userId
  consumed : reset.consumedAtUtc.isSome = true → later.consumedAtUtc.isSome = true
  active : ∀ instant, later.activeAt instant = true → reset.activeAt instant = true

instance : Std.Refl PasswordResetToken.Ages := ⟨fun _ => ⟨rfl, rfl, fun h => h, fun _ h => h⟩⟩

theorem PasswordResetToken.ages_superseded (reset : PasswordResetToken) (now : Int) :
    reset.Ages { reset with supersededAtUtc := some now } :=
  ⟨rfl, rfl, fun h => h, fun instant h => by simp [activeAt] at h⟩

theorem PasswordResetToken.ages_consumed (reset : PasswordResetToken) (now : Int) :
    reset.Ages { reset with consumedAtUtc := some now } :=
  ⟨rfl, rfl, fun _ => rfl, fun instant h => by simp [activeAt] at h⟩

/-- A token that is not active stays so. -/
theorem PasswordResetToken.activeAt_mono {reset : PasswordResetToken} {earlier later : Int} (hLe : earlier ≤ later)
    (h : reset.activeAt later = true) : reset.activeAt earlier = true := by
  simp only [activeAt, Bool.and_eq_true, decide_eq_true_eq] at h ⊢
  exact ⟨h.1, by omega⟩

theorem Effect.aged (h : Effect services guard s next) :
    ∃ more, Aged PasswordResetToken.Ages s.db.resets.rows more next.db.resets.rows := by
  cases h with
  | login i user password salt tokenHash rehash readAt reply db hCall hDb =>
    obtain ⟨-, -, -, -, -, -, hResets, -⟩ := login_some hDb
    exact ⟨[], hResets ▸ .refl _⟩
  | invalidate i userIds reason reply db hDb => exact ⟨[], hDb.resets ▸ .refl _⟩
  | issue i userId tokenHash now active db hCall hGuard hDb =>
    obtain ⟨-, -, -, hRows⟩ := issueReset_some hDb
    have hAged := Table.aged_update s.db.resets (fun reset => reset.tokenHash ∈ active) (fun reset =>
      { reset with supersededAtUtc := some now }) (fun _ => rfl) (fun _ => rfl) (fun row => row.ages_superseded now)
      [⟨tokenHash, userId, now + resetLifetime, none, none⟩]
    rw [← hRows] at hAged
    exact ⟨_, hAged⟩
  | withdraw i tokenHash reply =>
    have hAged := Table.aged_update s.db.resets (fun reset => reset.tokenHash = tokenHash) (fun reset =>
      { reset with supersededAtUtc := some s.now }) (fun _ => rfl) (fun _ => rfl)
      (fun row => row.ages_superseded s.now) []
    rw [List.append_nil] at hAged
    exact ⟨[], hAged⟩
  | complete i reset user newPassword passwordHash now seen readAt sessions reply db hCall hGuard hDb =>
    obtain ⟨-, -, hResets, -⟩ := completeReset_some hDb
    have hAged := Table.aged_update s.db.resets (fun row => row.tokenHash = reset.tokenHash) (fun row =>
      { row with consumedAtUtc := some now }) (fun _ => rfl) (fun _ => rfl) (fun row => row.ages_consumed now) []
    rw [List.append_nil, ← hResets] at hAged
    exact ⟨[], hAged⟩
  | _ => exact ⟨[], .refl _⟩

theorem Effect.reset (h : Effect services guard s next) {tokenHash : String} {reset : PasswordResetToken}
    (hReset : s.db.resets.find? tokenHash = some reset) :
    ∃ later, next.db.resets.find? tokenHash = some later ∧ reset.Ages later := by
  obtain ⟨more, hAged⟩ := h.aged
  exact Table.find?_aged hAged (fun _ _ hAges => hAges.tokenHash) hReset

end Tokens

section SingleUse

variable {services : Services} {guard : Accounts → Call → Prop} {start : Database} {s next : Accounts}

def ResetEvent.completes (tokenHash : String) : ResetEvent → Bool
  | .completed other _ => other = tokenHash
  | .issued _ _ => false

/-- The token was not consumed when the user was read; a consumption since has invalidated the user. -/
def Accounts.Unspent (s : Accounts) (reset : PasswordResetToken) (user : User) (readAt : Nat) : Prop :=
  user.id = reset.userId ∧ readAt ≤ s.invalidations.length ∧
    ∃ row, s.db.resets.find? reset.tokenHash = some row ∧ row.userId = reset.userId ∧
      (row.consumedAtUtc.isSome = true → ∃ entry ∈ s.invalidations.drop readAt, entry.userId = user.id)

/-- The token that a call is going to consume, with the user and when it was read. -/
def Call.completion? : Call → Option (PasswordResetToken × User × Nat)
  | .accepted reset user _ _ _ readAt | .revoking reset user _ _ _ readAt _ => some (reset, user, readAt)
  | _ => none

def Call.Unspent (s : Accounts) (call : Call) : Prop :=
  ∀ reset user readAt, call.completion? = some (reset, user, readAt) → s.Unspent reset user readAt

/-- A completed token is consumed, and none was completed twice. -/
structure Accounts.SingleUse (s : Accounts) : Prop where
  once : ∀ tokenHash, s.resetEvents.countP (ResetEvent.completes tokenHash) ≤ 1
  consumed : ∀ tokenHash userId, .completed tokenHash userId ∈ s.resetEvents →
    ∃ row, s.db.resets.find? tokenHash = some row ∧ row.consumedAtUtc.isSome = true
  calls : ∀ call ∈ s.calls, call.Unspent s

/-- Only a completion consumes a token, and it invalidates the user that it has read. -/
theorem Effect.consumption (h : Effect services guard s next) {tokenHash : String} {reset : PasswordResetToken}
    (hReset : s.db.resets.find? tokenHash = some reset) :
    (∃ later, next.db.resets.find? tokenHash = some later ∧ later.consumedAtUtc = reset.consumedAtUtc) ∨
      ∃ call ∈ s.calls, ∃ base user readAt entry, call.completion? = some (base, user, readAt) ∧
        base.tokenHash = tokenHash ∧ next.invalidations = s.invalidations ++ [entry] ∧ entry.userId = user.id := by
  cases h with
  | login i user password salt hash rehash readAt reply db hCall hDb =>
    obtain ⟨-, -, -, -, -, -, hResets, -⟩ := login_some hDb
    have hSame : db.resets.find? tokenHash = some reset := hResets ▸ hReset
    exact .inl ⟨reset, hSame, rfl⟩
  | invalidate i userIds reason reply db hDb =>
    have hSame : db.resets.find? tokenHash = some reset := hDb.resets ▸ hReset
    exact .inl ⟨reset, hSame, rfl⟩
  | issue i userId hash now active db hCall hGuard hDb =>
    obtain ⟨-, -, -, hRows⟩ := issueReset_some hDb
    refine .inl ⟨_, Table.find?_of_rows hRows (fun row => by split <;> rfl) hReset, ?_⟩
    split <;> rfl
  | withdraw i hash reply =>
    have hLater := Table.find?_update s.db.resets (fun reset => reset.tokenHash = hash)
      (fun reset => { reset with supersededAtUtc := some s.now }) (fun _ => rfl) (fun _ => rfl) tokenHash
    rw [hReset] at hLater
    refine .inl ⟨_, hLater, ?_⟩
    dsimp only
    split <;> rfl
  | complete i base user newPassword passwordHash now seen readAt sessions reply db hCall hGuard hDb =>
    obtain ⟨-, -, hResets, -⟩ := completeReset_some hDb
    by_cases hHash : base.tokenHash = tokenHash
    · exact .inr ⟨_, s.call_mem hCall, base, user, readAt, _, rfl, hHash, rfl, rfl⟩
    · have hLater : db.resets.find? tokenHash = some reset := by
        obtain rfl := Table.find?_key hReset
        rw [hResets, Table.find?_update, hReset, Option.map_some, if_neg]
        simpa using Ne.symm hHash
      exact .inl ⟨reset, hLater, rfl⟩
  | _ => exact .inl ⟨reset, hReset, rfl⟩

theorem Accounts.Unspent.effect {reset : PasswordResetToken} {user : User} {readAt : Nat}
    (h : s.Unspent reset user readAt) (hCalls : ∀ call ∈ s.calls, call.Unspent s)
    (hEffect : Effect services guard s next) : next.Unspent reset user readAt := by
  obtain ⟨hUser, hBound, row, hRow, hRowUser, hSpent⟩ := h
  obtain ⟨more, hLog⟩ := hEffect.log
  obtain ⟨later, hLater, hAges⟩ := hEffect.reset hRow
  refine ⟨hUser, ?_, later, hLater, hAges.userId.trans hRowUser, ?_⟩
  · rw [hLog, List.length_append]
    exact Nat.le_add_right_of_le hBound
  · intro hConsumed
    rw [hLog, List.drop_append_of_le_length hBound]
    rcases hEffect.consumption hRow with
      ⟨same, hSame, hEq⟩ | ⟨call, hCall, base, other, otherAt, entry, hCompletion, hHash, hEntries, hEntry⟩
    · rw [hLater, Option.some.injEq] at hSame
      rw [hSame, hEq] at hConsumed
      obtain ⟨entry, hEntry, hEntryUser⟩ := hSpent hConsumed
      exact ⟨entry, List.mem_append_left _ hEntry, hEntryUser⟩
    · obtain ⟨hOther, -, found, hFound, hFoundUser, -⟩ := hCalls call hCall _ _ _ hCompletion
      rw [hHash, hRow, Option.some.injEq] at hFound
      subst hFound
      have hMore : more = [entry] := List.append_cancel_left (hLog.symm.trans hEntries)
      refine ⟨entry, List.mem_append_right _ (hMore ▸ List.mem_singleton_self entry), ?_⟩
      rw [hEntry, hOther, ← hFoundUser, hRowUser, hUser]

/-- A call that has just read an active token has not seen it consumed. -/
theorem Effect.newCompletion (hEffect : Effect services guard s next) (h : ∀ call ∈ s.calls, call.Unspent s)
    {call : Call} (hCall : call ∈ next.calls) : call.Unspent s ∨ call.completion? = none := by
  have hSet : ∀ i new, call ∈ s.calls.set i new → (new.Unspent s ∨ new.completion? = none) →
      call.Unspent s ∨ call.completion? = none := by
    intro i new hIn hNew
    rcases List.mem_or_eq_of_mem_set hIn with hOld | rfl
    · exact .inl (h call hOld)
    · exact hNew
  cases hEffect with
  | tick => exact .inl (h call hCall)
  | receive request =>
    rcases List.mem_append.mp hCall with hOld | hNew
    · exact .inl (h call hOld)
    · rw [List.mem_singleton.mp hNew]
      exact .inr rfl
  | proceed i new hPlain =>
    refine hSet i new hCall (.inr ?_)
    cases new with
    | accepted | revoking => cases hPlain
    | _ => rfl
  | accept i reset user newPassword now seen hCall' hReset hUser hActive =>
    refine hSet i _ hCall (.inl ?_)
    intro base other readAt hCompletion
    cases hCompletion
    refine ⟨Table.find?_key hUser, Nat.le_refl _, reset, hReset, rfl, ?_⟩
    intro hConsumed
    simp only [PasswordResetToken.activeAt, Bool.and_eq_true, Option.isNone_iff_eq_none] at hActive
    rw [hActive.1.1] at hConsumed
    cases hConsumed
  | readSessions i reset user newPassword now seen readAt sessions hCall' =>
    exact hSet i _ hCall (.inl (h (.accepted reset user newPassword now seen readAt) (s.call_mem hCall')))
  | _ => exact hSet _ _ hCall (.inr rfl)

/-- The version of the user is the one that was read, so the token is not consumed yet. -/
theorem Accounts.SingleUse.unconsumed (h : s.SingleUse) (hStamped : s.Stamped start) {call : Call}
    (hCall : call ∈ s.calls) {reset : PasswordResetToken} {user : User} {readAt : Nat}
    (hCompletion : call.completion? = some (reset, user, readAt))
    (hRead : StampedAt start s.invalidations user.id readAt user.securityVersion)
    (hCurrent : s.db.version? user.id = some user.securityVersion) (userId : String) :
    .completed reset.tokenHash userId ∉ s.resetEvents := by
  intro hCompleted
  obtain ⟨row, hRow, hConsumed⟩ := h.consumed _ _ hCompleted
  obtain ⟨-, -, found, hFound, -, hSpent⟩ := h.calls call hCall _ _ _ hCompletion
  rw [hRow, Option.some.injEq] at hFound
  subst hFound
  obtain ⟨entry, hEntry, hUser⟩ := hSpent hConsumed
  exact hStamped.current hRead hCurrent hEntry hUser

theorem completes_none {events : List ResetEvent} {tokenHash : String}
    (h : ∀ userId, .completed tokenHash userId ∉ events) : events.countP (ResetEvent.completes tokenHash) = 0 := by
  rw [List.countP_eq_zero]
  intro event hEvent
  cases event with
  | issued => exact Bool.false_ne_true
  | completed other userId =>
    intro hSame
    exact h userId (of_decide_eq_true hSame ▸ hEvent)

theorem Effect.singleUse (hEffect : Effect services guard s next) (hStamped : s.Stamped start) (h : s.SingleUse) :
    next.SingleUse := by
  have hCalls : ∀ call ∈ next.calls, call.Unspent next := by
    intro call hCall reset user readAt hCompletion
    rcases hEffect.newCompletion h.calls hCall with hUnspent | hNone
    · exact (hUnspent _ _ _ hCompletion).effect h.calls hEffect
    · rw [hNone] at hCompletion
      cases hCompletion
  have hConsumed : ∀ tokenHash userId, .completed tokenHash userId ∈ s.resetEvents →
      ∃ row, next.db.resets.find? tokenHash = some row ∧ row.consumedAtUtc.isSome = true := by
    intro tokenHash userId hCompleted
    obtain ⟨row, hRow, hSome⟩ := h.consumed tokenHash userId hCompleted
    obtain ⟨later, hLater, hAges⟩ := hEffect.reset hRow
    exact ⟨later, hLater, hAges.consumed hSome⟩
  cases hEffect with
  | issue i userId tokenHash now active db hCall hGuard hDb =>
    refine ⟨?_, ?_, hCalls⟩
    · intro other
      simp only [Accounts.recordReset, Accounts.setCall, List.countP_append]
      exact h.once other
    · intro other otherUser hCompleted
      rcases List.mem_append.mp hCompleted with hOld | hNew
      · exact hConsumed other otherUser hOld
      · cases List.mem_singleton.mp hNew
  | complete i reset user newPassword passwordHash now seen readAt sessions reply db hCall hGuard hDb =>
    obtain ⟨hCurrent, -, hResets, -⟩ := completeReset_some hDb
    have hMem := s.call_mem hCall
    have hFresh := h.unconsumed hStamped hMem rfl (hStamped.calls _ hMem) hCurrent
    refine ⟨?_, ?_, hCalls⟩
    · intro other
      simp only [Accounts.recordReset, Accounts.recordInvalidations, Accounts.setCall, List.countP_append,
        List.countP_singleton]
      by_cases hOther : reset.tokenHash = other
      · subst hOther
        rw [completes_none hFresh]
        split <;> omega
      · rw [if_neg (by simpa [ResetEvent.completes] using hOther)]
        exact h.once other
    · intro other otherUser hCompleted
      rcases List.mem_append.mp hCompleted with hOld | hNew
      · exact hConsumed other otherUser hOld
      · cases List.mem_singleton.mp hNew
        obtain ⟨-, -, row, hRow, -, -⟩ := h.calls _ hMem _ _ _ rfl
        refine ⟨{ row with consumedAtUtc := some now }, ?_, rfl⟩
        have hKey := Table.find?_key hRow
        simp only [Accounts.recordReset, Accounts.recordInvalidations]
        rw [hResets, Table.find?_update, hRow, Option.map_some, if_pos (decide_eq_true hKey)]
  | _ => exact ⟨h.once, hConsumed, hCalls⟩

/-- Whatever the interleaving, a token completes at most once. -/
theorem reset_completes_once {start : Accounts} (hStart : start.Initial)
    (hRun : Reaches (Accounts.step services) (runGuard guard) start s) (tokenHash : String) :
    s.resetEvents.countP (ResetEvent.completes tokenHash) ≤ 1 := by
  have hSingle : start.SingleUse := by
    refine ⟨?_, ?_, ?_⟩
    · rw [hStart.resetEvents]
      exact fun _ => Nat.zero_le 1
    · rw [hStart.resetEvents]
      exact fun _ _ h => absurd h List.not_mem_nil
    · rw [hStart.calls]
      exact fun _ h => absurd h List.not_mem_nil
  exact (reaches_invariant (P := Accounts.SingleUse) hRun hStart hSingle
    fun s next hEffect hStamped h => hEffect.singleUse hStamped h).2.once tokenHash

end SingleUse

end CommandConsole.Identity
