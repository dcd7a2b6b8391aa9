import CommandConsole.Identity.PasswordReset

/-! # A new reset token supersedes the earlier ones

The tokens stand in the order of their issue. Where a request still finds what
it has read, every earlier token of the user is inactive once it commits; where
no token of the user is issued during a completion, the completed one is the last.
-/
namespace CommandConsole.Identity
open Library
set_option autoImplicit false

/-- A request commits only if it has read all tokens that are active at its time, and a completion
only if no other token of the user was issued since it took its time. -/
def supersessionGuard (s : Accounts) : Call → Prop
  | .superseding userId now active => ∀ reset ∈ s.db.resets.rows, reset.userId = userId →
      reset.activeAt now = true → reset.tokenHash ∈ active
  | .revoking reset _ _ _ seen _ _ => ∀ row ∈ s.db.resets.rows.drop seen, row.userId = reset.userId →
      row.tokenHash = reset.tokenHash
  | _ => True

instance : ∀ s call, Decidable (supersessionGuard s call) := by
  intro s call
  unfold supersessionGuard
  split <;> infer_instance

section Order

def issuesOf (events : List ResetEvent) : List (String × String) :=
  events.filterMap fun event =>
    match event with
    | .issued tokenHash userId => some (tokenHash, userId)
    | .completed _ _ => none

/-- No token of the user was issued after the given one. -/
def LastIssued (tokenHash userId : String) (issues : List (String × String)) : Prop :=
  issues.Pairwise fun earlier later => earlier.1 = tokenHash → later.2 ≠ userId

def DeadBefore (instant : Int) (earlier later : PasswordResetToken) : Prop :=
  earlier.userId = later.userId → earlier.activeAt instant = false

def PasswordResetToken.issue (reset : PasswordResetToken) : String × String := (reset.tokenHash, reset.userId)

def Call.Ordered (s : Accounts) : Call → Prop
  | .requesting _ now | .superseding _ now _ => now ≤ s.now
  | .resetting _ _ now seen =>
    seen ≤ s.db.resets.rows.length ∧ (s.db.resets.rows.take seen).Pairwise (DeadBefore now)
  | .accepted reset _ _ _ seen _ | .revoking reset _ _ _ seen _ _ =>
    seen ≤ s.db.resets.rows.length ∧
      LastIssued reset.tokenHash reset.userId ((s.db.resets.rows.take seen).map PasswordResetToken.issue)
  | _ => True

structure Accounts.Ordered (s : Accounts) : Prop where
  issues : issuesOf s.resetEvents = s.db.resets.rows.map PasswordResetToken.issue
  dead : s.db.resets.rows.Pairwise (DeadBefore s.now)
  calls : ∀ call ∈ s.calls, call.Ordered s
  completions : ∀ before tokenHash userId, before ++ [.completed tokenHash userId] <+: s.resetEvents →
    LastIssued tokenHash userId (issuesOf before)

end Order

section Ages

variable {rows : List PasswordResetToken} {instant : Int}

theorem DeadBefore.later {earlier row : PasswordResetToken} (h : DeadBefore instant earlier row) {instant' : Int}
    (hLe : instant ≤ instant') : DeadBefore instant' earlier row := by
  intro hUser
  rw [Bool.eq_false_iff]
  intro hActive
  exact absurd (PasswordResetToken.activeAt_mono hLe hActive) (by rw [h hUser]; exact Bool.false_ne_true)

theorem PasswordResetToken.Ages.issue {reset row : PasswordResetToken} (h : reset.Ages row) :
    row.issue = reset.issue := Prod.ext h.tokenHash h.userId

theorem dead_map {change : PasswordResetToken → PasswordResetToken}
    (hAges : ∀ row : PasswordResetToken, row.Ages (change row)) (h : rows.Pairwise (DeadBefore instant)) : (rows.map change).Pairwise (DeadBefore instant) := by
  rw [List.pairwise_map]
  apply h.imp
  intro earlier row hDead hUser
  rw [(hAges earlier).userId, (hAges row).userId] at hUser
  rw [Bool.eq_false_iff]
  intro hActive
  exact absurd ((hAges earlier).active instant hActive) (by rw [hDead hUser]; exact Bool.false_ne_true)

theorem Call.Ordered.ages {s next : Accounts} {call : Call} (h : call.Ordered s) {more : List PasswordResetToken}
    (hAged : Aged PasswordResetToken.Ages s.db.resets.rows more next.db.resets.rows) (hNow : s.now ≤ next.now) : call.Ordered next := by
  have hLast : ∀ tokenHash userId seen, seen ≤ s.db.resets.rows.length →
      LastIssued tokenHash userId ((s.db.resets.rows.take seen).map PasswordResetToken.issue) →
      LastIssued tokenHash userId ((next.db.resets.rows.take seen).map PasswordResetToken.issue) := by
    intro tokenHash userId seen hSeen hIssued
    obtain ⟨change, hTake, hAges⟩ := hAged.take hSeen
    rw [hTake, List.map_map]
    have hSame : PasswordResetToken.issue ∘ change = PasswordResetToken.issue := funext fun row => (hAges row).issue
    rwa [hSame]
  have hBound : ∀ seen, seen ≤ s.db.resets.rows.length → seen ≤ next.db.resets.rows.length := by
    intro seen hSeen
    rw [hAged.length_eq]
    exact Nat.le_add_right_of_le hSeen
  cases call with
  | requesting userId now | superseding userId now active => exact Int.le_trans h hNow
  | resetting tokenHash newPassword now seen =>
    obtain ⟨hSeen, hDead⟩ := h
    obtain ⟨change, hTake, hAges⟩ := hAged.take hSeen
    refine ⟨hBound seen hSeen, ?_⟩
    rw [hTake]
    exact dead_map hAges hDead
  | accepted reset | revoking reset => exact ⟨hBound _ h.1, hLast _ _ _ h.1 h.2⟩
  | _ => trivial

end Ages

section Effects

variable {services : Services} {s next : Accounts}

theorem Effect.now_le {guard : Accounts → Call → Prop} (h : Effect services guard s next) : s.now ≤ next.now := by
  cases h with
  | tick ms => exact Int.le_add_of_nonneg_right (Int.natCast_nonneg ms)
  | _ => exact Int.le_refl _

/-- The token that has just been found active is the last of its user among those that the call has seen. -/
theorem lastIssued_of_active {reset : PasswordResetToken} {now : Int} {seen : Nat}
    (hDead : (s.db.resets.rows.take seen).Pairwise (DeadBefore now))
    (hReset : s.db.resets.find? reset.tokenHash = some reset) (hActive : reset.activeAt now = true) :
    LastIssued reset.tokenHash reset.userId ((s.db.resets.rows.take seen).map PasswordResetToken.issue) := by
  rw [LastIssued, List.pairwise_map]
  apply hDead.imp_of_mem
  intro earlier later hEarlier hLater hBefore hSame hUser
  have hEq : earlier = reset :=
    s.db.resets.eq_of_key_eq (List.mem_of_mem_take hEarlier) (Table.find?_mem hReset) hSame
  subst hEq
  rw [hBefore hUser.symm] at hActive
  cases hActive

/-- Neither has another token of the user been issued since, so it is the last one. -/
theorem lastIssued_of_guard {reset : PasswordResetToken} {seen : Nat}
    (hLast : LastIssued reset.tokenHash reset.userId ((s.db.resets.rows.take seen).map PasswordResetToken.issue))
    (hGuard : ∀ row ∈ s.db.resets.rows.drop seen, row.userId = reset.userId → row.tokenHash = reset.tokenHash) :
    LastIssued reset.tokenHash reset.userId (s.db.resets.rows.map PasswordResetToken.issue) := by
  have hUnique := s.db.resets.unique
  rw [← List.take_append_drop seen s.db.resets.rows, List.pairwise_append] at hUnique
  obtain ⟨-, hRest, hAcross⟩ := hUnique
  rw [LastIssued, List.pairwise_map] at hLast ⊢
  rw [← List.take_append_drop seen s.db.resets.rows, List.pairwise_append]
  refine ⟨hLast, ?_, ?_⟩
  · apply hRest.imp_of_mem
    intro earlier later hEarlier hLater hDistinct hSame hUser
    exact hDistinct.1 (hSame.trans (hGuard later hLater hUser).symm)
  · intro earlier hEarlier later hLater hSame hUser
    exact (hAcross earlier hEarlier later hLater).1 (hSame.trans (hGuard later hLater hUser).symm)

theorem Effect.newOrdered {guard : Accounts → Call → Prop} (hEffect : Effect services guard s next)
    (h : s.Ordered) {call : Call} (hCall : call ∈ next.calls) : call.Ordered s := by
  have hSet : ∀ i new, call ∈ s.calls.set i new → new.Ordered s → call.Ordered s := by
    intro i new hIn hNew
    rcases List.mem_or_eq_of_mem_set hIn with hOld | rfl
    · exact h.calls call hOld
    · exact hNew
  cases hEffect with
  | tick => exact h.calls call hCall
  | receive request =>
    rcases List.mem_append.mp hCall with hOld | hNew
    · exact h.calls call hOld
    · rw [List.mem_singleton.mp hNew]
      trivial
  | proceed i new hPlain =>
    refine hSet i new hCall ?_
    cases new with
    | requesting | superseding | resetting | accepted | revoking => cases hPlain
    | _ => trivial
  | verify i user password rehash hUser => exact hSet i _ hCall trivial
  | request i userId => exact hSet i _ hCall (Int.le_refl s.now)
  | readActive i userId now active hRequesting =>
    have hNow : now ≤ s.now := h.calls _ (s.call_mem hRequesting)
    exact hSet i _ hCall hNow
  | startComplete i tokenHash newPassword =>
    refine hSet i _ hCall ⟨Nat.le_refl _, ?_⟩
    rw [List.take_length]
    exact h.dead
  | accept i reset user newPassword now seen hResetting hReset hUser hActive =>
    obtain ⟨hSeen, hDead⟩ : (Call.resetting reset.tokenHash newPassword now seen).Ordered s :=
      h.calls _ (s.call_mem hResetting)
    exact hSet i _ hCall ⟨hSeen, lastIssued_of_active hDead hReset hActive⟩
  | readSessions i reset user newPassword now seen readAt sessions hAccepted =>
    have hLast : (Call.accepted reset user newPassword now seen readAt).Ordered s := h.calls _ (s.call_mem hAccepted)
    exact hSet i _ hCall hLast
  | login | invalidate | issue | withdraw | complete => exact hSet _ _ hCall trivial

/-- A request whose reading is complete leaves no earlier token of its user active. -/
theorem issue_dead {userId tokenHash : String} {now : Int} {active : List String} {db : Database} (h : s.Ordered)
    (hNow : now ≤ s.now) (hGuard : supersessionGuard s (.superseding userId now active))
    (hDb : s.db.issueReset userId tokenHash active now = some db) : db.resets.rows.Pairwise (DeadBefore s.now) := by
  obtain ⟨-, -, -, hRows⟩ := issueReset_some hDb
  have hAges : ∀ row : PasswordResetToken, row.Ages
      (if decide (row.tokenHash ∈ active) = true then { row with supersededAtUtc := some now } else row) := by
    intro row
    split
    · exact row.ages_superseded now
    · exact Std.Refl.refl row
  rw [hRows, List.pairwise_append]
  refine ⟨dead_map hAges h.dead, List.pairwise_singleton _ _, ?_⟩
  intro row hRow new hNew hUser
  rw [List.mem_singleton.mp hNew] at hUser
  obtain ⟨before, hBefore, rfl⟩ := List.mem_map.mp hRow
  rw [Bool.eq_false_iff]
  intro hActive
  have hWas := PasswordResetToken.activeAt_mono hNow ((hAges before).active s.now hActive)
  have hRead := hGuard before hBefore ((hAges before).userId.symm.trans hUser) hWas
  rw [if_pos (decide_eq_true hRead)] at hActive
  simp [PasswordResetToken.activeAt] at hActive

end Effects

section Runs

variable {services : Services} {start s next : Accounts}

theorem map_issue_update (resets : PlainTable PasswordResetToken.tokenHash) (test : PasswordResetToken → Bool)
    (change : PasswordResetToken → PasswordResetToken) (hKey : ∀ row, (change row).tokenHash = row.tokenHash)
    (hUser : ∀ row, (change row).userId = row.userId) :
    (resets.update test change hKey).rows.map PasswordResetToken.issue =
      resets.rows.map PasswordResetToken.issue := by
  refine (List.map_map ..).trans (congrArg (fun f => resets.rows.map f) (funext fun row => ?_))
  rw [Function.comp_apply]
  split
  · exact Prod.ext (hKey row) (hUser row)
  · rfl

theorem issuesOf_append (events more : List ResetEvent) :
    issuesOf (events ++ more) = issuesOf events ++ issuesOf more := List.filterMap_append

theorem issuesOf_issued (tokenHash userId : String) (events : List ResetEvent) :
    issuesOf (.issued tokenHash userId :: events) = (tokenHash, userId) :: issuesOf events := rfl

/-- A completion in the log was recorded before, or is the event that has just been recorded. -/
theorem completions_append {events : List ResetEvent} {event : ResetEvent}
    (h : ∀ before tokenHash userId, before ++ [.completed tokenHash userId] <+: events →
      LastIssued tokenHash userId (issuesOf before))
    (hEvent : ∀ tokenHash userId, event = .completed tokenHash userId →
      LastIssued tokenHash userId (issuesOf events))
    (before : List ResetEvent) (tokenHash userId : String)
    (hPrefix : before ++ [.completed tokenHash userId] <+: events ++ [event]) :
    LastIssued tokenHash userId (issuesOf before) := by
  rcases List.prefix_concat_iff.mp hPrefix with hWhole | hOld
  · obtain ⟨rfl, hLast⟩ := List.append_inj' hWhole rfl
    exact hEvent tokenHash userId (List.singleton_inj.mp hLast).symm
  · exact h before tokenHash userId hOld

theorem Effect.ordered (hEffect : Effect services supersessionGuard s next) (h : s.Ordered) : next.Ordered := by
  obtain ⟨more, hAged⟩ := hEffect.aged
  have hNow := hEffect.now_le
  have hCalls : ∀ call ∈ next.calls, call.Ordered next := by
    intro call hCall
    exact (hEffect.newOrdered h hCall).ages hAged hNow
  have hSame : next.db.resets.rows.length = s.db.resets.rows.length →
      next.db.resets.rows.map PasswordResetToken.issue = s.db.resets.rows.map PasswordResetToken.issue ∧
        next.db.resets.rows.Pairwise (DeadBefore next.now) := by
    intro hLength
    obtain ⟨change, hTake, hAges⟩ := hAged.take (Nat.le_refl _)
    rw [← hLength, List.take_length, hLength, List.take_length] at hTake
    rw [hTake, List.map_map]
    have hIssue : PasswordResetToken.issue ∘ change = PasswordResetToken.issue := funext fun row => (hAges row).issue
    rw [hIssue]
    exact ⟨rfl, dead_map hAges (h.dead.imp fun hDead => hDead.later hNow)⟩
  cases hEffect with
  | issue i userId tokenHash now active db hCall hGuard hDb =>
    obtain ⟨-, -, -, hRows⟩ := issueReset_some hDb
    have hSuperseding : now ≤ s.now := h.calls _ (s.call_mem hCall)
    have hDead := issue_dead h hSuperseding hGuard hDb
    refine ⟨?_, hDead, hCalls, ?_⟩
    · refine (issuesOf_append _ _).trans ?_
      have hKept := map_issue_update s.db.resets (fun reset => reset.tokenHash ∈ active)
        (fun reset => { reset with supersededAtUtc := some now }) (fun _ => rfl) fun _ => rfl
      simp only [Accounts.recordReset]
      rw [hRows, List.map_append, hKept, ← h.issues]
      rfl
    · exact completions_append h.completions fun _ _ hEvent => by cases hEvent
  | complete i reset user newPassword passwordHash now seen readAt sessions reply db hCall hGuard hDb =>
    obtain ⟨-, -, hResets, -⟩ := completeReset_some hDb
    obtain ⟨hIssues, hDead⟩ := hSame ((congrArg (fun resets => resets.rows.length) hResets).trans (List.length_map _))
    obtain ⟨-, hLast⟩ : (Call.revoking reset user newPassword now seen readAt sessions).Ordered s :=
      h.calls _ (s.call_mem hCall)
    refine ⟨?_, hDead, hCalls, ?_⟩
    · rw [hIssues, ← h.issues]
      exact (issuesOf_append _ _).trans (List.append_nil _)
    · refine completions_append h.completions ?_
      intro tokenHash userId hEvent
      cases hEvent
      have hWhole : LastIssued reset.tokenHash reset.userId (issuesOf s.resetEvents) := by
        rw [h.issues]
        exact lastIssued_of_guard hLast hGuard
      exact hWhole
  | login i user password salt tokenHash rehash readAt reply db hCall hDb =>
    obtain ⟨-, -, -, -, -, -, hResets, -⟩ := login_some hDb
    obtain ⟨hIssues, hDead⟩ := hSame (congrArg (fun resets => resets.rows.length) hResets)
    exact ⟨h.issues.trans hIssues.symm, hDead, hCalls, h.completions⟩
  | invalidate i userIds reason reply db hDb =>
    obtain ⟨hIssues, hDead⟩ := hSame (congrArg (fun resets => resets.rows.length) hDb.resets)
    exact ⟨h.issues.trans hIssues.symm, hDead, hCalls, h.completions⟩
  | withdraw i tokenHash reply =>
    obtain ⟨hIssues, hDead⟩ := hSame (List.length_map _)
    exact ⟨h.issues.trans hIssues.symm, hDead, hCalls, h.completions⟩
  | _ =>
    obtain ⟨hIssues, hDead⟩ := hSame rfl
    exact ⟨h.issues, hDead, hCalls, h.completions⟩

/-- Of two active tokens of one user the earlier one would be dead. -/
theorem Accounts.Ordered.active_length_le (h : s.Ordered) (userId : String) {instant : Int}
    (hInstant : s.now ≤ instant) :
    (s.db.resets.rows.filter fun reset => reset.userId = userId && reset.activeAt instant).length ≤ 1 := by
  have hPairs := h.dead.filter fun reset => reset.userId = userId && reset.activeAt instant
  have hEach : ∀ reset ∈ s.db.resets.rows.filter fun reset => reset.userId = userId && reset.activeAt instant,
      reset.userId = userId ∧ reset.activeAt instant = true := by
    intro reset hReset
    simpa using (List.mem_filter.mp hReset).2
  generalize (s.db.resets.rows.filter fun reset => reset.userId = userId && reset.activeAt instant) = active
    at hPairs hEach ⊢
  cases active with
  | nil => exact Nat.zero_le 1
  | cons first rest =>
    cases rest with
    | nil => exact Nat.le_refl 1
    | cons second rest =>
      obtain ⟨hFirst, hActive⟩ := hEach first List.mem_cons_self
      obtain ⟨hSecond, -⟩ := hEach second (List.mem_cons_of_mem _ List.mem_cons_self)
      have hDead := (List.pairwise_cons.mp hPairs).1 second List.mem_cons_self
      rw [hDead.later hInstant (hFirst.trans hSecond.symm)] at hActive
      cases hActive

theorem Accounts.Ordered.completed_not_mem (h : s.Ordered) {before between after : List ResetEvent}
    {tokenHash other userId : String}
    (hEvents : s.resetEvents = before ++ .issued tokenHash userId :: between ++ .issued other userId :: after) :
    .completed tokenHash userId ∉ after := by
  intro hCompleted
  obtain ⟨middle, rest, rfl⟩ := List.append_of_mem hCompleted
  have hLast := h.completions
    (before ++ .issued tokenHash userId :: between ++ .issued other userId :: middle) tokenHash userId
    ⟨rest, by rw [hEvents]; simp⟩
  rw [List.append_assoc, issuesOf_append, LastIssued, List.pairwise_append] at hLast
  obtain ⟨-, hLast, -⟩ := hLast
  rw [List.cons_append, issuesOf_issued, List.pairwise_cons, issuesOf_append, issuesOf_issued] at hLast
  exact hLast.1 (other, userId) (List.mem_append_right _ List.mem_cons_self) rfl rfl

theorem Accounts.Initial.ordered (h : start.Initial) (hEmpty : start.db.resets.rows = []) : start.Ordered := by
  refine ⟨?_, ?_, ?_, ?_⟩
  · rw [h.resetEvents, hEmpty]
    rfl
  · rw [hEmpty]
    exact .nil
  · rw [h.calls]
    exact fun _ hCall => absurd hCall List.not_mem_nil
  · intro before tokenHash userId hPrefix
    rw [h.resetEvents, List.prefix_nil] at hPrefix
    exact absurd hPrefix (List.append_ne_nil_of_right_ne_nil _ (List.cons_ne_nil _ _))

end Runs

/-- In every run in which a request finds all active tokens read, and no token of a user is issued
during a completion for that user. -/
theorem reset_tokens_supersede (services : Services) (start s : Accounts) (hStart : start.Initial)
    (hEmpty : start.db.resets.rows = [])
    (hRun : Reaches (Accounts.step services) (runGuard supersessionGuard) start s) :
    (∀ tokenHash, s.resetEvents.countP (ResetEvent.completes tokenHash) ≤ 1) ∧
    (∀ before between after tokenHash other userId,
      s.resetEvents = before ++ .issued tokenHash userId :: between ++ .issued other userId :: after →
        .completed tokenHash userId ∉ after) ∧
    ∀ userId instant, s.now ≤ instant →
      (s.db.resets.rows.filter fun reset => reset.userId = userId && reset.activeAt instant).length ≤ 1 := by
  have hOrdered : s.Ordered := (reaches_invariant (P := Accounts.Ordered) hRun hStart (hStart.ordered hEmpty)
    fun s next hEffect _ h => hEffect.ordered h).2
  exact ⟨reset_completes_once hStart hRun, fun _ _ _ _ _ _ hEvents => hOrdered.completed_not_mem hEvents,
    fun userId _ hInstant => hOrdered.active_length_le userId hInstant⟩

section Samples

def requestSteps (i : Nat) (c : Char) : List AccountOp :=
  [.run i (sampleDraw c), .run i (sampleDraw c), .run i (sampleDraw c)]

/-- Two requests one after the other, and a completion of the second token. -/
def sequentialSteps : List AccountOp :=
  .call (.requestReset "ADA@HOME" false) :: requestSteps 0 'a' ++
    .call (.requestReset "ADA@HOME" false) :: requestSteps 1 'b' ++
    .call (.completeReset (sampleToken 'b') "other") :: List.replicate 4 (.run 2 (sampleDraw 'c'))

theorem second_reset_supersedes :
    let s := runAll (Accounts.step sampleServices) sampleAccounts sequentialSteps
    s.resetEvents = [.issued (sampleToken 'a') "u", .issued (sampleToken 'b') "u", .completed (sampleToken 'b') "u"] ∧
      ∀ instant, s.now ≤ instant →
        (s.db.resets.rows.filter fun reset => reset.userId = "u" && reset.activeAt instant).length ≤ 1 := by
  intro s
  have hRun : GuardedAll (Accounts.step sampleServices) (runGuard supersessionGuard) sampleAccounts
      sequentialSteps := by decide +kernel
  exact ⟨by decide +kernel, (reset_tokens_supersede sampleServices sampleAccounts s ⟨rfl, rfl, rfl, rfl⟩ rfl
    hRun.reaches).2.2 "u"⟩

/-- Both requests have read the active tokens before either of them commits. -/
def overlappingSteps : List AccountOp :=
  [.call (.requestReset "ADA@HOME" false), .call (.requestReset "ADA@HOME" false), .run 0 (sampleDraw 'a'),
    .run 1 (sampleDraw 'b'), .run 0 (sampleDraw 'a'), .run 1 (sampleDraw 'b'), .run 0 (sampleDraw 'a'),
    .run 1 (sampleDraw 'b')]

theorem overlapping_requests_leave_two :
    ¬∀ (services : Services) (start s : Accounts), start.Initial → start.db.resets.rows = [] →
      Reaches (Accounts.step services) (fun _ _ => True) start s →
      (∀ tokenHash, s.resetEvents.countP (ResetEvent.completes tokenHash) ≤ 1) ∧
      (∀ before between after tokenHash other userId,
        s.resetEvents = before ++ .issued tokenHash userId :: between ++ .issued other userId :: after →
          .completed tokenHash userId ∉ after) ∧
      ∀ userId instant, s.now ≤ instant →
        (s.db.resets.rows.filter fun reset => reset.userId = userId && reset.activeAt instant).length ≤ 1 := by
  intro h
  let s := runAll (Accounts.step sampleServices) sampleAccounts overlappingSteps
  have hBoth : s.now = 10 ∧
      (s.db.resets.rows.filter fun reset => reset.userId = "u" && reset.activeAt 10).length = 2 := by decide +kernel
  have hOne := (h sampleServices sampleAccounts s ⟨rfl, rfl, rfl, rfl⟩ rfl (reaches_runAll _ _ _)).2.2 "u" 10
    (Int.le_of_eq hBoth.1)
  rw [hBoth.2] at hOne
  exact absurd hOne (by decide)

end Samples

end CommandConsole.Identity
