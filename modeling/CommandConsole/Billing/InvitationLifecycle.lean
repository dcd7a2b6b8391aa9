import CommandConsole.Billing.InvitationSteps
import CommandConsole.Library.Aging

/-! # The lifecycle of an invitation

The commits overwrite a status, rely on a membership and add an invitation on
the word of earlier reads. The laws hold in the runs in which what a commit
relies on is still the case when it writes.
-/
namespace CommandConsole.Billing
open Library
set_option autoImplicit false

/-- An invitation is accepted while it is not revoked and, where the call adds no membership, by a
member; it is revoked while it is not accepted; and it is added while the household has room for it. -/
def lifecycleGuard (s : Households) (call : InvitationCall) : Prop :=
  match call.stage, call.request with
  | .accepting invitation _ isMember, .accept _ actorId =>
    (∀ row ∈ s.db.invitations.find? invitation.id, row.status ≠ .revoked) ∧
      (isMember = true → s.db.isMember invitation.householdId actorId = true)
  | .acceptedBefore invitation _, .accept _ actorId => s.db.isMember invitation.householdId actorId = true
  | .revoking invitation _, _ => ∀ row ∈ s.db.invitations.find? invitation.id, row.status ≠ .accepted
  | .inviting targetId _, .create householdId _ _ =>
    (s.db.openInvitations householdId s.now).length < maximumPendingInvitations ∧
      ∀ item ∈ s.db.openInvitations householdId s.now, item.targetUserId ≠ targetId
  | _, _ => True

instance : ∀ s call, Decidable (lifecycleGuard s call) := by
  intro s call
  unfold lifecycleGuard
  split <;> infer_instance

section Rows

variable {db next : BillingDatabase} {invitation : HouseholdInvitation} {now : Int}

/-- What the later versions of a row keep; a pending one may be resolved. -/
structure HouseholdInvitation.Ages (invitation later : HouseholdInvitation) : Prop where
  id : later.id = invitation.id
  householdId : later.householdId = invitation.householdId
  targetUserId : later.targetUserId = invitation.targetUserId
  expiresAtUtc : later.expiresAtUtc = invitation.expiresAtUtc
  pending : later.status = .pending → invitation.status = .pending

instance : Std.Refl HouseholdInvitation.Ages := ⟨fun _ => ⟨rfl, rfl, rfl, rfl, fun h => h⟩⟩

theorem HouseholdInvitation.ages_resolved (invitation : HouseholdInvitation) {status : InvitationStatus}
    (h : status ≠ .pending) : invitation.Ages { invitation with status } :=
  ⟨rfl, rfl, rfl, rfl, fun hPending => absurd hPending h⟩

theorem HouseholdInvitation.Ages.openAt {later : HouseholdInvitation} (h : invitation.Ages later) {instant : Int}
    (hOpen : later.openAt instant = true) : invitation.openAt instant = true := by
  simp only [HouseholdInvitation.openAt, Bool.and_eq_true, decide_eq_true_eq] at hOpen ⊢
  exact ⟨h.pending hOpen.1, h.expiresAtUtc ▸ hOpen.2⟩

theorem HouseholdInvitation.openAt_mono (invitation : HouseholdInvitation) {earlier later : Int} (hLe : earlier ≤ later)
    (h : invitation.openAt later = true) : invitation.openAt earlier = true := by
  simp only [HouseholdInvitation.openAt, Bool.and_eq_true, decide_eq_true_eq] at h ⊢
  exact ⟨h.1, Int.lt_of_le_of_lt hLe h.2⟩

theorem resolve_some {invitationId : String} {status : InvitationStatus}
    (h : db.resolve invitationId status = some next) :
    next.memberships = db.memberships ∧
      next.invitations = (db.invitations.update (fun item => item.id = invitationId) fun item =>
        { item with status }) := by
  unfold BillingDatabase.resolve at h
  split at h
  · cases h
    exact ⟨rfl, rfl⟩
  · cases h

/-- An acceptance leaves its actor a member, if it was one or is added now. -/
theorem accept_some {actorId : String} {isMember : Bool} (h : db.accept invitation actorId now isMember = some next) :
    next.invitations = (db.invitations.update (fun item => item.id = invitation.id) fun item =>
        { item with status := .accepted }) ∧
      ((isMember = true → db.isMember invitation.householdId actorId = true) →
        next.isMember invitation.householdId actorId = true) := by
  cases isMember with
  | true =>
    simp only [BillingDatabase.accept, if_true, Option.bind_eq_bind, Option.bind_some,
      Option.bind_eq_some_iff] at h
    obtain ⟨resolved, hResolved, hNext⟩ := h
    cases hNext
    obtain ⟨hMembers, hInvitations⟩ := resolve_some hResolved
    refine ⟨hInvitations, fun hMember => ?_⟩
    have hSame : resolved.isMember invitation.householdId actorId = true := by
      rw [BillingDatabase.isMember, hMembers]
      exact hMember rfl
    exact hSame
  | false =>
    simp only [BillingDatabase.accept, Bool.false_eq_true, if_false, Option.bind_eq_bind, Option.bind_eq_some_iff,
      BillingDatabase.insertMembership, Option.ite_none_left_eq_some, Option.some.injEq] at h
    obtain ⟨joined, ⟨-, rfl⟩, resolved, hResolved, rfl⟩ := h
    obtain ⟨hMembers, hInvitations⟩ := resolve_some hResolved
    refine ⟨hInvitations, fun _ => ?_⟩
    have hAdded : resolved.isMember invitation.householdId actorId = true := by
      rw [BillingDatabase.isMember, hMembers]
      exact decide_eq_true (List.mem_append_right _ (List.mem_singleton_self _))
    exact hAdded

theorem revoke_some {actorId : String} (h : db.revoke invitation actorId now = some next) :
    next.invitations = (db.invitations.update (fun item => item.id = invitation.id) fun item =>
      { item with status := .revoked }) := by
  simp only [BillingDatabase.revoke, Option.bind_eq_bind, Option.bind_eq_some_iff] at h
  obtain ⟨resolved, hResolved, hNext⟩ := h
  cases hNext
  exact (resolve_some hResolved).2

theorem invite_some {invitationId householdId actorId targetId : String}
    (h : db.invite invitationId householdId actorId targetId now = some next) :
    next.invitations.rows = db.invitations.rows ++
      [⟨invitationId, householdId, actorId, targetId, .pending, now + hoursMs (7 * 24)⟩] := by
  simp only [BillingDatabase.invite, Option.bind_eq_bind, Option.bind_eq_some_iff] at h
  obtain ⟨invitations, hInsert, hNext⟩ := h
  cases hNext
  exact (Table.insert_eq_some hInsert).2.2

theorem remove_some {householdId actorId memberUserId : String}
    (h : db.remove householdId actorId memberUserId now = some next) : next.invitations = db.invitations := by
  simp only [BillingDatabase.remove, Option.bind_eq_bind, Option.bind_eq_some_iff, BillingDatabase.deleteMembership,
    Option.ite_none_right_eq_some] at h
  obtain ⟨removed, ⟨-, hRemoved⟩, hNext⟩ := h
  cases hRemoved
  cases hNext
  rfl

end Rows

section Effects

variable {s next : Households}

/-- The invitations age, and an added one finds room. -/
theorem InvitationEffect.aged {guard : Households → InvitationCall → Prop} (h : InvitationEffect guard s next) :
    ∃ more, Aged HouseholdInvitation.Ages s.db.invitations.rows more next.db.invitations.rows ∧
      ∀ item ∈ more, ∃ request now, more = [item] ∧ next.now = s.now ∧
        (∃ actorId name, request = .create item.householdId actorId name) ∧
          guard s ⟨request, .inviting item.targetUserId now⟩ := by
  have hNone : ∀ {p : HouseholdInvitation → Prop}, ∀ item ∈ ([] : List HouseholdInvitation), p item :=
    fun item hItem => absurd hItem List.not_mem_nil
  cases h with
  | invite i newId householdId actorId targetUsername targetId now db hGuard hDb =>
    have hRows := invite_some hDb
    refine ⟨_, ⟨id, by rw [List.map_id]; exact hRows, fun row => Std.Refl.refl row⟩, ?_⟩
    intro item hItem
    cases List.mem_singleton.mp hItem
    exact ⟨_, now, rfl, rfl, ⟨actorId, targetUsername, rfl⟩, hGuard⟩
  | accept i invitationId actorId invitation now isMember db hCall hGuard hDb =>
    have hAged := Table.aged_update s.db.invitations (fun item => item.id = invitation.id) (fun item =>
      { item with status := .accepted }) (fun _ => rfl) (fun _ => rfl) (fun row => row.ages_resolved (by decide)) []
    rw [List.append_nil, ← (accept_some hDb).1] at hAged
    exact ⟨[], hAged, hNone⟩
  | revoke i invitationId actorId invitation now db hGuard hDb =>
    have hAged := Table.aged_update s.db.invitations (fun item => item.id = invitation.id) (fun item =>
      { item with status := .revoked }) (fun _ => rfl) (fun _ => rfl) (fun row => row.ages_resolved (by decide)) []
    rw [List.append_nil, ← revoke_some hDb] at hAged
    exact ⟨[], hAged, hNone⟩
  | remove i householdId actorId memberUserId db hDb =>
    have hSame := remove_some hDb
    exact ⟨[], hSame ▸ .refl _, hNone⟩
  | _ => exact ⟨[], .refl _, hNone⟩

theorem InvitationEffect.row {guard : Households → InvitationCall → Prop} (h : InvitationEffect guard s next)
    {invitationId : String} {row : HouseholdInvitation} (hRow : s.db.invitations.find? invitationId = some row) :
    ∃ later, next.db.invitations.find? invitationId = some later ∧ row.Ages later := by
  obtain ⟨more, hAged, -⟩ := h.aged
  exact Table.find?_aged hAged (fun _ _ hAges => hAges.id) hRow

/-- A resolved invitation keeps its status. -/
theorem InvitationEffect.status (h : InvitationEffect lifecycleGuard s next) {invitationId : String}
    {row : HouseholdInvitation} (hRow : s.db.invitations.find? invitationId = some row)
    (hStatus : row.status ≠ .pending) :
    ∃ later, next.db.invitations.find? invitationId = some later ∧ later.status = row.status := by
  have hResolve : ∀ {table : PlainTable HouseholdInvitation.id} {id : String} {status : InvitationStatus},
      table = (s.db.invitations.update (fun item => item.id = id) fun item => { item with status }) →
        (row.id = id → row.status = status) →
          ∃ later, table.find? invitationId = some later ∧ later.status = row.status := by
    rintro table id status rfl hSame
    refine ⟨_, by rw [Table.find?_update, hRow]; rfl, ?_⟩
    dsimp only
    split
    · rename_i hId
      exact (hSame (of_decide_eq_true hId)).symm
    · rfl
  have hKey := Table.find?_key hRow
  have hOther : ∀ final : InvitationStatus, final ≠ .pending → row.status ≠ final →
      ∀ status : InvitationStatus, status ≠ .pending → status ≠ final → row.status = status := by
    intro final hFinal hRowFinal status hPending hStatusFinal
    cases hRowStatus : row.status <;> cases status <;> cases final <;> simp_all
  cases h with
  | invite i newId householdId actorId targetUsername targetId now db hGuard hDb =>
    obtain ⟨hMem, -⟩ := (Table.find?_eq_some _ _ _).mp hRow
    have hStill : db.invitations.find? invitationId = some row :=
      (Table.find?_eq_some _ _ _).mpr ⟨invite_some hDb ▸ List.mem_append_left _ hMem, hKey⟩
    exact ⟨row, hStill, rfl⟩
  | accept i id actorId invitation now isMember db hCall hGuard hDb =>
    refine hResolve (accept_some hDb).1 ?_
    intro hId
    have hNot : row.status ≠ .revoked := hGuard.1 row (hId ▸ hKey ▸ hRow)
    exact hOther .revoked (by decide) hNot .accepted (by decide) (by decide)
  | revoke i id actorId invitation now db hGuard hDb =>
    refine hResolve (revoke_some hDb) ?_
    intro hId
    have hNot : row.status ≠ .accepted := hGuard row (hId ▸ hKey ▸ hRow)
    exact hOther .accepted (by decide) hNot .revoked (by decide) (by decide)
  | remove i householdId actorId memberUserId db hDb =>
    have hStill : db.invitations.find? invitationId = some row := remove_some hDb ▸ hRow
    exact ⟨row, hStill, rfl⟩
  | _ => exact ⟨row, hRow, rfl⟩

end Effects

section Invariant

variable {s next : Households}

/-- How many invitations that pass a test are open. -/
def Households.openCount (s : Households) (test : HouseholdInvitation → Bool) : Nat :=
  s.db.invitations.rows.countP fun item => test item && item.openAt s.now

structure Households.Sound (s : Households) : Prop where
  calls : ∀ call ∈ s.calls, call.Sound s.db
  joined : ∀ id ∈ s.joins, ∃ row, s.db.invitations.find? id = some row ∧ row.status = .accepted
  bounded : ∀ householdId, s.openCount (fun item => item.householdId = householdId) ≤ maximumPendingInvitations
  single : ∀ householdId targetId,
    s.openCount (fun item => item.householdId = householdId && item.targetUserId = targetId) ≤ 1

theorem InvitationCall.Sound.effect {guard : Households → InvitationCall → Prop} {call : InvitationCall}
    (h : call.Sound s.db) (hEffect : InvitationEffect guard s next) : call.Sound next.db := by
  have hHas : ∀ invitation, s.db.Has invitation → next.db.Has invitation := by
    rintro invitation ⟨row, hRow, hHousehold⟩
    obtain ⟨later, hLater, hAges⟩ := hEffect.row hRow
    exact ⟨later, hLater, hAges.householdId.trans hHousehold⟩
  obtain ⟨request, stage⟩ := call
  cases stage with
  | joining | accepting | acceptedBefore => exact ⟨h.1, hHas _ h.2⟩
  | denying event reply => exact h
  | _ => trivial

theorem InvitationEffect.newCall {guard : Households → InvitationCall → Prop} (hEffect : InvitationEffect guard s next)
    (h : ∀ call ∈ s.calls, call.Sound s.db) {call : InvitationCall} (hCall : call ∈ next.calls) :
    call.Sound s.db := by
  have hSet : ∀ i request stage, call ∈ s.calls.set i ⟨request, stage⟩ →
      InvitationCall.Sound s.db ⟨request, stage⟩ → call.Sound s.db := by
    intro i request stage hIn hNew
    rcases List.mem_or_eq_of_mem_set hIn with hOld | rfl
    · exact h call hOld
    · exact hNew
  cases hEffect with
  | tick => exact h call hCall
  | receive request =>
    rcases List.mem_append.mp hCall with hOld | hNew
    · exact h call hOld
    · rw [List.mem_singleton.mp hNew]
      trivial
  | advance i request stage hSound hOpen => exact hSet i request stage hCall (hSound h)
  | deny | invite | accept | acceptAgain | revoke | remove => exact hSet _ _ _ hCall trivial

theorem InvitationEffect.now_le {guard : Households → InvitationCall → Prop} (h : InvitationEffect guard s next) :
    s.now ≤ next.now := by
  cases h with
  | tick ms => exact Int.le_add_of_nonneg_right (Int.natCast_nonneg ms)
  | _ => exact Int.le_refl _

/-- The open invitations become more only by one that the household has room for. -/
theorem InvitationEffect.openCount (hEffect : InvitationEffect lifecycleGuard s next)
    (test : HouseholdInvitation → Bool)
    (hTest : ∀ invitation later : HouseholdInvitation, invitation.Ages later → test later = test invitation) :
    next.openCount test ≤ s.openCount test ∨
      ∃ new : HouseholdInvitation, test new = true ∧ next.openCount test ≤ s.openCount test + 1 ∧
        (s.db.openInvitations new.householdId s.now).length < maximumPendingInvitations ∧
          ∀ item ∈ s.db.openInvitations new.householdId s.now, item.targetUserId ≠ new.targetUserId := by
  obtain ⟨more, hAged, hMore⟩ := hEffect.aged
  have hCount : next.openCount test ≤
      s.openCount test + more.countP fun item => test item && item.openAt next.now := by
    refine Nat.le_trans (hAged.countP_le fun row later hAges hOpen => ?_) (Nat.add_le_add_right ?_ _)
    · rw [Bool.and_eq_true] at hOpen ⊢
      exact ⟨hTest row later hAges ▸ hOpen.1, hAges.openAt hOpen.2⟩
    · refine List.countP_mono_left fun row _ hOpen => ?_
      rw [Bool.and_eq_true] at hOpen ⊢
      exact ⟨hOpen.1, row.openAt_mono hEffect.now_le hOpen.2⟩
  cases more with
  | nil => exact .inl hCount
  | cons new rest =>
    obtain ⟨request, now, hSingle, -, ⟨actorId, name, rfl⟩, hRoom, hFree⟩ := hMore new List.mem_cons_self
    cases List.cons.inj hSingle with
    | intro _ hRest =>
      subst hRest
      by_cases hNew : test new = true
      · refine .inr ⟨new, hNew, Nat.le_trans hCount (Nat.add_le_add_left ?_ _), hRoom, hFree⟩
        exact List.countP_le_length
      · left
        simpa [hNew] using hCount

theorem openInvitations_length (householdId : String) :
    (s.db.openInvitations householdId s.now).length = s.openCount fun item => item.householdId = householdId := by
  rw [BillingDatabase.openInvitations, Households.openCount, List.countP_eq_length_filter]

theorem openCount_eq_zero {householdId targetId : String}
    (h : ∀ item ∈ s.db.openInvitations householdId s.now, item.targetUserId ≠ targetId) :
    s.openCount (fun item => item.householdId = householdId && item.targetUserId = targetId) = 0 := by
  rw [Households.openCount, List.countP_eq_zero]
  intro item hItem hOpen
  simp only [Bool.and_eq_true, decide_eq_true_eq] at hOpen
  refine h item (List.mem_filter.mpr ⟨hItem, ?_⟩) hOpen.1.2
  rw [Bool.and_eq_true, decide_eq_true_eq]
  exact ⟨hOpen.1.1, hOpen.2⟩

theorem InvitationEffect.sound (hEffect : InvitationEffect lifecycleGuard s next) (h : s.Sound) : next.Sound := by
  have hCalls : ∀ call ∈ next.calls, call.Sound next.db := fun call hCall =>
    (hEffect.newCall h.calls hCall).effect hEffect
  have hJoined : ∀ id ∈ s.joins, ∃ row, next.db.invitations.find? id = some row ∧ row.status = .accepted := by
    intro id hId
    obtain ⟨row, hRow, hStatus⟩ := h.joined id hId
    obtain ⟨later, hLater, hSame⟩ := hEffect.status hRow (by rw [hStatus]; decide)
    exact ⟨later, hLater, hSame.trans hStatus⟩
  refine ⟨hCalls, ?_, ?_, ?_⟩
  · cases hEffect with
    | accept i invitationId actorId invitation now isMember db hCall hGuard hDb =>
      intro id hId
      rcases List.mem_append.mp hId with hOld | hNew
      · exact hJoined id hOld
      · have hSame : id = invitation.id := by
          cases isMember with
          | true => cases hNew
          | false => exact List.mem_singleton.mp hNew
        obtain ⟨-, row, hRow, -⟩ := h.calls _ (List.mem_of_getElem? hCall)
        have hFound : db.invitations.find? invitation.id = some { row with status := .accepted } := by
          rw [(accept_some hDb).1, Table.find?_update, hRow, Option.map_some,
            if_pos (decide_eq_true (Table.find?_key hRow))]
        exact ⟨_, hSame ▸ hFound, rfl⟩
    | deny | invite | acceptAgain | revoke | remove =>
      intro id hId
      exact hJoined id (by simpa [Households.committed] using hId)
    | _ => exact hJoined
  · intro householdId
    rcases hEffect.openCount (fun item => item.householdId = householdId)
      (fun _ _ hAges => by rw [hAges.householdId]) with hLess | ⟨new, hNew, hMore, hRoom, -⟩
    · exact Nat.le_trans hLess (h.bounded householdId)
    · rw [of_decide_eq_true hNew, openInvitations_length] at hRoom
      exact Nat.le_trans hMore hRoom
  · intro householdId targetId
    rcases hEffect.openCount (fun item => item.householdId = householdId && item.targetUserId = targetId)
      (fun _ _ hAges => by rw [hAges.householdId, hAges.targetUserId]) with
      hLess | ⟨new, hNew, hMore, -, hFree⟩
    · exact Nat.le_trans hLess (h.single householdId targetId)
    · simp only [Bool.and_eq_true, decide_eq_true_eq] at hNew
      rw [hNew.1, hNew.2] at hFree
      rw [openCount_eq_zero hFree] at hMore
      exact hMore

end Invariant

section Acceptance

variable {s next : Households}

/-- A call of `AcceptAsync` that has returned `Accepted`. -/
def acceptedCall (invitationId actorId : String) : InvitationCall :=
  ⟨.accept invitationId actorId, .ended (.resolution .accepted)⟩

theorem getElem?_set_cases {calls : List InvitationCall} {i j : Nat} {call new : InvitationCall}
    (h : (calls.set j new)[i]? = some call) : new = call ∨ calls[i]? = some call := by
  rw [List.getElem?_set] at h
  split at h
  · split at h
    · exact .inl (Option.some.inj h)
    · cases h
  · exact .inr h

/-- The commit that returns `Accepted` leaves the actor a member. -/
theorem InvitationEffect.acceptance (hEffect : InvitationEffect lifecycleGuard s next) (h : s.Sound) {i : Nat}
    {invitationId actorId : String} (hBefore : s.calls[i]? ≠ some (acceptedCall invitationId actorId))
    (hAfter : next.calls[i]? = some (acceptedCall invitationId actorId)) :
    ∃ row, next.db.invitations.find? invitationId = some row ∧ next.db.isMember row.householdId actorId = true := by
  have hSet : ∀ {j : Nat} {new : InvitationCall},
      (s.calls.set j new)[i]? = some (acceptedCall invitationId actorId) → new = acceptedCall invitationId actorId :=
    fun hIn => (getElem?_set_cases hIn).resolve_right hBefore
  cases hEffect with
  | tick => exact absurd hAfter hBefore
  | receive request =>
    simp only [List.getElem?_append] at hAfter
    split at hAfter
    · exact absurd hAfter hBefore
    · cases List.mem_singleton.mp (List.mem_of_getElem? hAfter)
  | advance j request stage hSound hOpen =>
    cases hSet hAfter
    exact absurd rfl hOpen
  | deny j request event reply hCall =>
    have hReply : reply ≠ .resolution .accepted := h.calls _ (List.mem_of_getElem? hCall)
    cases hSet hAfter
    exact absurd rfl hReply
  | invite | revoke | remove => cases hSet hAfter
  | accept j otherId otherActor invitation now isMember db hCall hGuard hDb =>
    cases hSet hAfter
    obtain ⟨hRequest, row, hRow, hHousehold⟩ := h.calls _ (List.mem_of_getElem? hCall)
    cases hRequest
    obtain ⟨hInvitations, hMember⟩ := accept_some hDb
    have hFound : db.invitations.find? invitation.id = some { row with status := .accepted } := by
      rw [hInvitations, Table.find?_update, hRow, Option.map_some, if_pos (decide_eq_true (Table.find?_key hRow))]
    refine ⟨_, hFound, ?_⟩
    have hActor : db.isMember invitation.householdId invitation.targetUserId = true := hMember hGuard.2
    rw [← hHousehold] at hActor
    exact hActor
  | acceptAgain j otherId otherActor invitation now event hCall hGuard =>
    cases hSet hAfter
    obtain ⟨hRequest, row, hRow, hHousehold⟩ := h.calls _ (List.mem_of_getElem? hCall)
    cases hRequest
    have hActor : s.db.isMember invitation.householdId invitation.targetUserId = true := hGuard
    rw [← hHousehold] at hActor
    exact ⟨row, hRow, hActor⟩

end Acceptance

section Runs

variable {trimUpper : String → String} {start s t : Households}

/-- There are no invitations yet, and no call is under way. -/
structure Households.Initial (s : Households) : Prop where
  calls : s.calls = []
  joins : s.joins = []
  invitations : s.db.invitations.rows = []

theorem Households.Initial.sound (h : start.Initial) : start.Sound := by
  refine ⟨?_, ?_, ?_, ?_⟩
  · rw [h.calls]
    exact fun _ hCall => absurd hCall List.not_mem_nil
  · rw [h.joins]
    exact fun _ hId => absurd hId List.not_mem_nil
  · intro householdId
    rw [Households.openCount, h.invitations]
    exact Nat.zero_le _
  · intro householdId targetId
    rw [Households.openCount, h.invitations]
    exact Nat.zero_le _

theorem step_sound (op : InvitationOp) (h : s.Sound) (hGuard : runGuard lifecycleGuard op s) :
    (Households.step trimUpper op s).Sound := by
  have hStep : Households.step trimUpper op s = s ∨
      InvitationEffect lifecycleGuard s (Households.step trimUpper op s) := step_effect op hGuard
  rcases hStep with hSame | hEffect
  · rw [hSame]
    exact h
  · exact hEffect.sound h

theorem status_run (hRun : Reaches (Households.step trimUpper) (runGuard lifecycleGuard) s t) {invitationId : String}
    {row : HouseholdInvitation} (hRow : s.db.invitations.find? invitationId = some row)
    (hStatus : row.status ≠ .pending) :
    ∃ later, t.db.invitations.find? invitationId = some later ∧ later.status = row.status := by
  refine hRun.invariant (P := fun t => ∃ later, t.db.invitations.find? invitationId = some later ∧
    later.status = row.status) ⟨row, hRow, rfl⟩ ?_
  rintro op u ⟨later, hLater, hSame⟩ hGuard
  have hStep : Households.step trimUpper op u = u ∨
      InvitationEffect lifecycleGuard u (Households.step trimUpper op u) := step_effect op hGuard
  rcases hStep with hEq | hEffect
  · rw [hEq]
    exact ⟨later, hLater, hSame⟩
  · obtain ⟨last, hLast, hLastSame⟩ := hEffect.status hLater (hSame ▸ hStatus)
    exact ⟨last, hLast, hLastSame.trans hSame⟩

/-- The open invitations of a household only become fewer as time passes. -/
theorem Households.Sound.limits (h : s.Sound) (householdId : String) {instant : Int} (hInstant : s.now ≤ instant) :
    (s.db.openInvitations householdId instant).length ≤ maximumPendingInvitations ∧
      ∀ targetId, (s.db.openInvitations householdId instant).countP (fun item => item.targetUserId = targetId) ≤ 1 := by
  have hOpen : ∀ item : HouseholdInvitation, item.openAt instant = true → item.openAt s.now = true :=
    fun item => item.openAt_mono hInstant
  constructor
  · refine Nat.le_trans ?_ (h.bounded householdId)
    rw [BillingDatabase.openInvitations, ← List.countP_eq_length_filter]
    refine List.countP_mono_left fun item _ hItem => ?_
    rw [Bool.and_eq_true] at hItem ⊢
    exact ⟨hItem.1, hOpen item hItem.2⟩
  · intro targetId
    refine Nat.le_trans ?_ (h.single householdId targetId)
    rw [BillingDatabase.openInvitations, List.countP_filter]
    refine List.countP_mono_left fun item _ hItem => ?_
    simp only [Bool.and_eq_true, decide_eq_true_eq] at hItem ⊢
    exact ⟨⟨hItem.2.1, hItem.1⟩, hOpen item hItem.2.2⟩

end Runs

/-- In every run in which the commits still find what they rely on. -/
theorem invitation_lifecycle (trimUpper : String → String) (start s t : Households) (hStart : start.Initial)
    (hRun : Reaches (Households.step trimUpper) (runGuard lifecycleGuard) start s)
    (hLater : Reaches (Households.step trimUpper) (runGuard lifecycleGuard) s t) :
    (∀ invitationId row, s.db.invitations.find? invitationId = some row → row.status ≠ .pending →
      ∃ later, t.db.invitations.find? invitationId = some later ∧ later.status = row.status) ∧
    (∀ invitationId row, t.db.invitations.find? invitationId = some row → row.status = .revoked →
      invitationId ∉ t.joins) ∧
    (∀ (op : InvitationOp) (i : Nat) invitationId actorId, runGuard lifecycleGuard op t →
      t.calls[i]? ≠ some (acceptedCall invitationId actorId) →
      (Households.step trimUpper op t).calls[i]? = some (acceptedCall invitationId actorId) →
        ∃ row, (Households.step trimUpper op t).db.invitations.find? invitationId = some row ∧
          (Households.step trimUpper op t).db.isMember row.householdId actorId = true) ∧
    ∀ householdId instant, t.now ≤ instant →
      (t.db.openInvitations householdId instant).length ≤ maximumPendingInvitations ∧
        ∀ targetId, (t.db.openInvitations householdId instant).countP (fun item => item.targetUserId = targetId) ≤ 1 := by
  have hSound : t.Sound := (hRun.trans hLater).invariant hStart.sound fun op u hu hGuard => step_sound op hu hGuard
  refine ⟨fun invitationId row hRow hStatus => status_run hLater hRow hStatus, ?_, ?_,
    fun householdId instant hInstant => hSound.limits householdId hInstant⟩
  · intro invitationId row hRow hRevoked hJoined
    obtain ⟨found, hFound, hAccepted⟩ := hSound.joined invitationId hJoined
    rw [hRow, Option.some.injEq] at hFound
    rw [hFound, hAccepted] at hRevoked
    cases hRevoked
  · intro op i invitationId actorId hGuard hBefore hAfter
    have hStep : Households.step trimUpper op t = t ∨
        InvitationEffect lifecycleGuard t (Households.step trimUpper op t) := step_effect op hGuard
    rcases hStep with hSame | hEffect
    · exact absurd (hSame ▸ hAfter) hBefore
    · exact hEffect.acceptance hSound hBefore hAfter

section Samples

def sampleHouseholds : Households where
  now := 0
  db :=
    { users := ⟨[⟨"o", "OWNER"⟩, ⟨"u", "ADA"⟩], by simp [Distinct]⟩
      households := ⟨[⟨"h", "o"⟩], List.pairwise_singleton _ _⟩
      memberships := [("h", "o")]
      invitations := .empty
      auditEvents := [] }
  calls := []
  joins := []

/-- An invitation of Ada, and her acceptance. -/
def acceptanceSteps : List InvitationOp :=
  .call (.create "h" "o" "ADA") :: List.replicate 7 (.run 0 "inv") ++
    .call (.accept "inv" "u") :: List.replicate 3 (.run 1 "")

/-- The owner removes Ada, who accepts the same invitation again. -/
def secondAcceptanceSteps : List InvitationOp :=
  .call (.remove "h" "o" "u") :: List.replicate 3 (.run 2 "") ++ [.call (.accept "inv" "u"), .run 3 ""]

theorem accepted_invitation_joins :
    let s := runAll (Households.step id) sampleHouseholds acceptanceSteps
    s.joins = ["inv"] ∧ s.db.isMember "h" "u" = true ∧
      ∀ row, s.db.invitations.find? "inv" = some row → row.status ≠ .revoked := by
  intro s
  have hRun : GuardedAll (Households.step id) (runGuard lifecycleGuard) sampleHouseholds acceptanceSteps := by
    decide +kernel
  have hLaws := invitation_lifecycle id sampleHouseholds s s ⟨rfl, rfl, rfl⟩ hRun.reaches .refl
  refine ⟨by decide +kernel, by decide +kernel, ?_⟩
  intro row hRow hRevoked
  exact hLaws.2.1 "inv" row hRow hRevoked (by decide +kernel)

theorem removed_member_accepts_again :
    ¬∀ (trimUpper : String → String) (start s t : Households), start.Initial →
      Reaches (Households.step trimUpper) (fun _ _ => True) start s →
      Reaches (Households.step trimUpper) (fun _ _ => True) s t →
      (∀ invitationId row, s.db.invitations.find? invitationId = some row → row.status ≠ .pending →
        ∃ later, t.db.invitations.find? invitationId = some later ∧ later.status = row.status) ∧
      (∀ invitationId row, t.db.invitations.find? invitationId = some row → row.status = .revoked →
        invitationId ∉ t.joins) ∧
      (∀ (op : InvitationOp) (i : Nat) invitationId actorId, t.calls[i]? ≠ some (acceptedCall invitationId actorId) →
        (Households.step trimUpper op t).calls[i]? = some (acceptedCall invitationId actorId) →
          ∃ row, (Households.step trimUpper op t).db.invitations.find? invitationId = some row ∧
            (Households.step trimUpper op t).db.isMember row.householdId actorId = true) ∧
      ∀ householdId instant, t.now ≤ instant →
        (t.db.openInvitations householdId instant).length ≤ maximumPendingInvitations ∧
          ∀ targetId,
            (t.db.openInvitations householdId instant).countP (fun item => item.targetUserId = targetId) ≤ 1 := by
  intro h
  let s := runAll (Households.step id) sampleHouseholds (acceptanceSteps ++ secondAcceptanceSteps)
  have hMember := (h id sampleHouseholds s s ⟨rfl, rfl, rfl⟩ (reaches_runAll _ _ _) .refl).2.2.1 (.run 3 "") 3 "inv" "u"
    (by decide +kernel) (by decide +kernel)
  obtain ⟨row, hRow, hIn⟩ := hMember
  have hOut : ((Households.step id (.run 3 "") s).db.invitations.find? "inv").map (fun row =>
      (Households.step id (.run 3 "") s).db.isMember row.householdId "u") = some false := by decide +kernel
  rw [hRow, Option.map_some, hIn] at hOut
  cases hOut

end Samples

end CommandConsole.Billing
