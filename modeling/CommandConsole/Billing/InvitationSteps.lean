import CommandConsole.Billing.HouseholdInvitations

/-! # What one statement of an invitation call can do

Every step is a read that leads to the next stage, or one of the commits. A
stage that holds an invitation has read a row that is still stored, whatever
its status has become.
-/
namespace CommandConsole.Billing
open Library
set_option autoImplicit false

section Effects

/-- The row that was read is still there; only its status may have changed. -/
def BillingDatabase.Has (db : BillingDatabase) (invitation : HouseholdInvitation) : Prop :=
  ∃ row, db.invitations.find? invitation.id = some row ∧ row.householdId = invitation.householdId

/-- An invitation that a stage holds is the one that the request names, and a call that has not
committed has not accepted. -/
def InvitationCall.Sound (db : BillingDatabase) (call : InvitationCall) : Prop :=
  match call.stage with
  | .joining invitation _ | .accepting invitation _ _ | .acceptedBefore invitation _ =>
    call.request = .accept invitation.id invitation.targetUserId ∧ db.Has invitation
  | .denying _ reply => reply ≠ .resolution .accepted
  | _ => True

def runGuard (guard : Households → InvitationCall → Prop) : InvitationOp → Households → Prop
  | .run i _, s => ∀ call ∈ s.calls[i]?, guard s call
  | _, _ => True

instance (guard : Households → InvitationCall → Prop) [∀ s call, Decidable (guard s call)] :
    ∀ op s, Decidable (runGuard guard op s)
  | .run i _, s => inferInstanceAs (Decidable (∀ call ∈ s.calls[i]?, guard s call))
  | .tick _, _ | .call _, _ => inferInstanceAs (Decidable True)

/-- The state after a commit. -/
def Households.committed (s : Households) (i : Nat) (request : InvitationRequest) (db : BillingDatabase)
    (reply : InvitationReply) (joins : List String) : Households :=
  { s.setStage i request (.ended reply) with db, joins := s.joins ++ joins }

/-- Every step that the guard admits is one of these. -/
inductive InvitationEffect (guard : Households → InvitationCall → Prop) (s : Households) : Households → Prop where
  | tick (ms : Nat) : InvitationEffect guard s { s with now := s.now + ms }
  | receive (request : InvitationRequest) :
      InvitationEffect guard s { s with calls := s.calls ++ [⟨request, .received⟩] }
  | advance (i : Nat) (request : InvitationRequest) (stage : Stage)
      (hSound : (∀ call ∈ s.calls, call.Sound s.db) → InvitationCall.Sound s.db ⟨request, stage⟩)
      (hOpen : stage ≠ .ended (.resolution .accepted)) : InvitationEffect guard s (s.setStage i request stage)
  | deny (i : Nat) (request : InvitationRequest) (event : AuditEvent) (reply : InvitationReply)
      (hCall : s.calls[i]? = some ⟨request, .denying event reply⟩) :
      InvitationEffect guard s (s.committed i request (s.db.audit event) reply [])
  | invite (i : Nat) (newId householdId actorId targetUsername targetId : String) (now : Int) (db : BillingDatabase)
      (hGuard : guard s ⟨.create householdId actorId targetUsername, .inviting targetId now⟩)
      (hDb : s.db.invite newId householdId actorId targetId now = some db) :
      InvitationEffect guard s
        (s.committed i (.create householdId actorId targetUsername) db (.creation .created) [])
  | accept (i : Nat) (invitationId actorId : String) (invitation : HouseholdInvitation) (now : Int) (isMember : Bool)
      (db : BillingDatabase) (hCall : s.calls[i]? = some ⟨.accept invitationId actorId, .accepting invitation now isMember⟩)
      (hGuard : guard s ⟨.accept invitationId actorId, .accepting invitation now isMember⟩)
      (hDb : s.db.accept invitation actorId now isMember = some db) :
      InvitationEffect guard s
        (s.committed i (.accept invitationId actorId) db (.resolution .accepted)
          (if isMember then [] else [invitation.id]))
  | acceptAgain (i : Nat) (invitationId actorId : String) (invitation : HouseholdInvitation) (now : Int)
      (event : AuditEvent) (hCall : s.calls[i]? = some ⟨.accept invitationId actorId, .acceptedBefore invitation now⟩)
      (hGuard : guard s ⟨.accept invitationId actorId, .acceptedBefore invitation now⟩) :
      InvitationEffect guard s
        (s.committed i (.accept invitationId actorId) (s.db.audit event) (.resolution .accepted) [])
  | revoke (i : Nat) (invitationId actorId : String) (invitation : HouseholdInvitation) (now : Int)
      (db : BillingDatabase) (hGuard : guard s ⟨.revoke invitationId actorId, .revoking invitation now⟩)
      (hDb : s.db.revoke invitation actorId now = some db) :
      InvitationEffect guard s (s.committed i (.revoke invitationId actorId) db (.resolution .revoked) [])
  | remove (i : Nat) (householdId actorId memberUserId : String) (db : BillingDatabase)
      (hDb : s.db.remove householdId actorId memberUserId s.now = some db) :
      InvitationEffect guard s (s.committed i (.remove householdId actorId memberUserId) db (.removal .removed) [])

end Effects

section Steps

variable {trimUpper : String → String} {guard : Households → InvitationCall → Prop} {s : Households} {i : Nat}

theorem Households.commit_cases (s : Households) (i : Nat) (request : InvitationRequest) (db? : Option BillingDatabase)
    (reply : InvitationReply) (joins : List String) :
    s.commit i request db? reply joins = s.setStage i request (.ended .threw) ∨
      ∃ db, db? = some db ∧ s.commit i request db? reply joins = s.committed i request db reply joins := by
  cases db? with
  | none => exact .inl rfl
  | some db => exact .inr ⟨db, rfl, rfl⟩

/-- A stage without an invitation whose reply, if any, is not an acceptance. -/
def Stage.plain : Stage → Bool
  | .joining _ _ | .accepting _ _ _ | .acceptedBefore _ _ => false
  | .denying _ reply | .ended reply => reply ≠ .resolution .accepted
  | _ => true

theorem advance_plain (request : InvitationRequest) {stage : Stage} (h : stage.plain = true) :
    InvitationEffect guard s (s.setStage i request stage) := by
  refine .advance i request stage (fun _ => ?_) ?_
  · cases stage with
    | joining | accepting | acceptedBefore => cases h
    | denying event reply =>
      have hReply : reply ≠ .resolution .accepted := of_decide_eq_true h
      exact hReply
    | _ => trivial
  · rintro rfl
    cases h

theorem advance_same {request : InvitationRequest} {stage : Stage} (hCall : s.calls[i]? = some ⟨request, stage⟩)
    (hOpen : ∀ reply, stage ≠ .ended reply) : InvitationEffect guard s (s.setStage i request stage) :=
  .advance i request stage (fun hSound => hSound _ (List.mem_of_getElem? hCall)) (hOpen _)

section Reads

variable {householdId actorId targetUsername memberUserId invitationId : String} {stage : Stage}

/-- The reads of `CreateAsync` hold no invitation, and neither do those of the next two. -/
theorem createStage_cases : (s.createStage trimUpper householdId actorId targetUsername stage).plain = true ∨
    s.createStage trimUpper householdId actorId targetUsername stage = stage := by
  unfold Households.createStage
  split
  · left
    split
    · rfl
    · split <;> rfl
  · left
    split <;> rfl
  · left
    split
    · rfl
    · split
      · rfl
      · split <;> rfl
  · left
    split <;> rfl
  · left
    split <;> rfl
  · left
    split <;> rfl
  · exact .inr rfl

theorem revokeStage_cases : (s.revokeStage invitationId actorId stage).plain = true ∨
    s.revokeStage invitationId actorId stage = stage := by
  unfold Households.revokeStage
  split
  · left
    split
    · rfl
    · split <;> rfl
  · exact .inr rfl

theorem removeStage_cases : (s.removeStage householdId actorId memberUserId stage).plain = true ∨
    s.removeStage householdId actorId memberUserId stage = stage := by
  unfold Households.removeStage
  split
  · left
    split
    · rfl
    · split
      · rfl
      · split <;> rfl
  · left
    split <;> rfl
  · exact .inr rfl

theorem read_effect {request : InvitationRequest} {next : Stage} (hCall : s.calls[i]? = some ⟨request, stage⟩)
    (hOpen : ∀ reply, stage ≠ .ended reply) (h : next.plain = true ∨ next = stage) :
    InvitationEffect guard s (s.setStage i request next) := by
  obtain hPlain | rfl := h
  · exact advance_plain _ hPlain
  · exact advance_same hCall hOpen

/-- The reads of `AcceptAsync`. -/
theorem acceptStage_effect (hCall : s.calls[i]? = some ⟨.accept invitationId actorId, stage⟩)
    (hOpen : ∀ reply, stage ≠ .ended reply) :
    InvitationEffect guard s
      (s.setStage i (.accept invitationId actorId) (s.acceptStage invitationId actorId stage)) := by
  unfold Households.acceptStage
  split
  · split
    · exact advance_plain _ rfl
    · rename_i invitation hFind
      obtain rfl := Table.find?_key hFind
      split
      · exact advance_plain _ rfl
      · rename_i hTarget
        obtain rfl := Decidable.of_not_not hTarget
        have hHas : s.db.Has invitation := ⟨invitation, hFind, rfl⟩
        split
        · exact .advance i _ _ (fun _ => ⟨rfl, hHas⟩) (by rintro ⟨⟩)
        · split
          · exact advance_plain _ rfl
          · exact .advance i _ _ (fun _ => ⟨rfl, hHas⟩) (by rintro ⟨⟩)
  · rename_i invitation now
    refine .advance i _ _ (fun hSound => ?_) (by rintro ⟨⟩)
    have hJoining : InvitationCall.Sound s.db ⟨.accept invitationId actorId, .joining invitation now⟩ :=
      hSound _ (List.mem_of_getElem? hCall)
    exact hJoining
  · exact advance_same hCall hOpen

end Reads

theorem commit_effect {request : InvitationRequest} {db? : Option BillingDatabase} {reply : InvitationReply}
    {joins : List String}
    (h : ∀ db, db? = some db → InvitationEffect guard s (s.committed i request db reply joins)) :
    InvitationEffect guard s (s.commit i request db? reply joins) := by
  obtain hEq | ⟨db, hDb, hEq⟩ := s.commit_cases i request db? reply joins
  · rw [hEq]
    exact advance_plain _ rfl
  · rw [hEq]
    exact h db hDb

section Commits

variable {newId householdId actorId targetUsername memberUserId invitationId : String} {stage : Stage}

theorem runCreate_effect (hCall : s.calls[i]? = some ⟨.create householdId actorId targetUsername, stage⟩)
    (hGuard : guard s ⟨.create householdId actorId targetUsername, stage⟩) (hOpen : ∀ reply, stage ≠ .ended reply) :
    InvitationEffect guard s (s.runCreate trimUpper i newId householdId actorId targetUsername stage) := by
  unfold Households.runCreate
  split
  · exact commit_effect fun db hDb => .invite i newId _ _ _ _ _ db hGuard hDb
  · exact read_effect hCall hOpen createStage_cases

theorem runAccept_effect (hCall : s.calls[i]? = some ⟨.accept invitationId actorId, stage⟩)
    (hGuard : guard s ⟨.accept invitationId actorId, stage⟩) (hOpen : ∀ reply, stage ≠ .ended reply) :
    InvitationEffect guard s (s.runAccept i invitationId actorId stage) := by
  unfold Households.runAccept
  split
  · exact commit_effect fun db hDb => .accept i _ _ _ _ _ db hCall hGuard hDb
  · refine commit_effect ?_
    rintro db ⟨⟩
    exact .acceptAgain i _ _ _ _ _ hCall hGuard
  · exact acceptStage_effect hCall hOpen

theorem runRevoke_effect (hCall : s.calls[i]? = some ⟨.revoke invitationId actorId, stage⟩)
    (hGuard : guard s ⟨.revoke invitationId actorId, stage⟩) (hOpen : ∀ reply, stage ≠ .ended reply) :
    InvitationEffect guard s (s.runRevoke i invitationId actorId stage) := by
  unfold Households.runRevoke
  split
  · exact commit_effect fun db hDb => .revoke i _ _ _ _ db hGuard hDb
  · exact read_effect hCall hOpen revokeStage_cases

theorem runRemove_effect (hCall : s.calls[i]? = some ⟨.remove householdId actorId memberUserId, stage⟩)
    (hOpen : ∀ reply, stage ≠ .ended reply) :
    InvitationEffect guard s (s.runRemove i householdId actorId memberUserId stage) := by
  unfold Households.runRemove
  split
  · exact commit_effect fun db hDb => .remove i _ _ _ db hDb
  · exact read_effect hCall hOpen removeStage_cases

end Commits

theorem runCall_effect {newId : String} {call : InvitationCall} (hCall : s.calls[i]? = some call)
    (hGuard : guard s call) :
    s.runCall trimUpper i newId call = s ∨ InvitationEffect guard s (s.runCall trimUpper i newId call) := by
  obtain ⟨request, stage⟩ := call
  unfold Households.runCall
  split
  · rename_i event reply hStage
    cases hStage
    refine .inr (commit_effect ?_)
    rintro db ⟨⟩
    exact .deny i request event reply hCall
  · exact .inl rfl
  · rename_i hOpen
    right
    cases request with
    | create householdId actorId targetUsername => exact runCreate_effect hCall hGuard hOpen
    | accept invitationId actorId => exact runAccept_effect hCall hGuard hOpen
    | revoke invitationId actorId => exact runRevoke_effect hCall hGuard hOpen
    | remove householdId actorId memberUserId => exact runRemove_effect hCall hOpen

theorem step_effect (op : InvitationOp) (hGuard : runGuard guard op s) :
    Households.step trimUpper op s = s ∨ InvitationEffect guard s (Households.step trimUpper op s) := by
  cases op with
  | tick ms => exact .inr (.tick ms)
  | call request => exact .inr (.receive request)
  | run i newId =>
    rw [Households.step]
    split
    · exact .inl rfl
    · rename_i call hCall
      exact runCall_effect hCall (hGuard call hCall)

end Steps

end CommandConsole.Billing
