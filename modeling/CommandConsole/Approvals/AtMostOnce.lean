import CommandConsole.Approvals.Gate

/-! # At most one execution

What is pending when an execution ends was pending all the time, so nobody else has decided
it. A call that ends its execution on a request that another call has decided in the meantime
executes it again, or approves what was rejected.
-/
namespace CommandConsole.Approvals
open Library
set_option autoImplicit false

section Statement

def GateEvent.executes (event : GateEvent) (approvalId : String) : Bool :=
  match event with
  | .executed executedId _ => executedId = approvalId
  | _ => false

/-- What holds of the history and the document at any time. -/
structure AtMostOnce (store : GateStore) : Prop where
  once : ∀ approvalId, (store.history.filter fun event => event.executes approvalId).length ≤ 1
  independent : ∀ approvalId actorId, .executed approvalId actorId ∈ store.history →
    ∃ request, getApprovalRequest store.document approvalId = some request ∧ request.requestedById ≠ actorId
  notRejected : store.history.Pairwise fun earlier later =>
    ∀ approvalId, earlier = .rejected approvalId → later.executes approvalId = false
  failedPending : ∀ before after, .failed before after ∈ store.history →
    ∃ request, before = some request ∧ request.status = .pending ∧
      (after = some request ∨ ∃ now error, after = some (request.attempted now error))

/-- A decision that is stored stays as it is. -/
def Settled (before after : GateStore) : Prop :=
  ∀ approvalId request, getApprovalRequest before.document approvalId = some request → request.status ≠ .pending →
    ∃ later, getApprovalRequest after.document approvalId = some later ∧ later.status = request.status

/-- The ids of new requests are not in use. -/
def GateCall.Fresh (input : GateInput) (call : GateCall) (store : GateStore) : Prop :=
  match call.request, call.stage with
  | .ask .., .received => getApprovalRequest store.document input.newId = none
  | _, _ => True

/-- The request whose execution ends is pending. -/
def GateCall.StillPending (call : GateCall) (store : GateStore) : Prop :=
  match call.stage with
  | .executing request =>
    ∀ stored ∈ getApprovalRequest store.document request.id, stored.status = .pending
  | _ => True

def FreshIds (turn : GateTurn) (crowd : Gate) : Prop :=
  match turn with
  | .advance index input => ∀ call ∈ crowd.calls[index]?, call.Fresh input crowd.store
  | _ => True

def Undisturbed (turn : GateTurn) (crowd : Gate) : Prop :=
  match turn with
  | .advance index input => ∀ call ∈ crowd.calls[index]?, call.Fresh input crowd.store ∧ call.StillPending crowd.store
  | _ => True

section Decidable

instance (input : GateInput) (call : GateCall) (store : GateStore) : Decidable (call.Fresh input store) := by
  unfold GateCall.Fresh
  split <;> infer_instance

instance (call : GateCall) (store : GateStore) : Decidable (call.StillPending store) := by
  unfold GateCall.StillPending
  split <;> infer_instance

instance (turn : GateTurn) (crowd : Gate) : Decidable (FreshIds turn crowd) := by
  unfold FreshIds
  split <;> infer_instance

instance (turn : GateTurn) (crowd : Gate) : Decidable (Undisturbed turn crowd) := by
  unfold Undisturbed
  split <;> infer_instance

end Decidable

end Statement

section Document

variable {document : ApprovalDocument} {approvalId other : String} {change : ApprovalRequest → ApprovalRequest}

@[simp] theorem approvals_saveApprovals (approvals : List ApprovalRequest) :
    (saveApprovals approvals).approvals = approvals.drop (approvals.length - 100) := by
  dsimp only [saveApprovals]

theorem saveApprovals_of_le {approvals : List ApprovalRequest} (h : approvals.length ≤ 100) :
    (saveApprovals approvals).approvals = approvals := by
  rw [approvals_saveApprovals, Nat.sub_eq_zero_of_le h, List.drop_zero]

@[simp] theorem length_changeFirst (approvals : List ApprovalRequest) :
    (changeFirst approvalId change approvals).length = approvals.length := by
  induction approvals with
  | nil => rfl
  | cons item items ih =>
    rw [changeFirst]
    split
    · rfl
    · rw [List.length_cons, ih, List.length_cons]

theorem find?_changeFirst (hId : ∀ item, (change item).id = item.id) (approvals : List ApprovalRequest) :
    ((changeFirst approvalId change approvals).find? fun item => item.id = other) =
      if other = approvalId then (approvals.find? fun item => item.id = other).map change
      else approvals.find? fun item => item.id = other := by
  induction approvals with
  | nil => simp [changeFirst]
  | cons item items ih =>
    rw [changeFirst]
    by_cases hItem : item.id = approvalId
    · rw [if_pos hItem]
      by_cases hOther : other = approvalId
      · simp [hItem, hOther, hId]
      · simp [hItem, hOther, hId, Ne.symm hOther]
    · rw [if_neg hItem]
      by_cases hFound : item.id = other
      · have hOther : other ≠ approvalId := fun h => hItem (hFound.trans h)
        simp [hFound, hOther]
      · simp only [List.find?_cons, hFound, decide_false, ih]

/-- An update changes the request of its id and no other. -/
theorem getApprovalRequest_update (hId : ∀ item, (change item).id = item.id) :
    getApprovalRequest (updateApprovalRequest document approvalId change).2 other =
      if other = approvalId then (getApprovalRequest document other).map change
      else getApprovalRequest document other := by
  unfold updateApprovalRequest
  split
  · rename_i hNone
    split
    · rename_i hOther
      rw [hOther, hNone]
      rfl
    · rfl
  · have hLength : (changeFirst approvalId change document.approvals).length ≤ 100 := by
      rw [length_changeFirst]
      exact document.bounded
    rw [getApprovalRequest, saveApprovals_of_le hLength]
    exact find?_changeFirst hId document.approvals

theorem getApprovalRequest_resolve {request : ApprovalRequest} {now : Nat} (hId : ∀ item, (change item).id = item.id)
    (hStored : getApprovalRequest document approvalId = some request) :
    getApprovalRequest (resolveApprovalRequest document approvalId now change).2 approvalId =
      some { change request with resolvedAt := some now } := by
  unfold resolveApprovalRequest
  rw [getApprovalRequest_update, if_pos rfl, hStored]
  · rfl
  · exact hId

theorem updateApprovalRequest_fst :
    (updateApprovalRequest document approvalId change).1 = (getApprovalRequest document approvalId).map change := by
  unfold updateApprovalRequest
  split
  · rename_i hNone
    rw [hNone]
    rfl
  · rename_i item hItem
    rw [hItem]
    rfl

/-- A new request does not hide a stored one. -/
theorem getApprovalRequest_create {next request : ApprovalRequest}
    (hFresh : getApprovalRequest document next.id = none)
    (hStored : getApprovalRequest document other = some request) :
    getApprovalRequest (createApprovalRequest document next) other = some request := by
  have hNe : next.id ≠ other := by
    rintro rfl
    rw [hFresh] at hStored
    cases hStored
  rw [createApprovalRequest, getApprovalRequest, approvals_saveApprovals]
  by_cases hFull : document.approvals.length = 100
  · have hDrop : (next :: document.approvals).length - 100 = 1 := by rw [List.length_cons, hFull]
    rw [hDrop, List.drop_one, List.tail_cons]
    exact hStored
  · have hDrop : (next :: document.approvals).length - 100 = 0 := by
      rw [List.length_cons]
      have hBounded := document.bounded
      omega
    rw [hDrop, List.drop_zero, List.find?_cons_of_neg (by simpa using hNe)]
    exact hStored

end Document

section Histories

/-- Stored requests stay, with their requesters, and what is decided stays decided. -/
def Keeps (before after : ApprovalDocument) : Prop :=
  ∀ approvalId request, getApprovalRequest before approvalId = some request →
    ∃ later, getApprovalRequest after approvalId = some later ∧ later.requestedById = request.requestedById ∧
      (request.status ≠ .pending → later.status = request.status)

instance : Std.Refl Keeps where
  refl _ _ request hRequest := ⟨request, hRequest, rfl, fun _ => rfl⟩

instance : IsTrans ApprovalDocument Keeps where
  trans _ _ _ h h' approvalId request hRequest := by
    obtain ⟨later, hLater, hRequester, hStatus⟩ := h approvalId request hRequest
    obtain ⟨last, hLast, hRequester', hStatus'⟩ := h' approvalId later hLater
    refine ⟨last, hLast, hRequester'.trans hRequester, fun hDecided => ?_⟩
    have hSame := hStatus hDecided
    exact (hStatus' (hSame ▸ hDecided)).trans hSame

/-- What the history says is what is stored. -/
structure Sound (store : GateStore) : Prop extends AtMostOnce store where
  approved : ∀ approvalId actorId, .executed approvalId actorId ∈ store.history →
    ∃ request, getApprovalRequest store.document approvalId = some request ∧ request.status = .approved
  rejected : ∀ approvalId, .rejected approvalId ∈ store.history →
    ∃ request, getApprovalRequest store.document approvalId = some request ∧ request.status = .rejected

variable {store : GateStore} {document : ApprovalDocument} {approvalId : String}

theorem executes_iff {event : GateEvent} : event.executes approvalId = true ↔ ∃ actorId, event = .executed approvalId actorId := by
  cases event with
  | executed executedId actorId => simp [GateEvent.executes]
  | failed before after => simp [GateEvent.executes]
  | rejected rejectedId => simp [GateEvent.executes]

/-- A pending request has been neither executed nor rejected. -/
theorem Sound.pending_fresh (h : Sound store) {request : ApprovalRequest}
    (hStored : getApprovalRequest store.document approvalId = some request) (hPending : request.status = .pending) :
    ∀ event ∈ store.history, event.executes approvalId = false ∧ event ≠ .rejected approvalId := by
  intro event hEvent
  refine ⟨Bool.eq_false_iff.mpr fun hExecutes => ?_, ?_⟩
  · obtain ⟨actorId, rfl⟩ := executes_iff.mp hExecutes
    obtain ⟨other, hOther, hStatus⟩ := h.approved approvalId actorId hEvent
    rw [Option.some.inj (hStored.symm.trans hOther), hStatus] at hPending
    cases hPending
  · rintro rfl
    obtain ⟨other, hOther, hStatus⟩ := h.rejected approvalId hEvent
    rw [Option.some.inj (hStored.symm.trans hOther), hStatus] at hPending
    cases hPending

theorem Sound.keep (h : Sound store) (hKeeps : Keeps store.document document) :
    Sound ⟨document, store.history⟩ := by
  refine ⟨⟨h.once, fun approvalId actorId hEvent => ?_, h.notRejected, h.failedPending⟩,
    fun approvalId actorId hEvent => ?_, fun approvalId hEvent => ?_⟩
  · obtain ⟨request, hRequest, hNe⟩ := h.independent approvalId actorId hEvent
    obtain ⟨later, hLater, hRequester, -⟩ := hKeeps approvalId request hRequest
    exact ⟨later, hLater, hRequester ▸ hNe⟩
  · obtain ⟨request, hRequest, hApproved⟩ := h.approved approvalId actorId hEvent
    obtain ⟨later, hLater, -, hStatus⟩ := hKeeps approvalId request hRequest
    exact ⟨later, hLater, (hStatus (hApproved ▸ nofun)).trans hApproved⟩
  · obtain ⟨request, hRequest, hRejected⟩ := h.rejected approvalId hEvent
    obtain ⟨later, hLater, -, hStatus⟩ := hKeeps approvalId request hRequest
    exact ⟨later, hLater, (hStatus (hRejected ▸ nofun)).trans hRejected⟩

theorem pairwise_concat {R : GateEvent → GateEvent → Prop} {history : List GateEvent} {event : GateEvent}
    (h : history.Pairwise R) (hLast : ∀ earlier ∈ history, R earlier event) : (history ++ [event]).Pairwise R := by
  refine List.pairwise_append.mpr ⟨h, List.pairwise_singleton _ _, fun earlier hEarlier last hMem => ?_⟩
  obtain rfl := List.mem_singleton.mp hMem
  exact hLast earlier hEarlier

theorem Sound.execute (h : Sound store) {actorId : String} {request : ApprovalRequest}
    (hFresh : ∀ event ∈ store.history, event.executes approvalId = false ∧ event ≠ .rejected approvalId)
    (hStored : getApprovalRequest store.document approvalId = some request) (hApproved : request.status = .approved)
    (hNe : request.requestedById ≠ actorId) : Sound ⟨store.document, store.history ++ [.executed approvalId actorId]⟩ := by
  refine ⟨⟨fun other => ?_, fun other otherId hEvent => ?_, ?_, fun before after hEvent => ?_⟩,
    fun other otherId hEvent => ?_, fun other hEvent => ?_⟩
  · rw [List.filter_append, List.length_append]
    by_cases hOther : approvalId = other
    · subst hOther
      have hNone : (store.history.filter fun event => event.executes approvalId) = [] :=
        List.filter_eq_nil_iff.mpr fun event hEvent => by simp [(hFresh event hEvent).1]
      rw [hNone, List.length_nil, Nat.zero_add]
      exact List.length_filter_le _ [GateEvent.executed approvalId actorId]
    · have hNone : ([GateEvent.executed approvalId actorId].filter fun event => event.executes other) = [] := by
        simp [GateEvent.executes, hOther]
      rw [hNone]
      exact h.once other
  · rcases List.mem_append.mp hEvent with hOld | hNew
    · exact h.independent other otherId hOld
    · cases List.mem_singleton.mp hNew
      exact ⟨request, hStored, hNe⟩
  · refine pairwise_concat h.notRejected ?_
    rintro _ hEarlier other rfl
    refine Bool.eq_false_iff.mpr fun hExecutes => ?_
    have hSame : approvalId = other := of_decide_eq_true hExecutes
    exact (hFresh _ hEarlier).2 (by rw [hSame])
  · rcases List.mem_append.mp hEvent with hOld | hNew
    · exact h.failedPending before after hOld
    · cases List.mem_singleton.mp hNew
  · rcases List.mem_append.mp hEvent with hOld | hNew
    · exact h.approved other otherId hOld
    · cases List.mem_singleton.mp hNew
      exact ⟨request, hStored, hApproved⟩
  · rcases List.mem_append.mp hEvent with hOld | hNew
    · exact h.rejected other hOld
    · cases List.mem_singleton.mp hNew

/-- An event that is no execution, of which its own clause holds. -/
theorem Sound.record (h : Sound store) {event : GateEvent} (hNot : ∀ other, event.executes other = false)
    (hRejected : ∀ rejectedId, event = .rejected rejectedId →
      ∃ request, getApprovalRequest store.document rejectedId = some request ∧ request.status = .rejected)
    (hFailed : ∀ before after, event = .failed before after →
      ∃ request, before = some request ∧ request.status = .pending ∧
        (after = some request ∨ ∃ now error, after = some (request.attempted now error))) :
    Sound ⟨store.document, store.history ++ [event]⟩ := by
  have hOther : ∀ other actorId, GateEvent.executed other actorId ∈ store.history ++ [event] →
      GateEvent.executed other actorId ∈ store.history := by
    intro other actorId hEvent
    rcases List.mem_append.mp hEvent with hOld | hNew
    · exact hOld
    · have hExecutes := hNot other
      rw [← List.mem_singleton.mp hNew, executes_iff.mpr ⟨actorId, rfl⟩] at hExecutes
      cases hExecutes
  refine ⟨⟨fun other => ?_, fun other actorId hEvent => h.independent other actorId (hOther other actorId hEvent), ?_,
    fun before after hEvent => ?_⟩, fun other actorId hEvent => h.approved other actorId (hOther other actorId hEvent),
    fun other hEvent => ?_⟩
  · have hNone : ([event].filter fun event => event.executes other) = [] := by simp [hNot]
    rw [List.filter_append, hNone, List.append_nil]
    exact h.once other
  · exact pairwise_concat h.notRejected fun earlier _ other _ => hNot other
  · rcases List.mem_append.mp hEvent with hOld | hNew
    · exact h.failedPending before after hOld
    · exact hFailed before after (List.mem_singleton.mp hNew).symm
  · rcases List.mem_append.mp hEvent with hOld | hNew
    · exact h.rejected other hOld
    · exact hRejected other (List.mem_singleton.mp hNew).symm

end Histories

section Sections

variable {keyOf : RequestIdentity → String} {input : GateInput} {store : GateStore} {document : ApprovalDocument}
  {approvalId : String} {actor : ApprovalActor} {governance : Governance}

/-- What a decision is made on. -/
theorem requirePendingDecision_ok {request : ApprovalRequest}
    (h : requirePendingDecision document approvalId actor governance = .ok request) :
    getApprovalRequest document request.id = some request ∧ request.status = .pending ∧
      request.requestedById ≠ actor.id := by
  unfold requirePendingDecision at h
  split at h
  · cases h
  · rename_i found hFound
    obtain ⟨hGet, -⟩ := Option.filter_eq_some_iff.mp hFound
    have hId : found.id = approvalId := by simpa using List.find?_some hGet
    split at h
    · cases h
    · rename_i hPending
      split at h
      · cases h
      · rename_i hOther
        split at h
        · cases h
        · cases hBoundary : assertTerminalEnvironmentBoundary found.action found.payload actor.workspaceId governance
              found.environment with
          | error error =>
            rw [hBoundary] at h
            cases h
          | ok _ =>
            rw [hBoundary] at h
            cases h
            exact ⟨hId ▸ hGet, not_not.mp hPending, hOther⟩

theorem keeps_update {change : ApprovalRequest → ApprovalRequest} (hId : ∀ item, (change item).id = item.id)
    (hRequester : ∀ item, (change item).requestedById = item.requestedById)
    (hPending : ∀ stored ∈ getApprovalRequest document approvalId, stored.status = .pending) :
    Keeps document (updateApprovalRequest document approvalId change).2 := by
  intro other request hRequest
  rw [getApprovalRequest_update hId]
  split
  · rename_i hOther
    rw [hRequest]
    exact ⟨change request, rfl, hRequester request, fun hNot => absurd (hPending request (hOther ▸ hRequest)) hNot⟩
  · exact ⟨request, hRequest, rfl, fun _ => rfl⟩

/-- The actor of an execution under way is not the requester. -/
def GateCall.Known (store : GateStore) (call : GateCall) : Prop :=
  match call.request, call.stage with
  | .approve _ actor _, .executing request =>
    ∃ stored, getApprovalRequest store.document request.id = some stored ∧ stored.requestedById ≠ actor.id
  | _, _ => True

theorem GateCall.Known.later {after : GateStore} {call : GateCall} (h : call.Known store)
    (hKeeps : Keeps store.document after.document) : call.Known after := by
  obtain ⟨request, stage⟩ := call
  cases request with
  | approve approvalId actor governance =>
    cases stage with
    | executing request =>
      obtain ⟨stored, hStored, hNe⟩ := h
      obtain ⟨later, hLater, hRequester, -⟩ := hKeeps _ stored hStored
      exact ⟨later, hLater, hRequester ▸ hNe⟩
    | _ => trivial
  | _ => trivial

theorem ask_keeps {action environment : String} {payload : ActionPayload}
    (hFresh : getApprovalRequest document input.newId = none) :
    Keeps document (requestSensitiveActionApproval keyOf input action payload actor environment document).2 := by
  unfold requestSensitiveActionApproval
  split
  · exact Std.Refl.refl document
  · split
    · exact Std.Refl.refl document
    · split
      · exact Std.Refl.refl document
      · dsimp only
        split
        · exact Std.Refl.refl document
        · intro other request hRequest
          exact ⟨request, getApprovalRequest_create hFresh hRequest, rfl, fun _ => rfl⟩

theorem reject_sound {note : String} (h : Sound store) :
    Sound (rejectSensitiveActionApproval input approvalId note actor governance store).2 ∧
      Keeps store.document (rejectSensitiveActionApproval input approvalId note actor governance store).2.document := by
  unfold rejectSensitiveActionApproval
  split
  · exact ⟨h, Std.Refl.refl _⟩
  · rename_i request hDecision
    obtain ⟨hStored, hPending, -⟩ := requirePendingDecision_ok hDecision
    have hKeeps : Keeps store.document (resolveApprovalRequest store.document request.id input.now
        fun item => item.rejectedBy actor note).2 := by
      refine keeps_update (fun _ => rfl) (fun _ => rfl) fun stored hMem => ?_
      rw [← Option.some.inj (hStored.symm.trans hMem)]
      exact hPending
    refine ⟨(h.keep hKeeps).record (fun _ => rfl) ?_ (fun _ _ hEvent => (nomatch hEvent)), hKeeps⟩
    rintro _ ⟨⟩
    refine ⟨_, getApprovalRequest_resolve ?_ hStored, rfl⟩
    exact fun _ => rfl

/-- The end of an execution on a request that is still pending. -/
theorem approve_sound (approvalId : String) (governance : Governance) (h : Sound store) {request : ApprovalRequest}
    (hKnown : ∃ stored, getApprovalRequest store.document request.id = some stored ∧ stored.requestedById ≠ actor.id)
    (hPending : ∀ stored ∈ getApprovalRequest store.document request.id, stored.status = .pending) :
    Sound (approveSensitiveActionApproval input approvalId actor governance (.executing request) store).2 ∧
      Keeps store.document
        (approveSensitiveActionApproval input approvalId actor governance (.executing request) store).2.document := by
  obtain ⟨stored, hStored, hNe⟩ := hKnown
  have hStoredPending := hPending stored hStored
  unfold approveSensitiveActionApproval
  dsimp only
  split
  · refine ⟨h.record (fun _ => rfl) (fun _ hEvent => (nomatch hEvent)) ?_, Std.Refl.refl _⟩
    rintro _ _ ⟨⟩
    exact ⟨stored, hStored, hStoredPending, .inl hStored⟩
  · rename_i error _
    have hKeeps : Keeps store.document (updateApprovalRequest store.document request.id
        fun item => item.attempted input.now error).2 := keeps_update (fun _ => rfl) (fun _ => rfl) hPending
    refine ⟨(h.keep hKeeps).record (fun _ => rfl) (fun _ hEvent => (nomatch hEvent)) ?_, hKeeps⟩
    rintro _ _ ⟨⟩
    refine ⟨stored, hStored, hStoredPending, .inr ⟨input.now, error, ?_⟩⟩
    rw [updateApprovalRequest_fst, hStored]
    rfl
  · have hKeeps : Keeps store.document (resolveApprovalRequest store.document request.id input.now
        fun item => item.approvedBy actor input.now).2 := keeps_update (fun _ => rfl) (fun _ => rfl) hPending
    have hApproved : getApprovalRequest (resolveApprovalRequest store.document request.id input.now
        fun item => item.approvedBy actor input.now).2 request.id =
          some { stored.approvedBy actor input.now with resolvedAt := some input.now } := by
      refine getApprovalRequest_resolve ?_ hStored
      exact fun _ => rfl
    exact ⟨(h.keep hKeeps).execute (h.pending_fresh hStored hStoredPending) hApproved rfl hNe, hKeeps⟩

theorem section_sound {call : GateCall} (h : Sound store) (hFresh : call.Fresh input store)
    (hPending : call.StillPending store) (hKnown : call.Known store) :
    Sound (call.section keyOf input store).2 ∧ Keeps store.document (call.section keyOf input store).2.document ∧
      GateCall.Known (call.section keyOf input store).2 { call with stage := (call.section keyOf input store).1 } := by
  obtain ⟨request, stage⟩ := call
  cases request with
  | ask action payload actor environment =>
    cases stage with
    | received => exact ⟨h.keep (ask_keeps hFresh), ask_keeps hFresh, trivial⟩
    | _ => exact ⟨h, Std.Refl.refl _, trivial⟩
  | reject approvalId note actor governance =>
    cases stage with
    | received => exact ⟨(reject_sound h).1, (reject_sound h).2, trivial⟩
    | _ => exact ⟨h, Std.Refl.refl _, trivial⟩
  | approve approvalId actor governance =>
    cases stage with
    | received =>
      dsimp only [GateCall.section, approveSensitiveActionApproval]
      split
      · exact ⟨h, Std.Refl.refl _, trivial⟩
      · rename_i request hDecision
        obtain ⟨hStored, -, hNe⟩ := requirePendingDecision_ok hDecision
        exact ⟨h, Std.Refl.refl _, request, hStored, hNe⟩
    | executing request =>
      obtain ⟨hSound, hKeeps⟩ := approve_sound approvalId governance h hKnown hPending
      refine ⟨hSound, hKeeps, ?_⟩
      dsimp only [GateCall.section, approveSensitiveActionApproval]
      split <;> trivial
    | ended reply => exact ⟨h, Std.Refl.refl _, trivial⟩

end Sections

section Runs

variable {keyOf : RequestIdentity → String} {document : ApprovalDocument} {crowd later : Gate}

theorem sound_start (document : ApprovalDocument) : Sound ⟨document, []⟩ := by
  refine ⟨⟨fun _ => Nat.zero_le 1, fun _ _ hEvent => ?_, .nil, fun _ _ hEvent => ?_⟩, fun _ _ hEvent => ?_, fun _ hEvent => ?_⟩
  · cases hEvent
  · cases hEvent
  · cases hEvent
  · cases hEvent

theorem run_sound (h : Reaches (Crowd.step (gateRules keyOf)) Undisturbed (Crowd.init ⟨document, []⟩) crowd) :
    Sound crowd.store ∧ ∀ call ∈ crowd.calls, call.Known crowd.store := by
  refine Crowd.invariant (P := Sound) (Q := fun call store => call.Known store)
    (R := fun before after => Keeps before.document after.document) h (sound_start document) ?_ ?_ ?_ ?_
  · rintro request _ -
    cases request <;> trivial
  · intro index input call crowd hGuard hCall hSound hKnown
    exact section_sound hSound (hGuard call hCall).1 (hGuard call hCall).2 hKnown
  · exact fun op => nomatch op
  · exact fun call _ _ hKeeps hKnown => hKnown.later hKeeps

theorem run_keeps (h : Reaches (Crowd.step (gateRules keyOf)) Undisturbed (Crowd.init ⟨document, []⟩) crowd)
    (hLater : Reaches (Crowd.step (gateRules keyOf)) Undisturbed crowd later) :
    Keeps crowd.store.document later.store.document := by
  refine Crowd.relates_later (R := fun before after => Keeps before.document after.document) h hLater ?_
    fun op => nomatch op
  intro index input call crowd hRun hGuard hCall
  obtain ⟨hSound, hKnown⟩ := run_sound hRun
  exact (section_sound hSound (hGuard call hCall).1 (hGuard call hCall).2
    (hKnown call (List.mem_of_getElem? hCall))).2.1

/-- In the runs in which every execution ends on a pending request. -/
theorem sensitive_actions_execute_once
    (h : Reaches (Crowd.step (gateRules keyOf)) Undisturbed (Crowd.init ⟨document, []⟩) crowd)
    (hLater : Reaches (Crowd.step (gateRules keyOf)) Undisturbed crowd later) :
    AtMostOnce later.store ∧ Settled crowd.store later.store := by
  refine ⟨(run_sound (h.trans hLater)).1.toAtMostOnce, fun approvalId request hRequest hDecided => ?_⟩
  obtain ⟨last, hLast, -, hStatus⟩ := run_keeps h hLater approvalId request hRequest
  exact ⟨last, hLast, hStatus hDecided⟩

end Runs

section Examples

def requester : ApprovalActor := ⟨"operator_1", "workspace_1", "Omar", "omar@example.test", .operator, by decide, by decide⟩

def firstApprover : ApprovalActor := ⟨"approver_1", "workspace_1", "Ana", "ana@example.test", .approver, by decide, by decide⟩

def secondApprover : ApprovalActor := ⟨"admin_1", "workspace_1", "Ada", "ada@example.test", .admin, by decide, by decide⟩

def noGovernance : Governance := ⟨none, [], []⟩

def stopWatcher : GateTurn := .enter (.ask "watcher:stop" ⟨none, none, none, "maintenance"⟩ requester "development")

def approveBy (actor : ApprovalActor) : GateTurn := .enter (.approve "approval_1" actor noGovernance)

def turnOf (index : Nat) (result : ExecutionResult) : GateTurn := .advance index ⟨"approval_1", 1, result⟩

def actionKey (identity : RequestIdentity) : String := identity.action

def gateAfter (turns : List GateTurn) : Gate :=
  runAll (Crowd.step (gateRules actionKey)) (Crowd.init ⟨⟨[], by decide⟩, []⟩) turns

def statusOf (crowd : Gate) : Option ApprovalStatus :=
  (getApprovalRequest crowd.store.document "approval_1").map ApprovalRequest.status

/-- An execution that fails, then one that succeeds. -/
def secondTry : List GateTurn :=
  [stopWatcher, turnOf 0 .threw, approveBy firstApprover, turnOf 1 .threw, turnOf 1 (.failed none),
    approveBy secondApprover, turnOf 2 .threw, turnOf 2 (.succeeded "stopped")]

theorem sensitive_actions_execute_once_retried :
    statusOf (gateAfter secondTry) = some .approved ∧
      AtMostOnce (gateAfter secondTry).store ∧ Settled (gateAfter secondTry).store (gateAfter secondTry).store :=
  ⟨by decide +kernel, sensitive_actions_execute_once (GuardedAll.reaches (by decide +kernel)) .refl⟩

/-- Two approvers start the execution before either has ended. -/
def twoApprovers : List GateTurn :=
  [stopWatcher, turnOf 0 .threw, approveBy firstApprover, approveBy secondApprover, turnOf 1 .threw, turnOf 2 .threw,
    turnOf 1 (.succeeded "stopped"), turnOf 2 (.succeeded "stopped")]

/-- A rejection comes while the action is executed. -/
def rejectedMeanwhile : List GateTurn :=
  [stopWatcher, turnOf 0 .threw, approveBy firstApprover, turnOf 1 .threw,
    .enter (.reject "approval_1" "not now" secondApprover noGovernance), turnOf 2 .threw,
    turnOf 1 (.succeeded "stopped")]

theorem sensitive_actions_execute_again :
    (gateAfter twoApprovers).store.history = [.executed "approval_1" "approver_1", .executed "approval_1" "admin_1"] ∧
    (gateAfter rejectedMeanwhile).store.history = [.rejected "approval_1", .executed "approval_1" "approver_1"] ∧
    (statusOf (gateAfter (rejectedMeanwhile.take 6)) = some .rejected ∧
      statusOf (gateAfter rejectedMeanwhile) = some .approved) ∧
    ¬ ∀ keyOf document crowd later,
      Reaches (Crowd.step (gateRules keyOf)) FreshIds (Crowd.init ⟨document, []⟩) crowd →
      Reaches (Crowd.step (gateRules keyOf)) FreshIds crowd later →
        AtMostOnce later.store ∧ Settled crowd.store later.store := by
  have hHistory : (gateAfter twoApprovers).store.history =
      [.executed "approval_1" "approver_1", .executed "approval_1" "admin_1"] := by decide +kernel
  refine ⟨hHistory, by decide +kernel, by decide +kernel, fun h => ?_⟩
  have hRun : Reaches (Crowd.step (gateRules actionKey)) FreshIds (Crowd.init ⟨⟨[], by decide⟩, []⟩)
      (gateAfter twoApprovers) := GuardedAll.reaches (by decide +kernel)
  have hOnce := (h actionKey _ _ _ hRun .refl).1.once "approval_1"
  rw [hHistory] at hOnce
  revert hOnce
  decide

end Examples

end CommandConsole.Approvals
