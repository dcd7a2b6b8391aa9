import CommandConsole.Recovery.RequestController

/-! # What the events of a request replay to

The events of one request begin with its creation, a preview is followed by its policy
decision, and nothing follows an end. From this the status of a readable request is
known from the events that occur.
-/
namespace CommandConsole.Recovery
open Library
open Execution (trimmed ReplayPolicy evaluateRecoveryPolicy evaluateRecoveryPolicy_allowed)
set_option autoImplicit false

theorem getRecoveryRequest_eq (log : List AuditLine) (recoveryRequestId : String) :
    getRecoveryRequest log recoveryRequestId =
      if trimmed recoveryRequestId = "" then none
      else requestOf (history (log.drop (log.length - 5000)) (trimmed recoveryRequestId)) := by
  unfold getRecoveryRequest buildRequestFromEvents listRecoveryAuditEvents listAuditEvents history eventsOf
  rw [List.filterMap_reverse, List.filter_reverse, List.reverse_reverse]
  rfl

theorem history_append (log later : List AuditLine) (recoveryRequestId : String) :
    history (log ++ later) recoveryRequestId = history log recoveryRequestId ++ history later recoveryRequestId := by
  rw [history, List.filterMap_append, eventsOf_append]
  rfl

theorem filterMap_events (events : List RecoveryEvent) : (events.map some).filterMap id = events := by
  rw [List.filterMap_map]
  exact List.filterMap_some

theorem history_events_self {events : List RecoveryEvent} {recoveryRequestId : String}
    (h : ∀ event ∈ events, event.requestId = recoveryRequestId) :
    history (events.map some) recoveryRequestId = events := by
  rw [history, filterMap_events, eventsOf_self _ h]

theorem history_events_other {events : List RecoveryEvent} {recoveryRequestId : String}
    (h : ∀ event ∈ events, event.requestId ≠ recoveryRequestId) :
    history (events.map some) recoveryRequestId = [] := by
  rw [history, filterMap_events, eventsOf_other _ h]

theorem mem_history {log : List AuditLine} {recoveryRequestId : String} {event : RecoveryEvent} :
    event ∈ history log recoveryRequestId ↔ some event ∈ log ∧ event.requestId = recoveryRequestId := by
  rw [history, mem_eventsOf, List.mem_filterMap]
  simp

/-- The window keeps the newest events of every request. -/
theorem history_drop (log : List AuditLine) (n : Nat) (recoveryRequestId : String) :
    ∃ lost, history log recoveryRequestId = lost ++ history (log.drop n) recoveryRequestId :=
  ⟨history (log.take n) recoveryRequestId, by rw [← history_append, List.take_append_drop]⟩

section Events

/-- What the fields of a recorded event are, by its type. -/
structure Formed (event : RecoveryEvent) : Prop where
  decision : event.type = .policyDecision → ∃ policy, policy.allowed = true ∧
    event.payload.policy = some policy ∧ event.payload.status = some (policyStatus policy)
  undecided : event.type ≠ .policyDecision → event.payload.policy = none
  unpreviewed : event.type ≠ .previewed → event.payload.preview = none

/-- The types after which a request is over. -/
def RecoveryEvent.ends (event : RecoveryEvent) : Bool :=
  event.type ∈ [.committed, .blocked, .failed, .cancelled]

def Ended (events : List RecoveryEvent) : Prop := ∃ event ∈ events, event.ends = true

theorem policyStatus_allowed {policy : ReplayPolicy} (h : policy.allowed = true) :
    policyStatus policy = if policy.requiresApproval then .awaitingApproval else .previewed := by
  simp [policyStatus, h]

theorem transition_decision {event : RecoveryEvent} (hFormed : Formed event) (h : event.type = .policyDecision) :
    ∃ policy transition, policy.allowed = true ∧ event.payload.policy = some policy ∧
      getTransitionEventForAudit event = some transition ∧
      ∀ status, transitionState status transition = if status = some .requested then some (policyStatus policy) else none := by
  obtain ⟨policy, hAllowed, hPolicy, hStatus⟩ := hFormed.decision h
  rw [policyStatus_allowed hAllowed] at hStatus
  cases hApproval : policy.requiresApproval with
  | true =>
    simp only [hApproval, if_true] at hStatus
    refine ⟨policy, .markAwaitingApproval, hAllowed, hPolicy, by simp [getTransitionEventForAudit, h, hStatus], ?_⟩
    intro status
    rw [policyStatus_allowed hAllowed, hApproval]
    cases status with
    | none => rfl
    | some status => cases status <;> rfl
  | false =>
    simp only [hApproval] at hStatus
    refine ⟨policy, .markPreviewed, hAllowed, hPolicy, by simp_all [getTransitionEventForAudit], ?_⟩
    intro status
    rw [policyStatus_allowed hAllowed, hApproval]
    cases status with
    | none => rfl
    | some status => cases status <;> rfl

theorem transitionState_ends {transition : LifecycleEvent}
    (hKind : transition ∈ [.commitSuccess, .commitBlock, .fail, .cancel]) {status : Option RecoveryStatus}
    {next : RecoveryStatus} (h : transitionState status transition = some next) : next.terminal = true := by
  simp only [List.mem_cons, List.not_mem_nil, or_false] at hKind
  cases status with
  | none => rcases hKind with rfl | rfl | rfl | rfl <;> cases h
  | some status =>
    rcases hKind with rfl | rfl | rfl | rfl <;> cases status <;> first | cases h; rfl | cases h

theorem transition_ends {event : RecoveryEvent} (h : event.ends = true) :
    ∃ transition, getTransitionEventForAudit event = some transition ∧
      ∀ status next, transitionState status transition = some next → next.terminal = true := by
  have hType : event.type = .committed ∨ event.type = .blocked ∨ event.type = .failed ∨ event.type = .cancelled := by
    simpa [RecoveryEvent.ends] using h
  obtain hType | hType | hType | hType := hType
  · exact ⟨.commitSuccess, by simp [getTransitionEventForAudit, hType], fun _ _ => transitionState_ends (by simp)⟩
  · exact ⟨.commitBlock, by simp [getTransitionEventForAudit, hType], fun _ _ => transitionState_ends (by simp)⟩
  · exact ⟨.fail, by simp [getTransitionEventForAudit, hType], fun _ _ => transitionState_ends (by simp)⟩
  · exact ⟨.cancel, by simp [getTransitionEventForAudit, hType], fun _ _ => transitionState_ends (by simp)⟩

/-- A step of the replay by the type of its event. -/
inductive Absorbs (request next : RecoveryRequest) (event : RecoveryEvent) : Prop where
  | created (h : event.type = .requested) (hFrom : request.status = none)
      (hNext : next = request.merge event.payload (some .requested))
  | decided (policy : ReplayPolicy) (h : event.type = .policyDecision) (hFrom : request.status = some .requested)
      (hAllowed : policy.allowed = true) (hPolicy : event.payload.policy = some policy)
      (hNext : next = request.merge event.payload (some (policyStatus policy)))
  | approved (h : event.type = .approved) (hFrom : request.status = some .awaitingApproval)
      (hNext : next = request.merge event.payload (some .approved))
  | ended (status : RecoveryStatus) (h : event.ends = true) (hTerminal : status.terminal = true)
      (hFrom : ∀ before, request.status = some before → before.terminal = false) (hSome : request.status.isSome = true)
      (hNext : next = request.merge event.payload (some status))
  | noted (h : event.type = .previewed ∨ event.type = .commitAttempt)
      (hNext : next = request.merge event.payload request.status)

theorem absorb_cases {request next : RecoveryRequest} {event : RecoveryEvent} (hFormed : Formed event)
    (h : absorb request event = some next) : Absorbs request next event := by
  unfold absorb at h
  cases hType : event.type with
  | requested =>
    simp only [getTransitionEventForAudit, hType] at h
    cases hStatus : request.status with
    | none => exact .created hType hStatus (by simpa [hStatus, transitionState] using h.symm)
    | some status => cases status <;> simp [hStatus, transitionState] at h
  | policyDecision =>
    obtain ⟨policy, transition, hAllowed, hPolicy, hTransition, hNext⟩ := transition_decision hFormed hType
    simp only [hTransition, hNext] at h
    split at h
    · rename_i hStatus
      exact .decided policy hType hStatus hAllowed hPolicy (by simpa using h.symm)
    · cases h
  | approved =>
    simp only [getTransitionEventForAudit, hType] at h
    cases hStatus : request.status with
    | none => simp [hStatus, transitionState] at h
    | some status =>
      cases status <;> simp [hStatus, transitionState] at h
      exact .approved hType hStatus h.symm
  | previewed =>
    simp only [getTransitionEventForAudit, hType] at h
    exact .noted (Or.inl hType) (Option.some.inj h).symm
  | commitAttempt =>
    simp only [getTransitionEventForAudit, hType] at h
    exact .noted (Or.inr hType) (Option.some.inj h).symm
  | committed | blocked | failed | cancelled =>
    have hEnds : event.ends = true := by simp [RecoveryEvent.ends, hType]
    obtain ⟨transition, hTransition, hTerminal⟩ := transition_ends hEnds
    simp only [hTransition] at h
    obtain ⟨status, hStep, hNext⟩ := Option.map_eq_some_iff.mp h
    refine .ended status hEnds (hTerminal _ _ hStep) ?_ ?_ hNext.symm
    · intro before hBefore
      by_contra hOver
      rw [hBefore, transitionState_terminal (by simpa using hOver)] at hStep
      cases hStep
    · cases hBefore : request.status with
      | some _ => rfl
      | none =>
        have hFirst : getTransitionEventForAudit event ≠ some .createRequest := by
          simp [getTransitionEventForAudit, hType]
        rw [hBefore] at hStep
        cases transition <;> first | exact absurd hTransition hFirst | cases hStep

end Events

section Replays

variable {events : List RecoveryEvent} {request : RecoveryRequest}

theorem requestOf_eq_some : requestOf events = some request ↔ events ≠ [] ∧ replay absorb {} events = some request := by
  unfold requestOf
  split <;> simp_all

/-- What the policy of a request says of its status. -/
structure Ruled (request : RecoveryRequest) : Prop where
  unruled : request.status = none ∨ request.status = some .requested → request.policy = none
  ruled : ∀ policy, request.policy = some policy → policy.allowed = true ∧
    (request.status = some (policyStatus policy) ∨
      request.status = some .approved ∧ policy.requiresApproval = true ∨
      request.status.any RecoveryStatus.terminal = true)

theorem ruled_absorb {next : RecoveryRequest} {event : RecoveryEvent} (hFormed : Formed event) (hRuled : Ruled request)
    (h : absorb request event = some next) : Ruled next := by
  have hKept (hType : event.type ≠ .policyDecision) (status : Option RecoveryStatus) :
      (request.merge event.payload status).policy = request.policy := by
    rw [RecoveryRequest.merge, hFormed.undecided hType]
    rfl
  have hEnds (hOver : event.ends = true) : event.type ≠ .policyDecision := by
    intro hType
    simp [RecoveryEvent.ends, hType] at hOver
  cases absorb_cases hFormed h with
  | created hType hFrom hNext =>
    have hNone : next.policy = none := by
      rw [hNext, hKept (by simp [hType]), hRuled.unruled (Or.inl hFrom)]
    exact ⟨fun _ => hNone, by simp [hNone]⟩
  | decided policy hType hFrom hAllowed hPolicy hNext =>
    have hNew : next.policy = some policy := by
      rw [hNext, RecoveryRequest.merge, hPolicy]
      rfl
    have hStatus : next.status = some (policyStatus policy) := by rw [hNext]; rfl
    refine ⟨fun hEarly => ?_, fun other hOther => ?_⟩
    · rw [hStatus, policyStatus_allowed hAllowed] at hEarly
      split at hEarly <;> simp at hEarly
    · obtain rfl := Option.some.inj (hNew.symm.trans hOther)
      exact ⟨hAllowed, Or.inl hStatus⟩
  | approved hType hFrom hNext =>
    have hStatus : next.status = some .approved := by rw [hNext]; rfl
    refine ⟨by simp [hStatus], fun policy hPolicy => ?_⟩
    rw [hNext, hKept (by simp [hType])] at hPolicy
    obtain ⟨hAllowed, hHere | ⟨-, hApproval⟩ | hOver⟩ := hRuled.ruled policy hPolicy
    · rw [hFrom, policyStatus_allowed hAllowed] at hHere
      cases hApproval : policy.requiresApproval with
      | true => exact ⟨hAllowed, Or.inr (Or.inl ⟨hStatus, rfl⟩)⟩
      | false => simp [hApproval] at hHere
    · exact ⟨hAllowed, Or.inr (Or.inl ⟨hStatus, hApproval⟩)⟩
    · rw [hFrom] at hOver
      cases hOver
  | ended status hOver hTerminal hFrom hSome hNext =>
    have hStatus : next.status = some status := by rw [hNext]; rfl
    refine ⟨fun hEarly => ?_, fun policy hPolicy => ?_⟩
    · rw [hStatus] at hEarly
      rcases hEarly with hEarly | hEarly
      · cases hEarly
      · rw [Option.some.inj hEarly] at hTerminal
        cases hTerminal
    · rw [hNext, hKept (hEnds hOver)] at hPolicy
      exact ⟨(hRuled.ruled policy hPolicy).1, Or.inr (Or.inr (by simp [hStatus, hTerminal]))⟩
  | noted hType hNext =>
    have hSame : next.policy = request.policy := by
      rw [hNext, hKept (by rcases hType with hType | hType <;> simp [hType])]
    have hStatus : next.status = request.status := by rw [hNext]; rfl
    exact ⟨fun hEarly => hSame ▸ hRuled.unruled (hStatus ▸ hEarly),
      fun policy hPolicy => hStatus ▸ hRuled.ruled policy (hSame ▸ hPolicy)⟩

theorem ruled_of_replay (hFormed : ∀ event ∈ events, Formed event) (h : replay absorb {} events = some request) :
    Ruled request :=
  replay_invariant h ⟨fun _ => rfl, fun _ hPolicy => by cases hPolicy⟩ hFormed
    fun _ _ _ hRuled hEvent => ruled_absorb hEvent hRuled

/-- A readable request is over exactly when an ending is among its events. -/
theorem terminal_of_ended (hFormed : ∀ event ∈ events, Formed event) (hEnded : Ended events)
    (h : replay absorb {} events = some request) : request.status.any RecoveryStatus.terminal = true := by
  obtain ⟨event, hIn, hOver⟩ := hEnded
  obtain ⟨front, later, rfl⟩ := List.append_of_mem hIn
  obtain ⟨middle, -, hRest⟩ := replay_front h
  rw [replay_cons] at hRest
  obtain ⟨next, hNext, hLater⟩ := Option.bind_eq_some_iff.mp hRest
  refine replay_invariant (P := fun r => r.status.any RecoveryStatus.terminal = true) hLater ?_
    (fun other hOther => hFormed other (by simp [hOther])) ?_
  · have hEnding := transition_ends hOver
    obtain ⟨transition, hTransition, hTerminal⟩ := hEnding
    rw [absorb, hTransition] at hNext
    obtain ⟨status, hStep, rfl⟩ := Option.map_eq_some_iff.mp hNext
    simpa [RecoveryRequest.merge] using hTerminal _ _ hStep
  · intro r other t hOverNow hOther hAbsorb
    cases absorb_cases hOther hAbsorb with
    | created _ hFrom _ => simp [hFrom] at hOverNow
    | decided _ _ hFrom _ _ _ => rw [hFrom] at hOverNow; cases hOverNow
    | approved _ hFrom _ => rw [hFrom] at hOverNow; cases hOverNow
    | ended status _ hTerminal _ _ hThen => simp [hThen, RecoveryRequest.merge, hTerminal]
    | noted _ hThen => simpa [hThen, RecoveryRequest.merge] using hOverNow

theorem not_terminal_of_open (hFormed : ∀ event ∈ events, Formed event) (hOpen : ¬Ended events)
    (h : replay absorb {} events = some request) : request.status.any RecoveryStatus.terminal = false := by
  refine replay_invariant (P := fun r => r.status.any RecoveryStatus.terminal = false) h rfl
    (?_ : ∀ event ∈ events, Formed event ∧ event.ends = false) ?_
  · intro event hIn
    refine ⟨hFormed event hIn, ?_⟩
    by_contra hOver
    exact hOpen ⟨event, hIn, by simpa using hOver⟩
  · rintro r event t hNow ⟨hEvent, hGoes⟩ hAbsorb
    cases absorb_cases hEvent hAbsorb with
    | created _ _ hThen => simp [hThen, RecoveryRequest.merge, RecoveryStatus.terminal]
    | decided policy _ _ hAllowed _ hThen =>
      rw [hThen, RecoveryRequest.merge, policyStatus_allowed hAllowed]
      cases policy.requiresApproval <;> rfl
    | approved _ _ hThen => simp [hThen, RecoveryRequest.merge, RecoveryStatus.terminal]
    | ended _ hOver _ _ _ _ => rw [hGoes] at hOver; cases hOver
    | noted _ hThen => simpa [hThen, RecoveryRequest.merge] using hNow

/-- The last event of a replay leaves its fields on top. -/
theorem replay_last (hSome : events ≠ [])
    (h : replay absorb {} events = some request) :
    ∃ last ∈ events, ∃ before status, request = RecoveryRequest.merge before last.payload status := by
  obtain rfl | ⟨front, last, rfl⟩ := List.eq_nil_or_concat' events
  · exact absurd rfl hSome
  · obtain ⟨middle, -, hLast⟩ := replay_front h
    rw [replay_cons] at hLast
    obtain ⟨next, hNext, hDone⟩ := Option.bind_eq_some_iff.mp hLast
    obtain rfl := Option.some.inj hDone
    refine ⟨last, by simp, middle, ?_⟩
    unfold absorb at hNext
    split at hNext
    · obtain ⟨status, -, rfl⟩ := Option.map_eq_some_iff.mp hNext
      exact ⟨some status, rfl⟩
    · exact ⟨_, (Option.some.inj hNext).symm⟩

theorem replay_requestId {recoveryRequestId : String} (hSome : events ≠ []) (hBlank : recoveryRequestId ≠ "")
    (hKey : ∀ event ∈ events, event.requestId = recoveryRequestId) (h : replay absorb {} events = some request) :
    request.recoveryRequestId = recoveryRequestId := by
  obtain ⟨last, hIn, before, status, rfl⟩ := replay_last hSome h
  change orText last.requestId before.recoveryRequestId = recoveryRequestId
  rw [hKey last hIn, orText, if_neg hBlank]

/-- The order in which the events of one request are written. -/
structure Ordered (events : List RecoveryEvent) : Prop where
  first : ∀ event later, events = event :: later →
    event.type = .requested ∧ ∀ other ∈ later, other.type ≠ .requested
  decided : ∀ front event later, events = front ++ event :: later → event.type = .previewed →
    ∃ decision ∈ later, decision.type = .policyDecision

/-- Before its creation nothing of a request has a transition. -/
theorem untransitioned (hFormed : ∀ event ∈ events, Formed event) (hLate : ∀ event ∈ events, event.type ≠ .requested)
    {start : RecoveryRequest} (hStart : start.status = none) (h : replay absorb start events = some request) :
    ∀ event ∈ events, event.type = .previewed ∨ event.type = .commitAttempt := by
  induction events generalizing start with
  | nil => simp
  | cons first rest ih =>
    rw [replay_cons] at h
    obtain ⟨next, hNext, hRest⟩ := Option.bind_eq_some_iff.mp h
    have hFirst : next.status = none ∧ (first.type = .previewed ∨ first.type = .commitAttempt) := by
      cases absorb_cases (hFormed first List.mem_cons_self) hNext with
      | created hType _ _ => exact absurd hType (hLate first List.mem_cons_self)
      | decided _ _ hFrom _ _ _ => rw [hStart] at hFrom; cases hFrom
      | approved _ hFrom _ => rw [hStart] at hFrom; cases hFrom
      | ended _ _ _ _ hSome _ => rw [hStart] at hSome; cases hSome
      | noted hType hThen => exact ⟨by simp [hThen, RecoveryRequest.merge, hStart], hType⟩
    intro event hIn
    rcases List.mem_cons.mp hIn with rfl | hIn
    · exact hFirst.2
    · exact ih (fun other hOther => hFormed other (List.mem_cons_of_mem _ hOther))
        (fun other hOther => hLate other (List.mem_cons_of_mem _ hOther)) hFirst.1 hRest event hIn

/-- A preview that can still be read comes with all the events of its request. -/
theorem nothing_lost {lost kept : List RecoveryEvent} (hFormed : ∀ event ∈ lost ++ kept, Formed event)
    (hOrdered : Ordered (lost ++ kept)) (h : replay absorb {} kept = some request)
    (hPreview : request.preview ≠ none) : lost = [] := by
  cases lost with
  | nil => rfl
  | cons first rest =>
    have hLate (event : RecoveryEvent) (hIn : event ∈ kept) : event.type ≠ .requested :=
      (hOrdered.first first (rest ++ kept) rfl).2 event (List.mem_append_right _ hIn)
    have hKept (event : RecoveryEvent) (hIn : event ∈ kept) : Formed event :=
      hFormed event (List.mem_append_right _ hIn)
    have hTypes := untransitioned hKept hLate rfl h
    have hAttempts (event : RecoveryEvent) (hIn : event ∈ kept) : event.payload.preview = none := by
      apply (hKept event hIn).unpreviewed
      intro hType
      obtain ⟨front, later, rfl⟩ := List.append_of_mem hIn
      obtain ⟨decision, hLater, hDecision⟩ :=
        hOrdered.decided (first :: rest ++ front) event later (by simp) hType
      rcases hTypes decision (by simp [hLater]) with hOther | hOther <;> rw [hDecision] at hOther <;> cases hOther
    refine absurd (replay_invariant (P := fun r => r.preview = none) h rfl hAttempts ?_) hPreview
    intro r event t hNone hEvent hAbsorb
    have hMerged (status : Option RecoveryStatus) : (r.merge event.payload status).preview = none := by
      rw [RecoveryRequest.merge, hEvent, hNone]
      rfl
    unfold absorb at hAbsorb
    split at hAbsorb
    · obtain ⟨status, -, rfl⟩ := Option.map_eq_some_iff.mp hAbsorb
      exact hMerged _
    · exact Option.some.inj hAbsorb ▸ hMerged _

end Replays

end CommandConsole.Recovery
