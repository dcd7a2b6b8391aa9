import CommandConsole.Recovery.RequestHistories
import CommandConsole.Library.Slots
import Mathlib.Data.List.DropRight

/-! # The turns of the recovery controller

What one turn can do to the log and to the calls in flight, and what every turn with a
fresh request id preserves of the log. -/
namespace CommandConsole.Recovery
open Library
open Execution (trimmed isSpace evaluateRecoveryPolicy evaluateRecoveryPolicy_allowed)
set_option autoImplicit false

section RequestIds

theorem isSpace_digit {c : Char} (h : c.isDigit = true ∨ c.isLower = true) : isSpace c = false := by
  have hAll : ['\t', '\n', '\x0b', '\x0c', '\r', ' ', '\u00a0', '\u1680', '\u2000', '\u2001', '\u2002',
      '\u2003', '\u2004', '\u2005', '\u2006', '\u2007', '\u2008', '\u2009', '\u200a', '\u2028', '\u2029', '\u202f',
      '\u205f', '\u3000', '\ufeff'].all (fun space => !space.isDigit && !space.isLower) = true := by decide +kernel
  by_contra hSpace
  simp only [isSpace, Bool.not_eq_false, decide_eq_true_eq] at hSpace
  have hIn := List.all_eq_true.mp hAll c hSpace
  rw [Bool.and_eq_true, Bool.not_eq_true', Bool.not_eq_true'] at hIn
  simp [hIn] at h

/-- A text that begins and ends with no space is its own trim. -/
theorem trimmed_of_ends (first last : Char) {text middle : List Char} (hFirst : isSpace first = false)
    (hLast : isSpace last = false) (hEnds : text = first :: middle) (hEnds' : text.reverse = last :: (text.reverse).tail) :
    trimmed (String.ofList text) = String.ofList text := by
  unfold trimmed
  rw [String.toList_ofList, hEnds, List.dropWhile_cons_of_neg (by simp [hFirst]), ← hEnds, hEnds',
    List.dropWhile_cons_of_neg (by simp [hLast]), ← hEnds', List.reverse_reverse]

/-- The trim of a text has no space at either end. -/
theorem trimmed_trimmed (text : String) : trimmed (trimmed text) = trimmed text := by
  have hFront : ∀ first ∈ ((text.toList.dropWhile isSpace).reverse.dropWhile isSpace).reverse.head?,
      isSpace first = false := by
    intro first hFirst
    have hPrefix : ((text.toList.dropWhile isSpace).reverse.dropWhile isSpace).reverse <+:
        text.toList.dropWhile isSpace := by
      rw [← List.reverse_suffix, List.reverse_reverse]
      exact List.dropWhile_suffix isSpace
    obtain ⟨rest, hRest⟩ := hPrefix
    have hHead : (text.toList.dropWhile isSpace).head? = some first := by
      rw [← hRest, List.head?_append, hFirst]
      rfl
    have hNot := List.head?_dropWhile_not isSpace text.toList
    rw [hHead] at hNot
    simpa using hNot
  have hKeep : ((text.toList.dropWhile isSpace).reverse.dropWhile isSpace).reverse.dropWhile isSpace =
      ((text.toList.dropWhile isSpace).reverse.dropWhile isSpace).reverse := by
    generalize ((text.toList.dropWhile isSpace).reverse.dropWhile isSpace).reverse = kept at hFront ⊢
    cases kept with
    | nil => rfl
    | cons first rest => exact List.dropWhile_cons_of_neg (by simp [hFront first rfl])
  unfold trimmed
  rw [String.toList_ofList, hKeep, List.reverse_reverse, List.dropWhile_idempotent]

theorem createRecoveryRequestId_toList (now : Nat) (random : RandomText) :
    (createRecoveryRequestId now random).toList =
      'r' :: ("ecovery_".toList ++ (toString now).toList ++ '_' :: random.text.toList) := by
  simp [createRecoveryRequestId, String.toList_append]

theorem trimmed_createRecoveryRequestId (now : Nat) (random : RandomText) :
    trimmed (createRecoveryRequestId now random) = createRecoveryRequestId now random := by
  have hText := createRecoveryRequestId_toList now random
  rw [← String.ofList_toList (s := createRecoveryRequestId now random)]
  obtain hNil | ⟨front, last, hLast⟩ := List.eq_nil_or_concat' random.text.toList
  · exact trimmed_of_ends 'r' '_' (by decide) (by decide) hText (by simp [hText, hNil])
  · refine trimmed_of_ends 'r' last (by decide) (isSpace_digit (random.digits last (by simp [hLast]))) hText ?_
    simp [hText, hLast]

theorem createRecoveryRequestId_ne (now : Nat) (random : RandomText) : createRecoveryRequestId now random ≠ "" := by
  intro hEmpty
  have hText := createRecoveryRequestId_toList now random
  rw [hEmpty] at hText
  cases hText

end RequestIds

/-- What a turn does, with what it read. -/
inductive Effect (turn : RecoveryTurn) (system next : RecoverySystem) : Prop where
  | idle (h : next = system)
  | began (executionId recoveryMode requestedBy : String) (pending : PendingRequest)
      (hTurn : turn = .requestRecovery executionId recoveryMode requestedBy)
      (hPending : requestRecovery system.log executionId recoveryMode requestedBy = .ok pending)
      (h : next = { system with requests := system.requests ++ [pending] })
  | dropped (index : Nat) (h : next = { system with requests := system.requests.eraseIdx index })
  | created (index now : Nat) (random : RandomText) (pending : PendingRequest) (plan : PlanRecord)
      (hTurn : turn = .planBuilt index (.ok plan) now random) (hPending : system.requests[index]? = some pending)
      (h : next = RecoverySystem.record { system with requests := system.requests.eraseIdx index }
        [recordRecoveryRequest (createRecoveryRequestId now random) pending.executionId pending.recoveryMode
          pending.requestedBy plan])
  | previewed (recoveryRequestId : String) (request : RecoveryRequest) (plan : PlanRecord)
      (hTurn : turn = .previewRecovery recoveryRequestId)
      (hRequest : getRecoveryRequest system.log recoveryRequestId = some request)
      (h : next = system.record [recordPreview request (previewRecoveryPlan plan),
        recordPolicyDecision request (evaluateRecoveryPolicy (previewRecoveryPlan plan).replayCandidates)])
  | approved (recoveryRequestId approver : String) (request : RecoveryRequest)
      (hRequest : getRecoveryRequest system.log recoveryRequestId = some request)
      (hStatus : request.status = some .awaitingApproval)
      (h : next = system.record [recordApproval request approver])
  | attempted (recoveryRequestId requestedBy : String) (request : RecoveryRequest)
      (hRequest : getRecoveryRequest system.log recoveryRequestId = some request)
      (h : next = system.record [recordCommitAttempt request requestedBy true])
  | invoked (recoveryRequestId requestedBy : String) (request : RecoveryRequest) (pending : PendingCommit)
      (hTurn : turn = .commitRecovery recoveryRequestId requestedBy false)
      (hRequest : getRecoveryRequest system.log recoveryRequestId = some request)
      (hApproval : request.requiresApproval = true → request.status = some .approved)
      (hPreview : request.preview ≠ none)
      (hPending : pending.recoveryRequestId = request.recoveryRequestId ∧ pending.executionId = request.executionId)
      (h : next = RecoverySystem.record { system with
        commits := system.commits ++ [pending]
        invoked := system.invoked ++ [⟨request.recoveryRequestId, history system.log request.recoveryRequestId⟩] }
        [recordCommitAttempt request (orOperator requestedBy) false])
  | returned (index : Nat) (pending : PendingCommit) (result : CommitResult)
      (hTurn : turn = .committed index result) (hPending : system.commits[index]? = some pending)
      (h : next = RecoverySystem.record { system with commits := system.commits.eraseIdx index }
        [recordCommitResult pending.recoveryRequestId pending.executionId pending.requestedBy result])
  | cancelled (recoveryRequestId : String) (request : RecoveryRequest)
      (hTurn : turn = .cancelRecovery recoveryRequestId)
      (hRequest : getRecoveryRequest system.log recoveryRequestId = some request)
      (h : next = system.record [recordCancellation request])
  | other (h : next = { system with log := system.log ++ [none] })

theorem take_effect (turn : RecoveryTurn) (system : RecoverySystem) : Effect turn system (system.take turn) := by
  cases turn with
  | requestRecovery executionId recoveryMode requestedBy =>
    unfold RecoverySystem.take
    dsimp only
    cases hPending : requestRecovery system.log executionId recoveryMode requestedBy with
    | error refusal => exact .idle rfl
    | ok pending => exact .began _ _ _ pending rfl hPending rfl
  | planBuilt index built now random =>
    unfold RecoverySystem.take
    dsimp only
    cases hPending : system.requests[index]? with
    | none => exact .idle rfl
    | some pending =>
      cases built with
      | error message => exact .dropped index rfl
      | ok plan => exact .created index now random pending plan rfl hPending rfl
  | previewRecovery recoveryRequestId =>
    unfold RecoverySystem.take previewRecovery
    dsimp only
    cases hRequest : getRecoveryRequest system.log recoveryRequestId with
    | none => exact .idle rfl
    | some request =>
      dsimp only
      cases hPlan : request.plan with
      | none => exact .idle rfl
      | some plan => exact .previewed recoveryRequestId request plan rfl hRequest rfl
  | approveRecovery recoveryRequestId approvedBy =>
    unfold RecoverySystem.take approveRecovery validateApproval
    dsimp only
    cases hRequest : getRecoveryRequest system.log recoveryRequestId with
    | none => exact .idle rfl
    | some request =>
      dsimp only
      split
      · exact .idle rfl
      · split
        · exact .idle rfl
        · rename_i hStatus
          split
          · exact .idle rfl
          · split
            · exact .idle rfl
            · exact .approved recoveryRequestId _ request hRequest (not_not.mp hStatus) rfl
  | commitRecovery recoveryRequestId requestedBy dryRun =>
    unfold RecoverySystem.take commitRecovery
    dsimp only
    cases hRequest : getRecoveryRequest system.log recoveryRequestId with
    | none => exact .idle rfl
    | some request =>
      dsimp only
      by_cases hRefused : (!dryRun && request.requiresApproval && decide (request.status ≠ some .approved)) = true
      · rw [if_pos hRefused]
        exact .idle rfl
      · rw [if_neg hRefused]
        cases hPreview : request.preview with
        | none => exact .idle rfl
        | some preview =>
          cases dryRun with
          | true => exact .attempted recoveryRequestId _ request hRequest rfl
          | false =>
            refine .invoked recoveryRequestId requestedBy request _ rfl hRequest ?_ (by simp [hPreview]) ⟨rfl, rfl⟩ rfl
            intro hApproval
            by_contra hStatus
            exact hRefused (by simp [hApproval, hStatus])
  | committed index result =>
    unfold RecoverySystem.take
    dsimp only
    cases hPending : system.commits[index]? with
    | none => exact .idle rfl
    | some pending => exact .returned index pending result rfl hPending rfl
  | cancelRecovery recoveryRequestId =>
    unfold RecoverySystem.take cancelRecovery
    dsimp only
    cases hRequest : getRecoveryRequest system.log recoveryRequestId with
    | none => exact .idle rfl
    | some request => exact .cancelled recoveryRequestId request rfl hRequest rfl
  | otherLine => exact .other rfl

section Sound

structure LogSound (log : List AuditLine) : Prop where
  formed : ∀ event, some event ∈ log → Formed event
  named : ∀ event, some event ∈ log → trimmed event.requestId = event.requestId ∧ event.requestId ≠ ""
  ordered : ∀ recoveryRequestId, Ordered (history log recoveryRequestId)

variable {log : List AuditLine}

theorem LogSound.history_formed (hSound : LogSound log) (recoveryRequestId : String) :
    ∀ event ∈ history log recoveryRequestId, Formed event :=
  fun event hIn => hSound.formed event (mem_history.mp hIn).1

/-- A request that is read is the replay of the newest part of its events. -/
theorem getRecoveryRequest_some {recoveryRequestId : String} {request : RecoveryRequest}
    (h : getRecoveryRequest log recoveryRequestId = some request) :
    trimmed recoveryRequestId ≠ "" ∧ request.recoveryRequestId = trimmed recoveryRequestId ∧
      ∃ lost kept, history log (trimmed recoveryRequestId) = lost ++ kept ∧ kept ≠ [] ∧
        replay absorb {} kept = some request := by
  rw [getRecoveryRequest_eq] at h
  split at h
  · cases h
  · rename_i hBlank
    obtain ⟨hSome, hReplay⟩ := requestOf_eq_some.mp h
    obtain ⟨lost, hLost⟩ := history_drop log (log.length - 5000) (trimmed recoveryRequestId)
    exact ⟨hBlank, replay_requestId hSome hBlank (fun event hIn => (mem_history.mp hIn).2) hReplay,
      lost, _, hLost, hSome, hReplay⟩

theorem Ordered.append {events later : List RecoveryEvent} (h : Ordered events) (hSome : events ≠ [])
    (hLate : ∀ event ∈ later, event.type ≠ .requested)
    (hDecided : ∀ front event rest, later = front ++ event :: rest → event.type = .previewed →
      ∃ decision ∈ rest, decision.type = .policyDecision) : Ordered (events ++ later) := by
  refine ⟨?_, ?_⟩
  · intro event rest hSplit
    obtain ⟨first, tail, rfl⟩ := List.exists_cons_of_ne_nil hSome
    obtain ⟨rfl, rfl⟩ := List.cons.inj hSplit
    obtain ⟨hType, hRest⟩ := h.first first tail rfl
    refine ⟨hType, fun other hOther => ?_⟩
    rcases List.mem_append.mp hOther with hOld | hNew
    · exact hRest other hOld
    · exact hLate other hNew
  · intro front event rest hSplit hType
    rcases List.append_eq_append_iff.mp hSplit with ⟨middle, rfl, hLater⟩ | ⟨middle, rfl, hRest⟩
    · exact hDecided middle event rest hLater hType
    · cases middle with
      | nil => exact hDecided [] event rest (by simpa using hRest.symm) hType
      | cons first middle =>
        obtain ⟨rfl, rfl⟩ := List.cons.inj hRest
        obtain ⟨decision, hIn, hDecision⟩ := h.decided front event middle rfl hType
        exact ⟨decision, List.mem_append_left _ hIn, hDecision⟩

theorem Ordered.concat {events : List RecoveryEvent} {event : RecoveryEvent} (h : Ordered events) (hSome : events ≠ [])
    (hLate : event.type ≠ .requested) (hPlain : event.type ≠ .previewed) : Ordered (events ++ [event]) := by
  refine h.append hSome (by simpa using hLate) ?_
  intro front other rest hSplit hType
  cases front with
  | nil =>
    obtain ⟨rfl, -⟩ := List.cons.inj hSplit
    exact absurd hType hPlain
  | cons _ front => simp at hSplit

theorem ordered_created {event : RecoveryEvent} (h : event.type = .requested) : Ordered [event] := by
  refine ⟨?_, ?_⟩
  · intro other later hSplit
    obtain ⟨rfl, rfl⟩ := List.cons.inj hSplit
    exact ⟨h, by simp⟩
  · intro front other later hSplit hType
    cases front with
    | nil =>
      obtain ⟨rfl, -⟩ := List.cons.inj hSplit
      rw [h] at hType
      cases hType
    | cons _ front => simp at hSplit

theorem history_record {events : List RecoveryEvent} {recoveryRequestId : String} (log : List AuditLine)
    (hKey : ∀ event ∈ events, event.requestId = recoveryRequestId) (other : String) :
    history (log ++ events.map some) other =
      if other = recoveryRequestId then history log other ++ events else history log other := by
  rw [history_append]
  split
  · rename_i hSame
    rw [history_events_self (hSame ▸ hKey)]
  · rename_i hOther
    rw [history_events_other fun event hIn hEq => hOther (hEq.symm.trans (hKey event hIn)), List.append_nil]

theorem LogSound.record {events : List RecoveryEvent} {recoveryRequestId : String} (hSound : LogSound log)
    (hName : trimmed recoveryRequestId = recoveryRequestId ∧ recoveryRequestId ≠ "")
    (hKey : ∀ event ∈ events, event.requestId = recoveryRequestId) (hFormed : ∀ event ∈ events, Formed event)
    (hOrdered : Ordered (history log recoveryRequestId ++ events)) : LogSound (log ++ events.map some) := by
  have hEither (event : RecoveryEvent) (hIn : some event ∈ log ++ events.map some) : some event ∈ log ∨ event ∈ events := by
    simpa using hIn
  refine ⟨fun event hIn => ?_, fun event hIn => ?_, fun other => ?_⟩
  · exact (hEither event hIn).elim (hSound.formed event) (hFormed event)
  · refine (hEither event hIn).elim (hSound.named event) fun hNew => ?_
    rw [hKey event hNew]
    exact hName
  · rw [history_record log hKey]
    split
    · rename_i hSame
      rw [hSame]
      exact hOrdered
    · exact hSound.ordered other

theorem LogSound.other (hSound : LogSound log) : LogSound (log ++ [none]) := by
  have hSame (recoveryRequestId : String) : history (log ++ [none]) recoveryRequestId = history log recoveryRequestId := by
    rw [history_append]
    exact List.append_nil _
  refine ⟨fun event hIn => ?_, fun event hIn => ?_, fun recoveryRequestId => hSame _ ▸ hSound.ordered _⟩
  · exact hSound.formed event (by simpa using hIn)
  · exact hSound.named event (by simpa using hIn)

/-- A new request has an id that no event has. -/
def FreshId (turn : RecoveryTurn) (system : RecoverySystem) : Prop :=
  match turn with
  | .planBuilt _ _ now random => history system.log (createRecoveryRequestId now random) = []
  | _ => True

instance (turn : RecoveryTurn) (system : RecoverySystem) : Decidable (FreshId turn system) :=
  match turn with
  | .planBuilt .. => inferInstanceAs (Decidable (_ = _))
  | .requestRecovery .. | .previewRecovery _ | .approveRecovery .. | .commitRecovery .. | .committed .. |
    .cancelRecovery _ | .otherLine => inferInstanceAs (Decidable True)

/-- Events that an operation adds to a request that it has read. -/
theorem LogSound.record_read {events : List RecoveryEvent} {recoveryRequestId : String} {request : RecoveryRequest}
    (hSound : LogSound log) (hRequest : getRecoveryRequest log recoveryRequestId = some request)
    (hKey : ∀ event ∈ events, event.requestId = request.recoveryRequestId) (hFormed : ∀ event ∈ events, Formed event)
    (hLate : ∀ event ∈ events, event.type ≠ .requested)
    (hDecided : ∀ front event rest, events = front ++ event :: rest → event.type = .previewed →
      ∃ decision ∈ rest, decision.type = .policyDecision) : LogSound (log ++ events.map some) := by
  obtain ⟨hBlank, hId, lost, kept, hHistory, hSome, -⟩ := getRecoveryRequest_some hRequest
  obtain ⟨event, hIn⟩ := List.exists_mem_of_ne_nil kept hSome
  have hMem : event ∈ history log (trimmed recoveryRequestId) := by
    rw [hHistory]
    exact List.mem_append_right _ hIn
  obtain ⟨hLog, hEvent⟩ := mem_history.mp hMem
  have hName := hSound.named event hLog
  rw [hEvent] at hName
  rw [hId] at hKey
  exact hSound.record hName hKey hFormed
    ((hSound.ordered (trimmed recoveryRequestId)).append (List.ne_nil_of_mem hMem) hLate hDecided)

/-- Events without a policy and without a preview. -/
theorem Formed.plain {event : RecoveryEvent} (hType : event.type ≠ .policyDecision)
    (hPolicy : event.payload.policy = none) (hPreview : event.payload.preview = none) : Formed event :=
  ⟨fun h => absurd h hType, fun _ => hPolicy, fun _ => hPreview⟩

theorem commitResultType_cases (result : CommitResult) :
    commitResultType result = .committed ∨ commitResultType result = .blocked ∨ commitResultType result = .failed := by
  cases result with
  | ok => exact Or.inl rfl
  | failed code message =>
    unfold commitResultType
    dsimp only
    split
    · exact Or.inr (Or.inl rfl)
    · exact Or.inr (Or.inr rfl)

theorem recordCommitResult_ends (recoveryRequestId executionId requestedBy : String) (result : CommitResult) :
    (recordCommitResult recoveryRequestId executionId requestedBy result).ends = true := by
  rcases commitResultType_cases result with h | h | h <;> simp [RecoveryEvent.ends, recordCommitResult, h]

theorem recordCommitResult_formed (recoveryRequestId executionId requestedBy : String) (result : CommitResult) :
    Formed (recordCommitResult recoveryRequestId executionId requestedBy result) := by
  refine .plain ?_ rfl rfl
  rcases commitResultType_cases result with h | h | h <;> simp [recordCommitResult, h]

theorem recordPolicyDecision_formed (request : RecoveryRequest) (candidates : List Execution.ReplayCandidate) :
    Formed (recordPolicyDecision request (evaluateRecoveryPolicy candidates)) := by
  refine ⟨fun _ => ⟨_, evaluateRecoveryPolicy_allowed candidates, rfl, rfl⟩, fun h => absurd rfl h, fun _ => rfl⟩

/-- The events of a preview and of its decision. -/
theorem LogSound.record_preview {recoveryRequestId : String} {request : RecoveryRequest} (hSound : LogSound log)
    (hRequest : getRecoveryRequest log recoveryRequestId = some request) (preview : RecoveryPreview)
    (candidates : List Execution.ReplayCandidate) :
    LogSound (log ++ [recordPreview request preview,
      recordPolicyDecision request (evaluateRecoveryPolicy candidates)].map some) := by
  refine hSound.record_read hRequest ?_ ?_ ?_ ?_
  · simp [RecoveryEvent.requestId, recordPreview, recordPolicyDecision]
  · intro event hIn
    rcases List.mem_pair.mp hIn with rfl | rfl
    · exact ⟨nofun, fun _ => rfl, fun h => absurd rfl h⟩
    · exact recordPolicyDecision_formed request candidates
  · simp [recordPreview, recordPolicyDecision]
  · intro front event rest hSplit hType
    rcases front with _ | ⟨first, _ | ⟨second, front⟩⟩
    · obtain ⟨-, rfl⟩ := List.cons.inj hSplit
      exact ⟨_, List.mem_singleton_self _, rfl⟩
    · obtain ⟨rfl, -⟩ := List.cons.inj (List.cons.inj hSplit).2
      cases hType
    · simp at hSplit

theorem LogSound.record_plain {recoveryRequestId : String} {request : RecoveryRequest} {event : RecoveryEvent}
    (hSound : LogSound log) (hRequest : getRecoveryRequest log recoveryRequestId = some request)
    (hKey : event.requestId = request.recoveryRequestId) (hFormed : Formed event) (hLate : event.type ≠ .requested)
    (hPlain : event.type ≠ .previewed) : LogSound (log ++ [event].map some) := by
  refine hSound.record_read hRequest (by simpa using hKey) (by simpa using hFormed) (by simpa using hLate) ?_
  intro front other rest hSplit hType
  rcases front with _ | ⟨first, front⟩
  · obtain ⟨rfl, -⟩ := List.cons.inj hSplit
    exact absurd hType hPlain
  · simp at hSplit

theorem logSound_nil : LogSound [] := by
  refine ⟨by simp, by simp, fun _ => ⟨?_, ?_⟩⟩
  · intro event later hSplit
    cases hSplit
  · intro front event later hSplit
    simp [history, eventsOf] at hSplit

theorem history_mono (later : List AuditLine) {recoveryRequestId : String}
    (h : history log recoveryRequestId ≠ []) : history (log ++ later) recoveryRequestId ≠ [] := by
  rw [history_append]
  exact List.append_ne_nil_of_left_ne_nil h _

theorem ended_iff_any (events : List RecoveryEvent) : Ended events ↔ events.any RecoveryEvent.ends = true := by
  rw [List.any_eq_true]
  rfl

theorem Ended.append {events : List RecoveryEvent} (h : Ended events) (later : List RecoveryEvent) :
    Ended (events ++ later) := by
  obtain ⟨event, hIn, hOver⟩ := h
  exact ⟨event, List.mem_append_left _ hIn, hOver⟩

theorem decided_of_previewed {events : List RecoveryEvent} {request : RecoveryRequest}
    (hFormed : ∀ event ∈ events, Formed event) (hOrdered : Ordered events) (h : replay absorb {} events = some request)
    (hPreview : request.preview ≠ none) : ∃ policy, request.policy = some policy := by
  have hShown : ∃ event ∈ events, event.type = .previewed := by
    by_contra hNone
    push Not at hNone
    refine hPreview (replay_invariant (P := fun r => r.preview = none) h rfl
      (fun event hIn => (hFormed event hIn).unpreviewed (hNone event hIn)) ?_)
    intro r event t hBefore hEvent hAbsorb
    unfold absorb at hAbsorb
    split at hAbsorb
    · obtain ⟨status, -, rfl⟩ := Option.map_eq_some_iff.mp hAbsorb
      simp [RecoveryRequest.merge, hBefore, hEvent]
    · obtain rfl := Option.some.inj hAbsorb
      simp [RecoveryRequest.merge, hBefore, hEvent]
  obtain ⟨event, hIn, hType⟩ := hShown
  obtain ⟨front, later, rfl⟩ := List.append_of_mem hIn
  obtain ⟨decision, hLater, hDecision⟩ := hOrdered.decided front event later rfl hType
  obtain ⟨before, after, hSplit⟩ := List.append_of_mem (List.mem_append_right front (List.mem_cons_of_mem event hLater))
  rw [hSplit] at h hFormed
  obtain ⟨middle, -, hRest⟩ := replay_front h
  rw [replay_cons] at hRest
  obtain ⟨next, hNext, hAfter⟩ := Option.bind_eq_some_iff.mp hRest
  have hKept : next.policy.isSome = true := by
    cases absorb_cases (hFormed decision (by simp)) hNext with
    | decided policy _ _ _ hPolicy hThen => simp [hThen, RecoveryRequest.merge, hPolicy]
    | created hOther => rw [hDecision] at hOther; cases hOther
    | approved hOther => rw [hDecision] at hOther; cases hOther
    | ended _ hOther => simp [RecoveryEvent.ends, hDecision] at hOther
    | noted hOther => rw [hDecision] at hOther; rcases hOther with hOther | hOther <;> cases hOther
  refine Option.isSome_iff_exists.mp (replay_invariant (P := fun r => r.policy.isSome = true) hAfter hKept
    (fun _ _ => trivial : ∀ event ∈ after, True) ?_)
  intro r other t hBefore _ hAbsorb
  have hMerged (status : Option RecoveryStatus) : (r.merge other.payload status).policy.isSome = true := by
    cases hOther : other.payload.policy <;> simp [RecoveryRequest.merge, hOther, hBefore]
  unfold absorb at hAbsorb
  split at hAbsorb
  · obtain ⟨status, -, rfl⟩ := Option.map_eq_some_iff.mp hAbsorb
    exact hMerged _
  · exact Option.some.inj hAbsorb ▸ hMerged _

/-- What is known of a request whose commit is not refused. -/
theorem read_whole (hSound : LogSound log) {recoveryRequestId : String} {request : RecoveryRequest}
    (hRequest : getRecoveryRequest log recoveryRequestId = some request) (hPreview : request.preview ≠ none) :
    request.recoveryRequestId = trimmed recoveryRequestId ∧
      history log (trimmed recoveryRequestId) ≠ [] ∧
      replay absorb {} (history log (trimmed recoveryRequestId)) = some request := by
  obtain ⟨-, hId, lost, kept, hHistory, hSome, hReplay⟩ := getRecoveryRequest_some hRequest
  have hFormed := hSound.history_formed (trimmed recoveryRequestId)
  have hOrdered := hSound.ordered (trimmed recoveryRequestId)
  rw [hHistory] at hFormed hOrdered ⊢
  obtain rfl := nothing_lost hFormed hOrdered hReplay hPreview
  exact ⟨hId, by simpa using hSome, by simpa using hReplay⟩

/-- Every turn keeps the log sound, when the pending commits name requests that are in the log. -/
theorem logSound_take {turn : RecoveryTurn} {system : RecoverySystem} (hSound : LogSound system.log)
    (hFresh : FreshId turn system)
    (hCommits : ∀ pending ∈ system.commits, history system.log pending.recoveryRequestId ≠ []) :
    LogSound (system.take turn).log := by
  have hEffect := take_effect turn system
  generalize system.take turn = next at hEffect ⊢
  cases hEffect with
  | idle h =>
    subst h
    exact hSound
  | began _ _ _ _ _ _ h =>
    subst h
    exact hSound
  | dropped _ h =>
    subst h
    exact hSound
  | created index now random pending plan hTurn hPending h =>
    subst h
    subst hTurn
    have hNone : history system.log (createRecoveryRequestId now random) = [] := hFresh
    refine hSound.record ⟨trimmed_createRecoveryRequestId now random, createRecoveryRequestId_ne now random⟩
      (by simp [RecoveryEvent.requestId, recordRecoveryRequest]) (by simpa using .plain (by simp [recordRecoveryRequest]) rfl rfl) ?_
    rw [hNone]
    exact ordered_created rfl
  | previewed _ request plan _ hRequest h =>
    subst h
    exact hSound.record_preview hRequest _ _
  | approved _ _ request hRequest _ h =>
    subst h
    exact hSound.record_plain hRequest rfl (.plain (by simp [recordApproval]) rfl rfl)
      (by simp [recordApproval]) (by simp [recordApproval])
  | attempted _ _ request hRequest h =>
    subst h
    exact hSound.record_plain hRequest rfl (.plain (by simp [recordCommitAttempt]) rfl rfl)
      (by simp [recordCommitAttempt]) (by simp [recordCommitAttempt])
  | invoked _ _ request _ _ hRequest _ _ _ h =>
    subst h
    exact hSound.record_plain hRequest rfl (.plain (by simp [recordCommitAttempt]) rfl rfl)
      (by simp [recordCommitAttempt]) (by simp [recordCommitAttempt])
  | returned index pending result _ hPending h =>
    subst h
    have hSome := hCommits pending (List.mem_of_getElem? hPending)
    obtain ⟨event, hIn⟩ := List.exists_mem_of_ne_nil _ hSome
    obtain ⟨hLog, hEvent⟩ := mem_history.mp hIn
    have hName := hSound.named event hLog
    rw [hEvent] at hName
    refine hSound.record hName (by simp [RecoveryEvent.requestId, recordCommitResult])
      (by simpa using recordCommitResult_formed _ _ _ result) ((hSound.ordered _).concat hSome ?_ ?_)
    · rcases commitResultType_cases result with hType | hType | hType <;> simp [recordCommitResult, hType]
    · rcases commitResultType_cases result with hType | hType | hType <;> simp [recordCommitResult, hType]
  | cancelled _ request _ hRequest h =>
    subst h
    exact hSound.record_plain hRequest rfl (.plain (by simp [recordCancellation]) rfl rfl)
      (by simp [recordCancellation]) (by simp [recordCancellation])
  | other h =>
    subst h
    exact hSound.other

end Sound

end CommandConsole.Recovery
