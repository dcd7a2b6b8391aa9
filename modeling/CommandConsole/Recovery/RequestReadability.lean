import CommandConsole.Recovery.RequestCommits

/-! # Readable requests

Events are appended without a look at the transition table and only the newest lines of
the log are read. Where previews, cancellations and results come while the table has a
transition for them, and the events of all requests stay in the window, every request
stays readable, what is over stays as it ended, and one execution has one open request. -/
namespace CommandConsole.Recovery
open Library
open Execution (trimmed evaluateRecoveryPolicy evaluateRecoveryPolicy_allowed)
set_option autoImplicit false

/-- The lines from the first recovery event on. -/
def span (log : List AuditLine) : Nat := (log.dropWhile Option.isNone).length

/-- Every request that has an event can be read, with a status. -/
def Readable (system : RecoverySystem) : Prop :=
  ∀ recoveryRequestId, history system.log recoveryRequestId ≠ [] →
    ∃ request, getRecoveryRequest system.log recoveryRequestId = some request ∧ request.status.isSome = true

def OneOpen (system : RecoverySystem) : Prop :=
  ∀ (left right : String) (request other : RecoveryRequest),
    getRecoveryRequest system.log left = some request → getRecoveryRequest system.log right = some other →
    request.active = true → other.active = true → request.executionId = other.executionId →
    request.recoveryRequestId = other.recoveryRequestId

/-- A request that is over keeps its status. -/
def KeepsEnds (system later : RecoverySystem) : Prop :=
  ∀ (recoveryRequestId : String) (request : RecoveryRequest) (status : RecoveryStatus),
    getRecoveryRequest system.log recoveryRequestId = some request → request.status = some status →
    status.terminal = true →
    ∃ after, getRecoveryRequest later.log recoveryRequestId = some after ∧ after.status = some status

/-- A preview comes while the request is requested, a cancellation while it is open, the result of a commit
while nothing has ended the request; a plan is built while its execution has no open request. The lines from
the first recovery event on stay in the window. -/
def KeepsHistory (turn : RecoveryTurn) (system : RecoverySystem) : Prop :=
  FreshId turn system ∧ span (system.take turn).log ≤ 5000 ∧
    match turn with
    | .planBuilt index _ _ _ => ∀ pending ∈ system.requests[index]?,
      findActiveRecoveryForExecution system.log pending.executionId = none
    | .previewRecovery recoveryRequestId => ∀ request ∈ getRecoveryRequest system.log recoveryRequestId,
      request.status = some .requested
    | .cancelRecovery recoveryRequestId => ∀ request ∈ getRecoveryRequest system.log recoveryRequestId,
      request.status.any RecoveryStatus.terminal = false
    | .committed index _ => ∀ pending ∈ system.commits[index]?,
      (history system.log pending.recoveryRequestId).any RecoveryEvent.ends = false
    | _ => True

instance (turn : RecoveryTurn) (system : RecoverySystem) : Decidable (KeepsHistory turn system) := by
  unfold KeepsHistory
  cases turn <;> infer_instance

section Window

variable {log : List AuditLine}

/-- Nothing but other lines is older than the window. -/
theorem take_blank (h : span log ≤ 5000) : ∀ line ∈ log.take (log.length - 5000), line = none := by
  have hSplit := List.takeWhile_append_dropWhile (p := Option.isNone) (l := log)
  have hLength : log.length - 5000 ≤ (log.takeWhile Option.isNone).length := by
    have hSum := congrArg List.length hSplit
    rw [List.length_append] at hSum
    unfold span at h
    omega
  intro line hIn
  rw [← hSplit, List.take_append_of_le_length (by rw [hSplit]; exact hLength)] at hIn
  exact Option.isNone_iff_eq_none.mp (List.all_eq_true.mp List.all_takeWhile line (List.mem_of_mem_take hIn))

theorem filterMap_window (h : span log ≤ 5000) : (log.drop (log.length - 5000)).filterMap id = log.filterMap id := by
  have hOld : (log.take (log.length - 5000)).filterMap id = [] := List.filterMap_eq_nil_iff.mpr (take_blank h)
  calc
    (log.drop (log.length - 5000)).filterMap id =
        (log.take (log.length - 5000)).filterMap id ++ (log.drop (log.length - 5000)).filterMap id := by
      rw [hOld, List.nil_append]
    _ = log.filterMap id := by rw [← List.filterMap_append, List.take_append_drop]

theorem getRecoveryRequest_window (h : span log ≤ 5000) (recoveryRequestId : String) :
    getRecoveryRequest log recoveryRequestId =
      if trimmed recoveryRequestId = "" then none else requestOf (history log (trimmed recoveryRequestId)) := by
  rw [getRecoveryRequest_eq, history, filterMap_window h]
  rfl

theorem listRecoveryAuditEvents_window (h : span log ≤ 5000) :
    listRecoveryAuditEvents log = (log.filterMap id).reverse := by
  rw [listRecoveryAuditEvents, listAuditEvents, List.filterMap_reverse]
  exact congrArg List.reverse (filterMap_window h)

end Window

section Invariant

theorem replay_executionId {events : List RecoveryEvent} {request : RecoveryRequest} {executionId : String}
    (hSome : events ≠ []) (hBlank : executionId ≠ "") (hSame : ∀ event ∈ events, event.payload.executionId = executionId)
    (h : replay absorb {} events = some request) : request.executionId = executionId := by
  obtain ⟨last, hIn, before, status, rfl⟩ := replay_last hSome h
  change orText last.payload.executionId before.executionId = executionId
  rw [hSame last hIn, orText, if_neg hBlank]

/-- A status in which a commit may return, or after it. -/
def Committable (request : RecoveryRequest) : Prop :=
  request.status = some .previewed ∨ request.status = some .approved ∨
    request.status.any RecoveryStatus.terminal = true

structure Tidy (system : RecoverySystem) : Prop where
  sound : LogSound system.log
  window : span system.log ≤ 5000
  executions : ∀ event, some event ∈ system.log →
    trimmed event.payload.executionId = event.payload.executionId ∧ event.payload.executionId ≠ ""
  same : ∀ event other, some event ∈ system.log → some other ∈ system.log → event.requestId = other.requestId →
    event.payload.executionId = other.payload.executionId
  readable : ∀ recoveryRequestId, history system.log recoveryRequestId ≠ [] →
    ∃ request, replay absorb {} (history system.log recoveryRequestId) = some request ∧ request.status.isSome = true
  commits : ∀ pending ∈ system.commits, history system.log pending.recoveryRequestId ≠ [] ∧
    (∀ event ∈ history system.log pending.recoveryRequestId, event.payload.executionId = pending.executionId) ∧
    ∀ request, replay absorb {} (history system.log pending.recoveryRequestId) = some request → Committable request
  requests : ∀ pending ∈ system.requests,
    trimmed pending.executionId = pending.executionId ∧ pending.executionId ≠ ""
  oneOpen : ∀ (left right : String) (request other : RecoveryRequest),
    replay absorb {} (history system.log left) = some request →
    replay absorb {} (history system.log right) = some other →
    request.active = true → other.active = true → request.executionId = other.executionId → left = right

variable {system : RecoverySystem}

theorem active_status {request : RecoveryRequest} : request.active = true ↔
    ∃ status, request.status = some status ∧ status.terminal = false := by
  unfold RecoveryRequest.active
  cases request.status <;> simp

/-- A history that replays to an open request is not empty. -/
theorem history_of_active {recoveryRequestId : String} {request : RecoveryRequest}
    (h : replay absorb {} (history system.log recoveryRequestId) = some request) (hActive : request.active = true) :
    history system.log recoveryRequestId ≠ [] := by
  intro hNil
  rw [hNil] at h
  obtain rfl := Option.some.inj h
  cases hActive

theorem Tidy.get (hTidy : Tidy system) {recoveryRequestId : String} {request : RecoveryRequest}
    (h : getRecoveryRequest system.log recoveryRequestId = some request) :
    history system.log (trimmed recoveryRequestId) ≠ [] ∧
      replay absorb {} (history system.log (trimmed recoveryRequestId)) = some request ∧
      request.recoveryRequestId = trimmed recoveryRequestId ∧
      (∀ event ∈ history system.log (trimmed recoveryRequestId), event.payload.executionId = request.executionId) ∧
      trimmed request.executionId = request.executionId ∧ request.executionId ≠ "" := by
  obtain ⟨hBlank, hId, -⟩ := getRecoveryRequest_some h
  rw [getRecoveryRequest_window hTidy.window, if_neg hBlank] at h
  obtain ⟨hSome, hReplay⟩ := requestOf_eq_some.mp h
  obtain ⟨last, hLast, before, status, hMerge⟩ := replay_last hSome hReplay
  obtain ⟨hLog, hLastId⟩ := mem_history.mp hLast
  have hExecution := hTidy.executions last hLog
  have hRequest : request.executionId = last.payload.executionId := by
    rw [hMerge]
    exact if_neg hExecution.2
  refine ⟨hSome, hReplay, hId, fun event hIn => ?_, hRequest ▸ hExecution⟩
  obtain ⟨hEvent, hEventId⟩ := mem_history.mp hIn
  rw [hRequest]
  exact hTidy.same event last hEvent hLog (hEventId.trans hLastId.symm)

theorem Tidy.get_of_history (hTidy : Tidy system) {recoveryRequestId : String} {request : RecoveryRequest}
    (hSome : history system.log recoveryRequestId ≠ [])
    (h : replay absorb {} (history system.log recoveryRequestId) = some request) :
    getRecoveryRequest system.log recoveryRequestId = some request := by
  obtain ⟨event, hIn⟩ := List.exists_mem_of_ne_nil _ hSome
  obtain ⟨hLog, hEvent⟩ := mem_history.mp hIn
  have hName := hTidy.sound.named event hLog
  rw [hEvent] at hName
  rw [getRecoveryRequest_window hTidy.window, hName.1, if_neg hName.2]
  exact requestOf_eq_some.mpr ⟨hSome, h⟩

theorem Tidy.readable' (hTidy : Tidy system) : Readable system := by
  intro recoveryRequestId hSome
  obtain ⟨request, hReplay, hStatus⟩ := hTidy.readable recoveryRequestId hSome
  exact ⟨request, hTidy.get_of_history hSome hReplay, hStatus⟩

theorem Tidy.oneOpen' (hTidy : Tidy system) : OneOpen system := by
  intro left right request other hLeft hRight hActive hOther hSame
  obtain ⟨-, hReplay, hId, -⟩ := hTidy.get hLeft
  obtain ⟨-, hReplay', hId', -⟩ := hTidy.get hRight
  rw [hId, hId']
  exact hTidy.oneOpen _ _ request other hReplay hReplay' hActive hOther hSame

/-- An open request is found by its execution. -/
theorem Tidy.found (hTidy : Tidy system) {recoveryRequestId : String} {request : RecoveryRequest}
    (h : getRecoveryRequest system.log recoveryRequestId = some request) (hActive : request.active = true) :
    findActiveRecoveryForExecution system.log request.executionId ≠ none := by
  obtain ⟨hSome, hReplay, hId, hEvents, hTrimmed, hBlank⟩ := hTidy.get h
  have hName (event : RecoveryEvent) (hIn : event ∈ system.log.filterMap id) :
      trimmed event.requestId = event.requestId ∧ event.requestId ≠ "" :=
    hTidy.sound.named event (by simpa using hIn)
  obtain ⟨first, hFirst⟩ := List.exists_mem_of_ne_nil _ hSome
  have hFirstId := (mem_history.mp hFirst).2
  have hListed : request ∈ listRecoveryRequestsForExecution system.log request.executionId := by
    unfold listRecoveryRequestsForExecution
    rw [hTrimmed, if_neg hBlank, listRecoveryAuditEvents_window hTidy.window, List.mem_filterMap]
    refine ⟨trimmed recoveryRequestId, ?_, ?_⟩
    · rw [List.mem_eraseDups, List.mem_map]
      refine ⟨first, ?_, ?_⟩
      · have hMem : first ∈ system.log.filterMap id := by simpa using (mem_history.mp hFirst).1
        rw [List.mem_filter, List.mem_reverse]
        exact ⟨hMem, by simp [hEvents first hFirst, hName first hMem]⟩
      · rw [← hFirstId]
        exact (hName first (by simpa using (mem_history.mp hFirst).1)).1
    · rw [List.filter_filter, List.filter_reverse, buildRequestFromEvents, List.reverse_reverse]
      have hSame : (system.log.filterMap id).filter (fun event => decide (trimmed event.requestId = trimmed recoveryRequestId) &&
          (decide (event.payload.executionId = request.executionId) && decide (trimmed event.requestId ≠ ""))) =
          history system.log (trimmed recoveryRequestId) := by
        unfold history eventsOf
        apply List.filter_congr
        intro event hIn
        obtain ⟨hKey, hNamed⟩ := hName event hIn
        rw [hKey]
        by_cases hThis : event.requestId = trimmed recoveryRequestId
        · have hExecution := hEvents event (mem_history.mpr ⟨by simpa using hIn, hThis⟩)
          simp [hThis, hExecution, hThis ▸ hNamed]
        · simp [hThis]
      rw [hSame]
      exact requestOf_eq_some.mpr ⟨hSome, hReplay⟩
  intro hNone
  have := List.find?_eq_none.mp hNone request hListed
  exact this hActive

/-- Events on one request, whose replay they take from `before` to `after`. -/
structure Extends (system next : RecoverySystem) (events : List RecoveryEvent) (recoveryRequestId executionId : String)
    (before after : RecoveryRequest) : Prop where
  log : next.log = system.log ++ events.map some
  nonempty : events ≠ []
  key : ∀ event ∈ events, event.requestId = recoveryRequestId
  execution : trimmed executionId = executionId ∧ executionId ≠ ""
  payloads : ∀ event ∈ events, event.payload.executionId = executionId
  old : ∀ event ∈ history system.log recoveryRequestId, event.payload.executionId = executionId
  replayed : replay absorb {} (history system.log recoveryRequestId) = some before
  goesOn : replay absorb before events = some after
  status : after.status.isSome = true
  opens : after.active = true → before.active = true ∨ ∀ other request,
    replay absorb {} (history system.log other) = some request → request.active = true →
    request.executionId ≠ executionId
  committable : Committable before → Committable after
  commits : ∀ pending ∈ next.commits, pending ∈ system.commits ∨
    pending.recoveryRequestId = recoveryRequestId ∧ pending.executionId = executionId ∧ Committable after
  requests : ∀ pending ∈ next.requests, pending ∈ system.requests

section Extension

variable {next : RecoverySystem} {events : List RecoveryEvent} {recoveryRequestId executionId : String}
  {before after : RecoveryRequest}

theorem Extends.history_eq (h : Extends system next events recoveryRequestId executionId before after) (other : String) :
    history next.log other = if other = recoveryRequestId then history system.log other ++ events
      else history system.log other := by
  rw [h.log]
  exact history_record system.log h.key other

theorem Extends.whole (h : Extends system next events recoveryRequestId executionId before after) :
    replay absorb {} (history next.log recoveryRequestId) = some after := by
  rw [h.history_eq, if_pos rfl, replay_append, h.replayed]
  exact h.goesOn

theorem Extends.mem_cases (h : Extends system next events recoveryRequestId executionId before after)
    {event : RecoveryEvent} (hIn : some event ∈ next.log) : some event ∈ system.log ∨ event ∈ events := by
  rw [h.log] at hIn
  simpa using hIn

theorem Extends.payload (h : Extends system next events recoveryRequestId executionId before after)
    {event : RecoveryEvent} (hIn : event ∈ history next.log recoveryRequestId) :
    event.payload.executionId = executionId := by
  rw [h.history_eq, if_pos rfl] at hIn
  exact (List.mem_append.mp hIn).elim (h.old event) (h.payloads event)

theorem Extends.ne_nil (h : Extends system next events recoveryRequestId executionId before after) :
    history next.log recoveryRequestId ≠ [] := by
  rw [h.history_eq, if_pos rfl]
  exact List.append_ne_nil_of_right_ne_nil _ h.nonempty

theorem Extends.executionId_eq (h : Extends system next events recoveryRequestId executionId before after) :
    after.executionId = executionId :=
  replay_executionId h.ne_nil h.execution.2 (fun _ hIn => h.payload hIn) h.whole

/-- No other open request is on the execution of the extended one. -/
theorem Extends.alone (h : Extends system next events recoveryRequestId executionId before after) (hTidy : Tidy system)
    (hActive : after.active = true) {other : String} {request : RecoveryRequest}
    (hOther : other ≠ recoveryRequestId) (hReplay : replay absorb {} (history system.log other) = some request)
    (hOpen : request.active = true) : request.executionId ≠ executionId := by
  intro hSame
  rcases h.opens hActive with hBefore | hFree
  · have hExecution := replay_executionId (history_of_active h.replayed hBefore) h.execution.2 h.old h.replayed
    exact hOther (hTidy.oneOpen other recoveryRequestId request before hReplay h.replayed hOpen hBefore
      (hSame.trans hExecution.symm))
  · exact hFree other request hReplay hOpen hSame

theorem Extends.tidy (h : Extends system next events recoveryRequestId executionId before after) (hTidy : Tidy system)
    (hSound : LogSound next.log) (hWindow : span next.log ≤ 5000) : Tidy next where
  sound := hSound
  window := hWindow
  executions event hIn := by
    rcases h.mem_cases hIn with hOld | hNew
    · exact hTidy.executions event hOld
    · rw [h.payloads event hNew]
      exact h.execution
  same event other hIn hOther hSame := by
    by_cases hThis : event.requestId = recoveryRequestId
    · rw [h.payload (mem_history.mpr ⟨hIn, hThis⟩), h.payload (mem_history.mpr ⟨hOther, hSame.symm.trans hThis⟩)]
    · have hOld : some event ∈ system.log := (h.mem_cases hIn).resolve_right fun hNew => hThis (h.key event hNew)
      have hOldOther : some other ∈ system.log :=
        (h.mem_cases hOther).resolve_right fun hNew => hThis (hSame.trans (h.key other hNew))
      exact hTidy.same event other hOld hOldOther hSame
  readable other hSome := by
    by_cases hThis : other = recoveryRequestId
    · rw [hThis]
      exact ⟨after, h.whole, h.status⟩
    · rw [h.history_eq, if_neg hThis] at hSome ⊢
      exact hTidy.readable other hSome
  commits pending hIn := by
    rcases h.commits pending hIn with hOld | ⟨hId, hExecution, hAfter⟩
    · obtain ⟨hSome, hPayload, hCommit⟩ := hTidy.commits pending hOld
      by_cases hThis : pending.recoveryRequestId = recoveryRequestId
      · rw [hThis] at hSome hPayload hCommit ⊢
        obtain ⟨event, hEvent⟩ := List.exists_mem_of_ne_nil _ hSome
        refine ⟨h.ne_nil, fun other hOther => ?_, fun request hRequest => ?_⟩
        · exact (h.payload hOther).trans ((h.old event hEvent).symm.trans (hPayload event hEvent))
        · obtain rfl := Option.some.inj (h.whole.symm.trans hRequest)
          exact h.committable (hCommit before h.replayed)
      · rw [h.history_eq, if_neg hThis]
        exact ⟨hSome, hPayload, hCommit⟩
    · rw [hId, hExecution]
      refine ⟨h.ne_nil, fun other hOther => h.payload hOther, fun request hRequest => ?_⟩
      exact Option.some.inj (h.whole.symm.trans hRequest) ▸ hAfter
  requests pending hIn := hTidy.requests pending (h.requests pending hIn)
  oneOpen left right request other hLeft hRight hActive hOther hSame := by
    by_cases hThis : left = recoveryRequestId
    · by_cases hThat : right = recoveryRequestId
      · exact hThis.trans hThat.symm
      · rw [hThis, h.whole] at hLeft
        obtain rfl := Option.some.inj hLeft
        rw [h.history_eq, if_neg hThat] at hRight
        exact absurd (hSame.symm.trans h.executionId_eq) (h.alone hTidy hActive hThat hRight hOther)
    · rw [h.history_eq, if_neg hThis] at hLeft
      by_cases hThat : right = recoveryRequestId
      · rw [hThat, h.whole] at hRight
        obtain rfl := Option.some.inj hRight
        exact absurd (hSame.trans h.executionId_eq) (h.alone hTidy hOther hThis hLeft hActive)
      · rw [h.history_eq, if_neg hThat] at hRight
        exact hTidy.oneOpen left right request other hLeft hRight hActive hOther hSame

/-- A turn that records nothing of a request. -/
theorem Tidy.still (hTidy : Tidy system) (hSound : LogSound next.log) (hWindow : span next.log ≤ 5000)
    (hLog : ∀ event, some event ∈ next.log ↔ some event ∈ system.log)
    (hHistory : ∀ other, history next.log other = history system.log other)
    (hCommits : next.commits = system.commits)
    (hRequests : ∀ pending ∈ next.requests, pending ∈ system.requests ∨
      trimmed pending.executionId = pending.executionId ∧ pending.executionId ≠ "") : Tidy next where
  sound := hSound
  window := hWindow
  executions event hIn := hTidy.executions event ((hLog event).mp hIn)
  same event other hIn hOther := hTidy.same event other ((hLog event).mp hIn) ((hLog other).mp hOther)
  readable other := by
    rw [hHistory]
    exact hTidy.readable other
  commits pending hIn := by
    rw [hHistory]
    exact hTidy.commits pending (hCommits ▸ hIn)
  requests pending hIn := (hRequests pending hIn).elim (hTidy.requests pending) id
  oneOpen left right request other := by
    rw [hHistory, hHistory]
    exact hTidy.oneOpen left right request other

theorem Tidy.extends_read (hTidy : Tidy system) {given : String} {request : RecoveryRequest}
    (hRequest : getRecoveryRequest system.log given = some request) (hLog : next.log = system.log ++ events.map some)
    (hSome : events ≠ []) (hKey : ∀ event ∈ events, event.requestId = request.recoveryRequestId)
    (hPayload : ∀ event ∈ events, event.payload.executionId = request.executionId)
    (hGoesOn : replay absorb request events = some after) (hStatus : after.status.isSome = true)
    (hOpens : after.active = true → request.active = true) (hCommittable : Committable request → Committable after)
    (hCommits : ∀ pending ∈ next.commits, pending ∈ system.commits ∨
      pending.recoveryRequestId = request.recoveryRequestId ∧ pending.executionId = request.executionId ∧
        Committable after)
    (hRequests : next.requests = system.requests) :
    Extends system next events request.recoveryRequestId request.executionId request after := by
  obtain ⟨-, hReplay, hId, hEvents, hExecution⟩ := hTidy.get hRequest
  rw [← hId] at hReplay hEvents
  exact {
    log := hLog
    nonempty := hSome
    key := hKey
    execution := hExecution
    payloads := hPayload
    old := hEvents
    replayed := hReplay
    goesOn := hGoesOn
    status := hStatus
    opens := fun hActive => Or.inl (hOpens hActive)
    committable := hCommittable
    commits := hCommits
    requests := fun pending hIn => hRequests ▸ hIn }

end Extension

theorem replay_single {request after : RecoveryRequest} {event : RecoveryEvent} (h : absorb request event = some after) :
    replay absorb request [event] = some after := by
  rw [replay_cons, h]
  rfl

theorem replay_pair {request middle after : RecoveryRequest} {event later : RecoveryEvent}
    (h : absorb request event = some middle) (h' : absorb middle later = some after) :
    replay absorb request [event, later] = some after := by
  rw [replay_cons, h]
  exact replay_single h'

theorem absorb_noted {event : RecoveryEvent} (h : getTransitionEventForAudit event = none) (request : RecoveryRequest) :
    absorb request event = some (request.merge event.payload request.status) := by
  rw [absorb, h]

theorem absorb_transition {event : RecoveryEvent} {transition : LifecycleEvent} {request : RecoveryRequest}
    {status : RecoveryStatus} (h : getTransitionEventForAudit event = some transition)
    (hStep : transitionState request.status transition = some status) :
    absorb request event = some (request.merge event.payload (some status)) := by
  rw [absorb, h]
  dsimp only
  rw [hStep]
  rfl

theorem active_merge (request : RecoveryRequest) (payload : AuditPayload) (status : RecoveryStatus) :
    (request.merge payload (some status)).active = !status.terminal := rfl

theorem cancel_open {status : RecoveryStatus} (h : status.terminal = false) :
    transitionState (some status) .cancel = some .cancelled := by
  cases status <;> first | rfl | cases h

/-- The result of a commit ends a request in which a commit may return. -/
theorem commitResult_ends {request : RecoveryRequest} (hCommittable : Committable request)
    (hOpen : request.status.any RecoveryStatus.terminal = false) (result : CommitResult)
    (recoveryRequestId executionId requestedBy : String) :
    ∃ status, status.terminal = true ∧
      absorb request (recordCommitResult recoveryRequestId executionId requestedBy result) =
        some (request.merge (recordCommitResult recoveryRequestId executionId requestedBy result).payload (some status)) := by
  have hStatus : request.status = some .previewed ∨ request.status = some .approved := by
    rcases hCommittable with h | h | h
    · exact Or.inl h
    · exact Or.inr h
    · rw [hOpen] at h
      cases h
  rcases commitResultType_cases result with hType | hType | hType
  · refine ⟨.committed, rfl, absorb_transition (?_ : _ = some .commitSuccess) ?_⟩
    · simp [getTransitionEventForAudit, recordCommitResult, hType]
    · rcases hStatus with h | h <;> rw [h] <;> rfl
  · refine ⟨.blocked, rfl, absorb_transition (?_ : _ = some .commitBlock) ?_⟩
    · simp [getTransitionEventForAudit, recordCommitResult, hType]
    · rcases hStatus with h | h <;> rw [h] <;> rfl
  · refine ⟨.failed, rfl, absorb_transition (?_ : _ = some .fail) ?_⟩
    · simp [getTransitionEventForAudit, recordCommitResult, hType]
    · rcases hStatus with h | h <;> rw [h] <;> rfl

theorem Tidy.status (hTidy : Tidy system) {given : String} {request : RecoveryRequest}
    (h : getRecoveryRequest system.log given = some request) : ∃ status, request.status = some status := by
  obtain ⟨hSome, hReplay, -⟩ := hTidy.get h
  obtain ⟨other, hOther, hStatus⟩ := hTidy.readable _ hSome
  obtain rfl := Option.some.inj (hReplay.symm.trans hOther)
  exact Option.isSome_iff_exists.mp hStatus

/-- A request whose commit is not refused is one in which a commit may return. -/
theorem Tidy.committable (hTidy : Tidy system) {given : String} {request : RecoveryRequest}
    (hRequest : getRecoveryRequest system.log given = some request)
    (hApproval : request.requiresApproval = true → request.status = some .approved) (hPreview : request.preview ≠ none) :
    Committable request := by
  obtain ⟨-, hReplay, -⟩ := hTidy.get hRequest
  have hFormed := hTidy.sound.history_formed (trimmed given)
  obtain ⟨policy, hPolicy⟩ := decided_of_previewed hFormed (hTidy.sound.ordered _) hReplay hPreview
  obtain ⟨hAllowed, hStatus | ⟨hStatus, -⟩ | hOver⟩ := (ruled_of_replay hFormed hReplay).ruled policy hPolicy
  · cases hNeeded : policy.requiresApproval with
    | true => exact Or.inr (Or.inl (hApproval (by simp [RecoveryRequest.requiresApproval, hPolicy, hNeeded])))
    | false =>
      rw [policyStatus_allowed hAllowed, hNeeded] at hStatus
      exact Or.inl hStatus
  · exact Or.inr (Or.inl hStatus)
  · exact Or.inr (Or.inr hOver)

theorem requestRecovery_executionId {log : List AuditLine} {executionId recoveryMode requestedBy : String}
    {pending : PendingRequest} (h : requestRecovery log executionId recoveryMode requestedBy = .ok pending) :
    pending.executionId = trimmed executionId ∧ trimmed executionId ≠ "" := by
  unfold requestRecovery at h
  split at h
  · cases h
  · rename_i hGiven
    split at h
    · cases h
    · obtain rfl := Except.ok.inj h
      exact ⟨rfl, fun hBlank => hGiven (by simp [hBlank])⟩

theorem logSound_tidy (hTidy : Tidy system) {turn : RecoveryTurn} (hKeeps : KeepsHistory turn system) :
    LogSound (system.take turn).log :=
  logSound_take hTidy.sound hKeeps.1 fun pending hIn => (hTidy.commits pending hIn).1

/-- What a turn that keeps the history does: it records nothing, or takes one request a step further. -/
theorem tidy_cases (hTidy : Tidy system) {turn : RecoveryTurn} (hKeeps : KeepsHistory turn system) :
    (Tidy (system.take turn) ∧ ∀ other, history (system.take turn).log other = history system.log other) ∨
      ∃ events recoveryRequestId executionId before after,
        Extends system (system.take turn) events recoveryRequestId executionId before after := by
  obtain ⟨hFresh, hWindow, hTurnKeeps⟩ := hKeeps
  have hSound := logSound_take hTidy.sound hFresh fun pending hIn => (hTidy.commits pending hIn).1
  have hEffect := take_effect turn system
  generalize system.take turn = next at hEffect hSound hWindow ⊢
  cases hEffect with
  | idle h =>
    subst h
    exact Or.inl ⟨hTidy, fun _ => rfl⟩
  | began executionId recoveryMode requestedBy pending hTurn hPending h =>
    subst h
    refine Or.inl ⟨hTidy.still hSound hWindow (fun _ => Iff.rfl) (fun _ => rfl) rfl fun other hIn => ?_, fun _ => rfl⟩
    refine (List.mem_append.mp hIn).imp_right fun hNew => ?_
    obtain rfl := List.mem_singleton.mp hNew
    obtain ⟨hExecution, hBlank⟩ := requestRecovery_executionId hPending
    rw [hExecution]
    exact ⟨trimmed_trimmed executionId, hBlank⟩
  | dropped index h =>
    subst h
    exact Or.inl ⟨hTidy.still hSound hWindow (fun _ => Iff.rfl) (fun _ => rfl) rfl
      fun other hIn => Or.inl (List.mem_of_mem_eraseIdx hIn), fun _ => rfl⟩
  | other h =>
    subst h
    have hHistory (other : String) : history (system.log ++ [none]) other = history system.log other := by
      rw [history_append]
      exact List.append_nil _
    exact Or.inl ⟨hTidy.still hSound hWindow (by simp) hHistory rfl fun other hIn => Or.inl hIn, hHistory⟩
  | created index now random pending plan hTurn hPending h =>
    subst h hTurn
    have hNone : history system.log (createRecoveryRequestId now random) = [] := hFresh
    have hExecution := hTidy.requests pending (List.mem_of_getElem? hPending)
    refine Or.inr ⟨_, createRecoveryRequestId now random, pending.executionId, {}, _, {
      log := rfl
      nonempty := List.cons_ne_nil _ _
      key := by simp [RecoveryEvent.requestId, recordRecoveryRequest]
      execution := hExecution
      payloads := by simp [recordRecoveryRequest]
      old := by simp [hNone]
      replayed := by rw [hNone]; rfl
      goesOn := replay_single (absorb_transition rfl
        (rfl : transitionState none .createRequest = some .requested))
      status := rfl
      opens := fun _ => Or.inr fun other request hReplay hActive hSame => ?_
      committable := fun h => by rcases h with h | h | h <;> cases h
      commits := fun other hIn => Or.inl hIn
      requests := fun other hIn => List.mem_of_mem_eraseIdx hIn }⟩
    have hOpen := hTidy.get_of_history (history_of_active hReplay hActive) hReplay
    have hFound := hTidy.found hOpen hActive
    rw [hSame] at hFound
    exact hFound (hTurnKeeps pending hPending)
  | previewed given request plan hTurn hRequest h =>
    subst h hTurn
    have hStatus : request.status = some .requested := hTurnKeeps request hRequest
    have hAllowed := evaluateRecoveryPolicy_allowed (previewRecoveryPlan plan).replayCandidates
    obtain ⟨policy, transition, -, hPolicy, hTransition, hStep⟩ := transition_decision
      (recordPolicyDecision_formed request (previewRecoveryPlan plan).replayCandidates) rfl
    obtain rfl := Option.some.inj hPolicy
    have hDecided := (hStep request.status).trans (if_pos hStatus)
    refine Or.inr ⟨_, _, _, _, _, hTidy.extends_read hRequest rfl (List.cons_ne_nil _ _)
      (by simp [RecoveryEvent.requestId, recordPreview, recordPolicyDecision])
      (by simp [recordPreview, recordPolicyDecision])
      (replay_pair (absorb_noted rfl request) (absorb_transition hTransition hDecided)) rfl ?_ ?_ (fun other hIn => Or.inl hIn) rfl⟩
    · intro _
      rw [active_status]
      exact ⟨.requested, hStatus, rfl⟩
    · rintro (h | h | h) <;> rw [hStatus] at h <;> cases h
  | approved given approver request hRequest hStatus h =>
    subst h
    have hStep : transitionState request.status .approve = some .approved := by rw [hStatus]; rfl
    refine Or.inr ⟨_, _, _, _, _, hTidy.extends_read hRequest rfl (List.cons_ne_nil _ _)
      (by simp [RecoveryEvent.requestId, recordApproval]) (by simp [recordApproval])
      (replay_single (absorb_transition rfl hStep)) rfl
      (fun _ => active_status.mpr ⟨_, hStatus, rfl⟩) (fun _ => Or.inr (Or.inl rfl)) (fun other hIn => Or.inl hIn) rfl⟩
  | attempted given requestedBy request hRequest h =>
    subst h
    obtain ⟨status, hStatus⟩ := hTidy.status hRequest
    refine Or.inr ⟨_, _, _, _, _, hTidy.extends_read hRequest rfl (List.cons_ne_nil _ _)
      (by simp [RecoveryEvent.requestId, recordCommitAttempt]) (by simp [recordCommitAttempt])
      (replay_single (absorb_noted rfl request)) (by simp [RecoveryRequest.merge, hStatus]) (fun hActive => hActive)
      (fun hCommittable => hCommittable) (fun other hIn => Or.inl hIn) rfl⟩
  | invoked given requestedBy request pending hTurn hRequest hApproval hPreview hPending h =>
    subst h
    obtain ⟨status, hStatus⟩ := hTidy.status hRequest
    have hCommittable := hTidy.committable hRequest hApproval hPreview
    refine Or.inr ⟨_, _, _, _, _, hTidy.extends_read hRequest rfl (List.cons_ne_nil _ _)
      (by simp [RecoveryEvent.requestId, recordCommitAttempt]) (by simp [recordCommitAttempt])
      (replay_single (absorb_noted rfl request)) (by simp [RecoveryRequest.merge, hStatus]) (fun hActive => hActive)
      (fun hBefore => hBefore) (fun other hIn => ?_) rfl⟩
    refine (List.mem_append.mp hIn).imp_right fun hNew => ?_
    obtain rfl := List.mem_singleton.mp hNew
    exact ⟨hPending.1, hPending.2, hCommittable⟩
  | returned index pending result hTurn hPending h =>
    subst h hTurn
    obtain ⟨hSome, hPayload, hCommit⟩ := hTidy.commits pending (List.mem_of_getElem? hPending)
    obtain ⟨request, hReplay, -⟩ := hTidy.readable _ hSome
    have hGoes := hTurnKeeps pending hPending
    have hOpen := not_terminal_of_open (hTidy.sound.history_formed pending.recoveryRequestId)
      (fun hEnded => by rw [(ended_iff_any _).mp hEnded] at hGoes; cases hGoes) hReplay
    obtain ⟨status, hTerminal, hAbsorb⟩ := commitResult_ends (hCommit request hReplay) hOpen result
      pending.recoveryRequestId pending.executionId pending.requestedBy
    obtain ⟨event, hEvent⟩ := List.exists_mem_of_ne_nil _ hSome
    have hExecution := hTidy.executions event (mem_history.mp hEvent).1
    rw [hPayload event hEvent] at hExecution
    exact Or.inr ⟨_, pending.recoveryRequestId, pending.executionId, request, _, {
      log := rfl
      nonempty := List.cons_ne_nil _ _
      key := by simp [RecoveryEvent.requestId, recordCommitResult]
      execution := hExecution
      payloads := by simp [recordCommitResult]
      old := hPayload
      replayed := hReplay
      goesOn := replay_single hAbsorb
      status := rfl
      opens := fun hActive => by simp [active_merge, hTerminal] at hActive
      committable := fun _ => Or.inr (Or.inr hTerminal)
      commits := fun other hIn => Or.inl (List.mem_of_mem_eraseIdx hIn)
      requests := fun other hIn => hIn }⟩
  | cancelled given request hTurn hRequest h =>
    subst h hTurn
    obtain ⟨status, hStatus⟩ := hTidy.status hRequest
    have hOpen : request.status.any RecoveryStatus.terminal = false := hTurnKeeps request hRequest
    have hStep : transitionState request.status .cancel = some .cancelled := by
      rw [hStatus] at hOpen ⊢
      exact cancel_open hOpen
    refine Or.inr ⟨_, _, _, _, _, hTidy.extends_read hRequest rfl (List.cons_ne_nil _ _)
      (by simp [RecoveryEvent.requestId, recordCancellation]) (by simp [recordCancellation])
      (replay_single (absorb_transition rfl hStep)) rfl (fun hActive => by cases hActive) (fun _ => Or.inr (Or.inr rfl))
      (fun other hIn => Or.inl hIn) rfl⟩

theorem tidy_take (hTidy : Tidy system) {turn : RecoveryTurn} (hKeeps : KeepsHistory turn system) :
    Tidy (system.take turn) := by
  rcases tidy_cases hTidy hKeeps with ⟨hNext, -⟩ | ⟨_, _, _, _, _, hExtends⟩
  · exact hNext
  · exact hExtends.tidy hTidy (logSound_tidy hTidy hKeeps) hKeeps.2.1

theorem tidy_initial : Tidy RecoverySystem.initial where
  sound := logSound_nil
  window := Nat.zero_le _
  executions := by simp [RecoverySystem.initial]
  same := by simp [RecoverySystem.initial]
  readable _ hSome := absurd rfl hSome
  commits := by simp [RecoverySystem.initial]
  requests := by simp [RecoverySystem.initial]
  oneOpen left right request other hLeft hRight hActive := absurd rfl (history_of_active hLeft hActive)

/-- Nothing takes a request out of the status in which it ended. -/
theorem terminal_kept {events : List RecoveryEvent} {before after : RecoveryRequest} {status : RecoveryStatus}
    (hFormed : ∀ event ∈ events, Formed event) (hTerminal : status.terminal = true)
    (hBefore : before.status = some status) (h : replay absorb before events = some after) :
    after.status = some status := by
  refine replay_invariant (P := fun r => r.status = some status) h hBefore hFormed ?_
  intro r event t hNow hEvent hAbsorb
  cases absorb_cases hEvent hAbsorb with
  | created _ hFrom _ => rw [hFrom] at hNow; cases hNow
  | decided _ _ hFrom _ _ _ =>
    obtain rfl := Option.some.inj (hFrom.symm.trans hNow)
    cases hTerminal
  | approved _ hFrom _ =>
    obtain rfl := Option.some.inj (hFrom.symm.trans hNow)
    cases hTerminal
  | ended _ _ _ hFrom _ _ =>
    rw [hFrom status hNow] at hTerminal
    cases hTerminal
  | noted _ hThen => rw [hThen]; exact hNow

theorem getRecoveryRequest_trimmed (log : List AuditLine) (recoveryRequestId : String) :
    getRecoveryRequest log (trimmed recoveryRequestId) = getRecoveryRequest log recoveryRequestId := by
  rw [getRecoveryRequest_eq, getRecoveryRequest_eq, trimmed_trimmed]

instance : Std.Refl KeepsEnds := ⟨fun _ _ request _ h hStatus _ => ⟨request, h, hStatus⟩⟩

instance : IsTrans RecoverySystem KeepsEnds where
  trans _ _ _ h h' recoveryRequestId request status hRequest hStatus hTerminal := by
    obtain ⟨after, hAfter, hKept⟩ := h recoveryRequestId request status hRequest hStatus hTerminal
    exact h' recoveryRequestId after status hAfter hKept hTerminal

theorem keepsEnds_take (hTidy : Tidy system) {turn : RecoveryTurn} (hKeeps : KeepsHistory turn system) :
    KeepsEnds system (system.take turn) := by
  intro given request status hRequest hStatus hTerminal
  obtain ⟨hSome, hReplay, -⟩ := hTidy.get hRequest
  have hNext := tidy_take hTidy hKeeps
  rw [← getRecoveryRequest_trimmed]
  rcases tidy_cases hTidy hKeeps with ⟨-, hHistory⟩ | ⟨events, recoveryRequestId, executionId, before, after, hExtends⟩
  · rw [← hHistory] at hSome hReplay
    exact ⟨request, hNext.get_of_history hSome hReplay, hStatus⟩
  · have hHistory := hExtends.history_eq (trimmed given)
    by_cases hThis : trimmed given = recoveryRequestId
    · rw [hThis] at hReplay ⊢
      obtain rfl := Option.some.inj (hExtends.replayed.symm.trans hReplay)
      refine ⟨after, hNext.get_of_history hExtends.ne_nil hExtends.whole, ?_⟩
      refine terminal_kept (fun event hIn => ?_) hTerminal hStatus hExtends.goesOn
      refine hNext.sound.formed event ?_
      rw [hExtends.log]
      simp [hIn]
    · rw [if_neg hThis] at hHistory
      rw [← hHistory] at hSome hReplay
      exact ⟨request, hNext.get_of_history hSome hReplay, hStatus⟩

/-- In every run whose turns keep the history, the requests stay readable and what is over stays so, and an
execution has at most one open request. -/
theorem recovery_history_kept {system : RecoverySystem}
    (hRun : Reaches (fun turn s => s.take turn) KeepsHistory RecoverySystem.initial system) :
    Readable system ∧ OneOpen system ∧
      ∀ later, Reaches (fun turn s => s.take turn) KeepsHistory system later → KeepsEnds system later := by
  have hTidy : Tidy system := hRun.invariant tidy_initial fun _ _ hTidy hKeeps => tidy_take hTidy hKeeps
  refine ⟨hTidy.readable', hTidy.oneOpen', fun later hLater => ?_⟩
  exact hLater.relates_of_invariant hTidy (fun _ _ hTidy hKeeps => tidy_take hTidy hKeeps)
    fun _ _ hTidy hKeeps => keepsEnds_take hTidy hKeeps

end Invariant

section Runs

abbrev finished : List RecoveryTurn :=
  openedWith (heavyPlan "execution") ++ [.approveRecovery "recovery_7_k3x9" "lead",
    .commitRecovery "recovery_7_k3x9" "operator" false, .otherLine, .committed 0 .ok,
    .requestRecovery "execution" "resume" "operator", .planBuilt 0 (.ok (quietPlan "execution")) 8 randomText]

/-- A request that is approved and committed, and a second one after it. -/
theorem finished_history_kept :
    Readable (after finished) ∧ OneOpen (after finished) ∧ KeepsEnds (after finished) (after finished) := by
  have hRun : Reaches (fun turn s => RecoverySystem.take turn s) KeepsHistory RecoverySystem.initial (after finished) :=
    GuardedAll.reaches (by decide +kernel)
  obtain ⟨hReadable, hOneOpen, hKeeps⟩ := recovery_history_kept hRun
  exact ⟨hReadable, hOneOpen, hKeeps _ .refl⟩

/-- Two requests that pass the test for an open request before either is recorded. -/
abbrev racing : List RecoveryTurn :=
  [.requestRecovery "execution" "resume" "operator", .requestRecovery "execution" "resume" "other",
    .planBuilt 0 (.ok (quietPlan "execution")) 7 randomText, .planBuilt 0 (.ok (quietPlan "execution")) 8 randomText]

def openFields (request : RecoveryRequest) : Bool × String × String :=
  (request.active, request.executionId, request.recoveryRequestId)

/-- A second preview makes a request unreadable, a second cancellation loses a cancelled one, and two requests
whose plans are built at the same time are both open. -/
theorem previewed_twice_unreadable :
    ¬Readable (after (openedWith (quietPlan "execution") ++ [.previewRecovery "recovery_7_k3x9"])) ∧
    ¬KeepsEnds (after (openedWith (quietPlan "execution") ++ [.cancelRecovery "recovery_7_k3x9"]))
      (after (openedWith (quietPlan "execution") ++
        [.cancelRecovery "recovery_7_k3x9", .cancelRecovery "recovery_7_k3x9"])) ∧
    ¬OneOpen (after racing) := by
  refine ⟨fun hReadable => ?_, fun hKeeps => ?_, fun hOneOpen => ?_⟩
  · obtain ⟨request, hRequest, -⟩ := hReadable "recovery_7_k3x9" (by decide +kernel)
    have hLost : getRecoveryRequest (after (openedWith (quietPlan "execution") ++
        [.previewRecovery "recovery_7_k3x9"])).log "recovery_7_k3x9" = none := by decide +kernel
    rw [hLost] at hRequest
    cases hRequest
  · have hCancelled : ((getRecoveryRequest (after (openedWith (quietPlan "execution") ++
        [.cancelRecovery "recovery_7_k3x9"])).log "recovery_7_k3x9").bind RecoveryRequest.status) = some .cancelled := by
      decide +kernel
    have hLost : getRecoveryRequest (after (openedWith (quietPlan "execution") ++
        [.cancelRecovery "recovery_7_k3x9", .cancelRecovery "recovery_7_k3x9"])).log "recovery_7_k3x9" = none := by
      decide +kernel
    obtain ⟨request, hRequest, hStatus⟩ := Option.bind_eq_some_iff.mp hCancelled
    obtain ⟨after, hAfter, -⟩ := hKeeps "recovery_7_k3x9" request .cancelled hRequest hStatus rfl
    rw [hLost] at hAfter
    cases hAfter
  · have hLeft : (getRecoveryRequest (after racing).log "recovery_7_k3x9").map openFields =
        some (true, "execution", "recovery_7_k3x9") := by decide +kernel
    have hRight : (getRecoveryRequest (after racing).log "recovery_8_k3x9").map openFields =
        some (true, "execution", "recovery_8_k3x9") := by decide +kernel
    obtain ⟨request, hRequest, hFields⟩ := Option.map_eq_some_iff.mp hLeft
    obtain ⟨other, hOther, hFields'⟩ := Option.map_eq_some_iff.mp hRight
    simp only [openFields, Prod.mk.injEq] at hFields hFields'
    have hSame := hOneOpen _ _ request other hRequest hOther hFields.1 hFields'.1
      (hFields.2.1.trans hFields'.2.1.symm)
    rw [hFields.2.2, hFields'.2.2] at hSame
    exact absurd hSame (by decide)

end Runs

end CommandConsole.Recovery
