import CommandConsole.Knowledge.ReviewWorkQueue

/-! # An open work item for every enqueue that is answered

The claim of an answered enqueue is carried from the step that finds or creates its item to the step
that answers it.
-/
namespace CommandConsole.Knowledge
open Library
set_option autoImplicit false

section Queue

variable {i : Nat} {queue later : WorkQueue}

/-- An enqueue that is answered with a queued item has one that is open. -/
def WorkAnswer.Kept (answer : WorkAnswer) : Prop :=
  match answer.request with
  | .enqueue knowledgeId _ => answer.result.status = .queued → answer.items.open knowledgeId ≠ []
  | .complete _ _ => True

structure WorkQueue.Sound (queue : WorkQueue) : Prop where
  once : ∀ knowledgeId, (queue.itemsById.open knowledgeId).length ≤ 1
  waiting : ∀ call ∈ queue.unanswered, queue.itemsById.open call.2 ≠ []
  answered : ∀ answer ∈ queue.answers, answer.Kept

structure WorkQueue.Later (i : Nat) (queue later : WorkQueue) : Prop where
  mine : ∀ knowledgeId, (i, knowledgeId) ∈ queue.unanswered → (i, knowledgeId) ∈ later.unanswered
  answers : queue.answers ⊆ later.answers

theorem WorkQueue.Later.refl (i : Nat) (queue : WorkQueue) : queue.Later i queue :=
  ⟨fun _ hMine => hMine, List.Subset.refl _⟩

theorem WorkQueue.Later.trans (i : Nat) (q r s : WorkQueue) (h : q.Later i r) (h' : r.Later i s) :
    q.Later i s :=
  ⟨fun knowledgeId hMine => h'.mine knowledgeId (h.mine knowledgeId hMine), fun _ hAnswer => h'.answers (h.answers hAnswer)⟩

theorem findOpen_eq_head? (items : WorkItems) (knowledgeId : String) :
    items.findOpenByKnowledgeId knowledgeId = (items.open knowledgeId).head? := (List.head?_filter).symm

theorem sound_no_work : WorkQueue.empty.Sound where
  once _ := Nat.zero_le 1
  waiting := by simp [WorkQueue.empty]
  answered := by simp [WorkQueue.empty]

theorem WorkQueue.Sound.expect (h : queue.Sound) {knowledgeId : String} (hOpen : queue.itemsById.open knowledgeId ≠ []) :
    (queue.expect i knowledgeId).Sound ∧ ∀ j, queue.Later j (queue.expect i knowledgeId) := by
  refine ⟨⟨h.once, ?_, h.answered⟩, fun j => ⟨fun _ hMine => List.mem_append_left _ hMine, List.Subset.refl _⟩⟩
  intro call hCall
  rcases List.mem_append.mp hCall with hOld | hNew
  · exact h.waiting call hOld
  · obtain rfl := List.mem_singleton.mp hNew
    exact hOpen

theorem mem_expect (knowledgeId : String) : (i, knowledgeId) ∈ (queue.expect i knowledgeId).unanswered :=
  List.mem_append_right _ List.mem_cons_self

theorem WorkQueue.Sound.withdraw (h : queue.Sound) :
    (queue.withdraw i).Sound ∧ ∀ j, j ≠ i → queue.Later j (queue.withdraw i) := by
  refine ⟨⟨h.once, fun call hCall => h.waiting call (List.mem_of_mem_filter hCall), h.answered⟩, fun j hOther => ⟨?_, ?_⟩⟩
  · intro knowledgeId hMine
    exact List.mem_filter.mpr ⟨hMine, decide_eq_true hOther⟩
  · exact List.Subset.refl _

theorem open_setItem {item : KnowledgeReviewWorkItem} (hNew : queue.item? item.workItemId = none) (knowledgeId : String) :
    (queue.setItem item).itemsById.open knowledgeId =
      queue.itemsById.open knowledgeId ++ if item.isOpenFor knowledgeId then [item] else [] := by
  rw [WorkItems.open, WorkQueue.setItem, InsertionMap.set_of_get_none item hNew, List.map_append, List.filter_append]
  rw [List.map_singleton, List.filter_cons, List.filter_nil]
  rfl

/-- An open item of a record that has none. -/
theorem WorkQueue.Sound.setItem (h : queue.Sound) {item : KnowledgeReviewWorkItem}
    (hNew : queue.item? item.workItemId = none) (hNone : queue.itemsById.open item.knowledgeId = [])
    (hOpen : item.isOpen = true) :
    (queue.setItem item).Sound ∧ (∀ j, queue.Later j (queue.setItem item)) ∧
      (queue.setItem item).itemsById.open item.knowledgeId ≠ [] := by
  have hItem : item.isOpenFor item.knowledgeId = true := by simp [KnowledgeReviewWorkItem.isOpenFor, hOpen]
  refine ⟨⟨fun knowledgeId => ?_, fun call hCall => ?_, h.answered⟩, fun j => ⟨fun _ hMine => hMine, List.Subset.refl _⟩, ?_⟩
  · rw [open_setItem hNew]
    split
    · rename_i hFor
      have hSame : item.knowledgeId = knowledgeId := by
        simp [KnowledgeReviewWorkItem.isOpenFor] at hFor
        exact hFor.1
      rw [← hSame, hNone]
      exact Nat.le_refl 1
    · rw [List.append_nil]
      exact h.once knowledgeId
  · rw [open_setItem hNew]
    exact List.append_ne_nil_of_left_ne_nil (h.waiting call hCall) _
  · rw [open_setItem hNew, if_pos hItem]
    exact List.append_ne_nil_of_right_ne_nil _ (List.cons_ne_nil _ _)

/-- An item is closed while no enqueue of its record is to be answered. -/
theorem WorkQueue.Sound.close (h : queue.Sound) {workItemId : String} {existing closed : KnowledgeReviewWorkItem}
    (hExisting : queue.item? workItemId = some existing) (hClosed : closed.isOpen = false)
    (hAlone : ∀ call ∈ queue.unanswered, call.2 ≠ existing.knowledgeId) :
    { queue with itemsById := InsertionMap.set workItemId closed queue.itemsById }.Sound := by
  have hNot : ∀ knowledgeId, closed.isOpenFor knowledgeId = false := by simp [KnowledgeReviewWorkItem.isOpenFor, hClosed]
  refine ⟨fun knowledgeId => ?_, fun call hCall => ?_, h.answered⟩
  · exact Nat.le_trans (InsertionMap.filter_set_sublist (hNot knowledgeId)).length_le (h.once knowledgeId)
  · have hOther : existing.isOpenFor call.2 = false := by
      have hNe := hAlone call hCall
      simp [KnowledgeReviewWorkItem.isOpenFor, hNe.symm]
    rw [WorkItems.open, InsertionMap.filter_set hExisting hOther (hNot call.2)]
    exact h.waiting call hCall

theorem WorkQueue.Sound.answer (h : queue.Sound) {answer : WorkAnswer} (hKept : answer.Kept) :
    { queue.withdraw i with answers := queue.answers ++ [answer] }.Sound ∧
      ∀ j, j ≠ i → queue.Later j { queue.withdraw i with answers := queue.answers ++ [answer] } := by
  obtain ⟨hSound, hLater⟩ := h.withdraw (i := i)
  refine ⟨⟨hSound.once, hSound.waiting, fun other hOther => ?_⟩, fun j hj => ⟨(hLater j hj).mine, ?_⟩⟩
  · rcases List.mem_append.mp hOther with hOld | hNew
    · exact h.answered other hOld
    · obtain rfl := List.mem_singleton.mp hNew
      exact hKept
  · exact List.subset_append_left _ _

end Queue

section Calls

variable {index : Nat} {queue : WorkQueue}

/-- An item is created, or answered by one that has its id, exactly where its record has an open one or none of
them is there, and an open item is closed while no enqueue of its record is to be answered. -/
def admitted (_ : Nat) (_ : WorkWorld) : WorkCommand → WorkQueue → Prop
  | .create item, queue => (queue.item? item.workItemId).isSome = true ↔ queue.itemsById.open item.knowledgeId ≠ []
  | .complete workItemId _ _, queue => ∀ item ∈ queue.item? workItemId, item.isOpen = true →
    ∀ call ∈ queue.unanswered, call.2 ≠ item.knowledgeId
  | _, _ => True

instance (index : Nat) (world : WorkWorld) (command : WorkCommand) (queue : WorkQueue) :
    Decidable (admitted index world command queue) := by
  unfold admitted
  split <;> infer_instance

def workProtocol : Protocol WorkCommand WorkReply WorkWorld WorkQueue where
  perform := performWork
  MayWait _ _ := False
  Allowed := admitted
  Inv := WorkQueue.Sound
  Rely := WorkQueue.Later
  rely_refl := WorkQueue.Later.refl
  rely_trans := WorkQueue.Later.trans

/-- A result that may be given to the request. -/
def WorkRequest.Earned (request : WorkRequest) (index : Nat) (outcome : Option WorkResult) (queue : WorkQueue) : Prop :=
  match request, outcome with
  | .enqueue knowledgeId _, some result => result.status = .queued → (index, knowledgeId) ∈ queue.unanswered
  | _, _ => True

def WorkRequest.post (index : Nat) (request : WorkRequest) (outcome : Option WorkResult) (queue : WorkQueue) : Prop :=
  ∀ result ∈ outcome, ∃ answer ∈ queue.answers,
    answer.caller = index ∧ answer.request = request ∧ answer.result = result

abbrev SafeWork (index : Nat) {α : Type} (post : Option α → WorkQueue → Prop) (x : WorkScript α) (queue : WorkQueue) :
    Prop := x.Safe workProtocol index post queue

theorem fair_unchanged (h : queue.Sound) : Script.Fair workProtocol index queue queue := ⟨h, fun j _ => .refl j queue⟩

theorem safe_event {post : Option Unit → WorkQueue → Prop} {event : WorkItemAuditEvent}
    (hFail : ∀ t, t.Sound → post none t) (hDone : ∀ t, queue.Later index t → t.Sound → post (some ()) t) :
    SafeWork index post (askQueue (.append event)) queue := by
  intro t hLater hInv world _
  cases hFails : world.fails with
  | true =>
    simp only [workProtocol, performWork, hFails, if_true]
    exact ⟨hInv.withdraw.1, hInv.withdraw.2, fun u _ hInv' => hFail u hInv'⟩
  | false =>
    simp only [workProtocol, performWork, hFails, Bool.false_eq_true, if_false]
    refine ⟨⟨hInv.once, hInv.waiting, hInv.answered⟩, fun j _ => ⟨fun _ hMine => hMine, List.Subset.refl _⟩, ?_⟩
    intro u hLater' hInv'
    exact hDone u ⟨fun k hMine => hLater'.mine k (hLater.mine k hMine), fun _ hAnswer => hLater'.answers (hLater.answers hAnswer)⟩
      hInv'

/-- A read of another repository or of the queue that changes nothing. -/
theorem safe_look {α : Type} {post : Option α → WorkQueue → Prop} {command : WorkCommand} {f : WorkReply command → WorkScript α}
    (hRead : ∀ world t, ∃ answer, performWork index world command t = some (answer, t))
    (hFail : ∀ t, t.Sound → post none t)
    (hNext : ∀ world t a, t.Sound → performWork index world command t = some (some a, t) → SafeWork index post (f a) t) :
    SafeWork index post (askQueue command >>= f) queue := by
  refine Script.Safe.ask fun t _ hInv world _ => ?_
  obtain ⟨answer, hPerform⟩ := hRead world t
  simp only [workProtocol]
  rw [hPerform]
  cases answer with
  | none => exact ⟨fair_unchanged hInv, fun u _ hInv' => hFail u hInv'⟩
  | some a => exact ⟨fair_unchanged hInv, hNext world t a hInv hPerform⟩

theorem safe_createWork {knowledgeId : String} {freshness : KnowledgeFreshnessAssessment}
    {record : DurableKnowledgeRecord} (hRecord : record.knowledgeId = knowledgeId) :
    SafeWork index ((WorkRequest.enqueue knowledgeId freshness).Earned index) (createWork record freshness) queue := by
  refine safe_look (fun world t => ⟨_, rfl⟩) (fun _ _ => trivial) fun world t now hInv _ => ?_
  refine Script.Safe.bind (M := fun outcome u => ∀ created, outcome = some (some created) →
    (index, knowledgeId) ∈ u.unanswered) (Script.Safe.attempt ?_) hInv (fun outcome u hInv' hMid => ?_) fun _ _ _ => trivial
  · refine Script.Safe.ask fun u _ hInv' world hAdmitted => ?_
    simp only [workProtocol, admitted] at hAdmitted
    simp only [workProtocol, performWork]
    have hMember : ∀ (q r : WorkQueue) (created : KnowledgeReviewWorkItem),
        (q.expect index record.knowledgeId).Later index r → r.Sound →
        SafeWork index (fun outcome v => ∀ made, some outcome = some (some made) → (index, knowledgeId) ∈ v.unanswered)
          (askQueue (.append (workItemEvent .queued created record now)) >>= fun _ => pure created) r := by
      intro q r created hLater hSound
      have hMine : (index, knowledgeId) ∈ r.unanswered := hRecord ▸ hLater.mine _ (mem_expect record.knowledgeId)
      refine Script.Safe.bind (M := fun outcome v => outcome = some () → (index, knowledgeId) ∈ v.unanswered)
        (safe_event (fun _ _ hNone => nomatch hNone) fun v hNext _ _ => hNext.mine _ hMine) hSound
        (fun _ v hInv'' hMid => ?_) fun _ _ _ _ hNone => nomatch hNone
      exact fun w hNext hSound' _ _ => hMid w hNext hSound' rfl
    cases hItem : u.item? (newWorkItem record freshness now).workItemId with
    | some existing =>
      have hOpen := hAdmitted.mp (by rw [hItem]; rfl)
      obtain ⟨hSound, hLater⟩ := hInv'.expect (i := index) hOpen
      exact ⟨⟨hSound, fun j _ => hLater j⟩, hMember u _ existing (.refl index _) hSound⟩
    | none =>
      have hNone : u.itemsById.open (newWorkItem record freshness now).knowledgeId = [] := by
        by_contra hOpen
        have hSome := hAdmitted.mpr hOpen
        rw [hItem] at hSome
        cases hSome
      obtain ⟨hSet, hLater, hOpen⟩ := hInv'.setItem hItem hNone rfl
      obtain ⟨hSound, hLater'⟩ := hSet.expect (i := index) hOpen
      exact ⟨⟨hSound, fun j _ => (hLater j).trans _ _ _ _ (hLater' j)⟩,
        hMember (u.setItem (newWorkItem record freshness now)) _ _ (.refl index _) hSound⟩
  · cases outcome with
    | none => exact fun _ _ _ hQueued => nomatch hQueued
    | some created => exact fun v hNext hSound _ => hMid v hNext hSound created rfl

theorem safe_settled {α : Type} {post : Option α → WorkQueue → Prop} {a : α} (h : ∀ t, post (some a) t) :
    SafeWork index post (pure a) queue := fun t _ _ => h t

theorem safe_enqueue (knowledgeId : String) (freshness : KnowledgeFreshnessAssessment) :
    SafeWork index ((WorkRequest.enqueue knowledgeId freshness).Earned index) (enqueue knowledgeId freshness) queue := by
  have hRejected : ∀ reason t, SafeWork index ((WorkRequest.enqueue knowledgeId freshness).Earned index)
      (pure (rejectedWork reason)) t := fun _ _ => safe_settled fun _ hQueued => nomatch hQueued
  refine safe_look (fun world t => ⟨_, rfl⟩) (fun _ _ => trivial) fun world t knowledge _ hGet => ?_
  cases knowledge with
  | none => exact hRejected .knowledgeNotFound t
  | some record =>
    have hRecord : record.knowledgeId = knowledgeId := by
      simp only [performWork, WorkWorld.reply, Option.some.injEq, Prod.mk.injEq, and_true] at hGet
      split at hGet
      · cases hGet
      · obtain ⟨stored, -, rfl⟩ := Option.map_eq_some_iff.mp (Option.some.inj hGet)
        rfl
    refine Script.Safe.ite (fun _ => hRejected _ t) fun _ => ?_
    refine Script.Safe.ite (fun _ => hRejected _ t) fun _ => ?_
    refine Script.Safe.ite (fun _ => hRejected _ t) fun _ => ?_
    refine Script.Safe.ask fun u _ hInv world _ => ?_
    cases hFound : u.itemsById.findOpenByKnowledgeId record.knowledgeId with
    | none =>
      simp only [workProtocol, performWork, hFound]
      exact ⟨fair_unchanged hInv, safe_createWork hRecord⟩
    | some item =>
      have hOpen : u.itemsById.open record.knowledgeId ≠ [] := by
        rintro hNone
        rw [findOpen_eq_head?, hNone] at hFound
        cases hFound
      obtain ⟨hSound, hLater⟩ := hInv.expect (i := index) hOpen
      simp only [workProtocol, performWork, hFound]
      refine ⟨⟨hSound, fun j _ => hLater j⟩, fun v hNext _ _ => hNext.mine _ ?_⟩
      exact hRecord ▸ mem_expect record.knowledgeId

theorem safe_completeWork {workItemId reviewId : String} (item : KnowledgeReviewWorkItem) (review : KnowledgeReview)
    (record : DurableKnowledgeRecord) : SafeWork index ((WorkRequest.complete workItemId reviewId).Earned index)
      (completeWork item review record) queue := by
  refine safe_look (fun world t => ⟨_, rfl⟩) (fun _ _ => trivial) fun world t now hInv _ => ?_
  refine Script.Safe.bind (M := fun _ _ => True) (Script.Safe.attempt ?_) hInv (fun outcome u _ _ => ?_) fun _ _ _ => trivial
  · refine Script.Safe.ask fun u _ hInv' world hAdmitted => ?_
    have hAppend : ∀ (completed : KnowledgeReviewWorkItem) (v : WorkQueue), v.Sound →
        SafeWork index (fun _ _ => True) (askQueue (.append (workItemEvent .completed completed record now)) >>=
          fun _ => pure completed) v := by
      intro completed v hSound
      exact Script.Safe.bind (M := fun _ _ => True) (safe_event (fun _ _ => trivial) fun _ _ _ => trivial) hSound
        (fun _ _ _ _ => safe_settled fun _ => trivial) fun _ _ _ => trivial
    simp only [workProtocol, admitted] at hAdmitted
    cases hItem : u.item? item.workItemId with
    | none =>
      simp only [workProtocol, performWork, hItem]
      exact ⟨fair_unchanged hInv', fun _ _ _ => trivial⟩
    | some existing =>
      by_cases hCompleted : existing.state = .completed
      · simp only [workProtocol, performWork, hItem, if_pos hCompleted]
        exact ⟨fair_unchanged hInv', hAppend existing u hInv'⟩
      · cases hOpen : existing.isOpen with
        | false =>
          simp only [workProtocol, performWork, hItem, if_neg hCompleted, hOpen, Bool.false_eq_true, if_false]
          exact ⟨fair_unchanged hInv', fun _ _ _ => trivial⟩
        | true =>
          simp only [workProtocol, performWork, hItem, if_neg hCompleted, hOpen, if_true]
          have hClosed := @WorkQueue.Sound.close u hInv' item.workItemId existing { existing with
            state := .completed, completedAt := some now, completedReviewId := some review.reviewId } hItem rfl
            (hAdmitted existing hItem hOpen)
          exact ⟨⟨hClosed, fun j _ => ⟨fun _ hMine => hMine, List.Subset.refl _⟩⟩, hAppend _ _ hClosed⟩
  · cases outcome with
    | none => exact fun _ _ _ => trivial
    | some completed => exact fun _ _ _ => trivial

theorem safe_complete (workItemId reviewId : String) :
    SafeWork index ((WorkRequest.complete workItemId reviewId).Earned index) (complete workItemId reviewId) queue := by
  have hDone : ∀ result t, SafeWork index ((WorkRequest.complete workItemId reviewId).Earned index) (pure result) t :=
    fun _ _ => safe_settled fun _ => trivial
  refine safe_look (fun world t => ⟨_, rfl⟩) (fun _ _ => trivial) fun world t item _ _ => ?_
  cases item with
  | none => exact hDone _ t
  | some item =>
    refine safe_look (fun world t => ⟨_, rfl⟩) (fun _ _ => trivial) fun world t review _ _ => ?_
    cases review with
    | none => exact hDone _ t
    | some review =>
      refine Script.Safe.ite (fun _ => hDone _ t) fun _ => ?_
      refine Script.Safe.ite (fun _ => hDone _ t) fun _ => ?_
      refine Script.Safe.ite (fun _ => hDone _ t) fun _ => ?_
      refine safe_look (fun world t => ⟨_, rfl⟩) (fun _ _ => trivial) fun world t record _ _ => ?_
      cases record with
      | none => exact hDone _ t
      | some record => exact safe_completeWork item review record

theorem safe_run (request : WorkRequest) : SafeWork index (request.Earned index) request.run queue := by
  cases request with
  | enqueue knowledgeId freshness => exact safe_enqueue knowledgeId freshness
  | complete workItemId reviewId => exact safe_complete workItemId reviewId

theorem safe_script (request : WorkRequest) (hInv : queue.Sound) : SafeWork index (request.post index) request.script queue := by
  refine Script.Safe.bind (safe_run request) hInv (fun result t _ hMid => ?_) fun _ _ _ _ hNone => nomatch hNone
  refine Script.Safe.ask fun u hLater hInv' world _ => ?_
  have hKept : (⟨index, request, result, u.itemsById⟩ : WorkAnswer).Kept := by
    cases request with
    | complete workItemId reviewId => trivial
    | enqueue knowledgeId freshness => exact fun hQueued => hInv'.waiting _ (hMid u hLater hInv' hQueued)
  simp only [workProtocol, performWork]
  refine ⟨hInv'.answer hKept, fun v hNext _ given hGiven => ?_⟩
  obtain rfl := Option.some.inj hGiven
  exact ⟨_, hNext.answers (List.mem_append_right _ List.mem_cons_self), rfl, rfl, rfl⟩

end Calls

section Completed

/-- Nothing reopens an item. -/
theorem performWork_completed {index : Nat} {world : WorkWorld} {command : WorkCommand} {queue later : WorkQueue}
    {answer : Option (WorkReply command)} (h : performWork index world command queue = some (answer, later))
    {workItemId : String} {item : KnowledgeReviewWorkItem} (hItem : queue.item? workItemId = some item)
    (hState : item.state = .completed) : later.item? workItemId = some item := by
  cases command with
  | getKnowledge knowledgeId => cases h; exact hItem
  | findReview reviewId => cases h; exact hItem
  | getItem other => cases h; exact hItem
  | now => cases h; exact hItem
  | answer request result => cases h; exact hItem
  | findOpen knowledgeId =>
    simp only [performWork] at h
    split at h <;> cases h <;> exact hItem
  | append event =>
    simp only [performWork] at h
    split at h <;> cases h <;> exact hItem
  | create new =>
    simp only [performWork] at h
    split at h
    · cases h
      exact hItem
    · rename_i hNew
      cases h
      have hOther : workItemId ≠ new.workItemId := by
        rintro rfl
        rw [hNew] at hItem
        cases hItem
      exact (InsertionMap.get_set_of_ne hOther new queue.itemsById).trans hItem
  | complete other review completedAt =>
    simp only [performWork] at h
    split at h
    · cases h
      exact hItem
    · rename_i existing hExisting
      split at h
      · cases h
        exact hItem
      · rename_i hOpen
        have hOther : workItemId ≠ other := by
          rintro rfl
          rw [hExisting] at hItem
          obtain rfl := Option.some.inj hItem
          exact hOpen hState
        split at h
        · cases h
          exact (InsertionMap.get_set_of_ne hOther _ queue.itemsById).trans hItem
        · cases h
          exact hItem

abbrev WorkScene := Scene WorkRequest WorkCommand WorkReply WorkResult WorkQueue

theorem step_completed (turn : SceneTurn WorkRequest WorkWorld) (scene : WorkScene) {workItemId : String}
    {item : KnowledgeReviewWorkItem} (hItem : scene.store.item? workItemId = some item) (hState : item.state = .completed) :
    (Scene.step performWork WorkRequest.script turn scene).store.item? workItemId = some item := by
  cases turn with
  | enter request => exact hItem
  | advance index world =>
    simp only [Scene.step]
    split
    · split
      · exact hItem
      · rename_i hPerform
        exact performWork_completed hPerform hItem hState
    · exact hItem

end Completed

/-- An enqueue that is answered with a queued item has an open one at that moment, a record has at most one, and
a completed item stays as it is. -/
theorem enqueued_work_is_open {scene later : WorkScene}
    (hRun : Reaches (Scene.step performWork WorkRequest.script) (Scene.Allows admitted) (Scene.init .empty) scene)
    (hLater : Reaches (Scene.step performWork WorkRequest.script) (fun _ _ => True) scene later) :
    (∀ (i : Nat) (knowledgeId : String) (freshness : KnowledgeFreshnessAssessment) (result : WorkResult),
      scene.calls[i]? = some ⟨.enqueue knowledgeId freshness, .done result⟩ → result.status = .queued →
      ∃ answer ∈ scene.store.answers, answer.caller = i ∧ answer.result = result ∧ answer.items.open knowledgeId ≠ []) ∧
    (∀ knowledgeId, (scene.store.itemsById.open knowledgeId).length ≤ 1) ∧
    ∀ workItemId item, scene.store.item? workItemId = some item → item.state = .completed →
      later.store.item? workItemId = some item := by
  obtain ⟨hSound, hCalls⟩ := Scene.invariant_for workProtocol (fun _ _ => True) (Scene.reaches_for hRun) sound_no_work
    (fun _ => trivial) (fun _ _ _ _ _ => trivial) fun i request s hInv _ => safe_script request hInv
  refine ⟨fun i knowledgeId freshness result hCall hQueued => ?_, hSound.once, fun workItemId item hItem hState => ?_⟩
  · obtain ⟨answer, hAnswer, hCaller, hRequest, hResult⟩ := Script.Safe.result (hCalls i _ hCall) hSound result rfl
    have hKept := hSound.answered answer hAnswer
    rw [WorkAnswer.Kept, hRequest, hResult] at hKept
    exact ⟨answer, hAnswer, hCaller, hResult, hKept hQueued⟩
  · exact hLater.invariant (P := fun scene => scene.store.item? workItemId = some item) hItem fun turn scene hNow _ =>
      step_completed turn scene hNow hState

section Examples

abbrev WorkTurn := SceneTurn WorkRequest WorkWorld

def knowledgeRecord (knowledgeId : String) : DurableKnowledgeRecord :=
  ⟨knowledgeId, "candidate_1", "Use PostgreSQL.", .projectDecision, ⟨.project, some "alpha"⟩, .active, "2026-08-01",
    "2026-08-01", ⟨"observation_1", "interaction_1", .operatorStatement, "operator_1", "2026-08-01", none⟩,
    ⟨"candidate_1", "observation_1", "TEST", "TEST", .unrelated, .valid, .acceptedForAdmission⟩, "1.0.0", "1.0.0"⟩

def dueOn (knowledgeId dueAt : String) : KnowledgeFreshnessAssessment where
  knowledgeId := knowledgeId
  status := .reviewDue
  reasonCode := .reviewDueByPolicy
  reviewDueAt := some dueAt
  recommendedAction := .revalidate

def enqueueOf (dueAt : String) : WorkTurn := .enter (.enqueue "knowledge_1" (dueOn "knowledge_1" dueAt))

def completeOf (dueAt : String) : WorkTurn := .enter (.complete ("review-work:knowledge_1:" ++ dueAt) "review_1")

/-- The next await of the call. -/
def turnOf (index : Nat) : WorkTurn :=
  .advance index ⟨false, some (knowledgeRecord "knowledge_1"), some ⟨"review_1", "knowledge_1"⟩, "2026-09-01"⟩

def turnsOf (index count : Nat) : List WorkTurn := List.replicate count (turnOf index)

abbrev workAfter (turns : List WorkTurn) : WorkScene :=
  runAll (Scene.step performWork WorkRequest.script) (Scene.init .empty) turns

/-- The record is enqueued, reviewed, and enqueued again for its next date. -/
def reviewedTwice : List WorkTurn :=
  [enqueueOf "2026-08-31"] ++ turnsOf 0 6 ++ [completeOf "2026-08-31"] ++ turnsOf 1 7 ++
    [enqueueOf "2026-09-30"] ++ turnsOf 2 6

theorem enqueued_work_is_open_again :
    ((workAfter reviewedTwice).store.itemsById.open "knowledge_1").length ≤ 1 ∧
    (∃ answer ∈ (workAfter reviewedTwice).store.answers, answer.caller = 2 ∧ answer.items.open "knowledge_1" ≠ []) ∧
    ∃ item, (workAfter (reviewedTwice ++ [enqueueOf "2026-10-30"] ++ turnsOf 3 3)).store.item?
      "review-work:knowledge_1:2026-08-31" = some item ∧ item.state = .completed := by
  have hRun : Reaches (Scene.step performWork WorkRequest.script) (Scene.Allows admitted) (Scene.init .empty)
      (workAfter reviewedTwice) := GuardedAll.reaches (by decide +kernel)
  have hLater : Reaches (Scene.step performWork WorkRequest.script) (fun _ _ => True) (workAfter reviewedTwice)
      (workAfter (reviewedTwice ++ [enqueueOf "2026-10-30"] ++ turnsOf 3 3)) :=
    reaches_runAll _ (workAfter reviewedTwice) ([enqueueOf "2026-10-30"] ++ turnsOf 3 3)
  obtain ⟨hOpen, hOnce, hKept⟩ := enqueued_work_is_open hRun hLater
  refine ⟨hOnce "knowledge_1", ?_, ?_⟩
  · obtain ⟨answer, hAnswer, hCaller, -, hItem⟩ := hOpen 2 "knowledge_1" (dueOn "knowledge_1" "2026-09-30") _ rfl rfl
    exact ⟨answer, hAnswer, hCaller, hItem⟩
  · exact ⟨_, hKept "review-work:knowledge_1:2026-08-31" _ rfl rfl, rfl⟩

/-- The record is enqueued again for the date of the review that is completed. -/
def reviewedForOneDate : List WorkTurn :=
  [enqueueOf "2026-08-31"] ++ turnsOf 0 6 ++ [completeOf "2026-08-31"] ++ turnsOf 1 7 ++
    [enqueueOf "2026-08-31"] ++ turnsOf 2 6

/-- Two enqueues with two dates look for an open item before either creates one. -/
def enqueuedTogether : List WorkTurn :=
  [enqueueOf "2026-08-31", enqueueOf "2026-09-30"] ++ turnsOf 0 2 ++ turnsOf 1 2 ++ turnsOf 0 2 ++ turnsOf 1 2

theorem queued_without_open_item :
    (workAfter reviewedForOneDate).calls.map Call.outcome? = (workAfter reviewedForOneDate).store.answers.map
      (fun answer => some (some answer.result)) ∧
    (workAfter reviewedForOneDate).store.answers.map (fun answer =>
      (answer.result.status, answer.result.reasonCode, (answer.items.open "knowledge_1").length)) =
      [(.queued, .reviewWorkQueued, 1), (.completed, .reviewWorkCompleted, 0), (.queued, .reviewWorkQueued, 0)] ∧
    ((workAfter enqueuedTogether).store.itemsById.open "knowledge_1").length = 2 ∧
    ¬ ∀ scene : WorkScene, Reaches (Scene.step performWork WorkRequest.script) (fun _ _ => True) (Scene.init .empty) scene →
      (∀ answer ∈ scene.store.answers, answer.Kept) ∧ ∀ knowledgeId, (scene.store.itemsById.open knowledgeId).length ≤ 1 := by
  have hTwice : ((workAfter enqueuedTogether).store.itemsById.open "knowledge_1").length = 2 := by decide +kernel
  refine ⟨by decide +kernel, by decide +kernel, hTwice, fun h => ?_⟩
  have hOnce := (h _ (reaches_runAll _ _ enqueuedTogether)).2 "knowledge_1"
  change ((workAfter enqueuedTogether).store.itemsById.open "knowledge_1").length ≤ 1 at hOnce
  rw [hTwice] at hOnce
  revert hOnce
  decide

end Examples

end CommandConsole.Knowledge
