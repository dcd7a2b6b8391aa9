import CommandConsole.Agents.TaskQueue
import Mathlib.Data.List.Lattice

/-! # What the task queue keeps

A write is harmless where the row is still the one that its call has loaded. Then tasks are
never dropped, and a task leaves the queue once.
-/
namespace CommandConsole.Agents
open Library
set_option autoImplicit false

section Tasks

/-- A task and what it is later on. -/
structure Task.Follows (task later : Task) : Prop where
  id : later.id = task.id
  completed : task.status = .completed → later.status = .completed ∧ later.result = task.result
  handed : task.status ≠ .queued → later.status ≠ .queued

instance (task later : Task) : Decidable (task.Follows later) :=
  decidable_of_iff (later.id = task.id ∧ (task.status = .completed → later.status = .completed ∧
    later.result = task.result) ∧ (task.status ≠ .queued → later.status ≠ .queued))
    ⟨fun h => ⟨h.1, h.2.1, h.2.2⟩, fun h => ⟨h.id, h.completed, h.handed⟩⟩

theorem Task.Follows.refl (task : Task) : task.Follows task := ⟨rfl, fun h => ⟨h, rfl⟩, fun h => h⟩

theorem Task.Follows.trans {a b c : Task} (h : a.Follows b) (h' : b.Follows c) : a.Follows c where
  id := h'.id.trans h.id
  completed hDone := by
    obtain ⟨hStatus, hResult⟩ := h.completed hDone
    obtain ⟨hStatus', hResult'⟩ := h'.completed hStatus
    exact ⟨hStatus', hResult'.trans hResult⟩
  handed hTaken := h'.handed (h.handed hTaken)

/-- No task is dropped. -/
def Keeps (before after : List Task) : Prop := ∀ task ∈ before, ∃ later ∈ after, task.Follows later

theorem Keeps.refl (tasks : List Task) : Keeps tasks tasks := fun task hTask => ⟨task, hTask, .refl task⟩

theorem Keeps.trans {a b c : List Task} (h : Keeps a b) (h' : Keeps b c) : Keeps a c := by
  intro task hTask
  obtain ⟨later, hLater, hFollows⟩ := h task hTask
  obtain ⟨last, hLast, hFollows'⟩ := h' later hLater
  exact ⟨last, hLast, hFollows.trans hFollows'⟩

theorem keeps_append (tasks more : List Task) : Keeps tasks (tasks ++ more) :=
  fun task hTask => ⟨task, List.mem_append_left more hTask, .refl task⟩

variable {tasks : List Task} {taskId : String} {current updated : Task}

theorem id_of_find? (h : tasks.find? (fun task => task.id = taskId) = some current) : current.id = taskId := by
  have hFound := List.find?_some h
  exact of_decide_eq_true hFound

theorem getElem?_findIdx (h : tasks.find? (fun task => task.id = taskId) = some current) :
    tasks[tasks.findIdx fun task => task.id = taskId]? = some current := by
  rw [← h, List.find?_eq_getElem?_findIdx]

theorem keeps_set (h : tasks.find? (fun task => task.id = taskId) = some current) (hFollows : current.Follows updated) :
    Keeps tasks (tasks.set (tasks.findIdx fun task => task.id = taskId) updated) := by
  intro task hTask
  have hCurrent := getElem?_findIdx h
  obtain ⟨i, hi⟩ := List.mem_iff_getElem?.mp hTask
  by_cases hIndex : i = tasks.findIdx fun task => task.id = taskId
  · rw [hIndex, hCurrent] at hi
    refine ⟨updated, List.mem_set (List.getElem?_eq_some_iff.mp hCurrent).1 updated, ?_⟩
    exact Option.some.inj hi ▸ hFollows
  · refine ⟨task, List.mem_of_getElem? (i := i) ?_, .refl task⟩
    rw [List.getElem?_set_ne (Ne.symm hIndex), hi]

theorem mem_set_of_find? (h : tasks.find? (fun task => task.id = taskId) = some current) :
    updated ∈ tasks.set (tasks.findIdx fun task => task.id = taskId) updated :=
  List.mem_set (List.getElem?_eq_some_iff.mp (getElem?_findIdx h)).1 updated

theorem map_id_set (h : tasks.find? (fun task => task.id = taskId) = some current) (hId : updated.id = current.id) :
    (tasks.set (tasks.findIdx fun task => task.id = taskId) updated).map Task.id = tasks.map Task.id := by
  obtain ⟨hIndex, hCurrent⟩ := List.getElem?_eq_some_iff.mp (getElem?_findIdx h)
  have hBound : tasks.findIdx (fun task => task.id = taskId) < (tasks.map Task.id).length := by
    rw [List.length_map]
    exact hIndex
  have hSame : updated.id = (tasks.map Task.id)[tasks.findIdx fun task => task.id = taskId] := by
    rw [List.getElem_map, hCurrent, hId]
  rw [List.map_set, hSame, List.set_getElem_self]

/-- Tasks with distinct ids. -/
def Distinct (tasks : List Task) : Prop := (tasks.map Task.id).Nodup

instance (tasks : List Task) : Decidable (Distinct tasks) := inferInstanceAs (Decidable (List.Nodup _))

theorem Distinct.eq_of_id (h : Distinct tasks) {a b : Task} (ha : a ∈ tasks) (hb : b ∈ tasks) (hId : a.id = b.id) : a = b :=
  List.inj_on_of_nodup_map h ha hb hId

theorem mem_handedOut {before after : List Task} {id : String} : id ∈ handedOut before after ↔
    (∃ task ∈ before, task.status = .queued ∧ task.id = id) ∧ ∃ task ∈ after, task.id = id ∧ task.status ≠ .queued := by
  rw [handedOut, List.mem_filter, List.mem_map, List.any_eq_true]
  simp only [List.mem_filter, decide_eq_true_eq, and_assoc]

theorem Distinct.nodup_handedOut {before : List Task} (h : Distinct before) (after : List Task) :
    (handedOut before after).Nodup :=
  (h.sublist (List.filter_sublist.map Task.id)).filter _

end Tasks

section Storage

/-- What holds of the stored queue at all times. -/
structure Storage.Sound (storage : Storage) : Prop where
  distinct : Distinct storage.tasks
  claims : (storage.claims.map Prod.snd).Nodup
  claimed : ∀ claim ∈ storage.claims, ∃ task ∈ storage.tasks, task.id = claim.2 ∧ task.status ≠ .queued
  readFailed : ∀ i, (storage.traces i).readFailed = true →
    (storage.traces i).sight = .failed ∧ (storage.traces i).changed = false

/-- What a call relies on, whatever the others do. -/
structure Storage.Later (index : Nat) (storage later : Storage) : Prop where
  tasks : Keeps storage.tasks later.tasks
  trace : later.traces index = storage.traces index
  record : storage.record.isSome = true → later.record.isSome = true
  legacy : later.record = none → later.legacy = storage.legacy
  claims : storage.claims ⊆ later.claims

theorem Storage.Later.refl (index : Nat) (storage : Storage) : storage.Later index storage :=
  ⟨.refl _, rfl, id, fun _ => rfl, List.Subset.refl _⟩

theorem Storage.Later.trans (index : Nat) (s t u : Storage) (h : s.Later index t) (h' : t.Later index u) :
    s.Later index u where
  tasks := h.tasks.trans h'.tasks
  trace := h'.trace.trans h.trace
  record hSome := h'.record (h.record hSome)
  legacy hNone := by
    have hNone' : t.record = none := by
      cases hRecord : t.record with
      | none => rfl
      | some row =>
        have hSome := h'.record (hRecord ▸ rfl)
        rw [hNone] at hSome
        cases hSome
    exact (h'.legacy hNone).trans (h.legacy hNone')
  claims _ hClaim := h'.claims (h.claims hClaim)

variable {s : Storage} {index : Nat}

theorem Storage.mark_trace (s : Storage) (index : Nat) (change : Trace → Trace) :
    (s.mark index change).traces index = change (s.traces index) := Function.update_self _ _ _

theorem Storage.Sound.mark (h : s.Sound) {change : Trace → Trace}
    (hChange : (change (s.traces index)).readFailed = true →
      (change (s.traces index)).sight = .failed ∧ (change (s.traces index)).changed = false) :
    (s.mark index change).Sound where
  distinct := h.distinct
  claims := h.claims
  claimed := h.claimed
  readFailed i := by
    change (Function.update s.traces index _ i).readFailed = true → _
    intro hFailed
    by_cases hIndex : i = index
    · subst hIndex
      rw [Function.update_self] at hFailed
      simp only [Storage.mark, Function.update_self]
      exact hChange hFailed
    · rw [Function.update_of_ne hIndex] at hFailed
      simp only [Storage.mark, Function.update_of_ne hIndex]
      exact h.readFailed i hFailed

theorem Storage.later_mark (s : Storage) (change : Trace → Trace) (j : Nat) (hOther : j ≠ index) :
    s.Later j (s.mark index change) :=
  ⟨.refl _, Function.update_of_ne hOther _ _, id, fun _ => rfl, List.Subset.refl _⟩

theorem Storage.Sound.legacy (h : s.Sound) (hRecord : s.record.isSome = true) (file : LegacyFile) :
    { s with legacy := file }.tasks = s.tasks ∧ { s with legacy := file }.Sound ∧
      ∀ j, s.Later j { s with legacy := file } := by
  obtain ⟨row, hRow⟩ := Option.isSome_iff_exists.mp hRecord
  have hTasks : { s with legacy := file }.tasks = s.tasks := by
    unfold Storage.tasks
    simp only [hRow]
  refine ⟨hTasks, ⟨hTasks ▸ h.distinct, h.claims, fun claim hClaim => hTasks ▸ h.claimed claim hClaim, h.readFailed⟩,
    fun j => ⟨hTasks ▸ .refl _, rfl, id, fun hNone => ?_, List.Subset.refl _⟩⟩
  exact absurd (hRow.symm.trans hNone) (Option.some_ne_none row)

/-- A write over the row that its call has seen. -/
theorem Storage.Sound.write (h : s.Sound) {row : DocumentRow} (hSight : (s.traces index).sight = .read s.record)
    (hKeeps : Keeps s.tasks row.taskList) (hDistinct : Distinct row.taskList) :
    (s.write index row).Sound ∧ ∀ j, j ≠ index → s.Later j (s.write index row) := by
  refine ⟨⟨hDistinct, ?_, ?_, ?_⟩, fun j hOther => ⟨hKeeps, Function.update_of_ne hOther _ _, fun _ => rfl,
    (fun hNone => nomatch hNone), List.subset_append_left _ _⟩⟩
  · simp only [Storage.write, List.map_append, List.map_map, Function.comp_def, List.map_id']
    refine List.Nodup.append h.claims (h.distinct.nodup_handedOut _) fun id hClaim hHanded => ?_
    obtain ⟨claim, hMem, rfl⟩ := List.mem_map.mp hClaim
    obtain ⟨task, hTask, hId, hTaken⟩ := h.claimed claim hMem
    obtain ⟨⟨other, hOther, hQueued, hOtherId⟩, -⟩ := mem_handedOut.mp hHanded
    have hSame := h.distinct.eq_of_id hTask hOther (hId.trans hOtherId.symm)
    exact hTaken (hSame ▸ hQueued)
  · intro claim hClaim
    rcases List.mem_append.mp hClaim with hOld | hNew
    · obtain ⟨task, hTask, hId, hTaken⟩ := h.claimed claim hOld
      obtain ⟨later, hLater, hFollows⟩ := hKeeps task hTask
      exact ⟨later, hLater, hFollows.id.trans hId, hFollows.handed hTaken⟩
    · obtain ⟨id, hHanded, rfl⟩ := List.mem_map.mp hNew
      exact (mem_handedOut.mp hHanded).2
  · intro i hFailed
    by_cases hIndex : i = index
    · subst hIndex
      simp only [Storage.write, Function.update_self] at hFailed
      have hBad := (h.readFailed i hFailed).1
      rw [hSight] at hBad
      cases hBad
    · simp only [Storage.write, Function.update_of_ne hIndex] at hFailed ⊢
      exact h.readFailed i hFailed

end Storage

section Conditions

/-- What a request does to a task that is stored, if the task is the one that it names. -/
def Request.Respects (request : Request) (task : Task) : Prop :=
  match request with
  | updateTask taskId (some updater) => task.id = taskId → ∀ later ∈ updater task, task.Follows later
  | completeTask taskId result => task.id = taskId → task.status = .completed → task.result = orNull result
  | _ => True

instance (request : Request) (task : Task) : Decidable (request.Respects task) := by
  unfold Request.Respects
  split <;> infer_instance

/-- A write that takes effect finds the row that its call has seen, and an id that is drawn is new. -/
def Request.allowed (request : Request) (index : Nat) (circumstance : Circumstance) : Command → Storage → Prop
  | .readRecord, _ => circumstance.access ≠ .malformed
  | .writeRecord _, storage => circumstance.access = .fails ∨
    ((storage.traces index).sight = .read storage.record ∧ ∀ task ∈ storage.tasks, request.Respects task)
  | .makeTaskId, storage => ∀ task ∈ (storage.traces index).sight.taskList, task.id ≠ circumstance.taskId
  | _, _ => True

instance (request : Request) (index : Nat) (circumstance : Circumstance) (command : Command) (storage : Storage) :
    Decidable (request.allowed index circumstance command storage) := by
  unfold Request.allowed
  split <;> infer_instance

def queueProtocol : Protocol Command Answer Circumstance Storage where
  perform := perform
  MayWait _ _ := False
  Allowed _ _ _ _ := True
  Inv := Storage.Sound
  Rely := Storage.Later
  rely_refl := Storage.Later.refl
  rely_trans := Storage.Later.trans

def Request.protocol (request : Request) : Protocol Command Answer Circumstance Storage :=
  queueProtocol.under request.allowed

end Conditions

section Saving

variable {request : Request} {index : Nat} {s : Storage}

/-- What a call that saves the tasks knows: where it may write, the stored tasks are those that it has loaded. -/
structure Ready (request : Request) (index : Nat) (loaded tasks : List Task) (s : Storage) : Prop where
  unchanged : (s.traces index).changed = false
  seen : (s.traces index).sight ≠ .unread
  finds : ∀ t, s.Later index t → (s.traces index).sight = .read t.record → t.tasks = loaded
  writes : ∀ t, s.Later index t → t.Sound → (s.traces index).sight = .read t.record →
    (∀ task ∈ loaded, request.Respects task) → Keeps loaded tasks ∧ Distinct tasks

theorem Ready.later {loaded tasks : List Task} {t : Storage} (h : Ready request index loaded tasks s)
    (hLater : s.Later index t) : Ready request index loaded tasks t where
  unchanged := hLater.trace ▸ h.unchanged
  seen := hLater.trace ▸ h.seen
  finds u hNext hSight := h.finds u (hLater.trans _ _ _ _ hNext) (hLater.trace ▸ hSight)
  writes u hNext hSound hSight := h.writes u (hLater.trans _ _ _ _ hNext) hSound (hLater.trace ▸ hSight)

/-- What a call that has saved the tasks, or failed to, has left. -/
def Saved (index : Nat) (loaded tasks : List Task) (outcome : Option Document) (t : Storage) : Prop :=
  (loaded = tasks → (t.traces index).changed = false) ∧
    match outcome with
    | none => (t.traces index).sight = .failed
    | some document => document.taskList = tasks ∧
      (∃ row, (t.traces index).sight = .read (some row) ∧ row.taskList = tasks) ∧ Keeps tasks t.tasks ∧
        ∀ id ∈ handedOut loaded tasks, (index, id) ∈ t.claims

theorem Saved.later {loaded tasks : List Task} {outcome : Option Document} {t u : Storage}
    (h : Saved index loaded tasks outcome t) (hLater : t.Later index u) : Saved index loaded tasks outcome u := by
  refine ⟨fun hSame => hLater.trace ▸ h.1 hSame, ?_⟩
  cases outcome with
  | none => exact (congrArg Trace.sight hLater.trace).trans h.2
  | some document =>
    obtain ⟨-, hDocument, ⟨row, hSight, hRow⟩, hKeeps, hClaims⟩ := h
    exact ⟨hDocument, ⟨row, (congrArg Trace.sight hLater.trace).trans hSight, hRow⟩, hKeeps.trans hLater.tasks,
      fun id hId => hLater.claims (hClaims id hId)⟩

theorem fair_mark {t : Storage} (hSound : t.Sound) {change : Trace → Trace}
    (hChange : (change (t.traces index)).readFailed = true →
      (change (t.traces index)).sight = .failed ∧ (change (t.traces index)).changed = false) :
    Script.Fair request.protocol index t (t.mark index change) :=
  ⟨hSound.mark hChange, fun j hOther => t.later_mark change j hOther⟩

theorem mark_sees {t : Storage} (hSeen : (t.traces index).sight ≠ .unread) (record : Option DocumentRow) :
    t.mark index (Trace.sees record) = t := by
  rw [Storage.mark, Trace.sees, if_neg hSeen, Function.update_eq_self]

theorem given_now (t : Storage) (circumstance : Circumstance) :
    ∃ a, request.protocol.perform index circumstance .now t = some (some a, t) := ⟨circumstance.time, rfl⟩

theorem given_mirrors (t : Storage) (circumstance : Circumstance) :
    ∃ a, request.protocol.perform index circumstance .writeLegacyJsonMirrorsEnabled t = some (some a, t) :=
  ⟨circumstance.mirrors, rfl⟩

theorem mirror_safe {document : Document} {loaded tasks : List Task} (hRecord : s.record.isSome = true)
    (h : Saved index loaded tasks (some document) s) :
    Script.Safe request.protocol index (Saved index loaded tasks) (do
      ask (.writeLegacyJson document)
      pure document) s := by
  refine Script.Safe.ask fun t hLater hSound circumstance _ => ?_
  replace h := h.later hLater
  have hSome : t.record.isSome = true := hLater.record hRecord
  have hFailed : ∀ u : Storage, u.traces index = (t.traces index).writeFails → Saved index loaded tasks none u :=
    fun u hTrace => ⟨fun hSame => hTrace ▸ h.1 hSame, congrArg Trace.sight hTrace⟩
  have hMark : Script.Fair request.protocol index t (t.mark index Trace.writeFails) :=
    fair_mark hSound fun hRead => ⟨rfl, (hSound.readFailed index hRead).2⟩
  cases hAccess : circumstance.access with
  | succeeds =>
    obtain ⟨hTasks, hSound', hOthers⟩ := Storage.Sound.legacy hSound hSome (.written document)
    simp only [Request.protocol, Protocol.under, queueProtocol, perform, hAccess]
    exact ⟨⟨hSound', fun j _ => hOthers j⟩, fun v hNext _ => (h.later (hOthers index)).later hNext⟩
  | fails =>
    simp only [Request.protocol, Protocol.under, queueProtocol, perform, hAccess]
    exact ⟨hMark, fun v hNext _ => (hFailed _ (Storage.mark_trace t index _)).later hNext⟩
  | malformed =>
    obtain ⟨-, hSound', hOthers⟩ := Storage.Sound.legacy hMark.1 hSome .unparsable
    simp only [Request.protocol, Protocol.under, queueProtocol, perform, hAccess]
    refine ⟨⟨hSound', fun j hOther => (hMark.2 j hOther).trans _ _ _ _ (hOthers j)⟩, fun v hNext _ => ?_⟩
    exact (hFailed { t.mark index Trace.writeFails with legacy := .unparsable }
      (Storage.mark_trace t index _)).later hNext

/-- The write of a save and what comes after it. -/
theorem write_safe (normalized : Document) {loaded tasks : List Task} (hTasks : normalized.taskList = tasks)
    (h : Ready request index loaded tasks s) :
    Script.Safe request.protocol index (Saved index loaded tasks) (do
      ask (.writeRecord normalized)
      let mirrors ← ask .writeLegacyJsonMirrorsEnabled
      if mirrors then
        ask (.writeLegacyJson normalized)
        pure normalized
      else pure normalized) s := by
  refine Script.Safe.ask fun t hLater hSound circumstance hAllowed => ?_
  replace h := h.later hLater
  by_cases hFails : circumstance.access = .fails
  · simp only [Request.protocol, Protocol.under, queueProtocol, perform, hFails]
    refine ⟨fair_mark hSound fun hFailed => ⟨rfl, h.unchanged⟩, fun v hNext _ => Saved.later ⟨fun _ => ?_, ?_⟩ hNext⟩
    · rw [Storage.mark_trace]
      exact h.unchanged
    · exact congrArg Trace.sight (Storage.mark_trace t index _)
  · obtain ⟨hSight, hRespects⟩ := hAllowed.resolve_left hFails
    have hLoaded := h.finds t (.refl index t) hSight
    obtain ⟨hKeeps, hDistinct⟩ := h.writes t (.refl index t) hSound hSight (hLoaded ▸ hRespects)
    generalize hRow : (⟨some normalized, normalized.createdAt.getD 0⟩ : DocumentRow) = row
    have hRowTasks : row.taskList = tasks := hRow ▸ hTasks
    obtain ⟨hWritten, hOthers⟩ := hSound.write hSight (hRowTasks.symm ▸ hLoaded.symm ▸ hKeeps) (hRowTasks.symm ▸ hDistinct)
    have hPerform : request.protocol.perform index circumstance (.writeRecord normalized) t =
        some (some (), t.write index row) := by
      simp only [Request.protocol, Protocol.under, queueProtocol, perform]
      cases hAccess : circumstance.access with
      | fails => exact absurd hAccess hFails
      | succeeds => rw [← hRow]
      | malformed => rw [← hRow]
    rw [hPerform]
    have hSaved : Saved index loaded tasks (some normalized) (t.write index row) := by
      refine ⟨fun hSame => ?_, hTasks, ⟨row, ?_, hRowTasks⟩, ?_, fun id hId => ?_⟩
      · simp only [Storage.write, Function.update_self, h.unchanged, Bool.false_or, decide_eq_false_iff_not,
          Decidable.not_not]
        rw [hRowTasks, hLoaded, hSame]
      · simp only [Storage.write, Function.update_self]
      · exact hRowTasks ▸ .refl _
      · refine List.mem_append_right _ (List.mem_map.mpr ⟨id, ?_, rfl⟩)
        rw [hLoaded, hRowTasks]
        exact hId
    refine ⟨⟨hWritten, hOthers⟩, Script.Safe.given (fun input u => given_mirrors u input) fun mirrors u hNext _ => ?_⟩
    replace hSaved := hSaved.later hNext
    have hRecord : u.record.isSome = true := hNext.record rfl
    exact Script.Safe.ite (fun _ => mirror_safe hRecord hSaved) fun _ v hLast _ => hSaved.later hLast

theorem saveDocument_safe {value : Document} {loaded : List Task} (h : Ready request index loaded value.taskList s) :
    (saveDocument value).Safe request.protocol index (Saved index loaded value.taskList) s := by
  refine Script.Safe.ask fun t hLater hSound circumstance hAllowed => ?_
  replace h := h.later hLater
  cases hAccess : circumstance.access with
  | malformed => exact absurd hAccess hAllowed
  | fails =>
    simp only [Request.protocol, Protocol.under, queueProtocol, perform, hAccess]
    refine ⟨fair_mark hSound fun _ => ⟨rfl, h.unchanged⟩, fun v hNext _ => Saved.later ⟨fun _ => ?_, ?_⟩ hNext⟩
    · rw [Storage.mark_trace]
      exact h.unchanged
    · exact congrArg Trace.sight (Storage.mark_trace t index _)
  | succeeds =>
    simp only [Request.protocol, Protocol.under, queueProtocol, perform, hAccess, mark_sees h.seen]
    refine ⟨⟨hSound, fun j _ => .refl j t⟩, ?_⟩
    refine Script.Safe.given (fun input u => given_now u input) fun now u hNext _ => ?_
    exact write_safe _ rfl (h.later hNext)

end Saving

section Loading

variable {request : Request} {index : Nat} {s : Storage}

/-- A call that has not begun. -/
def Fresh (index : Nat) (s : Storage) : Prop := s.traces index = ⟨.unread, false, false⟩

/-- What a call knows about the tasks that it has loaded. -/
structure Loaded (index : Nat) (tasks : List Task) (s : Storage) : Prop where
  unchanged : (s.traces index).changed = false
  sight : (s.traces index).sight = .failed ∨ ∃ row, (s.traces index).sight = .read (some row) ∧ row.taskList = tasks

theorem Loaded.later {tasks : List Task} {t : Storage} (h : Loaded index tasks s) (hLater : s.Later index t) :
    Loaded index tasks t := ⟨hLater.trace ▸ h.unchanged, hLater.trace ▸ h.sight⟩

theorem Loaded.ready {loaded tasks : List Task} (h : Loaded index loaded s)
    (hWrites : ∀ row, (s.traces index).sight = .read (some row) → row.taskList = loaded → Distinct loaded →
      (∀ task ∈ loaded, request.Respects task) → Keeps loaded tasks ∧ Distinct tasks) :
    Ready request index loaded tasks s := by
  have hStored : ∀ t, s.Later index t → (s.traces index).sight = .read t.record →
      ∃ row, (s.traces index).sight = .read (some row) ∧ row.taskList = loaded ∧ t.tasks = loaded := by
    intro t hLater hSight
    rcases h.sight with hFailed | ⟨row, hRow, hTasks⟩
    · rw [hFailed] at hSight
      cases hSight
    · have hRecord : t.record = some row := Sight.read.inj (hSight.symm.trans hRow)
      refine ⟨row, hRow, hTasks, ?_⟩
      rw [Storage.tasks, hRecord]
      exact hTasks
  refine ⟨h.unchanged, fun hUnread => ?_, fun t hLater hSight => ?_, fun t hLater hSound hSight hRespects => ?_⟩
  · rcases h.sight with hFailed | ⟨row, hRow, -⟩
    · rw [hFailed] at hUnread
      cases hUnread
    · rw [hRow] at hUnread
      cases hUnread
  · obtain ⟨-, -, -, hTasks⟩ := hStored t hLater hSight
    exact hTasks
  · obtain ⟨row, hRow, hTasks, hStored⟩ := hStored t hLater hSight
    exact hWrites row hRow hTasks (hStored ▸ hSound.distinct) hRespects

def initialTasks (initial : Option (Option Document)) : List Task :=
  match initial with
  | some (some document) => document.taskList
  | _ => []

/-- What a call that found no row knows about the legacy file. -/
structure Initial (index : Nat) (initial : Option (Option Document)) (s : Storage) : Prop where
  unchanged : (s.traces index).changed = false
  sight : (s.traces index).sight = .failed ∨
    ((s.traces index).sight = .read none ∧ (s.record = none → s.tasks = initialTasks initial))

theorem tasks_of_later {t : Storage} (hLater : s.Later index t) (hNone : t.record = none) :
    s.record = none ∧ t.tasks = s.tasks := by
  have hRecord : s.record = none := by
    cases hSome : s.record with
    | none => rfl
    | some row =>
      have hBad := hLater.record (hSome ▸ rfl)
      rw [hNone] at hBad
      cases hBad
  refine ⟨hRecord, ?_⟩
  rw [Storage.tasks, Storage.tasks, hNone, hRecord, hLater.legacy hNone]

theorem Initial.later {initial : Option (Option Document)} {t : Storage} (h : Initial index initial s)
    (hLater : s.Later index t) : Initial index initial t := by
  refine ⟨hLater.trace ▸ h.unchanged, ?_⟩
  rw [hLater.trace]
  refine h.sight.imp_right fun ⟨hSight, hTasks⟩ => ⟨hSight, fun hNone => ?_⟩
  obtain ⟨hRecord, hSame⟩ := tasks_of_later hLater hNone
  exact hSame.trans (hTasks hRecord)

theorem Initial.ready {initial : Option (Option Document)} (h : Initial index initial s) :
    Ready request index (initialTasks initial) (initialTasks initial) s := by
  have hStored : ∀ t, s.Later index t → (s.traces index).sight = .read t.record → t.tasks = initialTasks initial := by
    intro t hLater hSight
    rcases h.sight with hFailed | ⟨hNone, hTasks⟩
    · rw [hFailed] at hSight
      cases hSight
    · obtain ⟨hRecord, hSame⟩ := tasks_of_later hLater (Sight.read.inj (hSight.symm.trans hNone))
      exact hSame.trans (hTasks hRecord)
  refine ⟨h.unchanged, fun hUnread => ?_, hStored, fun t hLater hSound hSight _ => ⟨.refl _, ?_⟩⟩
  · rcases h.sight with hFailed | ⟨hNone, -⟩
    · rw [hFailed] at hUnread
      cases hUnread
    · rw [hNone] at hUnread
      cases hUnread
  · exact hStored t hLater hSight ▸ hSound.distinct

/-- What a load has left. -/
def LoadedDocument (index : Nat) (outcome : Option Document) (s : Storage) : Prop :=
  Loaded index (match outcome with
    | some document => document.taskList
    | none => []) s ∧ (outcome = none → (s.traces index).sight = .failed)

theorem LoadedDocument.later {outcome : Option Document} {t : Storage} (h : LoadedDocument index outcome s)
    (hLater : s.Later index t) : LoadedDocument index outcome t :=
  ⟨h.1.later hLater, fun hNone => (congrArg Trace.sight hLater.trace).trans (h.2 hNone)⟩

theorem Saved.loaded {tasks : List Task} {outcome : Option Document} (h : Saved index tasks tasks outcome s) :
    LoadedDocument index outcome s := by
  cases outcome with
  | none => exact ⟨⟨h.1 rfl, .inl h.2⟩, fun _ => h.2⟩
  | some document =>
    obtain ⟨hUnchanged, hDocument, ⟨row, hSight, hRow⟩, -⟩ := h
    exact ⟨⟨hUnchanged rfl, .inr ⟨row, hSight, hRow.trans hDocument.symm⟩⟩, fun hNone => nomatch hNone⟩

theorem readLegacyJson_safe (hSight : (s.traces index).sight = .read none) (hUnchanged : (s.traces index).changed = false) :
    (ask .readLegacyJson).attempt.Safe request.protocol index (fun outcome t => ∃ initial, outcome = some initial ∧
      Initial index initial t) s := by
  intro t hLater hSound circumstance _
  have hSight' : (t.traces index).sight = .read none := (congrArg Trace.sight hLater.trace).trans hSight
  have hUnchanged' : (t.traces index).changed = false := (congrArg Trace.changed hLater.trace).trans hUnchanged
  have hFailed : (∀ u, (t.mark index Trace.readFails).Later index u → Initial index none u) := by
    refine fun u hNext => Initial.later ⟨?_, .inl ?_⟩ hNext
    · rw [Storage.mark_trace]
      exact hUnchanged'
    · rw [Storage.mark_trace]
      rfl
  have hMark : Script.Fair request.protocol index t (t.mark index Trace.readFails) :=
    fair_mark hSound fun _ => ⟨rfl, hUnchanged'⟩
  have hNow : ∀ initial, (t.record = none → t.tasks = initialTasks initial) → ∀ u, t.Later index u →
      Initial index initial u :=
    fun initial hTasks u hNext => Initial.later ⟨hUnchanged', .inr ⟨hSight', hTasks⟩⟩ hNext
  have hFair : Script.Fair request.protocol index t t := ⟨hSound, fun j _ => .refl j t⟩
  have hNone : Script.Fair request.protocol index t (t.mark index Trace.readFails) ∧
      (Script.done none : Operation (Option (Option Document))).Safe request.protocol index
        (fun outcome t => ∃ initial, outcome = some initial ∧ Initial index initial t) (t.mark index Trace.readFails) :=
    ⟨hMark, fun u hNext _ => ⟨none, rfl, hFailed u hNext⟩⟩
  cases hAccess : circumstance.access with
  | fails =>
    simp only [Request.protocol, Protocol.under, queueProtocol, perform, hAccess]
    exact ⟨hNone.1.1, hNone.1.2, hNone.2⟩
  | malformed =>
    simp only [Request.protocol, Protocol.under, queueProtocol, perform, hAccess]
    exact ⟨hNone.1.1, hNone.1.2, hNone.2⟩
  | succeeds =>
    cases hLegacy : t.legacy with
    | unparsable =>
      simp only [Request.protocol, Protocol.under, queueProtocol, perform, hAccess, hLegacy]
      exact ⟨hNone.1.1, hNone.1.2, hNone.2⟩
    | absent =>
      simp only [Request.protocol, Protocol.under, queueProtocol, perform, hAccess, hLegacy]
      refine ⟨hFair.1, hFair.2, fun u hNext _ => ⟨some none, rfl, hNow _ (fun hRecord => ?_) u hNext⟩⟩
      rw [Storage.tasks, hRecord, hLegacy]
      rfl
    | written document =>
      simp only [Request.protocol, Protocol.under, queueProtocol, perform, hAccess, hLegacy]
      refine ⟨hFair.1, hFair.2, fun u hNext _ => ⟨some (some document), rfl, hNow _ (fun hRecord => ?_) u hNext⟩⟩
      rw [Storage.tasks, hRecord, hLegacy]
      rfl

theorem initialSave_safe {initial : Option (Option Document)} (h : Initial index initial s) {document : Document}
    (hTasks : document.taskList = initialTasks initial) :
    (saveDocument document).Safe request.protocol index (LoadedDocument index) s := by
  have hSave : (saveDocument document).Safe request.protocol index (Saved index (initialTasks initial) document.taskList)
      s := saveDocument_safe (hTasks.symm ▸ h.ready)
  exact hSave.mono fun outcome t _ hSaved => (hTasks ▸ hSaved).loaded

theorem loadDocument_safe (hFresh : Fresh index s) :
    loadDocument.Safe request.protocol index (LoadedDocument index) s := by
  refine Script.Safe.ask fun t hLater hSound circumstance hAllowed => ?_
  have hTrace : t.traces index = ⟨.unread, false, false⟩ := hLater.trace.trans hFresh
  cases hAccess : circumstance.access with
  | malformed => exact absurd hAccess hAllowed
  | fails =>
    simp only [Request.protocol, Protocol.under, queueProtocol, perform, hAccess]
    refine ⟨fair_mark hSound fun _ => ⟨rfl, congrArg Trace.changed hTrace⟩, fun v hNext _ => ?_⟩
    refine LoadedDocument.later ⟨⟨?_, .inl ?_⟩, fun _ => ?_⟩ hNext <;> rw [Storage.mark_trace, hTrace] <;> rfl
  | succeeds =>
    simp only [Request.protocol, Protocol.under, queueProtocol, perform, hAccess]
    cases hRecord : t.record with
    | none =>
      have hSees : (t.traces index).sees none = ⟨.read none, false, false⟩ := by
        rw [hTrace]
        rfl
      have hMark := Storage.mark_trace t index (Trace.sees none)
      rw [hSees] at hMark
      have hFair : Script.Fair request.protocol index t (t.mark index (Trace.sees none)) := by
        refine fair_mark hSound fun hFailed => ?_
        rw [hSees] at hFailed
        cases hFailed
      refine ⟨hFair, Script.Safe.bind (readLegacyJson_safe (congrArg Trace.sight hMark) (congrArg Trace.changed hMark))
        hFair.1 (fun initial u hSound' hKnown => ?_) fun _ _ hNone => ?_⟩
      · obtain ⟨_, hInitial, hKnown⟩ := hKnown u (.refl index u) hSound'
        obtain rfl := Option.some.inj hInitial
        match initial with
        | some (some document) => exact initialSave_safe hKnown rfl
        | some none =>
          refine Script.Safe.given (fun input v => given_now v input) fun now v hNext _ => ?_
          exact initialSave_safe (hKnown.later hNext) rfl
        | none =>
          refine Script.Safe.given (fun input v => given_now v input) fun now v hNext _ => ?_
          exact initialSave_safe (hKnown.later hNext) rfl
      · obtain ⟨_, hInitial, -⟩ := hNone
        cases hInitial
    | some row =>
      cases hPayload : row.payload with
      | none =>
        have hMark := Storage.mark_trace t index (Trace.sees (some row))
        have hSees : (t.traces index).sees (some row) = ⟨.failed, true, false⟩ := by
          rw [hTrace, Trace.sees, if_pos rfl, if_pos]
          rw [Option.any_some, hPayload]
          rfl
        rw [hSees] at hMark
        refine ⟨fair_mark hSound fun _ => hSees ▸ ⟨rfl, rfl⟩, Script.Safe.ofOption fun v hNext _ => ?_⟩
        rw [hPayload]
        refine LoadedDocument.later ⟨⟨?_, .inl ?_⟩, fun _ => ?_⟩ hNext <;> rw [hMark]
      | some document =>
        have hMark := Storage.mark_trace t index (Trace.sees (some row))
        have hSees : (t.traces index).sees (some row) = ⟨.read (some row), false, false⟩ := by
          rw [hTrace, Trace.sees, if_pos rfl, if_neg]
          rw [Option.any_some, hPayload]
          exact Bool.false_ne_true
        rw [hSees] at hMark
        refine ⟨fair_mark hSound fun hFailed => ?_, Script.Safe.ofOption fun v hNext _ => ?_⟩
        · rw [hSees] at hFailed
          cases hFailed
        · rw [hPayload]
          refine LoadedDocument.later ⟨⟨?_, .inr ⟨row, ?_, ?_⟩⟩, fun hNone => nomatch hNone⟩ hNext
          · rw [hMark]
          · rw [hMark]
          · rw [DocumentRow.taskList, hPayload]
            rfl

theorem loadQueue_safe (hSound : s.Sound) (hFresh : Fresh index s) :
    loadQueue.Safe request.protocol index (fun outcome t => ∃ queue, outcome = some queue ∧ Loaded index queue.tasks t)
      s := by
  have hLoad : loadDocument.attempt.Safe request.protocol index (fun outcome t => ∃ parsed, outcome = some parsed ∧
      LoadedDocument index parsed t) s :=
    Script.Safe.attempt ((loadDocument_safe hFresh).mono fun outcome t _ hLoaded => ⟨outcome, rfl, hLoaded⟩)
  refine Script.Safe.bind hLoad hSound (fun parsed t hSound' hKnown => ?_) fun _ _ hNone => ?_
  · obtain ⟨_, hParsed, hKnown⟩ := hKnown t (.refl index t) hSound'
    obtain rfl := Option.some.inj hParsed
    cases parsed with
    | some document => exact fun u hNext _ => ⟨_, rfl, hKnown.1.later hNext⟩
    | none =>
      refine Script.Safe.given (fun input v => given_now v input) fun now v hNext _ => ?_
      exact fun u hLast _ => ⟨_, rfl, (hKnown.1.later hNext).later hLast⟩
  · obtain ⟨_, hParsed, -⟩ := hNone
    cases hParsed

end Loading

section Operations

variable {request : Request} {index : Nat} {s : Storage}

theorem Task.follows_claim (task : Task) (now : Int) (hQueued : task.status = .queued) : task.Follows (task.claim now) where
  id := rfl
  completed hDone := absurd (hQueued.symm.trans hDone) (by decide)
  handed _ hStill := TaskStatus.noConfusion hStill

theorem saveQueue_safe {queue : TaskQueue} {loaded : List Task} (h : Ready request index loaded queue.tasks s) :
    (saveQueue queue).Safe request.protocol index (Saved index loaded queue.tasks) s := by
  refine Script.Safe.given (fun input t => given_now t input) fun now t hLater _ => ?_
  exact @saveDocument_safe request index t ⟨some (queue.createdAt.getD now), none, some queue.tasks⟩ loaded
    (h.later hLater)

/-- What the outcome of a call says about the stored queue from then on. -/
def Request.post (index : Nat) (request : Request) (outcome : Option (Option Task)) (s : Storage) : Prop :=
  match request, outcome with
  | .addTask _ _ _, some (some task) => ∃ kept ∈ s.tasks, kept.id = task.id
  | .claimNextTask _, some (some task) => (index, task.id) ∈ s.claims
  | .completeTask taskId result, some (some _) =>
    ∃ kept ∈ s.tasks, kept.id = taskId ∧ kept.status = .completed ∧ kept.result = orNull result
  | _, _ => True

/-- The id of a new task is not one of those that its call has seen. -/
def Drawn (index : Nat) (tasks : List Task) (task : Task) (s : Storage) : Prop :=
  Loaded index tasks s ∧ ∀ other ∈ (s.traces index).sight.taskList, other.id ≠ task.id

theorem Drawn.later {tasks : List Task} {task : Task} {t : Storage} (h : Drawn index tasks task s)
    (hLater : s.Later index t) : Drawn index tasks task t :=
  ⟨h.1.later hLater, hLater.trace ▸ h.2⟩

theorem makeTask_safe (platform : Platform) (agentName description : String) (options : TaskOptions)
    {tasks : List Task} (h : Loaded index tasks s) : (makeTask platform agentName description options).Safe
      request.protocol index (fun outcome t => ∃ task, outcome = some task ∧ Drawn index tasks task t) s := by
  refine Script.Safe.ask fun t hLater hSound circumstance hAllowed => ?_
  refine ⟨⟨hSound, fun j _ => .refl j t⟩, ?_⟩
  refine Script.Safe.given (fun input u => given_now u input) fun now u hNext _ => ?_
  have hDrawn : Drawn index tasks (newTask platform circumstance.taskId now agentName description options) t :=
    ⟨h.later hLater, hAllowed⟩
  exact fun v hLast _ => ⟨_, rfl, (hDrawn.later hNext).later hLast⟩

theorem Drawn.ready {tasks : List Task} {task : Task} (h : Drawn index tasks task s) :
    Ready request index tasks (tasks ++ [task]) s := by
  refine h.1.ready fun row hSight hTasks hDistinct _ => ⟨keeps_append _ _, ?_⟩
  have hNew : ∀ other ∈ tasks, other.id ≠ task.id := by
    intro other hOther
    refine h.2 other ?_
    rw [hSight, Sight.taskList, hTasks]
    exact hOther
  rw [Distinct, List.map_append, List.map_singleton]
  refine List.Nodup.append hDistinct (List.nodup_singleton _) fun id hId hLast => ?_
  obtain ⟨other, hOther, rfl⟩ := List.mem_map.mp hId
  exact hNew other hOther (List.mem_singleton.mp hLast)

theorem addTask_safe (platform : Platform) (agentName description : String) (options : TaskOptions) (hSound : s.Sound)
    (hFresh : Fresh index s) : (addTask platform agentName description options).Safe
      (Request.addTask agentName description options).protocol index
      ((Request.addTask agentName description options).post index) s := by
  refine Script.Safe.bind (loadQueue_safe hSound hFresh) hSound (fun queue t hSound' hKnown => ?_) fun _ _ _ => trivial
  obtain ⟨_, hQueue, hLoaded⟩ := hKnown t (.refl index t) hSound'
  obtain rfl := Option.some.inj hQueue
  refine Script.Safe.bind (makeTask_safe platform agentName description options hLoaded) hSound'
    (fun task u hMade hTask => ?_) fun _ _ _ => trivial
  obtain ⟨_, hSome, hDrawn⟩ := hTask u (.refl index u) hMade
  obtain rfl := Option.some.inj hSome
  refine Script.Safe.bind (saveQueue_safe hDrawn.ready) hMade (fun document v _ hSaved => ?_) fun _ _ _ => trivial
  intro w hLater hInv
  obtain ⟨-, -, -, hKeeps, -⟩ := hSaved w hLater hInv
  obtain ⟨kept, hKept, hFollows⟩ := hKeeps task (List.mem_append_right _ List.mem_cons_self)
  exact ⟨kept, hKept, hFollows.id⟩

theorem Loaded.ready_set {tasks : List Task} {taskId : String} {current updated : Task} (h : Loaded index tasks s)
    (hFind : tasks.find? (fun task => task.id = taskId) = some current)
    (hFollows : Distinct tasks → request.Respects current → current.Follows updated) :
    Ready request index tasks (tasks.set (tasks.findIdx fun task => task.id = taskId) updated) s := by
  refine h.ready fun row _ _ hDistinct hRespects => ?_
  have hOne := hFollows hDistinct (hRespects current (List.mem_of_find?_eq_some hFind))
  refine ⟨keeps_set hFind hOne, ?_⟩
  rw [Distinct, map_id_set hFind hOne.id]
  exact hDistinct

/-- What a call of an updater leaves, where it says what it makes of the task. -/
theorem updateTask_safe {taskId : String} {updater : Task → Operation Task} (made : Task → Task → Prop)
    (hUpdater : ∀ current tasks t, Loaded index tasks t → (updater current).Safe request.protocol index
      (fun outcome u => Loaded index tasks u ∧ ∀ updated ∈ outcome, made current updated) t)
    (hFollows : ∀ current updated, current.id = taskId → made current updated → request.Respects current →
      current.Follows updated) (hSound : s.Sound) (hFresh : Fresh index s) :
    (updateTask taskId updater).Safe request.protocol index (fun outcome t => ∀ updated, outcome = some (some updated) →
      ∃ current, current.id = taskId ∧ made current updated ∧ ∃ kept ∈ t.tasks, updated.Follows kept) s := by
  refine Script.Safe.bind (loadQueue_safe hSound hFresh) hSound (fun queue t hSound' hKnown => ?_)
    fun _ _ _ _ hNone => nomatch hNone
  obtain ⟨_, hQueue, hLoaded⟩ := hKnown t (.refl index t) hSound'
  obtain rfl := Option.some.inj hQueue
  split
  · exact fun _ _ _ _ hNone => nomatch hNone
  · rename_i current hFind
    refine Script.Safe.bind (hUpdater current queue.tasks t hLoaded) hSound' (fun updated u hInner hMade => ?_)
      fun _ _ _ _ hNone => nomatch hNone
    obtain ⟨hLoaded', hMade⟩ := hMade u (.refl index u) hInner
    have hCurrent : current.id = taskId := id_of_find? hFind
    have hReady := hLoaded'.ready_set hFind fun _ => hFollows current updated hCurrent (hMade updated rfl)
    refine Script.Safe.bind (saveQueue_safe hReady) hInner (fun document v _ hSaved => ?_) fun _ _ _ _ hNone => nomatch hNone
    intro w hLater hInv _ hSome
    obtain rfl := Option.some.inj (Option.some.inj hSome)
    obtain ⟨-, -, -, hKeeps, -⟩ := hSaved w hLater hInv
    exact ⟨current, hCurrent, hMade _ rfl, hKeeps _ (mem_set_of_find? hFind)⟩

theorem claimNextTask_safe (platform : Platform) (agentName : String) (hSound : s.Sound) (hFresh : Fresh index s) :
    (claimNextTask platform agentName).Safe (Request.claimNextTask agentName).protocol index
      ((Request.claimNextTask agentName).post index) s := by
  refine Script.Safe.bind (loadQueue_safe hSound hFresh) hSound (fun queue t hSound' hKnown => ?_) fun _ _ _ => trivial
  obtain ⟨_, hQueue, hLoaded⟩ := hKnown t (.refl index t) hSound'
  obtain rfl := Option.some.inj hQueue
  split
  · exact fun _ _ _ => trivial
  · rename_i nextTask hNext
    have hPicked : nextTask ∈ queue.tasks ∧ nextTask.status = .queued := by
      have hMem := (List.perm_insertionSort _ _).mem_iff.mp (List.mem_of_head? hNext)
      obtain ⟨hTask, hMatch⟩ := List.mem_filter.mp hMem
      exact ⟨hTask, (of_decide_eq_true hMatch).2⟩
    split
    · exact fun _ _ _ => trivial
    · rename_i realTask hFind
      have hId : realTask.id = nextTask.id := id_of_find? hFind
      refine Script.Safe.given (fun input u => given_now u input) fun now u hLater hInner => ?_
      have hReady : Ready (.claimNextTask agentName) index queue.tasks _ u :=
        (hLoaded.later hLater).ready_set hFind (fun hDistinct _ => by
          obtain rfl := hDistinct.eq_of_id (List.mem_of_find?_eq_some hFind) hPicked.1 hId
          exact realTask.follows_claim now hPicked.2)
      refine Script.Safe.bind (saveQueue_safe hReady) hInner (fun document v _ hSaved => ?_) fun _ _ _ => trivial
      intro w hLater' hInv
      obtain ⟨-, -, -, -, hClaims⟩ := hSaved w hLater' hInv
      refine hClaims realTask.id (mem_handedOut.mpr ⟨⟨nextTask, hPicked.1, hPicked.2, hId.symm⟩, ?_⟩)
      exact ⟨realTask.claim now, mem_set_of_find? hFind, rfl, fun hStill => TaskStatus.noConfusion hStill⟩

theorem completeTask_safe (taskId : String) (result : Option String) (hSound : s.Sound) (hFresh : Fresh index s) :
    (completeTask taskId result).Safe (Request.completeTask taskId result).protocol index
      ((Request.completeTask taskId result).post index) s := by
  have hUpdate : (completeTask taskId result).Safe (Request.completeTask taskId result).protocol index _ s :=
    updateTask_safe (fun current updated => ∃ now, updated = current.complete result now) ?_ ?_ hSound hFresh
  · refine hUpdate.mono fun outcome t _ hMade => ?_
    match outcome with
    | none => trivial
    | some none => trivial
    | some (some updated) =>
      obtain ⟨current, hId, ⟨now, rfl⟩, kept, hKept, hFollows⟩ := hMade updated rfl
      obtain ⟨hStatus, hResult⟩ := hFollows.completed rfl
      exact ⟨kept, hKept, hFollows.id.trans hId, hStatus, hResult⟩
  · intro current tasks t hLoaded
    refine Script.Safe.given (fun input u => given_now u input) fun now u hLater _ => ?_
    intro v hNext _
    refine ⟨(hLoaded.later hLater).later hNext, fun updated hUpdated => ⟨now, ?_⟩⟩
    exact (Option.some.inj hUpdated).symm
  · rintro current _ hId ⟨now, rfl⟩ hRespects
    exact ⟨rfl, fun hDone => ⟨rfl, (hRespects hId hDone).symm⟩, fun _ hStill => TaskStatus.noConfusion hStill⟩

theorem operation_safe (platform : Platform) (request : Request) (hSound : s.Sound) (hFresh : Fresh index s) :
    (request.operation platform).Safe request.protocol index (request.post index) s := by
  cases request with
  | addTask agentName description options => exact addTask_safe platform agentName description options hSound hFresh
  | claimNextTask agentName => exact claimNextTask_safe platform agentName hSound hFresh
  | completeTask taskId result => exact completeTask_safe taskId result hSound hFresh
  | updateTask taskId updater =>
    refine (updateTask_safe (fun current updated => (updater.getD some) current = some updated) ?_ ?_ hSound hFresh).mono
      fun _ _ _ _ => trivial
    · intro current tasks t hLoaded
      refine Script.Safe.ofOption fun u hLater _ => ⟨hLoaded.later hLater, fun updated hUpdated => hUpdated⟩
    · intro current updated hId hMade hRespects
      cases updater with
      | none => exact Option.some.inj hMade ▸ .refl current
      | some updater => exact hRespects hId updated hMade
  | setTaskCallback taskId callbackPatch =>
    refine (updateTask_safe (fun current updated => updated = current.patchCallback callbackPatch) ?_ ?_ hSound
      hFresh).mono fun _ _ _ _ => trivial
    · intro current tasks t hLoaded u hLater _
      exact ⟨hLoaded.later hLater, fun updated hUpdated => (Option.some.inj hUpdated).symm⟩
    · rintro current _ _ rfl _
      exact ⟨rfl, fun hDone => ⟨hDone, rfl⟩, fun hTaken => hTaken⟩

end Operations

section Runs

variable (platform : Platform)

abbrev QueueScene := Scene Request Command Answer (Option Task) Storage

def queueStep : SceneTurn Request Circumstance → QueueScene → QueueScene :=
  Scene.step perform (Request.operation platform)

/-- Every step of a run keeps to what its call may do. -/
abbrev QueueAllows : SceneTurn Request Circumstance → QueueScene → Prop := Scene.AllowsFor Request.allowed

variable {platform} {record : Option DocumentRow} {legacy : LegacyFile} {scene later : QueueScene}

theorem storage_begin_sound (hDistinct : Distinct (Storage.begin record legacy).tasks) :
    (Storage.begin record legacy).Sound :=
  ⟨hDistinct, List.nodup_nil, (fun _ hClaim => nomatch hClaim), fun _ hFailed => Bool.noConfusion hFailed⟩

theorem queue_invariant (hDistinct : Distinct (Storage.begin record legacy).tasks)
    (h : Reaches (queueStep platform) QueueAllows (Scene.init (Storage.begin record legacy)) scene) :
    scene.store.Sound ∧ ∀ (i : Nat) (call : Call Request Command Answer (Option Task)), scene.calls[i]? = some call →
      call.rest.Safe call.request.protocol i (call.request.post i) scene.store :=
  Scene.invariant_for queueProtocol Fresh h (storage_begin_sound hDistinct) (fun _ => rfl)
    (fun _ _ _ hLater hFresh => hLater.trace.trans hFresh)
    fun _ request _ hSound hFresh => operation_safe platform request hSound hFresh

theorem queue_keeps (hDistinct : Distinct (Storage.begin record legacy).tasks)
    (h : Reaches (queueStep platform) QueueAllows (Scene.init (Storage.begin record legacy)) scene)
    (hLater : Reaches (queueStep platform) QueueAllows scene later) : Keeps scene.store.tasks later.store.tasks := by
  have hRefl : Std.Refl fun s t : Storage => Keeps s.tasks t.tasks := ⟨fun s => .refl s.tasks⟩
  have hTrans : IsTrans Storage fun s t => Keeps s.tasks t.tasks := ⟨fun _ _ _ => .trans⟩
  exact Scene.relates_for queueProtocol Fresh h hLater (storage_begin_sound hDistinct) (fun _ => rfl)
    (fun _ _ _ hNext hFresh => hNext.trace.trans hFresh)
    (fun _ request _ hSound hFresh => operation_safe platform request hSound hFresh)
    fun i _ _ hFair => (hFair.2 (i + 1) (Nat.succ_ne_self i)).tasks

/-- What the outcome of a call says holds in every later state. -/
theorem queue_post (hDistinct : Distinct (Storage.begin record legacy).tasks)
    (h : Reaches (queueStep platform) QueueAllows (Scene.init (Storage.begin record legacy)) scene) {i : Nat}
    {request : Request} {outcome : Option Task} (hCall : scene.calls[i]? = some ⟨request, .done outcome⟩) :
    request.post i (some outcome) scene.store := by
  obtain ⟨hSound, hSafe⟩ := queue_invariant hDistinct h
  exact (hSafe i _ hCall).result hSound

/-- In every run where no write goes over a row that its call has not seen, and where no updater undoes a
claim or a completion: tasks that were added stay, a task is handed out once, a completed task keeps its
result, and a call that meets a read failure has left the stored tasks as they were. -/
theorem task_queue_loses_nothing (hDistinct : Distinct (Storage.begin record legacy).tasks)
    (h : Reaches (queueStep platform) QueueAllows (Scene.init (Storage.begin record legacy)) scene)
    (hLater : Reaches (queueStep platform) QueueAllows scene later) :
    (∀ (i : Nat) (agentName description : String) (options : TaskOptions) (task : Task),
      scene.calls[i]? = some ⟨.addTask agentName description options, .done (some task)⟩ →
        ∃ kept ∈ later.store.tasks, kept.id = task.id) ∧
    (∀ (i j : Nat) (agentName otherName : String) (task other : Task),
      later.calls[i]? = some ⟨.claimNextTask agentName, .done (some task)⟩ →
        later.calls[j]? = some ⟨.claimNextTask otherName, .done (some other)⟩ → task.id = other.id → i = j) ∧
    (∀ task ∈ scene.store.tasks, task.status = .completed →
      ∃ kept ∈ later.store.tasks, kept.id = task.id ∧ kept.status = .completed ∧ kept.result = task.result) ∧
    (∀ (i : Nat) (taskId : String) (result : Option String) (task : Task),
      scene.calls[i]? = some ⟨.completeTask taskId result, .done (some task)⟩ →
        ∃ kept ∈ later.store.tasks, kept.id = taskId ∧ kept.status = .completed ∧ kept.result = orNull result) ∧
    ∀ i, (scene.store.traces i).readFailed = true → (scene.store.traces i).changed = false := by
  have hKeeps := queue_keeps hDistinct h hLater
  have hSound := (queue_invariant hDistinct h).1
  have hSoundLater := (queue_invariant hDistinct (h.trans hLater)).1
  refine ⟨?_, ?_, ?_, ?_, fun i hFailed => (hSound.readFailed i hFailed).2⟩
  · intro i agentName description options task hCall
    obtain ⟨kept, hKept, hId⟩ := queue_post hDistinct h hCall
    obtain ⟨last, hLast, hFollows⟩ := hKeeps kept hKept
    exact ⟨last, hLast, hFollows.id.trans hId⟩
  · intro i j agentName otherName task other hCall hOther hId
    have hMine := queue_post hDistinct (h.trans hLater) hCall
    have hTheirs := queue_post hDistinct (h.trans hLater) hOther
    have hSame := List.inj_on_of_nodup_map hSoundLater.claims hMine hTheirs hId
    exact congrArg Prod.fst hSame
  · intro task hTask hDone
    obtain ⟨kept, hKept, hFollows⟩ := hKeeps task hTask
    exact ⟨kept, hKept, hFollows.id, hFollows.completed hDone⟩
  · intro i taskId result task hCall
    obtain ⟨kept, hKept, hId, hDone, hResult⟩ := queue_post hDistinct h hCall
    obtain ⟨last, hLast, hFollows⟩ := hKeeps kept hKept
    obtain ⟨hDone', hResult'⟩ := hFollows.completed hDone
    exact ⟨last, hLast, hFollows.id.trans hId, hDone', hResult'.trans hResult⟩

def plainPlatform : Platform := ⟨id, id⟩

def emptyRow : DocumentRow := ⟨some ⟨some 0, some 0, some []⟩, 0⟩

def newCall (description : String) : Request := .addTask "manager" description {}

def newCallTask (id description : String) : Task := newTask plainPlatform id 0 "manager" description {}

/-- A task is added and claimed. -/
def claimTurns : List (SceneTurn Request Circumstance) :=
  .enter (newCall "check") :: List.replicate 8 (.advance 0 { taskId := "task_1" }) ++
    .enter (.claimNextTask "manager") :: List.replicate 7 (.advance 1 {})

def claimedScene : QueueScene :=
  runAll (queueStep plainPlatform) (Scene.init (Storage.begin (some emptyRow) .absent)) claimTurns

theorem claimedScene_reached :
    Reaches (queueStep plainPlatform) QueueAllows (Scene.init (Storage.begin (some emptyRow) .absent)) claimedScene :=
  GuardedAll.reaches (by decide +kernel)

theorem task_queue_loses_nothing_claimed : ∃ kept ∈ claimedScene.store.tasks, kept.id = "task_1" := by
  have hAdded : claimedScene.calls[0]? =
      some ⟨.addTask "manager" "check" {}, .done (some (newCallTask "task_1" "check"))⟩ := by rfl
  exact (task_queue_loses_nothing (by decide +kernel) claimedScene_reached Reaches.refl).1 0 "manager" "check" {}
    (newCallTask "task_1" "check") hAdded

/-- Two tasks are added at once. -/
def overlappingTurns : List (SceneTurn Request Circumstance) :=
  [.enter (newCall "first"), .enter (newCall "second"), .advance 0 {}] ++
    List.replicate 8 (.advance 1 { taskId := "task_2" }) ++ List.replicate 7 (.advance 0 { taskId := "task_1" })

/-- A task is added where the row cannot be read. -/
def unreadTurns : List (SceneTurn Request Circumstance) :=
  .enter (newCall "second") :: .advance 0 { access := .fails } :: List.replicate 8 (.advance 0 { taskId := "task_2" })

def oneTaskRow : DocumentRow := ⟨some ⟨some 0, some 0, some [newCallTask "task_1" "first"]⟩, 0⟩

/-- A returned task is overwritten by a call that loaded before it, and a call that cannot read the
queue replaces it. -/
theorem returned_task_is_lost :
    (∃ scene, Reaches (queueStep plainPlatform) (fun _ _ => True) (Scene.init (Storage.begin (some emptyRow) .absent))
      scene ∧ scene.calls[1]? = some ⟨newCall "second", .done (some (newCallTask "task_2" "second"))⟩ ∧
        ∀ kept ∈ scene.store.tasks, kept.id ≠ "task_2") ∧
    ∃ scene, Reaches (queueStep plainPlatform) (fun _ _ => True) (Scene.init (Storage.begin (some oneTaskRow) .absent))
      scene ∧ (scene.store.traces 0).readFailed = true ∧ ∀ kept ∈ scene.store.tasks, kept.id ≠ "task_1" := by
  refine ⟨⟨_, reaches_runAll _ _ overlappingTurns, ?_, ?_⟩, ⟨_, reaches_runAll _ _ unreadTurns, ?_, ?_⟩⟩
  · rfl
  · decide +kernel
  · decide +kernel
  · decide +kernel

end Runs

end CommandConsole.Agents
