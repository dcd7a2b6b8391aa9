import CommandConsole.Jobs.JobQueue

/-! # What one step of the job queue can do

A step of a task reads a row, writes one, starts a processor or only moves work.
A run is restricted by rules for the write of a row and for the start of a
processor; that a claim finds its job stored is required of every run.
-/
namespace CommandConsole.Jobs
open Library
set_option autoImplicit false

section Pruning

theorem pruned_terminal {store : JobStore} {id : String} (h : id ∈ prunedIds store) :
    ∃ row ∈ store.rows, row.id = id ∧ row.status.terminal = true := by
  obtain ⟨row, hRow, rfl⟩ := List.mem_map.mp h
  have hSorted := (List.mem_insertionSort _).mp (List.mem_of_mem_drop hRow)
  obtain ⟨hStored, hTerminal⟩ := List.mem_filter.mp hSorted
  exact ⟨row, hStored, rfl, hTerminal⟩

theorem find?_upsertJob_some {store : JobStore} {job row : JobRow} {id : String}
    (h : (upsertJob store job).find? id = some row) :
    (id = job.id ∧ row = job) ∨ (id ≠ job.id ∧ store.find? id = some row) := by
  rw [upsertJob, Table.find?_keep, PlainTable.find?_put] at h
  obtain ⟨hFound, -⟩ := Option.filter_eq_some_iff.mp h
  by_cases hId : id = job.id
  · rw [if_pos hId] at hFound
    exact .inl ⟨hId, (Option.some.inj hFound).symm⟩
  · rw [if_neg hId] at hFound
    exact .inr ⟨hId, hFound⟩

/-- A job that is not over is never pruned. -/
theorem find?_upsertJob_open {store : JobStore} {job row : JobRow} {id : String}
    (h : (if id = job.id then some job else store.find? id) = some row) (hOpen : row.status.terminal = false) :
    (upsertJob store job).find? id = some row := by
  rw [upsertJob, Table.find?_keep, PlainTable.find?_put, h, Option.filter_eq_some_iff]
  refine ⟨rfl, ?_⟩
  rw [decide_eq_true_eq]
  intro hPruned
  obtain ⟨other, hOther, hId, hTerminal⟩ := pruned_terminal hPruned
  have hPut : (PlainTable.put store job).find? id = some row := by rw [PlainTable.find?_put, h]
  have hRow := (Table.find?_eq_some _ _ _).mp hPut
  rw [(PlainTable.put store job).eq_of_key_eq hOther hRow.1 hId, hOpen] at hTerminal
  cases hTerminal

end Pruning

section Rules

/-- The call on whose behalf an update is made. -/
def Update.call? : Update → Option Nat
  | .complete k | .fail k | .heartbeat k _ => some k
  | _ => none

/-- The jobs that a task is going to update, and the updates. -/
def Task.targets (task : Task) : List (String × Update) :=
  (task.work.filterMap fun action =>
    match action with
    | .update jobId update => some (jobId, update)
    | _ => none) ++ task.draft.toList.map fun draft => (draft.base.id, draft.update)

def draftsOf (tasks : List Task) : List Draft := tasks.filterMap Task.draft

def targetsOf (tasks : List Task) : List (String × Update) := tasks.flatMap Task.targets

namespace Queue

variable (q : Queue)

/-- What the next statement of a task is: a write, or an action. -/
def due (t : Nat) : Option (Draft ⊕ Action) :=
  match q.tasks[t]? with
  | none => none
  | some task =>
    match task.draft, task.work with
    | some draft, _ => some (.inl draft)
    | none, [] => none
    | none, action :: _ => some (.inr action)

/-- The draft that a read of a row leads to now. -/
def reads (draft : Draft) : Prop :=
  q.store.find? draft.base.id = some draft.base ∧
    ∃ worker, draft.next = draft.update.apply q.now worker draft.base

/-- An update on behalf of a call is one of the job of that call. -/
def refers (target : String × Update) : Prop :=
  ∀ k ∈ target.2.call?, ∃ call, q.invocations[k]? = some call ∧ call.jobId = target.1

/-- The tasks have no drafts and targets but old ones and those that the state accounts for. -/
structure Follows (tasks : List Task) : Prop where
  drafts : ∀ draft ∈ draftsOf tasks, draft ∈ draftsOf q.tasks ∨ q.reads draft
  targets : ∀ target ∈ targetsOf tasks, target ∈ targetsOf q.tasks ∨ q.refers target

end Queue

structure Rules where
  write : Queue → Draft → Prop
  start : Queue → Nat → Invocation → Prop

def Rules.guard (rules : Rules) : QueueOp → Queue → Prop
  | .run t, q =>
    match q.due t with
    | some (.inl draft) => rules.write q draft
    | some (.inr (.update jobId .begin)) => (q.store.find? jobId).isSome
    | some (.inr (.invoke k)) => ∀ call ∈ q.invocations[k]?, rules.start q k call
    | _ => True
  | _, _ => True

theorem Rules.guard_mono {rules weaker : Rules} {op : QueueOp} {q : Queue}
    (hWrite : ∀ draft, rules.write q draft → weaker.write q draft)
    (hStart : ∀ k call, rules.start q k call → weaker.start q k call) (h : rules.guard op q) :
    weaker.guard op q := by
  cases op with
  | run t =>
    simp only [Rules.guard] at h ⊢
    split at h
    · exact hWrite _ h
    · exact h
    · exact fun call hCall => hStart _ call (h call hCall)
    · trivial
  | _ => trivial

instance Rules.decidableGuard (rules : Rules) [∀ q draft, Decidable (rules.write q draft)]
    [∀ q k call, Decidable (rules.start q k call)] : ∀ op q, Decidable (rules.guard op q) := by
  intro op q
  unfold Rules.guard
  split
  · split <;> infer_instance
  · infer_instance

end Rules

/-- Every step that the rules admit is one of these. -/
inductive Change (rules : Rules) (q : Queue) : Queue → Prop where
  | tick (ms : Nat) : Change rules q { q with now := q.now + ms }
  | work (tasks : List Task) (hTasks : q.Follows tasks) : Change rules q { q with tasks }
  | insert (job : JobRow) (hNew : job.id ∉ q.used) :
      Change rules q { q with store := upsertJob q.store (Queue.newJob job), used := job.id :: q.used }
  | write (draft : Draft) (worker : String) (tasks : List Task) (hDraft : draft ∈ draftsOf q.tasks)
      (hTarget : (draft.base.id, draft.update) ∈ targetsOf q.tasks) (hRule : rules.write q draft)
      (hTasks : q.Follows tasks) :
      Change rules q
        { q with store := upsertJob q.store draft.next, tasks, invocations := draft.calls worker q.invocations }
  | start (k : Nat) (call : Invocation) (tasks : List Task) (hCall : q.invocations[k]? = some call)
      (hClaimed : call.phase = .claimed) (hRule : rules.start q k call) (hTasks : q.Follows tasks) :
      Change rules q
        { ({ q with tasks } : Queue).setPhase k .awaited with starts := q.starts ++ [(k, call.jobId)] }
  | settle (k : Nat) (call : Invocation) (phase : Phase) (tasks : List Task)
      (hCall : q.invocations[k]? = some call) (hOpen : call.phase.inProgress = true) (hTasks : q.Follows tasks) :
      Change rules q (({ q with tasks } : Queue).setPhase k phase)

section Tasks

variable {q : Queue} {t : Nat} {task : Task}

theorem mem_draftsOf {tasks : List Task} {draft : Draft} :
    draft ∈ draftsOf tasks ↔ ∃ task ∈ tasks, task.draft = some draft := List.mem_filterMap

theorem mem_targetsOf {tasks : List Task} {target : String × Update} :
    target ∈ targetsOf tasks ↔ ∃ task ∈ tasks, target ∈ task.targets := List.mem_flatMap

theorem mem_targets {target : String × Update} :
    target ∈ task.targets ↔
      .update target.1 target.2 ∈ task.work ∨
        ∃ draft, task.draft = some draft ∧ target = (draft.base.id, draft.update) := by
  rw [Task.targets, List.mem_append, List.mem_filterMap, List.mem_map]
  constructor
  · rintro (⟨action, hAction, hEq⟩ | ⟨draft, hDraft, rfl⟩)
    · cases action with
      | update jobId update =>
        cases hEq
        exact .inl hAction
      | runJob | invoke | await => cases hEq
    · exact .inr ⟨draft, by simpa using hDraft, rfl⟩
  · rintro (hWork | ⟨draft, hDraft, rfl⟩)
    · exact .inl ⟨_, hWork, rfl⟩
    · exact .inr ⟨draft, by simpa using hDraft, rfl⟩

theorem Queue.follows_self : q.Follows q.tasks := ⟨fun _ h => .inl h, fun _ h => .inl h⟩

/-- A task is replaced by one that does nothing but what is accounted for. -/
theorem Queue.follows_set {next : Task} (hTask : q.tasks[t]? = some task)
    (hDraft : ∀ draft, next.draft = some draft → task.draft = some draft ∨ q.reads draft)
    (hWork : ∀ jobId update, .update jobId update ∈ next.work →
      (jobId, update) ∈ task.targets ∨ q.refers (jobId, update))
    (hRead : ∀ draft, next.draft = some draft → (draft.base.id, draft.update) ∈ task.targets) :
    q.Follows (q.tasks.set t next) := by
  have hMem := List.mem_of_getElem? hTask
  constructor
  · intro draft hIn
    obtain ⟨other, hOther, hSome⟩ := mem_draftsOf.mp hIn
    rcases List.mem_or_eq_of_mem_set hOther with hOld | rfl
    · exact .inl (mem_draftsOf.mpr ⟨other, hOld, hSome⟩)
    · exact (hDraft draft hSome).imp_left fun h => mem_draftsOf.mpr ⟨task, hMem, h⟩
  · intro target hIn
    obtain ⟨other, hOther, hTarget⟩ := mem_targetsOf.mp hIn
    rcases List.mem_or_eq_of_mem_set hOther with hOld | rfl
    · exact .inl (mem_targetsOf.mpr ⟨other, hOld, hTarget⟩)
    · rcases mem_targets.mp hTarget with hUpdate | ⟨draft, hSome, rfl⟩
      · exact (hWork _ _ hUpdate).imp_left fun h => mem_targetsOf.mpr ⟨task, hMem, h⟩
      · exact .inl (mem_targetsOf.mpr ⟨task, hMem, hRead draft hSome⟩)

/-- A new task may update jobs on behalf of nobody, or of a call of the same job. -/
theorem Queue.follows_spawn {worker : String} {work : List Action}
    (hWork : ∀ jobId update, .update jobId update ∈ work → q.refers (jobId, update)) :
    q.Follows (q.tasks ++ [⟨worker, work, none⟩]) := by
  constructor
  · intro draft hIn
    obtain ⟨other, hOther, hSome⟩ := mem_draftsOf.mp hIn
    rcases List.mem_append.mp hOther with hOld | hNew
    · exact .inl (mem_draftsOf.mpr ⟨other, hOld, hSome⟩)
    · rw [List.mem_singleton.mp hNew] at hSome
      cases hSome
  · intro target hIn
    obtain ⟨other, hOther, hTarget⟩ := mem_targetsOf.mp hIn
    rcases List.mem_append.mp hOther with hOld | hNew
    · exact .inl (mem_targetsOf.mpr ⟨other, hOld, hTarget⟩)
    · rw [List.mem_singleton.mp hNew] at hTarget
      rcases mem_targets.mp hTarget with hUpdate | ⟨draft, hSome, -⟩
      · exact .inr (hWork _ _ hUpdate)
      · cases hSome

/-- An update on behalf of nobody. -/
theorem Queue.refers_of_none {jobId : String} {update : Update} (h : update.call? = none) :
    q.refers (jobId, update) := by
  intro k hk
  rw [h] at hk
  cases hk

end Tasks

section Steps

variable {config : QueueConfig} {rules : Rules} {q : Queue} {t : Nat} {task : Task}

theorem Draft.after_refers {draft : Draft} {k : Nat} {jobId : String} {update : Update}
    (h : .update jobId update ∈ draft.after k) : q.refers (jobId, update) := by
  have hNote : update = .note := by
    cases hUpdate : draft.update with
    | begin =>
      simp only [Draft.after, hUpdate, claimedWork, List.mem_cons, Action.update.injEq, reduceCtorEq,
        List.not_mem_nil, or_false] at h
      exact h.2
    | cancel | retry =>
      simp only [Draft.after, hUpdate] at h
      split at h
      · rw [List.mem_singleton, Action.update.injEq] at h
        exact h.2
      · cases h
    | _ => simp [Draft.after, hUpdate] at h
  rw [hNote]
  exact Queue.refers_of_none rfl

theorem write_change {draft : Draft} (hTask : q.tasks[t]? = some task) (hDraft : task.draft = some draft)
    (hRule : rules.write q draft) : Change rules q (q.write t task draft) := by
  have hMem := List.mem_of_getElem? hTask
  refine .write draft task.worker _ (mem_draftsOf.mpr ⟨task, hMem, hDraft⟩)
    (mem_targetsOf.mpr ⟨task, hMem, mem_targets.mpr (.inr ⟨draft, hDraft, rfl⟩)⟩) hRule ?_
  refine Queue.follows_set hTask (fun _ h => by cases h) ?_ (fun _ h => by cases h)
  intro jobId update hUpdate
  rcases List.mem_append.mp hUpdate with hAfter | hOld
  · exact .inr (Draft.after_refers hAfter)
  · exact .inl (mem_targets.mpr (.inl hOld))

/-- The first action of a task that only has work left. -/
theorem act_change {action : Action} {rest : List Action} (hTask : q.tasks[t]? = some task)
    (hDraft : task.draft = none) (hWork : task.work = action :: rest)
    (hClaim : ∀ jobId, action = .update jobId .begin → (q.store.find? jobId).isSome)
    (hStart : ∀ k call, action = .invoke k → q.invocations[k]? = some call → rules.start q k call) :
    Change rules q (q.act config t { task with work := rest } action) := by
  have hRest : ∀ jobId update, .update jobId update ∈ rest → (jobId, update) ∈ task.targets := by
    intro jobId update h
    exact mem_targets.mpr (.inl (hWork ▸ List.mem_cons_of_mem _ h))
  have hIdle : q.Follows (q.tasks.set t { task with work := rest }) :=
    Queue.follows_set hTask (fun _ h => .inl h) (fun jobId update h => .inl (hRest jobId update h))
      (fun _ h => by rw [hDraft] at h; cases h)
  have hMore : ∀ added, (∀ jobId update, .update jobId update ∈ added → update.call? = none) →
      q.Follows (q.tasks.set t { task with work := added ++ rest }) := by
    intro added hAdded
    refine Queue.follows_set hTask (fun _ h => .inl h) ?_ (fun _ h => by rw [hDraft] at h; cases h)
    intro jobId update h
    rcases List.mem_append.mp h with hNew | hOld
    · exact .inr (Queue.refers_of_none (hAdded jobId update hNew))
    · exact .inl (hRest jobId update hOld)
  cases action with
  | update jobId update =>
    simp only [Queue.act]
    unfold Queue.read
    cases hFind : q.store.find? jobId with
    | some job =>
      obtain rfl := Table.find?_key hFind
      refine .work _ (Queue.follows_set hTask ?_ (fun id other h => .inl (hRest id other h)) ?_)
      · rintro draft hSome
        cases hSome
        exact .inr ⟨hFind, task.worker, rfl⟩
      · rintro draft hSome
        cases hSome
        exact mem_targets.mpr (.inl (hWork ▸ List.mem_cons_self))
    | none =>
      cases update with
      | begin =>
        have hSome := hClaim jobId rfl
        rw [hFind] at hSome
        cases hSome
      | _ => exact .work _ hIdle
  | runJob jobId =>
    rw [Queue.act, Queue.check]
    split
    · exact .work _ hIdle
    · split
      · exact .work _ hIdle
      · split
        · refine .work _ (hMore [.update jobId .reject, .update jobId .note] ?_)
          intro id update h
          rcases List.mem_pair.mp h with h | h <;> cases h <;> rfl
        · refine .work _ (hMore [.update jobId .begin] ?_)
          intro id update h
          cases List.mem_singleton.mp h
          rfl
  | invoke k =>
    rw [Queue.act, Queue.invoke]
    split
    · exact .work _ hIdle
    · rename_i call hCall
      split
      · rename_i hClaimed
        exact .start k call _ hCall hClaimed (hStart k call rfl hCall) hIdle
      · exact .work _ hIdle
  | await k => exact .work _ (hMore [.await k] (by simp))

theorem runTask_change (h : rules.guard (.run t) q) : Change rules q (q.runTask config t) := by
  unfold Queue.runTask
  cases hTask : q.tasks[t]? with
  | none => exact .work _ Queue.follows_self
  | some task =>
    obtain ⟨worker, work, pending⟩ := task
    simp only [Rules.guard, Queue.due, hTask] at h
    cases pending with
    | some draft => exact write_change hTask rfl h
    | none =>
      cases work with
      | nil => exact .work _ Queue.follows_self
      | cons action rest =>
        refine act_change hTask rfl rfl ?_ ?_
        · rintro jobId rfl
          exact h
        · rintro k call rfl hCall
          exact h call hCall

theorem settleTask_change {outcome : Outcome} : Change rules q (q.settleTask t outcome) := by
  unfold Queue.settleTask
  cases hTask : q.tasks[t]? with
  | none => exact .work _ Queue.follows_self
  | some task =>
    simp only
    split
    · rename_i k rest hDraft hWork
      split
      · exact .work _ Queue.follows_self
      · rename_i call hCall
        split
        · rename_i hAwaited
          refine .settle k call outcome.phase _ hCall (by rw [hAwaited]; rfl) ?_
          refine Queue.follows_set hTask (fun _ h => .inl h) ?_ (fun _ h => by rw [hDraft] at h; cases h)
          intro jobId update h
          rcases List.mem_cons.mp h with hEnd | h
          · cases hEnd
            right
            intro other hOther
            have hk : other = k := by
              cases outcome <;> simpa [Outcome.update, Update.call?] using Eq.symm hOther
            exact ⟨call, hk ▸ hCall, rfl⟩
          · rcases List.mem_cons.mp h with hNote | hRest
            · cases hNote
              exact .inr (Queue.refers_of_none rfl)
            · exact .inl (mem_targets.mpr (.inl (hWork ▸ List.mem_cons_of_mem _ hRest)))
        · exact .work _ Queue.follows_self
    · exact .work _ Queue.follows_self

theorem pendingWork_call {job : JobRow} {jobId : String} {update : Update}
    (h : .update jobId update ∈ Queue.pendingWork job) : update.call? = none := by
  rw [Queue.pendingWork] at h
  split at h
  · simp only [List.mem_cons, Action.update.injEq, List.not_mem_nil, reduceCtorEq, or_false] at h
    rcases h with ⟨-, rfl⟩ | ⟨-, rfl⟩ <;> rfl
  · simp at h

/-- Every admitted step is a change of the list. -/
theorem step_change (op : QueueOp) (h : rules.guard op q) : Change rules q (Queue.step config op q) := by
  cases op with
  | tick ms => exact .tick ms
  | enqueue job =>
    rw [Queue.step]
    split
    · exact .work _ Queue.follows_self
    · rename_i hRefused
      refine .insert job ?_
      simp only [Bool.or_eq_true, decide_eq_true_eq, not_or] at hRefused
      exact hRefused.2
  | runPending worker =>
    refine .work _ (Queue.follows_spawn ?_)
    intro jobId update hUpdate
    obtain ⟨job, -, hJob⟩ := List.mem_flatMap.mp hUpdate
    exact Queue.refers_of_none (pendingWork_call hJob)
  | recoverStale worker =>
    refine .work _ (Queue.follows_spawn ?_)
    intro jobId update hUpdate
    obtain ⟨job, -, hJob⟩ := List.mem_map.mp hUpdate
    cases hJob
    exact Queue.refers_of_none rfl
  | cancel jobId =>
    refine .work _ (Queue.follows_spawn ?_)
    intro id update hUpdate
    cases List.mem_singleton.mp hUpdate
    exact Queue.refers_of_none rfl
  | retry jobId =>
    refine .work _ (Queue.follows_spawn ?_)
    intro id update hUpdate
    cases List.mem_singleton.mp hUpdate
    exact Queue.refers_of_none rfl
  | beat k =>
    simp only [Queue.step]
    split
    · exact .work _ Queue.follows_self
    · rename_i call hCall
      split
      · refine .work _ (Queue.follows_spawn ?_)
        intro id update hUpdate
        cases List.mem_singleton.mp hUpdate
        intro other hOther
        cases hOther
        exact ⟨call, hCall, rfl⟩
      · exact .work _ Queue.follows_self
  | run t => exact runTask_change h
  | settle t outcome => exact settleTask_change
  | finish k =>
    simp only [Queue.step]
    split
    · exact .work _ Queue.follows_self
    · rename_i call hCall
      split
      · rename_i hAbandoned
        exact .settle k call .ended _ hCall (by rw [hAbandoned]; rfl) Queue.follows_self
      · exact .work _ Queue.follows_self

end Steps

section Invariants

variable {config : QueueConfig} {rules : Rules} {q next start : Queue}

theorem calls_job {draft : Draft} {worker : String} {calls : List Invocation} {k : Nat} {call : Invocation}
    (h : calls[k]? = some call) :
    ∃ later, (draft.calls worker calls)[k]? = some later ∧ later.jobId = call.jobId := by
  cases hUpdate : draft.update with
  | begin =>
    refine ⟨call, ?_, rfl⟩
    rw [Draft.calls, hUpdate]
    exact (List.getElem?_append_left (List.getElem?_eq_some_iff.mp h).choose).trans h
  | heartbeat other limit =>
    simp only [Draft.calls, hUpdate]
    split
    · rw [List.getElem?_modify, h]
      exact ⟨_, rfl, by split <;> rfl⟩
    · exact ⟨call, h, rfl⟩
  | complete other | fail other =>
    simp only [Draft.calls, hUpdate]
    rw [List.getElem?_modify, h]
    exact ⟨_, rfl, by split <;> rfl⟩
  | _ => exact ⟨call, by rw [Draft.calls, hUpdate]; exact h, rfl⟩

/-- A call stays a call of its job. -/
theorem Change.call_job (h : Change rules q next) {k : Nat} {call : Invocation}
    (hCall : q.invocations[k]? = some call) :
    ∃ later, next.invocations[k]? = some later ∧ later.jobId = call.jobId := by
  cases h with
  | tick | work | insert => exact ⟨call, hCall, rfl⟩
  | write draft worker tasks => exact calls_job hCall
  | start other | settle other =>
    simp only [Queue.setPhase]
    rw [List.getElem?_modify, hCall]
    exact ⟨_, rfl, by split <;> rfl⟩

theorem Change.refers (h : Change rules q next) {target : String × Update} (hTarget : q.refers target) :
    next.refers target := by
  intro k hk
  obtain ⟨call, hCall, hJob⟩ := hTarget k hk
  obtain ⟨later, hLater, hSame⟩ := h.call_job hCall
  exact ⟨later, hLater, hSame.trans hJob⟩

/-- Stored jobs have used their ids; a draft is an update of a row that was read before. -/
structure Queue.Sound (q : Queue) : Prop where
  known : ∀ id row, q.store.find? id = some row → id ∈ q.used
  drafts : ∀ draft ∈ draftsOf q.tasks, draft.base.id ∈ q.used ∧
    ∃ instant worker, instant ≤ q.now ∧ draft.next = draft.update.apply instant worker draft.base
  targets : ∀ target ∈ targetsOf q.tasks, q.refers target

theorem Queue.Sound.next_id (h : q.Sound) {draft : Draft} (hDraft : draft ∈ draftsOf q.tasks) :
    draft.next.id = draft.base.id := by
  obtain ⟨-, instant, worker, -, hNext⟩ := h.drafts draft hDraft
  rw [hNext, Update.apply_id]

theorem Queue.Sound.follows_drafts (h : q.Sound) {tasks : List Task} (hTasks : q.Follows tasks) :
    ∀ draft ∈ draftsOf tasks, draft.base.id ∈ q.used ∧
      ∃ instant worker, instant ≤ q.now ∧ draft.next = draft.update.apply instant worker draft.base := by
  intro draft hDraft
  rcases hTasks.drafts draft hDraft with hOld | ⟨hRow, worker, hNext⟩
  · exact h.drafts draft hOld
  · exact ⟨h.known _ _ hRow, q.now, worker, le_refl _, hNext⟩

theorem Queue.Sound.follows_targets (h : q.Sound) {tasks : List Task} (hTasks : q.Follows tasks) :
    ∀ target ∈ targetsOf tasks, q.refers target := by
  intro target hTarget
  exact (hTasks.targets target hTarget).elim (h.targets target) id

theorem Change.sound (hChange : Change rules q next) (h : q.Sound) : next.Sound := by
  have hRefers : ∀ target, q.refers target → next.refers target := fun _ => hChange.refers
  cases hChange with
  | tick ms =>
    refine ⟨h.known, ?_, fun target hTarget => hRefers _ (h.targets target hTarget)⟩
    intro draft hDraft
    obtain ⟨hUsed, instant, worker, hInstant, hNext⟩ := h.drafts draft hDraft
    exact ⟨hUsed, instant, worker, hInstant.trans (Int.le_add_of_nonneg_right (Int.natCast_nonneg ms)), hNext⟩
  | work tasks hTasks =>
    exact ⟨h.known, h.follows_drafts hTasks, fun target hTarget => hRefers _ (h.follows_targets hTasks _ hTarget)⟩
  | insert job hNew =>
    refine ⟨?_, ?_, fun target hTarget => hRefers _ (h.targets target hTarget)⟩
    · intro id row hRow
      rcases find?_upsertJob_some hRow with ⟨rfl, -⟩ | ⟨-, hOld⟩
      · exact List.mem_cons_self
      · exact List.mem_cons_of_mem _ (h.known id row hOld)
    · intro draft hDraft
      exact ⟨List.mem_cons_of_mem _ (h.drafts draft hDraft).1, (h.drafts draft hDraft).2⟩
  | write draft worker tasks hDraft hTarget hRule hTasks =>
    refine ⟨?_, h.follows_drafts hTasks, fun target hTarget => hRefers _ (h.follows_targets hTasks _ hTarget)⟩
    intro id row hRow
    rcases find?_upsertJob_some hRow with ⟨rfl, -⟩ | ⟨-, hOld⟩
    · exact h.next_id hDraft ▸ (h.drafts draft hDraft).1
    · exact h.known id row hOld
  | start k call tasks hCall hClaimed hRule hTasks =>
    exact ⟨h.known, h.follows_drafts hTasks, fun target hTarget => hRefers _ (h.follows_targets hTasks _ hTarget)⟩
  | settle k call phase tasks hCall hOpen hTasks =>
    exact ⟨h.known, h.follows_drafts hTasks, fun target hTarget => hRefers _ (h.follows_targets hTasks _ hTarget)⟩

/-- Nothing is under way yet. -/
structure Queue.Initial (q : Queue) : Prop where
  known : ∀ row ∈ q.store.rows, row.id ∈ q.used
  tasks : q.tasks = []
  invocations : q.invocations = []
  starts : q.starts = []

theorem Queue.Initial.sound (h : q.Initial) : q.Sound := by
  refine ⟨?_, ?_, ?_⟩
  · intro id row hRow
    obtain ⟨hMem, rfl⟩ := (Table.find?_eq_some _ _ _).mp hRow
    exact h.known row hMem
  · intro draft hDraft
    rw [h.tasks] at hDraft
    cases hDraft
  · intro target hTarget
    rw [h.tasks] at hTarget
    cases hTarget

/-- An invariant of every change holds in every state of an admitted run. -/
theorem reaches_invariant {P : Queue → Prop} (hRun : Reaches (Queue.step config) rules.guard start q)
    (hSound : start.Sound) (hStart : P start)
    (hKeep : ∀ q next, Change rules q next → q.Sound → P q → P next) : q.Sound ∧ P q := by
  refine hRun.invariant (P := fun q => q.Sound ∧ P q) ⟨hSound, hStart⟩ ?_
  rintro op q ⟨hq, hP⟩ hGuard
  have hChange : Change rules q (Queue.step config op q) := step_change op hGuard
  exact ⟨hChange.sound hq, hKeep q _ hChange hq hP⟩

end Invariants

section Samples

def sampleJob (id : String) (status : JobStatus) (createdAt : Int) : JobRow where
  id := id
  type := "report"
  status := status
  createdAt := createdAt
  startedAt := none
  workerId := none
  leaseExpiresAt := none
  attempts := 0
  maxAttempts := 3
  retryCount := 0
  retryDelayMs := 5000
  runtimeLimitMs := 60000
  nextRetryAt := none

def sampleQueue (jobs : List JobRow) : Queue where
  now := 10
  store := jobs.foldl PlainTable.put .empty
  used := jobs.map JobRow.id
  tasks := []
  invocations := []
  starts := []

def sampleConfig : QueueConfig := ⟨500, 50, fun _ => false⟩

/-- The steps of a task from the check of an eligible job to the call of its processor. -/
def startSteps (t : Nat) : List QueueOp := List.replicate 6 (.run t)

/-- The steps of a task at the end of a processor call. -/
def endSteps (t : Nat) (outcome : Outcome) : List QueueOp := .settle t outcome :: List.replicate 4 (.run t)

end Samples

end CommandConsole.Jobs
