import CommandConsole.Jobs.JobTerminality

/-! # One worker at a time

A claim is exclusive while its lease lasts when nobody writes over a row that was
changed since it was read, a batch only acts on jobs that are neither running nor
completed, a row is recovered after its lease, and the handlers and the heartbeats
of a call are those of the latest claim of its job.
-/
namespace CommandConsole.Jobs
open Library
set_option autoImplicit false

section Rules

/-- The call belongs to the latest claim of its job. -/
def Queue.latest (q : Queue) (k : Nat) : Bool :=
  q.invocations[k]?.all fun call =>
    (q.invocations.drop (k + 1)).all fun later => later.jobId ≠ call.jobId

def Queue.ended (q : Queue) (k : Nat) : Bool := q.invocations[k]?.all fun call => call.phase = .ended

/-- What the row has to be like when an update of it is written. -/
def Update.fits (q : Queue) (row : JobRow) : Update → Bool
  | .requeue | .reject | .begin => row.status ≠ .running && row.status ≠ .completed
  | .recover _ => row.status ≠ .completed && row.leaseExpiresAt.all fun lease => lease ≤ q.now
  | .complete k | .fail k => row.status ≠ .completed && q.latest k && q.ended k
  | .heartbeat k _ => row.status ≠ .running || q.latest k
  | .note | .cancel | .retry => true

def exclusionRules : Rules where
  write q draft := q.store.find? draft.base.id = some draft.base ∧ draft.update.fits q draft.base = true
  start q k call :=
    q.latest k = true ∧
      match q.store.find? call.jobId with
      | some row => row.status ≠ .completed
      | none => False

instance (q : Queue) (draft : Draft) : Decidable (exclusionRules.write q draft) := by
  simp only [exclusionRules]
  infer_instance

instance (q : Queue) (k : Nat) (call : Invocation) : Decidable (exclusionRules.start q k call) :=
  decidable_of_iff (q.latest k = true ∧ ∃ row ∈ q.store.find? call.jobId, row.status ≠ .completed) (by
    cases h : q.store.find? call.jobId <;> simp [exclusionRules, h])

theorem Queue.latest_iff {q : Queue} {k : Nat} {call : Invocation} (hCall : q.invocations[k]? = some call) :
    q.latest k = true ↔ ∀ j later, k < j → q.invocations[j]? = some later → later.jobId ≠ call.jobId := by
  simp only [Queue.latest, hCall, Option.all_some, List.all_eq_true, decide_eq_true_eq]
  constructor
  · intro h j later hj hLater
    refine h later (List.mem_of_getElem? (i := j - (k + 1)) ?_)
    rw [List.getElem?_drop, show k + 1 + (j - (k + 1)) = j by omega, hLater]
  · intro h later hLater
    obtain ⟨n, hn⟩ := List.mem_iff_getElem?.mp hLater
    rw [List.getElem?_drop] at hn
    exact h (k + 1 + n) later (by omega) hn

theorem Update.fits_mild {q : Queue} {row : JobRow} {update : Update} (h : update.fits q row = true)
    (hCompleted : row.status = .completed) : update.mild = true := by
  cases update with
  | note | heartbeat | cancel | retry => rfl
  | requeue | reject | begin | recover | complete | fail => simp [Update.fits, hCompleted] at h

/-- A run under these rules is also one in which completed jobs are left alone. -/
theorem exclusionRules_final {op : QueueOp} {q : Queue} (h : exclusionRules.guard op q) :
    (finalRules [.completed]).guard op q := by
  refine Rules.guard_mono ?_ ?_ h
  · rintro draft ⟨hFresh, hFits⟩
    simp only [finalRules, hFresh, List.mem_singleton]
    exact fun hCompleted => ⟨trivial, Update.fits_mild hFits hCompleted⟩
  · rintro k call ⟨-, hOpen⟩
    simp only [finalRules]
    cases hFind : q.store.find? call.jobId with
    | none => simp [hFind] at hOpen
    | some row => simpa [hFind] using hOpen

end Rules

section Exclusion

variable {q next : Queue} {draft : Draft}

/-- The call, not settled yet, has a lease that lasts beyond the present. -/
structure Invocation.Live (call : Invocation) (now lease : Int) : Prop where
  unsettled : call.settled = false
  written : call.lease = some lease
  lasts : now < lease

structure Queue.Exclusive (q : Queue) : Prop where
  leased : ∀ (k : Nat) (call : Invocation), q.invocations[k]? = some call → call.lease.isSome = true
  order : ∀ (i j : Nat) (earlier later : Invocation) (lease : Int), i < j → q.invocations[i]? = some earlier →
    q.invocations[j]? = some later → later.jobId = earlier.jobId → ¬earlier.Live q.now lease
  held : ∀ (k : Nat) (call : Invocation) (lease : Int), q.invocations[k]? = some call → call.Live q.now lease →
    ∃ row, q.store.find? call.jobId = some row ∧ row.status = .running ∧ row.leaseExpiresAt = some lease
  ended : ∀ (k : Nat) (call : Invocation), q.invocations[k]? = some call → call.settled = true →
    call.phase = .ended
  started : ∀ entry ∈ q.starts, ∃ call, q.invocations[entry.1]? = some call ∧ call.jobId = entry.2
  starts : q.starts.Pairwise fun earlier later => earlier.2 = later.2 → earlier.1 ≤ later.1

theorem Queue.Initial.exclusive (h : q.Initial) : q.Exclusive := by
  constructor <;> simp [h.invocations, h.starts]

theorem getElem?_modify_eq {α : Type} {l : List α} {k i : Nat} {change : α → α} {value : α}
    (h : (l.modify k change)[i]? = some value) :
    ∃ old, l[i]? = some old ∧ value = if k = i then change old else old := by
  rw [List.getElem?_modify] at h
  obtain ⟨old, hOld, hValue⟩ := Option.map_eq_some_iff.mp h
  exact ⟨old, hOld, hValue.symm⟩

/-- A call of the list after a write, by what the write did to it. -/
inductive CallAfter (draft : Draft) (worker : String) (calls : List Invocation) (i : Nat) : Invocation → Prop where
  | kept (call : Invocation) (hCall : calls[i]? = some call)
      (hSpared : draft.update.call? ≠ some i ∨ draft.base.status ≠ .running) :
      CallAfter draft worker calls i call
  | claimed (hUpdate : draft.update = .begin) (hNew : i = calls.length) :
      CallAfter draft worker calls i
        (claimedCall worker draft.next.id draft.next.runtimeLimitMs draft.next.leaseExpiresAt)
  | renewed (old : Invocation) (limit : Nat) (hOld : calls[i]? = some old)
      (hUpdate : draft.update = .heartbeat i limit) (hRunning : draft.base.status = .running) :
      CallAfter draft worker calls i { old with lease := draft.next.leaseExpiresAt }
  | closed (old : Invocation) (hOld : calls[i]? = some old)
      (hUpdate : draft.update = .complete i ∨ draft.update = .fail i) :
      CallAfter draft worker calls i { old with settled := true }

theorem callAfter {draft : Draft} {worker : String} {calls : List Invocation} {i : Nat} {call : Invocation}
    (h : (draft.calls worker calls)[i]? = some call) : CallAfter draft worker calls i call := by
  have hClosed : ∀ k, (draft.update = .complete k ∨ draft.update = .fail k) →
      draft.calls worker calls = calls.modify k fun call => { call with settled := true } := by
    rintro k (hUpdate | hUpdate) <;> rw [Draft.calls, hUpdate]
  have hCloses : ∀ k, (draft.update = .complete k ∨ draft.update = .fail k) →
      CallAfter draft worker calls i call := by
    intro k hUpdate
    rw [hClosed k hUpdate] at h
    obtain ⟨old, hOld, rfl⟩ := getElem?_modify_eq h
    by_cases hk : k = i
    · rw [if_pos hk]
      exact .closed old hOld (hk ▸ hUpdate)
    · rw [if_neg hk]
      refine .kept old hOld (.inl ?_)
      rcases hUpdate with hUpdate | hUpdate <;> simpa [hUpdate, Update.call?] using hk
  cases hUpdate : draft.update with
  | begin =>
    rw [Draft.calls, hUpdate] at h
    rcases lt_or_ge i calls.length with hi | hi
    · rw [List.getElem?_append_left hi] at h
      exact .kept call h (.inl (by simp [hUpdate, Update.call?]))
    · rw [List.getElem?_append_right hi, List.getElem?_singleton] at h
      split at h
      · cases h
        exact .claimed hUpdate (by omega)
      · cases h
  | heartbeat k limit =>
    simp only [Draft.calls, hUpdate] at h
    split at h
    · rename_i hRunning
      obtain ⟨old, hOld, rfl⟩ := getElem?_modify_eq h
      by_cases hk : k = i
      · rw [if_pos hk]
        exact .renewed old limit hOld (hk ▸ hUpdate) hRunning
      · rw [if_neg hk]
        exact .kept old hOld (.inl (by simpa [hUpdate, Update.call?] using hk))
    · rename_i hRunning
      exact .kept call h (.inr hRunning)
  | complete k => exact hCloses k (.inl hUpdate)
  | fail k => exact hCloses k (.inr hUpdate)
  | _ =>
    rw [Draft.calls, hUpdate] at h
    exact .kept call h (.inl (by simp [hUpdate, Update.call?]))

/-- What the rules say of a write, with the row that is stored. -/
structure Queue.Admits (q : Queue) (draft : Draft) : Prop where
  fresh : q.store.find? draft.base.id = some draft.base
  fits : draft.update.fits q draft.base = true
  target : q.refers (draft.base.id, draft.update)
  next : ∃ instant worker, instant ≤ q.now ∧ draft.next = draft.update.apply instant worker draft.base

theorem Queue.Admits.id (h : q.Admits draft) : draft.next.id = draft.base.id := by
  obtain ⟨instant, worker, -, hNext⟩ := h.next
  rw [hNext, Update.apply_id]

/-- The call of a handler is the latest one of the job that the handler writes. -/
theorem Queue.Admits.not_live_of_other (h : q.Admits draft) (hq : q.Exclusive) {i k : Nat} {call : Invocation}
    {lease : Int} (hUpdate : draft.update.call? = some k) (hLatest : q.latest k = true)
    (hCall : q.invocations[i]? = some call) (hJob : call.jobId = draft.base.id) (hOther : k ≠ i) :
    ¬call.Live q.now lease := by
  obtain ⟨handled, hHandled, hSame⟩ := h.target k hUpdate
  rcases lt_or_gt_of_ne hOther with hki | hik
  · exact absurd (hJob.trans hSame.symm) ((Queue.latest_iff hHandled).mp hLatest i call hki hCall)
  · exact hq.order i k call handled lease hik hCall hHandled (hSame.trans hJob.symm)

/-- A call whose lease lasts keeps its row through a write that spares it. -/
theorem Queue.Admits.kept (h : q.Admits draft) (hq : q.Exclusive) {i : Nat} {call : Invocation} {lease : Int}
    (hCall : q.invocations[i]? = some call) (hLive : call.Live q.now lease)
    (hSpared : draft.update.call? ≠ some i ∨ draft.base.status ≠ .running) (hJob : call.jobId = draft.base.id) :
    draft.update ≠ .begin ∧ draft.next.status = .running ∧ draft.next.leaseExpiresAt = some lease := by
  obtain ⟨row, hRow, hRunning, hLease⟩ := hq.held i call lease hCall hLive
  obtain rfl : draft.base = row := Option.some.inj (h.fresh.symm.trans (hJob ▸ hRow))
  obtain ⟨instant, worker, -, hNext⟩ := h.next
  have hFits := h.fits
  have hNotOther : ∀ k, draft.update.call? = some k → q.latest k = true → False := by
    intro k hk hLatest
    refine h.not_live_of_other hq hk hLatest hCall hJob ?_ hLive
    rintro rfl
    exact hSpared.elim (fun hNe => hNe hk) (fun hNe => hNe hRunning)
  cases hUpdate : draft.update with
  | note =>
    rw [hUpdate] at hNext
    rw [hNext]
    exact ⟨by simp, hRunning, hLease⟩
  | cancel =>
    rw [hUpdate, Update.apply, if_pos (by rw [hRunning]; decide)] at hNext
    rw [hNext]
    exact ⟨by simp, hRunning, hLease⟩
  | retry =>
    rw [hUpdate, Update.apply, if_pos (by rw [hRunning]; decide)] at hNext
    rw [hNext]
    exact ⟨by simp, hRunning, hLease⟩
  | requeue | reject | begin => simp [hUpdate, Update.fits, hRunning] at hFits
  | recover started =>
    have hLasts := hLive.lasts
    simp only [hUpdate, Update.fits, hLease, Option.all_some, Bool.and_eq_true, decide_eq_true_eq] at hFits
    omega
  | heartbeat k limit =>
    simp only [hUpdate, Update.fits, hRunning, ne_eq, not_true_eq_false, decide_false, Bool.false_or] at hFits
    exact (hNotOther k (by rw [hUpdate]; rfl) hFits).elim
  | complete k | fail k =>
    simp only [hUpdate, Update.fits, Bool.and_eq_true] at hFits
    exact (hNotOther k (by rw [hUpdate]; rfl) hFits.1.2).elim

theorem Queue.Admits.running (h : q.Admits draft)
    (hUpdate : draft.update = .begin ∨ ∃ k limit, draft.update = .heartbeat k limit ∧ draft.base.status = .running) :
    draft.next.status = .running ∧ draft.next.leaseExpiresAt.isSome = true := by
  obtain ⟨instant, worker, -, hNext⟩ := h.next
  rcases hUpdate with hUpdate | ⟨k, limit, hUpdate, hRunning⟩
  · rw [hNext, hUpdate]
    exact ⟨rfl, rfl⟩
  · rw [hUpdate, Update.apply, if_neg (by simpa using hRunning)] at hNext
    rw [hNext]
    exact ⟨hRunning, rfl⟩

/-- A handler and a heartbeat of a running job belong to the latest claim. -/
theorem Queue.Admits.latest (h : q.Admits draft) {k : Nat} (hUpdate : draft.update.call? = some k)
    (hRunning : (∃ limit, draft.update = .heartbeat k limit) → draft.base.status = .running) :
    q.latest k = true := by
  have hFits := h.fits
  cases hKind : draft.update with
  | heartbeat j limit =>
    rw [hKind] at hUpdate
    cases hUpdate
    simpa [hKind, Update.fits, hRunning ⟨limit, hKind⟩] using hFits
  | complete j | fail j =>
    rw [hKind] at hUpdate
    cases hUpdate
    simp only [hKind, Update.fits, Bool.and_eq_true] at hFits
    exact hFits.1.2
  | _ =>
    rw [hKind] at hUpdate
    cases hUpdate

section Writes

variable {worker : String} {tasks : List Task}

/-- The state after the write of the draft. -/
def Queue.written (q : Queue) (draft : Draft) (worker : String) (tasks : List Task) : Queue :=
  { q with store := upsertJob q.store draft.next, tasks, invocations := draft.calls worker q.invocations }

theorem Queue.Exclusive.written_order (hq : q.Exclusive) (h : q.Admits draft) (i j : Nat)
    (earlier later : Invocation) (lease : Int) (hij : i < j)
    (hEarlier : (q.written draft worker tasks).invocations[i]? = some earlier)
    (hLater : (q.written draft worker tasks).invocations[j]? = some later)
    (hJob : later.jobId = earlier.jobId) : ¬earlier.Live q.now lease := by
  -- the later call was there before the write, unless the write is its claim
  have hBefore : draft.update ≠ .begin →
      ∃ before, q.invocations[j]? = some before ∧ before.jobId = earlier.jobId := by
    intro hUpdate
    cases callAfter hLater with
    | kept call hCall hSpared => exact ⟨later, hCall, hJob⟩
    | claimed hBegin hNew => exact absurd hBegin hUpdate
    | renewed before limit hBefore hBeat hRunning => exact ⟨before, hBefore, hJob⟩
    | closed before hBefore hClosed => exact ⟨before, hBefore, hJob⟩
  cases callAfter hEarlier with
  | kept call hCall hSpared =>
    intro hLive
    cases callAfter hLater with
    | kept other hOther hSpared' => exact hq.order i j earlier later lease hij hCall hOther hJob hLive
    | claimed hBegin hNew =>
      exact (h.kept hq hCall hLive hSpared (hJob.symm.trans h.id)).1 hBegin
    | renewed before limit hBefore hBeat hRunning =>
      exact hq.order i j earlier before lease hij hCall hBefore hJob hLive
    | closed before hBefore hClosed =>
      exact hq.order i j earlier before lease hij hCall hBefore hJob hLive
  | claimed hBegin hNew =>
    have hj : j < (draft.calls worker q.invocations).length := (List.getElem?_eq_some_iff.mp hLater).choose
    rw [Draft.calls, hBegin, List.length_append, List.length_singleton] at hj
    omega
  | renewed old limit hOld hBeat hRunning =>
    have hLatest := h.latest (k := i) (by rw [hBeat]; rfl) fun _ => hRunning
    obtain ⟨before, hFound, hSame⟩ := hBefore (by rw [hBeat]; simp)
    exact absurd hSame ((Queue.latest_iff hOld).mp hLatest j before hij hFound)
  | closed old hOld hClosed =>
    intro hLive
    cases hLive.unsettled

theorem Queue.Exclusive.written_held (hq : q.Exclusive) (h : q.Admits draft) (k : Nat) (call : Invocation)
    (lease : Int) (hCall : (q.written draft worker tasks).invocations[k]? = some call)
    (hLive : call.Live q.now lease) :
    ∃ row, (q.written draft worker tasks).store.find? call.jobId = some row ∧ row.status = .running ∧
      row.leaseExpiresAt = some lease := by
  have hOwn : call.jobId = draft.base.id → draft.next.status = .running →
      draft.next.leaseExpiresAt = some lease →
      ∃ row, (upsertJob q.store draft.next).find? call.jobId = some row ∧ row.status = .running ∧
        row.leaseExpiresAt = some lease := by
    intro hJob hRunning hLease
    refine ⟨draft.next, find?_upsertJob_open ?_ (by rw [hRunning]; rfl), hRunning, hLease⟩
    rw [if_pos (hJob.trans h.id.symm)]
  cases callAfter hCall with
  | kept call hOld hSpared =>
    by_cases hJob : call.jobId = draft.base.id
    · obtain ⟨-, hRunning, hLease⟩ := h.kept hq hOld hLive hSpared hJob
      exact hOwn hJob hRunning hLease
    · obtain ⟨row, hRow, hRunning, hLease⟩ := hq.held k call lease hOld hLive
      refine ⟨row, find?_upsertJob_open ?_ (by rw [hRunning]; rfl), hRunning, hLease⟩
      rw [if_neg (h.id ▸ hJob), hRow]
  | claimed hBegin hNew => exact hOwn h.id (h.running (.inl hBegin)).1 hLive.written
  | renewed old limit hOld hBeat hRunning =>
    obtain ⟨handled, hHandled, hSame⟩ := h.target k (by rw [hBeat]; rfl)
    obtain rfl : old = handled := Option.some.inj (hOld.symm.trans hHandled)
    exact hOwn hSame (h.running (.inr ⟨k, limit, hBeat, hRunning⟩)).1 hLive.written
  | closed old hOld hClosed => cases hLive.unsettled

theorem Queue.Exclusive.written (hq : q.Exclusive) (h : q.Admits draft) :
    (q.written draft worker tasks).Exclusive where
  leased k call hCall := by
    cases callAfter hCall with
    | kept call hOld hSpared => exact hq.leased k call hOld
    | claimed hBegin hNew => exact (h.running (.inl hBegin)).2
    | renewed old limit hOld hBeat hRunning => exact (h.running (.inr ⟨k, limit, hBeat, hRunning⟩)).2
    | closed old hOld hClosed => exact hq.leased k old hOld
  order := hq.written_order h
  held := hq.written_held h
  ended k call hCall hSettled := by
    cases callAfter hCall with
    | kept call hOld hSpared => exact hq.ended k call hOld hSettled
    | claimed hBegin hNew => cases hSettled
    | renewed old limit hOld hBeat hRunning => exact hq.ended k old hOld hSettled
    | closed old hOld hClosed =>
      have hFits := h.fits
      have hEnded : q.ended k = true := by
        rcases hClosed with hClosed | hClosed <;>
          simp only [hClosed, Update.fits, Bool.and_eq_true] at hFits <;> exact hFits.2
      simpa [Queue.ended, hOld] using hEnded
  started entry hEntry := by
    obtain ⟨call, hCall, hJob⟩ := hq.started entry hEntry
    obtain ⟨later, hLater, hSame⟩ := calls_job hCall
    exact ⟨later, hLater, hSame.trans hJob⟩
  starts := hq.starts

end Writes

section Phases

variable {k : Nat} {phase : Phase} {tasks : List Task}

/-- Only the phase of one call changes. -/
theorem phased {calls : List Invocation} {i : Nat} {call : Invocation}
    (h : (calls.modify k fun call => { call with phase })[i]? = some call) :
    ∃ old, calls[i]? = some old ∧ call = { old with phase := if k = i then phase else old.phase } := by
  obtain ⟨old, hOld, rfl⟩ := getElem?_modify_eq h
  refine ⟨old, hOld, ?_⟩
  split <;> rfl

theorem Queue.Exclusive.phased (hq : q.Exclusive) {starts : List (Nat × String)} {changed : Invocation}
    (hChanged : q.invocations[k]? = some changed) (hOpen : changed.phase ≠ .ended)
    (hStarted : ∀ entry ∈ starts, ∃ call, q.invocations[entry.1]? = some call ∧ call.jobId = entry.2)
    (hStarts : starts.Pairwise fun earlier later => earlier.2 = later.2 → earlier.1 ≤ later.1) :
    (({ q with tasks, starts } : Queue).setPhase k phase).Exclusive where
  leased i call hCall := by
    obtain ⟨old, hOld, rfl⟩ := Jobs.phased hCall
    exact hq.leased i old hOld
  order i j earlier later lease hij hEarlier hLater hJob hLive := by
    obtain ⟨first, hFirst, rfl⟩ := Jobs.phased hEarlier
    obtain ⟨second, hSecond, rfl⟩ := Jobs.phased hLater
    exact hq.order i j first second lease hij hFirst hSecond hJob ⟨hLive.unsettled, hLive.written, hLive.lasts⟩
  held i call lease hCall hLive := by
    obtain ⟨old, hOld, rfl⟩ := Jobs.phased hCall
    exact hq.held i old lease hOld ⟨hLive.unsettled, hLive.written, hLive.lasts⟩
  ended i call hCall hSettled := by
    obtain ⟨old, hOld, rfl⟩ := Jobs.phased hCall
    have hEnded := hq.ended i old hOld hSettled
    have hOther : k ≠ i := by
      rintro rfl
      obtain rfl : changed = old := Option.some.inj (hChanged.symm.trans hOld)
      exact hOpen hEnded
    simpa only [if_neg hOther] using hEnded
  started entry hEntry := by
    obtain ⟨call, hCall, hJob⟩ := hStarted entry hEntry
    refine ⟨{ call with phase := if k = entry.1 then phase else call.phase }, ?_, hJob⟩
    rw [Queue.setPhase, List.getElem?_modify, hCall, Option.map_eq_map, Option.map_some]
    split <;> rfl
  starts := hStarts

end Phases

theorem Change.exclusive (hChange : Change exclusionRules q next) (hSound : q.Sound) (hq : q.Exclusive) :
    next.Exclusive := by
  cases hChange with
  | tick ms =>
    have hBefore : ∀ {call : Invocation} {lease : Int}, call.Live (q.now + ms) lease → call.Live q.now lease :=
      fun hLive => ⟨hLive.unsettled, hLive.written, by have := hLive.lasts; omega⟩
    exact
      { hq with
        order := fun i j earlier later lease hij hEarlier hLater hJob hLive =>
          hq.order i j earlier later lease hij hEarlier hLater hJob (hBefore hLive)
        held := fun k call lease hCall hLive => hq.held k call lease hCall (hBefore hLive) }
  | work tasks hTasks => exact { hq with }
  | insert job hNew =>
    refine { hq with held := ?_ }
    intro k call lease hCall hLive
    obtain ⟨row, hRow, hRunning, hLease⟩ := hq.held k call lease hCall hLive
    refine ⟨row, find?_upsertJob_open ?_ (by rw [hRunning]; rfl), hRunning, hLease⟩
    have hOther : call.jobId ≠ (Queue.newJob job).id := by
      intro hSame
      exact hNew (hSame ▸ hSound.known _ row hRow : (Queue.newJob job).id ∈ q.used)
    rw [if_neg hOther, hRow]
  | write draft worker tasks hDraft hTarget hRule hTasks =>
    exact hq.written ⟨hRule.1, hRule.2, hSound.targets _ hTarget, (hSound.drafts draft hDraft).2⟩
  | start k call tasks hCall hClaimed hRule hTasks =>
    change (({ q with tasks, starts := q.starts ++ [(k, call.jobId)] } : Queue).setPhase k .awaited).Exclusive
    refine hq.phased hCall (by rw [hClaimed]; decide) ?_ ?_
    · intro entry hEntry
      rcases List.mem_append.mp hEntry with hOld | hNew
      · exact hq.started entry hOld
      · rw [List.mem_singleton.mp hNew]
        exact ⟨call, hCall, rfl⟩
    · refine List.pairwise_append.mpr ⟨hq.starts, List.pairwise_singleton _ _, ?_⟩
      intro earlier hEarlier later hLater hJob
      rw [List.mem_singleton.mp hLater] at hJob ⊢
      obtain ⟨before, hBefore, hSame⟩ := hq.started earlier hEarlier
      by_contra hAfter
      exact (Queue.latest_iff hCall).mp hRule.1 earlier.1 before (Nat.lt_of_not_le hAfter) hBefore
        (hSame.trans hJob)
  | settle k call phase tasks hCall hOpen hTasks =>
    refine hq.phased hCall ?_ hq.started hq.starts
    intro hEnded
    rw [hEnded] at hOpen
    cases hOpen

end Exclusion

section Runs

variable {config : QueueConfig} {start s : Queue}

/-- Once a second call of a job was started, the first is only in progress with an expired lease. -/
def Queue.OneAtATime (q : Queue) : Prop :=
  ∀ (i j : Nat) (id : String) (first : Invocation), i ≠ j → [(i, id), (j, id)].Sublist q.starts →
    q.invocations[i]? = some first → first.phase.inProgress = true →
      ∃ lease, first.lease = some lease ∧ lease ≤ q.now

theorem Queue.Exclusive.oneAtATime {q : Queue} (hq : q.Exclusive) : q.OneAtATime := by
  intro i j id first hNe hStarted hFirst hRunning
  have hOrder : i ≤ j := by
    have hPair := hq.starts.sublist hStarted
    exact (List.pairwise_cons.mp hPair).1 (j, id) List.mem_cons_self rfl
  obtain ⟨before, hBefore, hJob⟩ := hq.started (i, id) (hStarted.subset List.mem_cons_self)
  obtain ⟨second, hSecond, hJob'⟩ := hq.started (j, id)
    (hStarted.subset (List.mem_cons_of_mem _ List.mem_cons_self))
  obtain rfl : first = before := Option.some.inj (hFirst.symm.trans hBefore)
  obtain ⟨lease, hLease⟩ := Option.isSome_iff_exists.mp (hq.leased i first hFirst)
  refine ⟨lease, hLease, ?_⟩
  by_contra hLasts
  refine hq.order i j first second lease (Nat.lt_of_le_of_ne hOrder hNe) hFirst hSecond
    (hJob'.trans hJob.symm) ⟨?_, hLease, Int.not_le.mp hLasts⟩
  cases hSettled : first.settled with
  | false => rfl
  | true =>
    rw [hq.ended i first hFirst hSettled] at hRunning
    cases hRunning

theorem exclusive_run (hStart : start.Initial)
    (hRun : Reaches (Queue.step config) exclusionRules.guard start s) : s.Sound ∧ s.Exclusive :=
  reaches_invariant hRun hStart.sound hStart.exclusive fun _ _ hChange hSound hq => hChange.exclusive hSound hq

/-- "b" is completed; "a" is started, recovered after its lease, and started by another worker. -/
def recoverySteps : List QueueOp :=
  .runPending "w1" :: startSteps 0 ++ endSteps 0 .returned ++ startSteps 0 ++
    [.tick 80000, .recoverStale "w2", .run 1, .run 1, .tick 6000, .runPending "w2"] ++
    List.replicate 4 (.run 2) ++ startSteps 2

def twoJobs : Queue := sampleQueue [sampleJob "b" .queued 0, sampleJob "a" .queued 1]

end Runs

end CommandConsole.Jobs
