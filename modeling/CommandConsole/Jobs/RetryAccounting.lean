import Mathlib.Data.Rat.Floor
import Mathlib.Tactic.Positivity
import CommandConsole.Jobs.StaleRecovery

/-! # The attempts and retries of one job

The limits of a job are any finite numbers. A worker loop lists the job while it is eligible and comes to it later; other
loops, stale recoveries and the operator act in between. The processor calls that have not settled are counted.
-/
namespace CommandConsole.Jobs
open Library
set_option autoImplicit false

section Limits

/-- The limits that `enqueueJob` gives a job. -/
structure RetryLimits where
  maxAttempts : ℚ
  retryDelayMs : ℚ
  runtimeLimitMs : Nat
  attemptsRange : 1 ≤ maxAttempts
  delayRange : 100 ≤ retryDelayMs

/-- `enqueueJob` on the numbers of its `meta`; `none` is one that is not finite. -/
def enqueueLimits (maxAttempts retryDelayMs : Option ℚ) (runtimeLimitMs : Option Nat) : RetryLimits where
  maxAttempts := maxAttempts.elim 3 (max 1)
  retryDelayMs := retryDelayMs.elim 5000 (max 100)
  runtimeLimitMs := runtimeLimitMs.elim defaultJobRuntimeLimitMs (max 1000)
  attemptsRange := by
    cases maxAttempts with
    | none => norm_num
    | some value => exact le_max_left 1 value
  delayRange := by
    cases retryDelayMs with
    | none => norm_num
    | some value => exact le_max_left 100 value

/-- `new Date(ms)` drops the fraction of its argument. -/
def truncated (ms : ℚ) : Int := if 0 ≤ ms then ⌊ms⌋ else ⌈ms⌉

def dateOfNumber (ms : ℚ) : Option Int := dateOf (truncated ms)

end Limits

/-- The columns of the job that change. -/
structure RetryRow where
  status : JobStatus
  attempts : Nat
  retryCount : Nat
  startedAt : Option Int
  leaseExpiresAt : Option Int
  nextRetryAt : Option Int
  deriving DecidableEq

/-- The job, the statuses with which worker loops have listed it and not come to it yet, the processor calls that have not
settled, the processor calls since the last manual retry, and the rows after the failures of the processor. -/
structure RetryState where
  now : Int
  row : RetryRow
  listed : List JobStatus
  running : Nat
  invoked : Nat
  failures : List (Int × RetryRow)

inductive RetryOp where
  | tick (ms : Nat)
  | list
  | runJob (index : Nat) (refused : Bool)
  | heartbeat
  | settle (outcome : Outcome)
  | recoverStaleJobs (within : Bool)
  | cancelJob
  | retryJob
  deriving DecidableEq

namespace RetryRow

variable (limits : RetryLimits) (now : Int) (row : RetryRow)

def canRetry : Bool := (row.attempts : ℚ) < limits.maxAttempts

def eligible : Bool :=
  row.status = .queued || row.status = .scheduledRetry && row.nextRetryAt.all fun instant => instant ≤ now

def requeued : RetryRow :=
  { row with
    status := .queued
    retryCount := row.retryCount + 1
    leaseExpiresAt := none
    nextRetryAt := none
    startedAt := none }

def begun : RetryRow :=
  { row with
    status := .running
    startedAt := some now
    leaseExpiresAt := some (now + computeLeaseDurationMs limits.runtimeLimitMs)
    attempts := row.attempts + 1 }

/-- The time of the next retry after a failure. -/
def retryTime : ℚ := now + limits.retryDelayMs * 2 ^ row.retryCount

/-- The updater of a failure; `none` is a throw, which leaves the row as it is. -/
def failed : Option RetryRow :=
  if row.canRetry limits then
    (dateOfNumber (row.retryTime limits now)).map fun nextRetryAt =>
      { row with status := .scheduledRetry, leaseExpiresAt := none, nextRetryAt := some nextRetryAt }
  else some { row with status := .failed, leaseExpiresAt := none, nextRetryAt := none }

def isStale : Bool :=
  row.leaseExpiresAt.any (fun lease => lease ≤ now) || row.startedAt.getD 0 = 0 ||
    staleRunningJobMs < now - row.startedAt.getD 0

def recovered : Option RetryRow :=
  if row.canRetry limits then
    (dateOfNumber (now + max 100 limits.retryDelayMs)).map fun nextRetryAt =>
      { row with status := .scheduledRetry, leaseExpiresAt := none, nextRetryAt := some nextRetryAt }
  else some { row with status := .failed, leaseExpiresAt := none, nextRetryAt := none }

end RetryRow

namespace RetryState

variable (limits : RetryLimits) (state : RetryState)

/-- A worker loop comes to a job that it has listed. -/
def runJob (index : Nat) (refused : Bool) : RetryState :=
  match state.listed[index]? with
  | none => state
  | some status =>
    let row := if status = .scheduledRetry then state.row.requeued else state.row
    let state := { state with row, listed := state.listed.eraseIdx index }
    if row.status = .canceled then state
    else if refused then { state with row := { row with status := .failed, startedAt := some (row.startedAt.getD state.now) } }
    else { state with row := row.begun limits state.now, running := state.running + 1, invoked := state.invoked + 1 }

/-- A processor call settles, and `runJob` writes its outcome. -/
def settle (outcome : Outcome) : RetryState :=
  if state.running = 0 then state
  else
    match outcome with
    | .returned =>
      { state with
        row := { state.row with status := .completed, leaseExpiresAt := none, nextRetryAt := none }
        running := state.running - 1 }
    | .threw | .timedOut =>
      let row := (state.row.failed limits state.now).getD state.row
      { state with row, running := state.running - 1, failures := (state.now, row) :: state.failures }

def step (op : RetryOp) (state : RetryState) : RetryState :=
  match op with
  | .tick ms => { state with now := state.now + ms }
  | .list => if state.row.eligible state.now then { state with listed := state.listed ++ [state.row.status] } else state
  | .runJob index refused => state.runJob limits index refused
  | .heartbeat =>
    if state.running = 0 ∨ state.row.status ≠ .running then state
    else
      { state with
        row := { state.row with leaseExpiresAt := some (state.now + computeLeaseDurationMs limits.runtimeLimitMs) } }
  | .settle outcome => state.settle limits outcome
  | .recoverStaleJobs within =>
    if within ∧ state.row.status = .running ∧ state.row.isStale state.now = true then
      { state with row := (state.row.recovered limits state.now).getD state.row }
    else state
  | .cancelJob =>
    if state.row.status ∉ [.queued, .scheduledRetry] then state
    else { state with row := { state.row with status := .canceled, leaseExpiresAt := none, nextRetryAt := none } }
  | .retryJob =>
    if state.row.status ∉ [.failed, .scheduledRetry] then state
    else { state with row := state.row.requeued, invoked := 0 }

/-- The job as `enqueueJob` stores it. -/
def enqueued (now : Int) : RetryState := ⟨now, ⟨.queued, 0, 0, none, none, none⟩, [], 0, 0, []⟩

end RetryState

section Accounting

variable {limits : RetryLimits} {now : Int} {row : RetryRow} {state : RetryState}

/-- The job is stored as failed, or scheduled for a date that is not earlier than the failure. -/
def Kept (now : Int) (row : RetryRow) : Prop :=
  row.status = .failed ∨
    row.status = .scheduledRetry ∧ ∃ nextRetryAt, row.nextRetryAt = some nextRetryAt ∧ now ≤ nextRetryAt ∧
      dateOf nextRetryAt = some nextRetryAt

/-- The updater of the failure does not throw, and the job is kept. -/
def FailureKept (limits : RetryLimits) (state : RetryState) (outcome : Outcome) : Prop :=
  (state.row.failed limits state.now).isSome = true ∧ Kept state.now (state.settle limits outcome).row

theorem le_truncated {ms : ℚ} (h : (now : ℚ) ≤ ms) : now ≤ truncated ms := by
  rw [truncated]
  split
  · exact Int.le_floor.mpr h
  · exact Int.cast_le.mp (h.trans (Int.le_ceil ms))

theorem dateOf_eq_some {ms date : Int} (h : dateOf ms = some date) : date = ms := by
  rw [dateOf] at h
  split at h
  · exact (Option.some.inj h).symm
  · cases h

theorem dateOfNumber_spec {ms : ℚ} {date : Int} (h : dateOfNumber ms = some date) (hNow : (now : ℚ) ≤ ms) :
    now ≤ date ∧ dateOf date = some date := by
  rw [dateOfNumber] at h
  obtain rfl := dateOf_eq_some h
  exact ⟨le_truncated hNow, h⟩

theorem now_le_retryTime (limits : RetryLimits) (now : Int) (row : RetryRow) : (now : ℚ) ≤ row.retryTime limits now := by
  have hDelay := limits.delayRange
  have hPower : (0 : ℚ) < 2 ^ row.retryCount := by positivity
  rw [RetryRow.retryTime]
  nlinarith

theorem canRetry_iff : row.canRetry limits = true ↔ row.attempts < ⌈limits.maxAttempts⌉₊ := by
  rw [RetryRow.canRetry, decide_eq_true_iff, Nat.lt_ceil]

theorem failed_kept {next : RetryRow} (h : row.failed limits now = some next) : Kept now next := by
  rw [RetryRow.failed] at h
  split at h
  · obtain ⟨nextRetryAt, hDate, rfl⟩ := Option.map_eq_some_iff.mp h
    obtain ⟨hLater, hValid⟩ := dateOfNumber_spec hDate (now_le_retryTime limits now row)
    exact .inr ⟨rfl, nextRetryAt, rfl, hLater, hValid⟩
  · obtain rfl := Option.some.inj h
    exact .inl rfl

theorem failed_isSome_iff : (row.failed limits now).isSome = true ↔
    (row.canRetry limits = true → (dateOfNumber (row.retryTime limits now)).isSome = true) := by
  rw [RetryRow.failed]
  split
  next hRetry => simp [hRetry]
  next hRetry => simp [hRetry]

theorem settle_failed {outcome : Outcome} (hOutcome : outcome ≠ .returned) (hRunning : 0 < state.running) :
    state.settle limits outcome =
      { state with
        row := (state.row.failed limits state.now).getD state.row
        running := state.running - 1
        failures := (state.now, (state.row.failed limits state.now).getD state.row) :: state.failures } := by
  have hSome : state.running ≠ 0 := by omega
  cases outcome with
  | returned => exact absurd rfl hOutcome
  | threw | timedOut => simp only [RetryState.settle, if_neg hSome]

theorem failure_kept_iff {outcome : Outcome} (hOutcome : outcome ≠ .returned) (hRunning : 0 < state.running) :
    FailureKept limits state outcome ↔
      (state.row.canRetry limits = true → (dateOfNumber (state.row.retryTime limits state.now)).isSome = true) := by
  rw [← failed_isSome_iff, FailureKept]
  refine ⟨And.left, fun hSome => ⟨hSome, ?_⟩⟩
  obtain ⟨next, hNext⟩ := Option.isSome_iff_exists.mp hSome
  rw [settle_failed hOutcome hRunning, hNext]
  exact failed_kept hNext

/-- A failure finds its retry time in the range of dates, and a worker loop finds the job as eligible as it was listed. -/
def Orderly (limits : RetryLimits) (op : RetryOp) (state : RetryState) : Prop :=
  match op with
  | .settle .threw | .settle .timedOut =>
    state.row.canRetry limits = true → (dateOfNumber (state.row.retryTime limits state.now)).isSome = true
  | .runJob index _ => ∀ status ∈ state.listed[index]?, state.row.status ∈ [.queued, .scheduledRetry] ∨
      status = .queued ∧ state.row.status = .canceled
  | _ => True

instance Orderly.decidable : ∀ op, Decidable (Orderly limits op state)
  | .settle .threw | .settle .timedOut => inferInstanceAs (Decidable (_ = true → _ = true))
  | .runJob index _ => inferInstanceAs (Decidable (∀ status ∈ state.listed[index]?, _ ∨ _))
  | .settle .returned | .tick _ | .list | .heartbeat | .recoverStaleJobs _ | .cancelJob | .retryJob => inferInstanceAs (Decidable True)

/-- What the counters and the status say of each other. -/
structure Accounted (limits : RetryLimits) (state : RetryState) : Prop where
  bound : state.invoked ≤ ⌈limits.maxAttempts⌉₊
  counted : state.invoked ≤ state.row.attempts
  scheduled : state.row.status = .scheduledRetry → state.row.attempts < ⌈limits.maxAttempts⌉₊
  queued : state.row.status = .queued → state.invoked = 0 ∨ state.row.attempts < ⌈limits.maxAttempts⌉₊
  kept : ∀ failure ∈ state.failures, Kept failure.1 failure.2

theorem ceil_pos (limits : RetryLimits) : 1 ≤ ⌈limits.maxAttempts⌉₊ := by
  have hRange := limits.attemptsRange
  exact Nat.one_le_ceil_iff.mpr (by linarith)

/-- A row that keeps the attempts and is neither queued nor scheduled keeps the account. -/
theorem Accounted.of_row (h : Accounted limits state) {next : RetryRow} (hAttempts : next.attempts = state.row.attempts)
    (hScheduled : next.status = .scheduledRetry → state.row.attempts < ⌈limits.maxAttempts⌉₊)
    (hQueued : next.status ≠ .queued) : Accounted limits { state with row := next } where
  bound := h.bound
  counted := by
    rw [hAttempts]
    exact h.counted
  scheduled hStatus := by
    rw [hAttempts]
    exact hScheduled hStatus
  queued hStatus := absurd hStatus hQueued
  kept := h.kept

theorem failed_row {next : RetryRow} (h : row.failed limits now = some next ∨ row.recovered limits now = some next) :
    next.attempts = row.attempts ∧ (next.status = .scheduledRetry → row.attempts < ⌈limits.maxAttempts⌉₊) ∧
      next.status ≠ .queued := by
  rw [RetryRow.failed, RetryRow.recovered] at h
  split at h
  next hRetry =>
    rcases h with h | h
    · obtain ⟨nextRetryAt, -, rfl⟩ := Option.map_eq_some_iff.mp h
      exact ⟨rfl, fun _ => canRetry_iff.mp hRetry, nofun⟩
    · obtain ⟨nextRetryAt, -, rfl⟩ := Option.map_eq_some_iff.mp h
      exact ⟨rfl, fun _ => canRetry_iff.mp hRetry, nofun⟩
  next =>
    rw [or_self] at h
    obtain rfl := Option.some.inj h
    exact ⟨rfl, nofun, nofun⟩

/-- A claim of a job that is on its first call since the operator's retry, or has attempts left. -/
theorem Accounted.begun (h : Accounted limits state)
    (hRoom : state.invoked = 0 ∨ state.row.attempts < ⌈limits.maxAttempts⌉₊)
    (hAttempts : row.attempts = state.row.attempts) (listed : List JobStatus) :
    Accounted limits
      { state with
        row := row.begun limits state.now
        listed
        running := state.running + 1
        invoked := state.invoked + 1 } where
  bound := by
    have hPos := ceil_pos limits
    have hCounted := h.counted
    change state.invoked + 1 ≤ _
    omega
  counted := by
    have hCounted := h.counted
    change state.invoked + 1 ≤ row.attempts + 1
    omega
  scheduled := nofun
  queued := nofun
  kept := h.kept

theorem Accounted.runJob (h : Accounted limits state) {index : Nat} {refused : Bool}
    (hOrderly : Orderly limits (.runJob index refused) state) : Accounted limits (state.runJob limits index refused) := by
  rw [RetryState.runJob]
  split
  next => exact h
  next status hListed =>
    have hEligible := hOrderly status hListed
    have hRoom : state.row.status ∈ [.queued, .scheduledRetry] →
        state.invoked = 0 ∨ state.row.attempts < ⌈limits.maxAttempts⌉₊ := by
      intro hMem
      rcases List.mem_cons.mp hMem with hQueued | hMem
      · exact h.queued hQueued
      · exact .inr (h.scheduled (List.mem_singleton.mp hMem))
    have hClaim : ∀ row : RetryRow, row.attempts = state.row.attempts →
        (row.status ≠ .canceled → state.row.status ∈ [.queued, .scheduledRetry]) →
        (row.status = .canceled → row = state.row) →
          Accounted limits
            (if row.status = .canceled then { state with row, listed := state.listed.eraseIdx index }
            else if refused then
              { state with
                row := { row with status := .failed, startedAt := some (row.startedAt.getD state.now) }
                listed := state.listed.eraseIdx index }
            else
              { state with
                row := row.begun limits state.now
                listed := state.listed.eraseIdx index
                running := state.running + 1
                invoked := state.invoked + 1 }) := by
      intro row hAttempts hOpen hCanceled
      split
      next hStatus =>
        obtain rfl := hCanceled hStatus
        exact ⟨h.bound, h.counted, h.scheduled, h.queued, h.kept⟩
      next hStatus =>
        split
        · exact ⟨h.bound, hAttempts.symm ▸ h.counted, nofun, nofun, h.kept⟩
        · exact h.begun (hRoom (hOpen hStatus)) hAttempts _
    by_cases hRetry : status = .scheduledRetry
    · have hOpen : state.row.status ∈ [.queued, .scheduledRetry] := by
        rcases hEligible with hOpen | ⟨hQueued, -⟩
        · exact hOpen
        · rw [hRetry] at hQueued
          cases hQueued
      have hRow := hClaim state.row.requeued rfl (fun _ => hOpen) nofun
      simpa only [if_pos hRetry] using hRow
    · have hRow := hClaim state.row rfl (fun hStatus => hEligible.elim id fun h => absurd h.2 hStatus) fun _ => rfl
      simpa only [if_neg hRetry] using hRow

theorem Accounted.settle (h : Accounted limits state) {outcome : Outcome}
    (hOrderly : Orderly limits (.settle outcome) state) : Accounted limits (state.settle limits outcome) := by
  by_cases hRunning : state.running = 0
  · rw [RetryState.settle.eq_def, if_pos hRunning]
    exact h
  · cases outcome with
    | returned =>
      simp only [RetryState.settle, if_neg hRunning]
      exact ⟨h.bound, h.counted, nofun, nofun, h.kept⟩
    | threw | timedOut =>
      obtain ⟨next, hNext⟩ := Option.isSome_iff_exists.mp (failed_isSome_iff.mpr hOrderly)
      obtain ⟨hAttempts, hScheduled, hQueued⟩ := failed_row (.inl hNext)
      simp only [RetryState.settle, if_neg hRunning, hNext, Option.getD_some]
      have hRow := h.of_row hAttempts hScheduled hQueued
      refine ⟨hRow.bound, hRow.counted, hRow.scheduled, hRow.queued, fun failure hFailure => ?_⟩
      rcases List.mem_cons.mp hFailure with rfl | hOld
      · exact failed_kept hNext
      · exact h.kept failure hOld

theorem Accounted.step (h : Accounted limits state) {op : RetryOp} (hOrderly : Orderly limits op state) :
    Accounted limits (RetryState.step limits op state) := by
  cases op with
  | tick ms => exact ⟨h.bound, h.counted, h.scheduled, h.queued, h.kept⟩
  | list =>
    rw [RetryState.step]
    split
    · exact ⟨h.bound, h.counted, h.scheduled, h.queued, h.kept⟩
    · exact h
  | runJob index refused => exact h.runJob hOrderly
  | heartbeat =>
    rw [RetryState.step]
    split
    · exact h
    · exact ⟨h.bound, h.counted, h.scheduled, h.queued, h.kept⟩
  | settle outcome => exact h.settle hOrderly
  | recoverStaleJobs within =>
    rw [RetryState.step]
    split
    next hStale =>
      cases hNext : state.row.recovered limits state.now with
      | none => exact h
      | some next =>
        obtain ⟨hAttempts, hScheduled, hQueued⟩ := failed_row (.inr hNext)
        exact h.of_row hAttempts hScheduled hQueued
    · exact h
  | cancelJob =>
    rw [RetryState.step]
    split
    · exact h
    · exact h.of_row rfl nofun nofun
  | retryJob =>
    rw [RetryState.step]
    split
    · exact h
    · exact ⟨Nat.zero_le _, Nat.zero_le _, nofun, fun _ => .inl rfl, h.kept⟩

theorem accounted_enqueued (limits : RetryLimits) (now : Int) : Accounted limits (.enqueued now) where
  bound := Nat.zero_le _
  counted := Nat.zero_le _
  scheduled := nofun
  queued _ := .inl rfl
  kept := nofun

/-- The largest number of attempts is a whole number. -/
def RetryLimits.Whole (limits : RetryLimits) : Prop := ∃ count : Nat, limits.maxAttempts = count

/-- A delay that `enqueueJob` admits. -/
def distantLimits : RetryLimits := enqueueLimits (some 3) (some 10000000000000000) none

def lostRun : RetryState :=
  runAll (RetryState.step distantLimits) (.enqueued 0) [.list, .runJob 0 false, .settle .threw]

/-- A job of three attempts that fails once, and is listed and called again when its retry is due. -/
def retriedRun : List RetryOp :=
  [.list, .runJob 0 false, .settle .threw, .tick 10000, .list, .runJob 0 false, .settle .timedOut]

def usualLimits : RetryLimits := enqueueLimits none none none

end Accounting

end CommandConsole.Jobs
