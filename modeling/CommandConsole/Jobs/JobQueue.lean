import CommandConsole.Library.Table
import CommandConsole.Library.Run
import Mathlib.Data.List.Sort
import Mathlib.Algebra.Group.Int.Defs

/-! # The background job queue

Any number of tasks share the job store. Every change of a job is a read of its
row and a later write of the whole row, and other tasks may run in between. A
worker takes a list of eligible jobs and then runs them one after the other,
awaiting each processor.
-/
namespace CommandConsole.Jobs
open Library
set_option autoImplicit false

inductive JobStatus where
  | queued
  | running
  | scheduledRetry
  | completed
  | failed
  | canceled
  deriving DecidableEq

/-- The columns of `jobs` that decide anything; instants are milliseconds. -/
structure JobRow where
  id : String
  type : String
  status : JobStatus
  createdAt : Int
  startedAt : Option Int
  workerId : Option String
  leaseExpiresAt : Option Int
  attempts : Nat
  maxAttempts : Nat
  retryCount : Nat
  retryDelayMs : Nat
  runtimeLimitMs : Nat
  nextRetryAt : Option Int
  deriving DecidableEq

abbrev JobStore := PlainTable JobRow.id

section Constants

def staleRunningJobMs : Int := 300000

def minJobLeaseMs : Int := 15000

def defaultJobRuntimeLimitMs : Nat := 60000

def maxJobBatchSize : Nat := 24

def terminalJobRetention : Nat := 500

/-- `Number(value || fallback)`. -/
def orDefault (value fallback : Nat) : Nat := if value = 0 then fallback else value

def computeLeaseDurationMs (runtimeLimitMs : Nat) : Int :=
  max minJobLeaseMs (min staleRunningJobMs (max 1000 (runtimeLimitMs : Int) + minJobLeaseMs))

end Constants

section Updates

/-- The updaters that are handed to `updateJob`; some are on behalf of a processor call. -/
inductive Update where
  | requeue
  | reject
  | begin
  | note
  | complete (invocation : Nat)
  | fail (invocation : Nat)
  | recover (startedMs : Int)
  | heartbeat (invocation runtimeLimitMs : Nat)
  | cancel
  | retry
  deriving DecidableEq

def canRetry (job : JobRow) : Bool := job.attempts < orDefault job.maxAttempts 1

def requeuedJob (job : JobRow) : JobRow :=
  { job with
    status := .queued
    retryCount := job.retryCount + 1
    workerId := none
    leaseExpiresAt := none
    nextRetryAt := none
    startedAt := none }

/-- The row that an updater makes of the current one. -/
def Update.apply (now : Int) (workerId : String) (job : JobRow) : Update → JobRow
  | .requeue => requeuedJob job
  | .reject => { job with status := .failed, startedAt := some (job.startedAt.getD now) }
  | .begin =>
    { job with
      status := .running
      startedAt := some now
      workerId := some workerId
      leaseExpiresAt := some (now + computeLeaseDurationMs job.runtimeLimitMs)
      attempts := job.attempts + 1 }
  | .note => job
  | .complete _ =>
    { job with status := .completed, workerId := some workerId, leaseExpiresAt := none, nextRetryAt := none }
  | .fail _ =>
    { job with
      status := if canRetry job then .scheduledRetry else .failed
      workerId := some workerId
      leaseExpiresAt := none
      nextRetryAt :=
        if canRetry job then some (now + orDefault job.retryDelayMs 5000 * 2 ^ job.retryCount) else none }
  | .recover startedMs =>
    { job with
      status := if canRetry job then .scheduledRetry else .failed
      leaseExpiresAt := none
      nextRetryAt :=
        if canRetry job then some (startedMs + max 100 (orDefault job.retryDelayMs 5000)) else none }
  | .heartbeat _ runtimeLimitMs =>
    if job.status ≠ .running then job
    else
      { job with
        workerId := some workerId
        leaseExpiresAt :=
          some (now + computeLeaseDurationMs (orDefault runtimeLimitMs defaultJobRuntimeLimitMs)) }
  | .cancel =>
    if job.status ∉ [.queued, .scheduledRetry] then job
    else { job with status := .canceled, leaseExpiresAt := none, nextRetryAt := none }
  | .retry => if job.status ∉ [.failed, .scheduledRetry] then job else requeuedJob job

theorem Update.apply_id (now : Int) (workerId : String) (job : JobRow) (update : Update) :
    (update.apply now workerId job).id = job.id := by
  cases update with
  | heartbeat invocation runtimeLimitMs =>
    simp only [Update.apply]
    split <;> rfl
  | cancel =>
    simp only [Update.apply]
    split <;> rfl
  | retry =>
    simp only [Update.apply]
    split <;> rfl
  | _ => rfl

end Updates

section Store

def JobStatus.terminal (status : JobStatus) : Bool := status ∈ [.completed, .failed, .canceled]

/-- The terminal jobs that are older than the newest five hundred. -/
def prunedIds (store : JobStore) : List String :=
  (((store.rows.filter fun job => job.status.terminal).insertionSort
    fun left right => right.createdAt ≤ left.createdAt).drop terminalJobRetention).map JobRow.id

def upsertJob (store : JobStore) (job : JobRow) : JobStore :=
  let stored := PlainTable.put store job
  stored.keep fun row => row.id ∉ prunedIds stored

def listEligibleJobs (store : JobStore) (now : Int) : List JobRow :=
  ((store.rows.filter fun job => job.status = .queued ||
      job.status = .scheduledRetry && job.nextRetryAt.all fun instant => instant ≤ now).insertionSort
    fun left right => left.createdAt ≤ right.createdAt).take maxJobBatchSize

def listStoredJobs (store : JobStore) (limit : Nat) : List JobRow :=
  (store.rows.insertionSort fun left right => right.createdAt ≤ left.createdAt).take limit

/-- `isStale`; a start at instant 0 counts as none. -/
def isStale (now : Int) (job : JobRow) : Bool :=
  job.leaseExpiresAt.any (fun lease => lease ≤ now) || job.startedAt.getD 0 = 0 ||
    staleRunningJobMs < now - job.startedAt.getD 0

end Store

/-- The capacity limits, and the jobs whose processor is missing or whose admission evidence is denied. -/
structure QueueConfig where
  maxPendingJobs : Nat
  maxRunningJobs : Nat
  refuses : JobRow → Bool

def saturated (config : QueueConfig) (store : JobStore) : Bool :=
  config.maxPendingJobs ≤ store.rows.countP (fun job => job.status ∈ [.queued, .scheduledRetry]) ||
    config.maxRunningJobs ≤ store.rows.countP fun job => job.status = .running

/-- What a task has still to do; `invocation` is the number of a processor call. -/
inductive Action where
  | update (jobId : String) (update : Update)
  | runJob (jobId : String)
  | invoke (invocation : Nat)
  | await (invocation : Nat)
  deriving DecidableEq

/-- A row that was read, and the row that is about to be written for it. -/
structure Draft where
  update : Update
  base : JobRow
  next : JobRow
  deriving DecidableEq

structure Task where
  worker : String
  work : List Action
  draft : Option Draft
  deriving DecidableEq

/-- Where a processor call is; an abandoned one timed out and still runs. -/
inductive Phase where
  | claimed
  | awaited
  | abandoned
  | ended
  deriving DecidableEq

def Phase.inProgress (phase : Phase) : Bool := phase ∈ [.awaited, .abandoned]

/-- A processor call with the lease that was written last for it; it is settled by the write of its outcome. -/
structure Invocation where
  jobId : String
  worker : String
  runtimeLimitMs : Nat
  lease : Option Int
  phase : Phase
  settled : Bool
  deriving DecidableEq

/-- The rows of `jobs`, the ids that jobs have had (a generated id is a new one), the tasks
of all processes, the processor calls in the order of their claims, and the calls that were
started, in order, with their jobs. -/
structure Queue where
  now : Int
  store : JobStore
  used : List String
  tasks : List Task
  invocations : List Invocation
  starts : List (Nat × String)

inductive Outcome where
  | returned
  | threw
  | timedOut
  deriving DecidableEq

/-- What `runJob` does at the end of the race of its processor with the timeout. -/
def Outcome.update (k : Nat) : Outcome → Update
  | .returned => .complete k
  | .threw | .timedOut => .fail k

def Outcome.phase : Outcome → Phase
  | .returned | .threw => .ended
  | .timedOut => .abandoned

inductive QueueOp where
  | tick (ms : Nat)
  | enqueue (job : JobRow)
  | runPending (worker : String)
  | recoverStale (worker : String)
  | cancel (jobId : String)
  | retry (jobId : String)
  | beat (invocation : Nat)
  | run (task : Nat)
  | settle (task : Nat) (outcome : Outcome)
  | finish (invocation : Nat)
  deriving DecidableEq

section Drafts

/-- The call that the write of a claim is followed by. -/
def claimedCall (worker jobId : String) (runtimeLimitMs : Nat) (lease : Option Int) : Invocation :=
  ⟨jobId, worker, runtimeLimitMs, lease, .claimed, false⟩

/-- What the caller of `runJob` has to do once the claim is written. -/
def claimedWork (jobId : String) (k : Nat) : List Action := [.update jobId .note, .invoke k, .await k]

/-- What the caller of `updateJob` goes on with after the write. -/
def Draft.after (draft : Draft) (k : Nat) : List Action :=
  match draft.update with
  | .begin => claimedWork draft.next.id k
  | .cancel => if draft.next.status = .canceled then [.update draft.next.id .note] else []
  | .retry => if draft.next.status = .queued then [.update draft.next.id .note] else []
  | _ => []

/-- The calls after the write: a claim adds one, a heartbeat renews its lease, an outcome settles it. -/
def Draft.calls (draft : Draft) (worker : String) (calls : List Invocation) : List Invocation :=
  match draft.update with
  | .begin =>
    calls ++ [claimedCall worker draft.next.id draft.next.runtimeLimitMs draft.next.leaseExpiresAt]
  | .heartbeat k _ =>
    if draft.base.status = .running then
      calls.modify k fun call => { call with lease := draft.next.leaseExpiresAt }
    else calls
  | .complete k | .fail k => calls.modify k fun call => { call with settled := true }
  | _ => calls

end Drafts

namespace Queue

variable (config : QueueConfig) (q : Queue)

def spawn (worker : String) (work : List Action) : Queue :=
  { q with tasks := q.tasks ++ [⟨worker, work, none⟩] }

def setTask (t : Nat) (task : Task) : Queue := { q with tasks := q.tasks.set t task }

def setPhase (k : Nat) (phase : Phase) : Queue :=
  { q with invocations := q.invocations.modify k fun call => { call with phase } }

/-- `updateJob` up to its write; without a row it is over, and a claim goes on all the same. -/
def read (t : Nat) (task : Task) (jobId : String) (update : Update) : Queue :=
  match q.store.find? jobId with
  | some job => q.setTask t { task with draft := some ⟨update, job, update.apply q.now task.worker job⟩ }
  | none =>
    match update with
    | .begin =>
      { q with
        tasks := q.tasks.set t { task with work := claimedWork jobId q.invocations.length ++ task.work }
        invocations := q.invocations ++ [claimedCall task.worker jobId defaultJobRuntimeLimitMs none] }
    | _ => q.setTask t task

/-- The write of `updateJob`, and what the caller does with its result. -/
def write (t : Nat) (task : Task) (draft : Draft) : Queue :=
  { q with
    store := upsertJob q.store draft.next
    tasks := q.tasks.set t
      { task with draft := none, work := draft.after q.invocations.length ++ task.work }
    invocations := draft.calls task.worker q.invocations }

/-- The first lines of `runJob`. -/
def check (t : Nat) (task : Task) (jobId : String) : Queue :=
  match q.store.find? jobId with
  | none => q.setTask t task
  | some job =>
    if job.status = .canceled then q.setTask t task
    else if config.refuses job then
      q.setTask t { task with work := .update jobId .reject :: .update jobId .note :: task.work }
    else q.setTask t { task with work := .update jobId .begin :: task.work }

/-- The processor call of a claim; there is one for each. -/
def invoke (t : Nat) (task : Task) (k : Nat) : Queue :=
  match q.invocations[k]? with
  | none => q.setTask t task
  | some call =>
    if call.phase = .claimed then
      { (q.setTask t task).setPhase k .awaited with starts := q.starts ++ [(k, call.jobId)] }
    else q.setTask t task

/-- The next statement of a task that has `action` before its remaining work. -/
def act (t : Nat) (task : Task) : Action → Queue
  | .update jobId update => q.read t task jobId update
  | .runJob jobId => q.check config t task jobId
  | .invoke k => q.invoke t task k
  | .await k => q.setTask t { task with work := .await k :: task.work }

def runTask (t : Nat) : Queue :=
  match q.tasks[t]? with
  | none => q
  | some task =>
    match task.draft, task.work with
    | some draft, _ => q.write t task draft
    | none, [] => q
    | none, action :: rest => q.act config t { task with work := rest } action

def settleTask (t : Nat) (outcome : Outcome) : Queue :=
  match q.tasks[t]? with
  | none => q
  | some task =>
    match task.draft, task.work with
    | none, .await k :: rest =>
      match q.invocations[k]? with
      | none => q
      | some call =>
        let ended := Action.update call.jobId (outcome.update k)
        if call.phase = .awaited then
          (q.setTask t { task with work := ended :: .update call.jobId .note :: rest }).setPhase k outcome.phase
        else q
    | _, _ => q

def pendingWork (job : JobRow) : List Action :=
  if job.status = .scheduledRetry then
    [.update job.id .requeue, .update job.id .note, .runJob job.id]
  else [.runJob job.id]

def recoveryWork (now : Int) (job : JobRow) : Action := .update job.id (.recover now)

def newJob (job : JobRow) : JobRow :=
  { job with
    status := .queued
    startedAt := none
    workerId := none
    leaseExpiresAt := none
    attempts := 0
    retryCount := 0
    nextRetryAt := none }

def step : QueueOp → Queue → Queue
  | .tick ms, q => { q with now := q.now + ms }
  | .enqueue job, q =>
    if saturated config q.store || decide (job.id ∈ q.used) then q
    else { q with store := upsertJob q.store (newJob job), used := job.id :: q.used }
  | .runPending worker, q => q.spawn worker ((listEligibleJobs q.store q.now).flatMap pendingWork)
  | .recoverStale worker, q =>
    q.spawn worker (((listStoredJobs q.store 200).filter fun job => job.status = .running && isStale q.now job).map
      (recoveryWork q.now))
  | .cancel jobId, q => q.spawn "operator" [.update jobId .cancel]
  | .retry jobId, q => q.spawn "operator" [.update jobId .retry]
  | .beat k, q =>
    match q.invocations[k]? with
    | none => q
    | some call =>
      if call.phase = .awaited then q.spawn call.worker [.update call.jobId (.heartbeat k call.runtimeLimitMs)]
      else q
  | .run t, q => q.runTask config t
  | .settle t outcome, q => q.settleTask t outcome
  | .finish k, q =>
    match q.invocations[k]? with
    | none => q
    | some call => if call.phase = .abandoned then q.setPhase k .ended else q

end Queue

end CommandConsole.Jobs
