import CommandConsole.Jobs.JobSteps

/-! # One call of the stale recovery

The call lists the two hundred newest jobs, keeps the stale ones among them and rewrites each on the row that is stored
for it. A retry time outside of the range of dates makes the call throw.
-/
namespace CommandConsole.Jobs
open Library
set_option autoImplicit false

section Recovery

def maxDateMs : Int := 8640000000000000

/-- `new Date(ms).toISOString()`. -/
def dateOf (ms : Int) : Option Int := if -maxDateMs ≤ ms ∧ ms ≤ maxDateMs then some ms else none

def recoverStaleJob (now : Int) (store : JobStore) (job : JobRow) : Option JobStore :=
  match store.find? job.id with
  | none => some store
  | some current =>
    if canRetry current && (dateOf (now + max 100 (orDefault current.retryDelayMs 5000))).isNone then none
    else some (upsertJob store ((Update.recover now).apply now "" current))

/-- The loop over the stale jobs: the store at its end, and whether it came to its end. -/
def recoverEach (now : Int) : List JobRow → JobStore → JobStore × Bool
  | [], store => (store, true)
  | job :: rest, store =>
    match recoverStaleJob now store job with
    | none => (store, false)
    | some next => recoverEach now rest next

def staleJobs (now : Int) (store : JobStore) : List JobRow :=
  (listStoredJobs store 200).filter fun job => job.status = .running && isStale now job

def recoverStaleJobs (now : Int) (store : JobStore) : JobStore × Bool := recoverEach now (staleJobs now store) store

end Recovery

section Steps

variable {now : Int} {store next : JobStore} {job row : JobRow} {id : String}

theorem recover_status (now : Int) (worker : String) (row : JobRow) :
    ((Update.recover now).apply now worker row).status ≠ .running := by
  simp only [Update.apply]
  split <;> simp

/-- A stored job is not running. -/
def Resting (store : JobStore) (id : String) : Prop := ∀ row, store.find? id = some row → row.status ≠ .running

theorem recoverStaleJob_cases (h : recoverStaleJob now store job = some next) :
    store.find? job.id = none ∧ next = store ∨
      ∃ current, store.find? job.id = some current ∧
        next = upsertJob store ((Update.recover now).apply now "" current) := by
  rw [recoverStaleJob] at h
  split at h
  next hNone => exact .inl ⟨hNone, (Option.some.inj h).symm⟩
  next current hSome =>
    split at h
    · cases h
    · exact .inr ⟨current, hSome, (Option.some.inj h).symm⟩

theorem recoverStaleJob_resting (h : recoverStaleJob now store job = some next) : Resting next job.id := by
  intro row hRow
  rcases recoverStaleJob_cases h with ⟨hNone, rfl⟩ | ⟨current, hSome, rfl⟩
  · rw [hNone] at hRow
    cases hRow
  · have hId : ((Update.recover now).apply now "" current).id = job.id := by
      rw [Update.apply_id, Table.find?_key hSome]
    rcases find?_upsertJob_some hRow with ⟨-, rfl⟩ | ⟨hOther, -⟩
    · exact recover_status now "" current
    · exact absurd hId.symm hOther

theorem Resting.recoverStaleJob (h : Resting store id) (hNext : recoverStaleJob now store job = some next) :
    Resting next id := by
  intro row hRow
  rcases recoverStaleJob_cases hNext with ⟨-, rfl⟩ | ⟨current, -, rfl⟩
  · exact h row hRow
  · rcases find?_upsertJob_some hRow with ⟨-, rfl⟩ | ⟨-, hOld⟩
    · exact recover_status now "" current
    · exact h row hOld

/-- A running job is left as it is by the recovery of another one. -/
theorem recoverStaleJob_other (h : recoverStaleJob now store job = some next) (hRow : store.find? id = some row)
    (hRunning : row.status = .running) (hOther : id ≠ job.id) : next.find? id = some row := by
  rcases recoverStaleJob_cases h with ⟨-, rfl⟩ | ⟨current, hSome, rfl⟩
  · exact hRow
  · refine find?_upsertJob_open ?_ (by rw [hRunning]; rfl)
    rw [Update.apply_id, Table.find?_key hSome, if_neg hOther, hRow]

theorem Resting.recoverEach (h : Resting store id) (jobs : List JobRow) :
    Resting (recoverEach now jobs store).1 id := by
  induction jobs generalizing store with
  | nil => exact h
  | cons job rest ih =>
    rw [Jobs.recoverEach]
    split
    next => exact h
    next next hNext => exact ih (h.recoverStaleJob hNext)

theorem recoverEach_other {jobs : List JobRow} (hRow : store.find? id = some row) (hRunning : row.status = .running)
    (hOther : ∀ job ∈ jobs, id ≠ job.id) : (recoverEach now jobs store).1.find? id = some row := by
  induction jobs generalizing store with
  | nil => exact hRow
  | cons job rest ih =>
    rw [recoverEach]
    split
    next => exact hRow
    next next hNext =>
      exact ih (recoverStaleJob_other hNext hRow hRunning (hOther job List.mem_cons_self))
        fun other hMem => hOther other (List.mem_cons_of_mem _ hMem)

theorem recoverEach_resting {jobs : List JobRow} (hReturned : (recoverEach now jobs store).2 = true)
    (hJob : job ∈ jobs) : Resting (recoverEach now jobs store).1 job.id := by
  induction jobs generalizing store with
  | nil => cases hJob
  | cons first rest ih =>
    rw [recoverEach] at hReturned ⊢
    split at hReturned
    next => cases hReturned
    next next hNext =>
      rcases List.mem_cons.mp hJob with rfl | hRest
      · exact (recoverStaleJob_resting hNext).recoverEach rest
      · exact ih hReturned hRest

end Steps

section Results

variable {now : Int} {store : JobStore} {job : JobRow}

theorem mem_rows_of_listed (h : job ∈ listStoredJobs store 200) : job ∈ store.rows :=
  (List.mem_insertionSort _).mp (List.mem_of_mem_take h)

theorem find?_of_mem_rows (h : job ∈ store.rows) : store.find? job.id = some job :=
  (Table.find?_eq_some _ _ _).mpr ⟨h, rfl⟩

/-- A running job that the call does not select is left as it is. -/
theorem unselected_job_left (hJob : job ∈ store.rows) (hRunning : job.status = .running)
    (hSelected : job ∉ staleJobs now store) : job ∈ (recoverStaleJobs now store).1.rows := by
  refine Table.find?_mem (recoverEach_other (find?_of_mem_rows hJob) hRunning fun other hOther hId => ?_)
  have hStored := mem_rows_of_listed (List.mem_of_mem_filter hOther)
  exact hSelected (store.eq_of_key_eq hJob hStored hId ▸ hOther)

theorem lease_of_not_stale (h : isStale now job = false) : job.leaseExpiresAt.any (fun lease => lease ≤ now) = false := by
  rw [isStale, Bool.or_eq_false_iff, Bool.or_eq_false_iff] at h
  exact h.1.1

/-- A running job that is not stale is left as it is, and no listed job is left running with an expired lease. -/
theorem stale_jobs_recovered (now : Int) (store : JobStore) :
    (∀ job ∈ store.rows, job.status = .running → isStale now job = false →
      job ∈ (recoverStaleJobs now store).1.rows) ∧
      ((recoverStaleJobs now store).2 = true → ∀ job ∈ listStoredJobs store 200,
        ∀ row ∈ (recoverStaleJobs now store).1.rows, row.id = job.id →
          ¬ (row.status = .running ∧ row.leaseExpiresAt.any (fun lease => lease ≤ now) = true)) := by
  have hSound : ∀ job ∈ store.rows, job.status = .running → isStale now job = false →
      job ∈ (recoverStaleJobs now store).1.rows := by
    intro job hJob hRunning hFresh
    refine unselected_job_left hJob hRunning fun hSelected => ?_
    have hStale := (List.mem_filter.mp hSelected).2
    rw [hFresh, Bool.and_false] at hStale
    cases hStale
  refine ⟨hSound, ?_⟩
  rintro hReturned job hListed row hRow hId ⟨hRunning, hExpired⟩
  have hStored := mem_rows_of_listed hListed
  have hFound : (recoverStaleJobs now store).1.find? job.id = some row :=
    (Table.find?_eq_some _ _ _).mpr ⟨hRow, hId⟩
  by_cases hWas : job.status = .running
  · by_cases hStale : isStale now job = true
    · have hSelected : job ∈ staleJobs now store := List.mem_filter.mpr ⟨hListed, by simp [hWas, hStale]⟩
      exact recoverEach_resting hReturned hSelected row hFound hRunning
    · have hFresh : isStale now job = false := by simpa using hStale
      obtain rfl := Table.eq_of_key_eq _ (hSound job hStored hWas hFresh) hRow hId.symm
      rw [lease_of_not_stale hFresh] at hExpired
      cases hExpired
  · have hResting : Resting store job.id := by
      intro other hOther
      rw [find?_of_mem_rows hStored] at hOther
      exact Option.some.inj hOther ▸ hWas
    exact hResting.recoverEach _ row hFound hRunning

/-- A job that started ten minutes ago and whose worker keeps renewing its lease. -/
def heartbeatingJob : JobRow where
  id := "job_1"
  type := "workspace:generate-summary"
  status := .running
  createdAt := 1
  startedAt := some 1
  workerId := some "worker_1"
  leaseExpiresAt := some 675000
  attempts := 1
  maxAttempts := 3
  retryCount := 0
  retryDelayMs := 5000
  runtimeLimitMs := 900000
  nextRetryAt := none

theorem heartbeating_job_recovered :
    ¬ ∀ (now : Int) (store : JobStore),
      (∀ row ∈ (recoverStaleJobs now store).1.rows,
        ¬ (row.status = .running ∧ row.leaseExpiresAt.any (fun lease => lease < now) = true)) ∧
        ∀ job ∈ store.rows, job.status = .running → job.leaseExpiresAt.any (fun lease => lease ≤ now) = false →
          job ∈ (recoverStaleJobs now store).1.rows := by
  intro h
  have hLeft := (h 600002 (PlainTable.put .empty heartbeatingJob)).2 heartbeatingJob (by decide +kernel) rfl (by decide)
  revert hLeft
  decide +kernel

end Results

end CommandConsole.Jobs
