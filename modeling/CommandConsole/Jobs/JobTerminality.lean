import CommandConsole.Jobs.JobSteps

/-! # A job that is over stays over

The updaters of the batch loop, of `runJob` and of `recoverStaleJobs` set a
status without looking at the current one. The rules keep them away from the
rows with one of the given final statuses, and keep a row with such a status
from being written over with what was read before.
-/
namespace CommandConsole.Jobs
open Library
set_option autoImplicit false

section Rules

/-- The updaters that leave the status of a completed or canceled job alone. -/
def Update.mild : Update → Bool
  | .note | .heartbeat _ _ | .cancel | .retry => true
  | _ => false

def finalRules (finals : List JobStatus) : Rules where
  write q draft :=
    match q.store.find? draft.base.id with
    | some row => row.status ∈ finals → row = draft.base ∧ draft.update.mild = true
    | none => False
  start q _ call :=
    match q.store.find? call.jobId with
    | some row => row.status ∉ finals
    | none => False

theorem Update.apply_status {update : Update} {instant : Int} {worker : String} {job : JobRow}
    (hMild : update.mild = true) (hOver : job.status ∈ [.completed, .canceled]) :
    (update.apply instant worker job).status = job.status := by
  have hStatus : job.status = .completed ∨ job.status = .canceled := by simpa using hOver
  cases update with
  | note => rfl
  | heartbeat k limit =>
    simp only [Update.apply]
    split <;> rfl
  | cancel =>
    rw [Update.apply, if_pos]
    rcases hStatus with h | h <;> rw [h] <;> decide
  | retry =>
    rw [Update.apply, if_pos]
    rcases hStatus with h | h <;> rw [h] <;> decide
  | _ => cases hMild

instance (finals : List JobStatus) (q : Queue) (draft : Draft) : Decidable ((finalRules finals).write q draft) := by
  simp only [finalRules]
  split <;> infer_instance

instance (finals : List JobStatus) (q : Queue) (k : Nat) (call : Invocation) :
    Decidable ((finalRules finals).start q k call) := by
  simp only [finalRules]
  split <;> infer_instance

end Rules

section Settled

variable {config : QueueConfig} {finals : List JobStatus} {q next start : Queue} {id : String} {status : JobStatus}

/-- The calls of a job that were started. -/
def Queue.startsOf (q : Queue) (id : String) : List (Nat × String) := q.starts.filter fun entry => entry.2 = id

/-- The job has had its id, and its row, while there is one, has the status. -/
structure Queue.Settled (q : Queue) (id : String) (status : JobStatus) : Prop where
  used : id ∈ q.used
  row : ∀ job, q.store.find? id = some job → job.status = status

theorem Change.settled (hFinals : ∀ final ∈ finals, final ∈ [.completed, .canceled]) (hFinal : status ∈ finals)
    (hChange : Change (finalRules finals) q next) (hSound : q.Sound) (h : q.Settled id status) :
    next.Settled id status := by
  cases hChange with
  | tick | work | start | settle => exact ⟨h.used, h.row⟩
  | insert job hNew =>
    refine ⟨List.mem_cons_of_mem _ h.used, ?_⟩
    intro row hRow
    rcases find?_upsertJob_some hRow with ⟨rfl, -⟩ | ⟨-, hOld⟩
    · exact absurd h.used hNew
    · exact h.row row hOld
  | write draft worker tasks hDraft hTarget hRule hTasks =>
    refine ⟨h.used, ?_⟩
    intro row hRow
    rcases find?_upsertJob_some hRow with ⟨rfl, rfl⟩ | ⟨-, hOld⟩
    · obtain ⟨-, instant, writer, -, hNext⟩ := hSound.drafts draft hDraft
      have hId := hSound.next_id hDraft
      simp only [finalRules] at hRule
      split at hRule
      · rename_i stored hStored
        have hStatus : stored.status = status := h.row stored (hId ▸ hStored)
        obtain ⟨rfl, hMild⟩ := hRule (hStatus ▸ hFinal)
        rw [hNext, Update.apply_status hMild (hFinals _ (hStatus ▸ hFinal)), hStatus]
      · cases hRule
    · exact h.row row hOld

/-- A settled job is not started. -/
theorem Change.startsOf (hFinal : status ∈ finals) (hChange : Change (finalRules finals) q next)
    (h : q.Settled id status) : next.startsOf id = q.startsOf id := by
  cases hChange with
  | start k call tasks hCall hClaimed hRule hTasks =>
    have hOther : call.jobId ≠ id := by
      rintro rfl
      simp only [finalRules] at hRule
      split at hRule
      · rename_i stored hStored
        exact hRule (h.row stored hStored ▸ hFinal)
      · cases hRule
    simp [Queue.startsOf, List.filter_append, hOther]
  | _ => rfl

/-- From a stored final status on, every admitted run keeps it and starts the job no more. -/
theorem settled_run (hFinals : ∀ final ∈ finals, final ∈ [.completed, .canceled]) {job : JobRow}
    (hRun : Reaches (Queue.step config) (finalRules finals).guard start q) (hSound : start.Sound)
    (hJob : start.store.find? id = some job) (hFinal : job.status ∈ finals) :
    q.Settled id job.status ∧ q.startsOf id = start.startsOf id := by
  refine (reaches_invariant (P := fun q => q.Settled id job.status ∧ q.startsOf id = start.startsOf id)
    hRun hSound ⟨⟨hSound.known id job hJob, ?_⟩, rfl⟩ ?_).2
  · intro row hRow
    rw [Option.some.inj (hRow.symm.trans hJob)]
  · rintro q next hChange hq ⟨hSettled, hStarts⟩
    exact ⟨hChange.settled hFinals hFinal hq hSettled, (hChange.startsOf hFinal hSettled).trans hStarts⟩

end Settled

section Runs

/-- While "a" is awaited, a retry that became due is canceled; the batch then goes on with it. -/
def listedRetry : JobRow := { sampleJob "b" .scheduledRetry 1 with nextRetryAt := some 5 }

def cancellationSteps : List QueueOp :=
  .runPending "w" :: startSteps 0 ++ .cancel "b" :: List.replicate 4 (.run 1)

end Runs

end CommandConsole.Jobs
