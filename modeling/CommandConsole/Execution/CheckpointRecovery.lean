import CommandConsole.Execution.PlanForms

/-! # Which stored checkpoints are executed again

`recoverExecutionState` reads a plan of its own: the id is resolved from four fields, and the
steps are those of the list or of the stages. Of the statuses it tests the finished one, the
failed one and the running one.
-/
namespace CommandConsole.Execution
open Library
set_option autoImplicit false

section Plans

def Plan.isPlanContainer (plan : Plan) : Bool :=
  plan.steps.isSome || plan.stages.isSome || ["multi", "goal"].contains (plan.type.getD "")

def Plan.resolvePlanId (plan : Plan) : String :=
  match truthy plan.planId, truthy plan.runId, truthy plan.id with
  | some planId, _, _ => trimmed planId
  | none, some runId, _ => trimmed runId
  | none, none, some id => if plan.isPlanContainer then trimmed id else ""
  | none, none, none => ""

/-- `normalizeCheckpointPlan` of the state store. -/
def Plan.normalizeCheckpointPlan (plan : Plan) : CheckpointPlan := ⟨plan.resolvePlanId, plan.normalized.steps⟩

end Plans

/-- The statuses that a checkpoint is not resumed from: the final ones but the finished one, and those of a review. -/
def Status.stopped (status : Status) : Bool :=
  status ∈ [.cancelled, .failed, .executionAbandoned, .corrupted, .awaitingReview, .pauseForOperatorRecovery]

section Decision

variable {plan : CheckpointPlan} {planId : String} {env : Env} {db db' : Db} {checkpoint : Checkpoint}

/-- The checkpoint may be executed, from the step. -/
structure Executable (plan : CheckpointPlan) (checkpoint : Checkpoint) (nextStepIndex : Int) : Prop where
  status : checkpoint.status = .pending ∨ checkpoint.status = .paused ∨
    checkpoint.status = .running ∧ (atIndex plan.steps checkpoint.currentStep).any CheckpointStep.idempotent = true
  next : nextStepIndex = checkpoint.lastCompletedStepIndex + 1
  valid : (atIndex plan.steps nextStepIndex).isSome = true

/-- An answer only executes what may be executed, and no checkpoint of a stopped status is completed. -/
structure SafelyAnswered (plan : CheckpointPlan) (checkpoint : Checkpoint) (answer : Result RecoveredCheckpoint)
    (db' : Db) : Prop where
  executes : ∀ data, answer = .ok data → data.shouldExecute = true → Executable plan checkpoint data.nextStepIndex
  keeps : checkpoint.status.stopped = true → ∀ after ∈ readCheckpointRow db' plan.id, after.status ≠ .completed

def RecoversSafely (plan : CheckpointPlan) (env : Env) (db : Db) : Prop :=
  ∀ checkpoint answer db', readCheckpointRow db plan.id = some checkpoint →
    recoverExecutionState plan env db = .ok (answer, db') → SafelyAnswered plan checkpoint answer db'

/-- Every step is completed. -/
def Checkpoint.Finishes (checkpoint : Checkpoint) (plan : CheckpointPlan) : Prop :=
  checkpoint.lastCompletedStepIndex < plan.steps.length ∧
    (plan.steps = [] ∨ plan.steps.length ≤ checkpoint.lastCompletedStepIndex + 1)

/-- A step is left to be executed. -/
def Checkpoint.Continues (checkpoint : Checkpoint) (plan : CheckpointPlan) : Prop :=
  plan.steps ≠ [] ∧ checkpoint.lastCompletedStepIndex + 1 < plan.steps.length

/-- A finished checkpoint is not stopped, one with a step to go only by a failure, and an interrupted step that may run
again is the one after the last completed. -/
structure Checkpoint.Resumable (checkpoint : Checkpoint) (plan : CheckpointPlan) : Prop where
  finished : checkpoint.Finishes plan → checkpoint.status.stopped = false
  unfinished : (atIndex plan.steps (checkpoint.lastCompletedStepIndex + 1)).isSome = true →
    checkpoint.status.stopped = true → checkpoint.status = .failed
  interrupted : checkpoint.Continues plan → checkpoint.status = .running →
    (atIndex plan.steps checkpoint.currentStep).any CheckpointStep.idempotent = true →
      checkpoint.currentStep = checkpoint.lastCompletedStepIndex + 1

def Checkpoint.underReview (checkpoint : Checkpoint) (nowMs : Int) : Checkpoint :=
  { checkpoint with status := .awaitingReview, updatedAt := nowMs }

section Answers

variable (plan : CheckpointPlan) (nowMs : Int) (db : Db) (checkpoint : Checkpoint)

/-- The answer about a stored checkpoint and what it leaves. -/
inductive Decided : Result RecoveredCheckpoint → Db → Prop where
  | outside (err : Failure) (hOutside : plan.steps.length ≤ checkpoint.lastCompletedStepIndex) : Decided (.error err) db
  | finished (done : Checkpoint) (hFinishes : checkpoint.Finishes plan)
    (hDone : done.planId = checkpoint.planId ∧ done.status = .completed) :
    Decided (.ok ⟨done, plan.steps.length, false, true, false⟩) (db.putCheckpoint done)
  | completed (hContinues : checkpoint.Continues plan) (hStatus : checkpoint.status = .completed) :
    Decided (.ok ⟨checkpoint, plan.steps.length, false, true, false⟩) db
  | failed (err : Failure) (hContinues : checkpoint.Continues plan) (hStatus : checkpoint.status = .failed) :
    Decided (.error err) db
  | lost (err : Failure) (hContinues : checkpoint.Continues plan) (hStatus : checkpoint.status = .running)
    (hStep : atIndex plan.steps checkpoint.currentStep = none) : Decided (.error err) db
  | repeated (step : CheckpointStep) (hContinues : checkpoint.Continues plan) (hStatus : checkpoint.status = .running)
    (hStep : atIndex plan.steps checkpoint.currentStep = some step) (hIdempotent : step.idempotent = true) :
    Decided (.ok ⟨checkpoint, checkpoint.currentStep, true, false, true⟩) db
  | guarded (step : CheckpointStep) (err : Failure) (hContinues : checkpoint.Continues plan)
    (hStatus : checkpoint.status = .running) (hStep : atIndex plan.steps checkpoint.currentStep = some step)
    (hIdempotent : step.idempotent = false) :
    Decided (.error err) (db.putCheckpoint (checkpoint.underReview nowMs))
  | invalid (err : Failure) (hContinues : checkpoint.Continues plan)
    (hStatus : checkpoint.status ∉ [.completed, .failed, .running])
    (hNegative : checkpoint.lastCompletedStepIndex + 1 < 0) : Decided (.error err) db
  | resumed (hContinues : checkpoint.Continues plan) (hStatus : checkpoint.status ∉ [.completed, .failed, .running])
    (hNonneg : 0 ≤ checkpoint.lastCompletedStepIndex + 1) :
    Decided (.ok ⟨checkpoint, checkpoint.lastCompletedStepIndex + 1, true, false, false⟩) db

end Answers

theorem Checkpoint.Continues.not_finishes (hContinues : checkpoint.Continues plan) : ¬checkpoint.Finishes plan := by
  rintro ⟨-, hNil | hDone⟩
  · exact hContinues.1 hNil
  · exact absurd hContinues.2 (not_lt.mpr hDone)

theorem isSome_atIndex {α : Type} {items : List α} {index : Int} :
    (atIndex items index).isSome = true ↔ 0 ≤ index ∧ index < items.length := by
  unfold atIndex
  split
  · next hIndex =>
    rw [Option.isSome_iff_exists]
    constructor
    · rintro ⟨item, hItem⟩
      have hBound := (List.getElem?_eq_some_iff.mp hItem).choose
      omega
    · rintro ⟨-, hBound⟩
      exact ⟨_, List.getElem?_eq_getElem (by omega)⟩
  · next hIndex =>
    constructor
    · rintro ⟨⟩
    · rintro ⟨hNonneg, -⟩
      exact absurd hNonneg hIndex

theorem readCheckpointRow_status (hRow : readCheckpointRow db planId = some checkpoint) :
    normalizeCheckpointStatus checkpoint.status = checkpoint.status := by
  obtain ⟨row, -, rfl⟩ := Option.map_eq_some_iff.mp hRow
  exact normalizeCheckpointStatus_idempotent row.status

theorem recoversSafely_iff (hRow : readCheckpointRow db plan.id = some checkpoint) {answer : Result RecoveredCheckpoint}
    (hEq : recoverExecutionState plan env db = .ok (answer, db')) :
    RecoversSafely plan env db ↔ SafelyAnswered plan checkpoint answer db' := by
  constructor
  · exact fun hSafe => hSafe checkpoint answer db' hRow hEq
  · intro hSafe other data later hOther hLater
    rw [hRow] at hOther
    rw [hEq] at hLater
    cases hOther
    cases hLater
    exact hSafe

/-- A refusal, or an answer not to execute, that leaves the checkpoint as it is. -/
theorem recoversSafely_idle (hRow : readCheckpointRow db plan.id = some checkpoint) {answer : Result RecoveredCheckpoint}
    (hEq : recoverExecutionState plan env db = .ok (answer, db))
    (hIdle : ∀ data, answer = .ok data → data.shouldExecute = false) : RecoversSafely plan env db := by
  refine (recoversSafely_iff hRow hEq).mpr ⟨fun data hData hShould => ?_, fun hStopped after hAfter hCompleted => ?_⟩
  · rw [hIdle data hData] at hShould
    cases hShould
  · rw [hRow] at hAfter
    cases hAfter
    rw [hCompleted] at hStopped
    cases hStopped

theorem recoversSafely_refused (hRow : readCheckpointRow db plan.id = some checkpoint) {err : Failure}
    (hEq : recoverExecutionState plan env db = .ok (.error err, db)) : RecoversSafely plan env db := by
  refine recoversSafely_idle hRow hEq ?_
  rintro data hData
  cases hData

/-- The decision about a stored checkpoint. -/
theorem recoverExecutionState_decided (env : Env) (hId : plan.id ≠ "")
    (hRow : readCheckpointRow db plan.id = some checkpoint) :
    ∃ answer db', recoverExecutionState plan env db = .ok (answer, db') ∧
      Decided plan env.nowMs db checkpoint answer db' := by
  rw [recoverExecutionState, if_neg hId, Tx.ask_bind, Tx.get_bind, hRow]
  dsimp only
  split
  · next hOutside => exact ⟨_, _, rfl, .outside _ hOutside⟩
  · next hInside =>
    split
    · next hDone =>
      exact ⟨_, _, rfl, .finished _ ⟨not_le.mp hInside, hDone.imp (List.length_eq_zero_iff.mp <| Int.natCast_eq_zero.mp ·) id⟩
        ⟨rfl, rfl⟩⟩
    · next hMore =>
      rw [not_or] at hMore
      have hContinues : checkpoint.Continues plan :=
        ⟨fun hNil => hMore.1 (by rw [hNil]; rfl), not_le.mp hMore.2⟩
      cases hStatus : checkpoint.status
      case completed => exact ⟨_, _, rfl, .completed hContinues hStatus⟩
      case failed => exact ⟨_, _, rfl, .failed _ hContinues hStatus⟩
      case running =>
        cases hStep : atIndex plan.steps checkpoint.currentStep with
        | none => exact ⟨_, _, rfl, .lost _ hContinues hStatus hStep⟩
        | some step =>
          rw [Option.map_some]
          cases hIdempotent : step.idempotent with
          | true => exact ⟨_, _, rfl, .repeated step hContinues hStatus hStep hIdempotent⟩
          | false => exact ⟨_, _, rfl, .guarded step _ hContinues hStatus hStep hIdempotent⟩
      all_goals
        have hOther : checkpoint.status ∉ [.completed, .failed, .running] := by
          rw [hStatus]
          decide
        dsimp only
        split
        · next hNegative => exact ⟨_, _, rfl, .invalid _ hContinues hOther hNegative⟩
        · next hNonneg => exact ⟨_, _, rfl, .resumed hContinues hOther (not_lt.mp hNonneg)⟩

theorem resumable_of_continues (hContinues : checkpoint.Continues plan)
    (hUnfinished : (atIndex plan.steps (checkpoint.lastCompletedStepIndex + 1)).isSome = true →
      checkpoint.status.stopped = true → checkpoint.status = .failed)
    (hInterrupted : checkpoint.status = .running →
      (atIndex plan.steps checkpoint.currentStep).any CheckpointStep.idempotent = true →
        checkpoint.currentStep = checkpoint.lastCompletedStepIndex + 1) : checkpoint.Resumable plan :=
  ⟨fun hFinishes => absurd hFinishes hContinues.not_finishes, hUnfinished, fun _ => hInterrupted⟩

theorem Status.open_cases : ∀ {status : Status}, status ∉ [.completed, .failed, .running] → status.stopped = false →
    normalizeCheckpointStatus status = status → status = .pending ∨ status = .paused := by
  intro status
  cases status <;> decide

/-- A recovery is safe exactly when the stored checkpoint is resumable. -/
theorem recoversSafely_iff_resumable (hId : plan.id ≠ "") (hRow : readCheckpointRow db plan.id = some checkpoint) :
    RecoversSafely plan env db ↔ checkpoint.Resumable plan := by
  obtain ⟨answer, db', hEq, hDecided⟩ := recoverExecutionState_decided env hId hRow
  cases hDecided with
  | outside err hOutside =>
    refine iff_of_true (recoversSafely_refused hRow hEq) ⟨fun hFinishes => ?_, fun hNext => ?_, fun hContinues => ?_⟩
    · exact absurd hFinishes.1 (not_lt.mpr hOutside)
    · exact absurd (isSome_atIndex.mp hNext).2 (by omega)
    · exact absurd hContinues.2 (by omega)
  | finished done hFinishes hDone =>
    rw [recoversSafely_iff hRow hEq]
    constructor
    · rintro ⟨-, hKeeps⟩
      have hMoving : checkpoint.status.stopped = false := by
        rw [← Bool.not_eq_true]
        intro hStopped
        have hAfter := readCheckpointRow_putCheckpoint db done
        rw [hDone.1, readCheckpointRow_planId hRow, hDone.2] at hAfter
        exact hKeeps hStopped _ hAfter rfl
      refine ⟨fun _ => hMoving, fun _ hStopped => ?_, fun hContinues => absurd hFinishes hContinues.not_finishes⟩
      rw [hMoving] at hStopped
      cases hStopped
    · intro hResumable
      refine ⟨?_, fun hStopped => ?_⟩
      · rintro data hData hShould
        cases hData
        cases hShould
      · rw [hResumable.finished hFinishes] at hStopped
        cases hStopped
  | completed hContinues hStatus =>
    refine iff_of_true (recoversSafely_idle hRow hEq ?_) (resumable_of_continues hContinues ?_ ?_)
    · rintro data hData
      cases hData
      rfl
    · exact fun _ hStopped => absurd hStopped (by rw [hStatus]; decide)
    · exact fun hRunning => absurd hRunning (by rw [hStatus]; decide)
  | failed err hContinues hStatus =>
    refine iff_of_true (recoversSafely_refused hRow hEq) (resumable_of_continues hContinues (fun _ _ => hStatus) ?_)
    exact fun hRunning => absurd hRunning (by rw [hStatus]; decide)
  | lost err hContinues hStatus hStep =>
    refine iff_of_true (recoversSafely_refused hRow hEq) (resumable_of_continues hContinues ?_ ?_)
    · exact fun _ hStopped => absurd hStopped (by rw [hStatus]; decide)
    · exact fun _ hAny => absurd hAny (by rw [hStep]; decide)
  | repeated step hContinues hStatus hStep hIdempotent =>
    rw [recoversSafely_iff hRow hEq]
    constructor
    · rintro ⟨hExecutes, -⟩
      refine resumable_of_continues hContinues (fun _ hStopped => ?_) fun _ _ => (hExecutes _ rfl rfl).next
      exact absurd hStopped (by rw [hStatus]; decide)
    · intro hResumable
      have hAny : (atIndex plan.steps checkpoint.currentStep).any CheckpointStep.idempotent = true := by
        rw [hStep, Option.any_some, hIdempotent]
      refine ⟨?_, fun hStopped => absurd hStopped (by rw [hStatus]; decide)⟩
      rintro data hData -
      cases hData
      refine ⟨.inr (.inr ⟨hStatus, hAny⟩), hResumable.interrupted hContinues hStatus hAny, ?_⟩
      exact Option.isSome_iff_exists.mpr ⟨step, hStep⟩
  | guarded step err hContinues hStatus hStep hIdempotent =>
    rw [recoversSafely_iff hRow hEq]
    have hMoving : checkpoint.status.stopped ≠ true := by
      rw [hStatus]
      decide
    refine iff_of_true ⟨?_, fun hStopped => absurd hStopped hMoving⟩
      (resumable_of_continues hContinues (fun _ hStopped => absurd hStopped hMoving) fun _ hAny => ?_)
    · rintro data hData
      cases hData
    · rw [hStep, Option.any_some, hIdempotent] at hAny
      cases hAny
  | invalid err hContinues hStatus hNegative =>
    refine iff_of_true (recoversSafely_refused hRow hEq) (resumable_of_continues hContinues (fun hNext => ?_) ?_)
    · exact absurd (isSome_atIndex.mp hNext).1 (not_le.mpr hNegative)
    · rintro hRunning
      rw [hRunning] at hStatus
      exact absurd hStatus (by decide)
  | resumed hContinues hStatus hNonneg =>
    have hNext := isSome_atIndex.mpr ⟨hNonneg, hContinues.2⟩
    rw [recoversSafely_iff hRow hEq]
    constructor
    · rintro ⟨hExecutes, -⟩
      obtain ⟨hOpen | hOpen | ⟨hOpen, -⟩, -, -⟩ := hExecutes _ rfl rfl
      case inr.inr => exact absurd (hOpen ▸ hStatus) (by decide)
      all_goals
        refine resumable_of_continues hContinues (fun _ hStopped => ?_) fun hRunning => ?_
        · exact absurd hStopped (by rw [hOpen]; decide)
        · exact absurd hRunning (by rw [hOpen]; decide)
    · intro hResumable
      have hMoving : checkpoint.status.stopped = false := by
        rw [← Bool.not_eq_true]
        intro hStopped
        rw [hResumable.unfinished hNext hStopped] at hStatus
        exact absurd hStatus (by decide)
      refine ⟨?_, fun hStopped => ?_⟩
      · rintro data hData -
        cases hData
        obtain hPending | hPaused := Status.open_cases hStatus hMoving (readCheckpointRow_status hRow)
        · exact ⟨.inl hPending, rfl, hNext⟩
        · exact ⟨.inr (.inl hPaused), rfl, hNext⟩
      · rw [hMoving] at hStopped
        cases hStopped

/-- Of any plan: its recovery is safe exactly when its checkpoint, if it has one, is resumable. -/
theorem plan_recovery_safe_iff (plan : Plan) (env : Env) (db : Db) :
    RecoversSafely plan.normalizeCheckpointPlan env db ↔
      (plan.resolvePlanId ≠ "" → ∀ checkpoint ∈ readCheckpointRow db plan.resolvePlanId,
        checkpoint.Resumable plan.normalizeCheckpointPlan) := by
  cases hRow : readCheckpointRow db plan.resolvePlanId with
  | none =>
    refine iff_of_true (fun checkpoint answer db' hSome => ?_) fun _ _ hSome => ?_
    · exact absurd (hRow.symm.trans hSome) (Option.some_ne_none _).symm
    · exact absurd hSome (Option.not_mem_none _)
  | some checkpoint =>
    by_cases hId : plan.resolvePlanId = ""
    · have hEq : recoverExecutionState plan.normalizeCheckpointPlan env db =
          .ok (.error ⟨"INVALID_STATE", "Execution plan requires an id for recovery."⟩, db) := by
        rw [recoverExecutionState, if_pos (show plan.normalizeCheckpointPlan.id = "" from hId)]
        rfl
      exact iff_of_true (@recoversSafely_refused plan.normalizeCheckpointPlan env db checkpoint hRow _ hEq)
        fun hNamed => absurd hId hNamed
    · rw [@recoversSafely_iff_resumable plan.normalizeCheckpointPlan env db checkpoint hId hRow]
      constructor
      · rintro hResumable - other hOther
        cases hOther
        exact hResumable
      · exact fun hAll => hAll hId checkpoint rfl

/-- A checkpoint that is neither finished nor failed nor running goes on after its last completed step. -/
theorem recoverExecutionState_resumes (env : Env) (hId : plan.id ≠ "")
    (hRow : readCheckpointRow db plan.id = some checkpoint)
    (hNext : (atIndex plan.steps (checkpoint.lastCompletedStepIndex + 1)).isSome = true)
    (hOther : checkpoint.status ∉ [.completed, .failed, .running]) :
    recoverExecutionState plan env db =
      .ok (.ok ⟨checkpoint, checkpoint.lastCompletedStepIndex + 1, true, false, false⟩, db) := by
  obtain ⟨hNonneg, hBound⟩ := isSome_atIndex.mp hNext
  rw [recoverExecutionState, if_neg hId, Tx.ask_bind, Tx.get_bind, hRow]
  dsimp only
  rw [if_neg (by omega), if_neg (by omega)]
  cases hStatus : checkpoint.status
  case completed | failed | running => exact absurd (hStatus ▸ hOther) (by decide)
  all_goals
    dsimp only
    rw [if_neg (not_lt.mpr hNonneg)]
    rfl

/-- A checkpoint that stopped on a step which must not run again is put under review, and the next recovery goes on from
it. -/
theorem review_answered_by_recovery (hId : plan.id ≠ "") (hRow : readCheckpointRow db plan.id = some checkpoint)
    (hRunning : checkpoint.status = .running)
    (hNext : (atIndex plan.steps (checkpoint.lastCompletedStepIndex + 1)).isSome = true)
    (hStep : (atIndex plan.steps checkpoint.currentStep).any (fun step => !step.idempotent) = true) (later : Env) :
    recoverExecutionState plan env db =
        .ok (.error ⟨"MANUAL_REVIEW_REQUIRED",
            s!"Execution checkpoint {plan.id} stopped on a non-idempotent step and requires manual review."⟩,
          db.putCheckpoint (checkpoint.underReview env.nowMs)) ∧
      recoverExecutionState plan later (db.putCheckpoint (checkpoint.underReview env.nowMs)) =
        .ok (.ok {
            checkpoint := checkpoint.underReview env.nowMs
            nextStepIndex := checkpoint.lastCompletedStepIndex + 1
            shouldExecute := true },
          db.putCheckpoint (checkpoint.underReview env.nowMs)) := by
  have hReview : readCheckpointRow (db.putCheckpoint (checkpoint.underReview env.nowMs)) plan.id =
      some (checkpoint.underReview env.nowMs) := by
    rw [← readCheckpointRow_planId hRow]
    exact readCheckpointRow_putCheckpoint db (checkpoint.underReview env.nowMs)
  refine ⟨?_, recoverExecutionState_resumes later hId hReview hNext (show Status.awaitingReview ∉ _ by decide)⟩
  obtain ⟨hNonneg, hBound⟩ := isSome_atIndex.mp hNext
  rw [recoverExecutionState, if_neg hId, Tx.ask_bind, Tx.get_bind, hRow]
  dsimp only
  rw [if_neg (by omega), if_neg (by omega), hRunning]
  obtain ⟨step, hAt, hGuarded⟩ := (Option.any_eq_true _ _).mp hStep
  rw [Bool.not_eq_true'] at hGuarded
  rw [hAt, Option.map_some, hGuarded]
  rfl

/-- A step that must not run again. -/
def guardedPlan : CheckpointPlan := ⟨"plan_1", [⟨"step_a", false, none, .manualOnly, .localWrite, []⟩]⟩

theorem guarded_step_recovered :
    (atIndex guardedPlan.steps 0).any (fun step => !step.idempotent) = true ∧
      recoverExecutionState guardedPlan ⟨5, "worker_1"⟩ ((checkpointDb 0).putCheckpoint ((checkpointAt 0).underReview 4)) =
        .ok (.ok {
            checkpoint := (checkpointAt 0).underReview 4
            nextStepIndex := (checkpointAt 0).lastCompletedStepIndex + 1
            shouldExecute := true },
          (checkpointDb 0).putCheckpoint ((checkpointAt 0).underReview 4)) :=
  ⟨rfl, (@review_answered_by_recovery guardedPlan ⟨4, "worker_1"⟩ (checkpointDb 0) (checkpointAt 0) (by decide) rfl rfl rfl rfl _).2⟩

end Decision

end CommandConsole.Execution
