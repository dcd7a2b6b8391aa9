import CommandConsole.Execution.Execute

/-! # The order of dependencies

Before a stage runs, only the dependencies outside it are tested; inside, the
engine trusts the order of the stage and skips what is failed or blocked. A
routed step has all its dependencies behind it when the stage lists them first
and none of them starts out failed or blocked.
-/
namespace CommandConsole.Execution
open Library Library.Process
set_option autoImplicit false

/-- The part of a step that the engine never changes. -/
def RunStep.layout (step : RunStep) : String × Option String × Int × List String :=
  (step.id, step.stageId, step.place, step.dependencies)

theorem RunStep.id_eq_of_layout {step other : RunStep} (h : step.layout = other.layout) : step.id = other.id :=
  congrArg Prod.fst h

def Run.statusOf (run : Run) (stepId : String) : Option String := (run.step? stepId).map RunStep.status

def Run.Distinct (run : Run) : Prop := (run.steps.map RunStep.id).Nodup

/-- Steps keep their layout, and a status either stays or becomes completed. -/
structure Run.Advances (run run' : Run) : Prop where
  layout : (run'.steps.map RunStep.layout).Perm (run.steps.map RunStep.layout)
  status : ∀ stepId, run'.statusOf stepId = run.statusOf stepId ∨ run'.statusOf stepId = some "completed"

namespace Run

variable {run run' run'' : Run} {stepId : String}

theorem Advances.refl (run : Run) : run.Advances run := ⟨List.Perm.refl _, fun _ => .inl rfl⟩

theorem Advances.trans (h : run.Advances run') (h' : run'.Advances run'') : run.Advances run'' := by
  refine ⟨h'.layout.trans h.layout, fun stepId => ?_⟩
  obtain hLast | hLast := h'.status stepId
  · rw [hLast]
    exact h.status stepId
  · exact .inr hLast

theorem advances_of_steps (h : run'.steps = run.steps) : run.Advances run' := by
  refine ⟨by rw [h], fun stepId => .inl ?_⟩
  rw [statusOf, step?, h]
  rfl

theorem map_id_of_layout (run : Run) :
    run.steps.map RunStep.id = (run.steps.map RunStep.layout).map Prod.fst := by
  rw [List.map_map]
  rfl

theorem Advances.distinct (h : run.Advances run') (hDistinct : run.Distinct) : run'.Distinct := by
  unfold Distinct at *
  rw [map_id_of_layout] at hDistinct ⊢
  exact (h.layout.map Prod.fst).nodup_iff.mpr hDistinct

theorem Advances.exists_layout (h : run.Advances run') {step : RunStep} (hStep : step ∈ run'.steps) :
    ∃ old ∈ run.steps, old.layout = step.layout := by
  obtain ⟨old, hOld, hLayout⟩ := List.mem_map.mp (h.layout.mem_iff.mp (List.mem_map_of_mem hStep))
  exact ⟨old, hOld, hLayout⟩

theorem step?_mem {step : RunStep} (h : run.step? stepId = some step) : step ∈ run.steps ∧ step.id = stepId := by
  refine ⟨List.mem_of_find?_eq_some h, ?_⟩
  simpa using List.find?_some h

/-- With distinct ids a step is found under its id. -/
theorem step?_of_mem (hDistinct : run.Distinct) {step : RunStep} (hStep : step ∈ run.steps) :
    run.step? step.id = some step := by
  cases hFind : run.step? step.id with
  | none =>
    have hNone := List.find?_eq_none.mp hFind step hStep
    simp at hNone
  | some other =>
    obtain ⟨hOther, hId⟩ := step?_mem hFind
    rw [List.inj_on_of_nodup_map hDistinct hOther hStep hId]

theorem statusOf_eq_some (hDistinct : run.Distinct) {status : String} :
    run.statusOf stepId = some status ↔ ∃ step ∈ run.steps, step.id = stepId ∧ step.status = status := by
  unfold statusOf
  rw [Option.map_eq_some_iff]
  constructor
  · rintro ⟨step, hFind, hStatus⟩
    obtain ⟨hStep, hId⟩ := step?_mem hFind
    exact ⟨step, hStep, hId, hStatus⟩
  · rintro ⟨step, hStep, rfl, hStatus⟩
    exact ⟨step, step?_of_mem hDistinct hStep, hStatus⟩

theorem completes_iff (hDistinct : run.Distinct) :
    run.completes stepId = true ↔ run.statusOf stepId = some "completed" := by
  rw [statusOf_eq_some hDistinct, completes, List.any_eq_true]
  simp only [Bool.and_eq_true, decide_eq_true_eq]

theorem Advances.completes (h : run.Advances run') (hDistinct : run.Distinct)
    (hDone : run.completes stepId = true) : run'.completes stepId = true := by
  rw [completes_iff hDistinct] at hDone
  rw [completes_iff (h.distinct hDistinct)]
  obtain hStatus | hStatus := h.status stepId
  · rw [hStatus, hDone]
  · exact hStatus

theorem step?_of_layout (hDistinct : run.Distinct) {raw : RunStep}
    (hRaw : raw.layout ∈ run.steps.map RunStep.layout) :
    ∃ step, run.step? raw.id = some step ∧ step.layout = raw.layout := by
  obtain ⟨step, hStep, hLayout⟩ := List.mem_map.mp hRaw
  refine ⟨step, ?_, hLayout⟩
  rw [← RunStep.id_eq_of_layout hLayout]
  exact step?_of_mem hDistinct hStep

theorem advances_sorted (hDistinct : run.Distinct) : run.Advances run.sorted := by
  have hPerm : run.sorted.steps.Perm run.steps := List.perm_insertionSort _ _
  have hDistinct' : run.sorted.Distinct := by
    unfold Distinct at *
    exact (hPerm.map RunStep.id).nodup_iff.mpr hDistinct
  refine ⟨hPerm.map _, fun stepId => .inl (Option.ext fun status => ?_)⟩
  rw [statusOf_eq_some hDistinct, statusOf_eq_some hDistinct']
  simp only [hPerm.mem_iff]

section Change

variable {change : RunStep → RunStep}

theorem step?_changeStep (hId : ∀ step, (change step).id = step.id) (other : String) :
    (run.changeStep stepId change).step? other =
      (run.step? other).map fun step => if step.id = stepId then change step else step := by
  unfold step? changeStep
  rw [List.find?_map]
  congr 2
  funext step
  dsimp only [Function.comp_apply]
  split
  · rw [hId]
  · rfl

theorem statusOf_changeStep_self (hId : ∀ step, (change step).id = step.id) :
    (run.changeStep stepId change).statusOf stepId =
      (run.step? stepId).map fun step => (change step).status := by
  rw [statusOf, step?_changeStep hId, Option.map_map]
  cases hFind : run.step? stepId with
  | none => rfl
  | some step => simp [(step?_mem hFind).2]

theorem statusOf_changeStep_of_ne (hId : ∀ step, (change step).id = step.id) {other : String}
    (h : other ≠ stepId) : (run.changeStep stepId change).statusOf other = run.statusOf other := by
  rw [statusOf, step?_changeStep hId, Option.map_map, statusOf]
  cases hFind : run.step? other with
  | none => rfl
  | some step => simp [(step?_mem hFind).2, h]

theorem statusOf_changeStep_of_status (hId : ∀ step, (change step).id = step.id)
    (hStatus : ∀ step, (change step).status = step.status) (other : String) :
    (run.changeStep stepId change).statusOf other = run.statusOf other := by
  by_cases h : other = stepId
  · rw [h, statusOf_changeStep_self hId, statusOf]
    simp only [hStatus]
  · exact statusOf_changeStep_of_ne hId h

theorem layout_changeStep (hLayout : ∀ step, (change step).layout = step.layout) :
    (run.changeStep stepId change).steps.map RunStep.layout = run.steps.map RunStep.layout := by
  unfold changeStep
  rw [List.map_map]
  refine List.map_congr_left fun step _ => ?_
  dsimp only [Function.comp_apply]
  split
  · rw [hLayout]
  · rfl

end Change

def holds (run : Run) (stepId : String) : Bool := (run.step? stepId).isSome

theorem holds_iff : run.holds stepId = true ↔ stepId ∈ run.steps.map RunStep.id := by
  rw [holds, step?, List.find?_isSome, List.mem_map]
  simp only [decide_eq_true_eq]

/-- The run with one of its steps in another status. -/
structure Touches (stepId : String) (run run' : Run) : Prop where
  layout : run'.steps.map RunStep.layout = run.steps.map RunStep.layout
  others : ∀ other, other ≠ stepId → run'.statusOf other = run.statusOf other

theorem Touches.trans (h : run.Touches stepId run') (h' : run'.Touches stepId run'') :
    run.Touches stepId run'' :=
  ⟨h'.layout.trans h.layout, fun other hOther => (h'.others other hOther).trans (h.others other hOther)⟩

theorem Touches.holds (h : run.Touches stepId run') {other : String} (hHolds : run.holds other = true) :
    run'.holds other = true := by
  rw [holds_iff, map_id_of_layout] at *
  rwa [h.layout]

theorem Touches.advances (h : run.Touches stepId run') (hDone : run'.statusOf stepId = some "completed") :
    run.Advances run' := by
  refine ⟨by rw [h.layout], fun other => ?_⟩
  by_cases hOther : other = stepId
  · rw [hOther]
    exact .inr hDone
  · exact .inl (h.others other hOther)

theorem touches_of_steps {change : RunStep → RunStep} {status : String}
    (hLayout : ∀ step, (change step).layout = step.layout) (hStatus : ∀ step, (change step).status = status)
    (hSteps : run'.steps = (run.changeStep stepId change).steps) :
    run.Touches stepId run' ∧ (run.holds stepId = true → run'.statusOf stepId = some status) := by
  have hId (step : RunStep) : (change step).id = step.id := RunStep.id_eq_of_layout (hLayout step)
  have hStatusOf (other : String) : run'.statusOf other = (run.changeStep stepId change).statusOf other := by
    rw [statusOf, step?, hSteps]
    rfl
  refine ⟨⟨by rw [hSteps, layout_changeStep hLayout], fun other hOther => ?_⟩, fun hHolds => ?_⟩
  · rw [hStatusOf, statusOf_changeStep_of_ne hId hOther]
  · obtain ⟨step, hFind⟩ := Option.isSome_iff_exists.mp hHolds
    rw [hStatusOf, statusOf_changeStep_self hId, hFind, Option.map_some, hStatus]

end Run

/-- An invariant that looks at the routed steps only. -/
def OfRouted (I : World → Prop) : Prop := ∀ world world', world'.routed = world.routed → I world → I world'

section Reads

variable {I : World → Prop}

theorem yields_ask : Process.Yields I (Process.ask : Engine Env) fun _ => True :=
  fun _ _ _ hPre => ⟨hPre, trivial⟩

theorem yields_modify {change : World → World} (h : ∀ world, I world → I (change world)) :
    Process.Yields I (Process.modify change : Engine Unit) fun _ => True := fun _ _ world hPre => ⟨h world hPre, trivial⟩

theorem yields_index : Process.Yields I (Process.index : Engine Nat) fun _ => True :=
  fun _ _ _ hPre => ⟨hPre, trivial⟩

theorem yields_read {α : Type} (f : World → α) : Process.Yields I (Process.read f : Engine α) fun _ => True :=
  fun _ _ _ hPre => ⟨hPre, trivial⟩

theorem yields_now : Process.Yields I now fun _ => True := .bind yields_ask fun _ _ => .pure trivial

theorem yields_updateStep (run : Run) (stepId : String) (changes : RunStep → RunStep) :
    Process.Yields I (updateStep run stepId changes) fun next => ∃ updatedAt, next =
      run.changeStep stepId fun step => { changes step with updatedAt := some updatedAt } :=
  .bind (yields_now) fun updatedAt _ => .pure ⟨updatedAt, rfl⟩

theorem yields_prepareStepForReview (run : Run) (stepId : String) :
    Process.Yields I (prepareStepForReview run stepId) fun next =>
      (next.1.steps.map RunStep.layout = run.steps.map RunStep.layout) ∧
        ∀ other, next.1.statusOf other = run.statusOf other := by
  unfold prepareStepForReview
  cases run.step? stepId with
  | none => exact .pure ⟨rfl, fun _ => rfl⟩
  | some step =>
    refine .bind (yields_updateStep _ _ _) fun nextRun hNext => ?_
    obtain ⟨updatedAt, rfl⟩ := hNext
    have hSame : ((run.changeStep stepId fun step =>
        { preparedStep step with updatedAt := some updatedAt }).steps.map RunStep.layout =
          run.steps.map RunStep.layout) ∧
        ∀ other, (run.changeStep stepId fun step =>
          { preparedStep step with updatedAt := some updatedAt }).statusOf other = run.statusOf other := by
      constructor
      · refine Run.layout_changeStep ?_
        exact fun _ => rfl
      · refine Run.statusOf_changeStep_of_status ?_ ?_
        · exact fun _ => rfl
        · exact fun _ => rfl
    exact .ite (fun _ => .pure hSame) fun _ => .pure hSame

theorem yields_getLeaseLossSignal (planId executionId : String) (lost : Option Failure) :
    Process.Yields I (getLeaseLossSignal planId executionId lost) fun _ => True := by
  refine .bind yields_ask fun env _ => .bind (yields_read _) fun db _ => .ite (fun _ => .pure trivial) fun _ => ?_
  cases lost with
  | some err => exact .pure trivial
  | none =>
    dsimp only
    split
    · exact .pure trivial
    · refine .ite (fun _ => .pure trivial) fun _ => ?_
      split
      · exact .pure trivial
      · exact .ite (fun _ => .pure trivial) fun _ => .pure trivial

end Reads

section Specs

variable {I : World → Prop} (hI : OfRouted I)

include hI

theorem yields_onDb {α : Type} (x : Op α) : Process.Yields I (onDb x) fun _ => True :=
  fun _ _ world hPre => ⟨hI world _ rfl hPre, trivial⟩

theorem yields_commit {α : Type} (work : Tx (Result α)) : Process.Yields I (commit work) fun _ => True :=
  yields_onDb hI _

theorem yields_persist (run : Run) (options : PersistOptions) :
    Process.Yields I (persist run options) fun _ => True := by
  refine .bind (yields_onDb hI _) fun outcome _ => ?_
  cases outcome with
  | ok _ => exact .pure trivial
  | error err => exact .throw err

theorem yields_recordRun (run : Run) : Process.Yields I (recordRun run) fun _ => True :=
  fun _ _ world hPre => ⟨hI world _ rfl hPre, trivial⟩

theorem yields_emitLedgerEvent (event : LedgerEvent) : Process.Yields I (emitLedgerEvent event) fun _ => True :=
  .ite (fun _ => .pure trivial) fun _ => .bind (yields_commit hI _) fun _ _ => .pure trivial

theorem yields_appendExecutionLog (run : Run) :
    Process.Yields I (appendExecutionLog run) fun next => next.steps = run.steps :=
  .bind (yields_now) fun _ _ => .bind (yields_recordRun hI _) fun _ _ =>
    .bind (yields_persist hI _ _) fun _ _ => .pure rfl

theorem yields_setStepStatus (run : Run) (stepId status : String) {extra : RunStep → RunStep}
    (hLayout : ∀ step, (extra step).layout = step.layout) (hStatus : ∀ step, (extra step).status = step.status) :
    Process.Yields I (setStepStatus run stepId status extra) fun next =>
      run.Touches stepId next ∧ (run.holds stepId = true → next.statusOf stepId = some status) := by
  refine .bind yields_now fun updatedAt _ => (yields_appendExecutionLog hI _).weaken fun next hSteps => ?_
  exact Run.touches_of_steps (fun step => hLayout { step with status, updatedAt := some updatedAt })
    (fun step => hStatus { step with status, updatedAt := some updatedAt }) hSteps

theorem yields_setStageStatus (run : Run) (stageId status : String) (extra : RunStage → RunStage) :
    Process.Yields I (setStageStatus run stageId status extra) fun next => next.steps = run.steps :=
  .bind (yields_now) fun _ _ => yields_appendExecutionLog hI _

theorem yields_logBeat (runId : Option String) : Process.Yields I (logBeat runId) fun _ => True := by
  refine .bind (yields_read _) fun runs _ => ?_
  split
  · exact .pure trivial
  · exact .tryCatch (.bind (yields_appendExecutionLog hI _) fun _ _ => .pure trivial) fun _ => .pure trivial

theorem yields_leaseBeat (planId executionId stepId : String) (attemptNumber : Int) (lost : Option Failure) :
    Process.Yields I (leaseBeat planId executionId stepId attemptNumber lost) fun _ => True := by
  refine .bind (yields_commit hI _) fun outcome _ => ?_
  cases outcome with
  | ok _ => exact .pure trivial
  | error err => exact .pure trivial

theorem yields_runBeats (runId : Option String) (planId executionId stepId : String) (attemptNumber : Int)
    (beats : List Beat) (lost : Option Failure) :
    Process.Yields I (runBeats runId planId executionId stepId attemptNumber beats lost) fun _ => True := by
  induction beats generalizing lost with
  | nil => exact .pure trivial
  | cons beat beats ih =>
    cases beat with
    | log => exact .bind (yields_logBeat hI runId) fun _ _ => ih lost
    | lease => exact .bind (yields_leaseBeat hI _ _ _ _ lost) fun lost _ => ih lost

end Specs

section Routed

/-- What a routed step comes to: the loop ends, or the step is completed and the run has advanced. -/
inductive Settled (stepId : String) (run run' : Run) (result : StepResult) : Prop where
  | paused (h : result.status = some "paused_for_review")
  | unsaved (h : result.type = some "persistence_failure")
  | failed (status : String) (h : status ∈ ["failed", "timeout", "blocked"])
      (hStatus : run'.statusOf stepId = some status)
  | completed (h : run.Advances run') (hDone : run'.statusOf stepId = some "completed")

variable {I : World → Prop} (hI : OfRouted I) (context : EngineContext) (options : EngineOptions) (step : RunStep)
  (stepIndex attemptNumber : Int)

include hI

theorem yields_failRoutedStep {run start : Run} (hHolds : run.holds step.id = true) {stepStatus : String}
    (hStatus : stepStatus ∈ ["failed", "timeout", "blocked"]) (message type : String) :
    Process.Yields I (failRoutedStep context options step stepIndex attemptNumber run stepStatus message type)
      fun outcome => Settled step.id start outcome.1 outcome.2 := by
  refine .bind (yields_commit hI _) fun outcome _ => ?_
  cases outcome with
  | error err => exact .pure (.unsaved rfl)
  | ok data =>
    refine .bind (yields_setStepStatus hI run step.id stepStatus (fun _ => rfl) fun _ => rfl)
      fun failedRun hFailed => .bind (yields_read _) fun db _ => ?_
    split
    · exact .pure (.failed stepStatus hStatus (hFailed.2 hHolds))
    · exact .pure (.failed stepStatus hStatus (hFailed.2 hHolds))

theorem yields_completeRoutedStep {run start : Run} (hHolds : run.holds step.id = true)
    (hTouches : start.Touches step.id run) (type : Option String) :
    Process.Yields I (completeRoutedStep options step stepIndex attemptNumber run type)
      fun outcome => Settled step.id start outcome.1 outcome.2 := by
  refine .bind (yields_commit hI _) fun outcome _ => ?_
  cases outcome with
  | error err => exact .pure (.unsaved rfl)
  | ok data =>
    refine .bind (yields_setStepStatus hI run step.id "completed" (fun _ => rfl) fun _ => rfl)
      fun completedRun hCompleted => .pure ?_
    have hDone := hCompleted.2 hHolds
    exact .completed ((hTouches.trans hCompleted.1).advances hDone) hDone

theorem yields_routeTool {run start : Run} (hHolds : run.holds step.id = true)
    (hTouches : start.Touches step.id run) :
    Process.Yields I (routeTool context options step stepIndex attemptNumber run)
      fun outcome => Settled step.id start outcome.1 outcome.2 := by
  refine .bind yields_index fun n _ => .bind (yields_runBeats hI _ _ _ _ _ _ _) fun lost _ => ?_
  generalize (context.tools n step).outcome = outcome
  split
  · exact .throw _
  · refine .bind (yields_getLeaseLossSignal _ _ _) fun loss _ => ?_
    cases loss with
    | some err =>
      exact .bind (yields_setStepStatus hI _ _ _ (fun _ => rfl) fun _ => rfl) fun _ _ => .pure (.paused rfl)
    | none =>
      cases outcome with
      | pausedForReview reason beforeStart =>
        exact .bind (yields_setStepStatus hI _ _ _ (fun _ => rfl) fun _ => rfl) fun _ _ => .pure (.paused rfl)
      | failed error type => exact yields_failRoutedStep hI _ _ _ _ _ hHolds (by decide) _ _
      | returned type => exact yields_completeRoutedStep hI _ _ _ _ hHolds hTouches type
      | threw message => exact .throw _

/-- A routed step of the run whose dependencies are completed leaves the log of routed steps ready. -/
theorem yields_executeSingleRoutedStep {run : Run} (hHolds : run.holds step.id = true)
    (hRouted : ∀ world, I world → I { world with routed := world.routed ++ [(step, run)] }) :
    Process.Yields I (executeSingleRoutedStep context options step run stepIndex)
      fun outcome => Settled step.id run outcome.1 outcome.2 := by
  have hSet (status : String) (h : status ∈ ["failed", "timeout", "blocked"]) {extra : RunStep → RunStep}
      (hLayout : ∀ step, (extra step).layout = step.layout) (hStatus : ∀ step, (extra step).status = step.status)
      (result : StepResult) : Process.Yields I (do
        let next ← setStepStatus run step.id status extra
        pure (next, result)) fun outcome => Settled step.id run outcome.1 outcome.2 :=
    .bind (yields_setStepStatus hI run step.id status hLayout hStatus) fun next hNext =>
      .pure (.failed status h (hNext.2 hHolds))
  unfold executeSingleRoutedStep
  refine .bind (yields_modify hRouted) fun _ _ => ?_
  split
  · refine hSet "blocked" (by decide) ?_ ?_ _ <;> exact fun _ => rfl
  split
  · exact .bind (yields_setStepStatus hI _ _ _ (fun _ => rfl) fun _ => rfl) fun _ _ => .pure (.paused rfl)
  · refine hSet "blocked" (by decide) ?_ ?_ _ <;> exact fun _ => rfl
  refine .bind (yields_commit hI _) fun begun _ => ?_
  cases begun with
  | error err => refine hSet "failed" (by decide) ?_ ?_ _ <;> exact fun _ => rfl
  | ok begun =>
    refine .bind yields_now fun stepStartMs _ =>
      .bind (yields_setStepStatus hI run step.id "running" (fun _ => rfl) fun _ => rfl) fun runningRun hRunning => ?_
    have hHolds' : runningRun.holds step.id = true := hRunning.1.holds hHolds
    refine .tryCatch (yields_routeTool hI _ _ _ _ _ hHolds' hRunning.1) fun err => ?_
    refine yields_failRoutedStep hI _ _ _ _ _ hHolds' ?_ _ _
    split <;> decide

end Routed

section Endings

variable {I : World → Prop} (hI : OfRouted I) (context : EngineContext) (options : EngineOptions)

include hI

theorem yields_finalizeFailure (run : Run) (error : String) :
    Process.Yields I (finalizeFailure options run error) fun _ => True := by
  refine .bind (yields_commit hI _) fun outcome _ => ?_
  cases outcome with
  | error err => exact .pure trivial
  | ok data => exact .pure trivial

theorem yields_pauseBefore (run : Run) (stage : RunStage) (stepId : String) (stepIndex : Int) (error : String) :
    Process.Yields I (pauseBefore options run stage stepId stepIndex error) fun _ => True := by
  refine .bind (yields_commit hI _) fun outcome _ => ?_
  cases outcome with
  | error err => exact .pure trivial
  | ok data => exact .bind (yields_recordRun hI _) fun _ _ => .pure trivial

theorem yields_pauseForBreach (run : Run) (stage : RunStage) (step : RunStep) (stepIndex : Int)
    (breach : Breach) : Process.Yields I (pauseForBreach options run stage step stepIndex breach) fun _ => True :=
  .bind yields_now fun _ _ => yields_pauseBefore hI _ _ _ _ _ _

theorem yields_failForBreach (run : Run) (stage : RunStage) (step : RunStep) (breach : Breach) :
    Process.Yields I (failForBreach options run stage step breach) fun _ => True := by
  refine .bind (yields_setStepStatus hI _ _ _ ?_ ?_) fun _ _ => .bind yields_now fun _ _ =>
    .bind (yields_setStageStatus hI _ _ _ _) fun _ _ => .bind yields_now fun _ _ =>
      yields_finalizeFailure hI _ _ _
  · exact fun _ => rfl
  · exact fun _ => rfl

theorem yields_pauseAt (run : Run) (stage : RunStage) (step : RunStep) (stepIndex : Int) (reason : String) :
    Process.Yields I (if 0 ≤ stepIndex then pauseBefore options run stage step.id stepIndex reason
      else do
        recordRun run
        pure (buildPausedResponse run reason)) fun _ => True :=
  .ite (fun _ => yields_pauseBefore hI _ _ _ _ _ _) fun _ =>
    .bind (yields_recordRun hI _) fun _ _ => .pure trivial

theorem yields_pausePrepared (run : Run) (stage : RunStage) (step : RunStep) (stepIndex : Int)
    (reason : String) : Process.Yields I (pausePrepared options run stage step stepIndex reason) fun _ => True :=
  .bind (yields_updateStep _ _ _) fun _ _ => .bind yields_now fun _ _ => yields_pauseAt hI _ _ _ _ _ _

theorem yields_pauseRouted (run : Run) (stage : RunStage) (step : RunStep) (stepIndex : Int)
    (result : StepResult) : Process.Yields I (pauseRouted options run stage step stepIndex result) fun _ => True := by
  refine .bind (yields_setStageStatus hI _ _ _ _) fun pausedRun _ =>
    .ite (fun _ => yields_pauseAt hI _ _ _ _ _ _) fun _ => .bind (yields_commit hI _) fun outcome _ => ?_
  cases outcome with
  | error err => exact .pure trivial
  | ok data => exact .bind (yields_recordRun hI _) fun _ _ => .pure trivial

theorem yields_failRouted (run : Run) (stage : RunStage) (step : RunStep) (stepIndex : Int)
    (result : StepResult) : Process.Yields I (failRouted options run stage step stepIndex result) fun _ => True := by
  refine .ite (fun _ => yields_pauseForBreach hI _ _ _ _ _ _) fun _ =>
    .ite (fun _ => yields_pauseForBreach hI _ _ _ _ _ _) fun _ => .ite (fun _ => ?_) fun _ => ?_
  · exact .bind yields_now fun _ _ => yields_finalizeFailure hI _ _ _
  · exact .bind yields_now fun _ _ => .bind (yields_setStageStatus hI _ _ _ _) fun _ _ =>
      .bind (yields_emitLedgerEvent hI _) fun _ _ => .bind yields_now fun _ _ => yields_finalizeFailure hI _ _ _

theorem yields_checkLimits (run : Run) (stage : RunStage) (step : RunStep) (stepIndex : Int) :
    Process.Yields I (checkLimits context options run stage step stepIndex) fun _ => True := by
  refine .bind yields_now fun _ _ => .bind (yields_read _) fun db _ => ?_
  split
  · exact .bind (yields_pauseForBreach hI _ _ _ _ _ _) fun _ _ => .pure trivial
  · split
    · exact .pure trivial
    · refine .ite (fun _ => ?_) fun _ => ?_
      · exact .bind (yields_failForBreach hI _ _ _ _ _) fun _ _ => .pure trivial
      · exact .bind (yields_pauseForBreach hI _ _ _ _ _ _) fun _ _ => .pure trivial

theorem yields_failMissingDependency (run : Run) (stage : RunStage) (step : RunStep)
    (stageSteps : List RunStep) :
    Process.Yields I (failMissingDependency options run stage step stageSteps) fun _ => True := by
  refine .bind (yields_setStepStatus hI _ _ _ ?_ ?_) fun _ _ => .bind yields_now fun _ _ =>
    .bind (yields_setStageStatus hI _ _ _ _) fun _ _ => .bind (yields_emitLedgerEvent hI _) fun _ _ =>
      .bind (yields_appendExecutionLog hI _) fun _ _ => yields_finalizeFailure hI _ _ _
  · exact fun _ => rfl
  · exact fun _ => rfl

theorem yields_completeRun (run : Run) : Process.Yields I (completeRun options run) fun _ => True := by
  refine .bind yields_now fun _ _ => .bind (yields_recordRun hI _) fun _ _ =>
    .bind (yields_commit hI _) fun outcome _ => ?_
  cases outcome with
  | error err => exact .pure trivial
  | ok data => exact .pure trivial

end Endings

section Loop

variable {I : World → Prop} (hI : OfRouted I) (context : EngineContext) (options : EngineOptions)

/-- What a part of the loop hands on. -/
def Flow.Meets (flow : Flow) (φ : Run → Prop) : Prop := ∀ run, flow = .next run → φ run

def skipped : List String := ["completed", "failed", "blocked"]

include hI

theorem yields_settleRouted {start run : Run} {stage : RunStage} {step : RunStep} {stepIndex : Int}
    {result : StepResult} (hStatus : ∀ status, run.statusOf step.id = some status → step.status = status)
    (hSettled : Settled step.id start run result) :
    Process.Yields I (settleRouted options run stage step stepIndex result) fun flow =>
      flow.Meets fun next => start.Advances next ∧ next.statusOf step.id = some "completed" := by
  refine .ite (fun _ => ?_) fun hOpen => .ite (fun _ => .pure ?_) fun hSaved => .ite (fun _ => ?_) fun hEnded =>
    .pure ?_
  · refine .bind (yields_pauseRouted hI _ _ _ _ _ _) fun _ _ => .pure ?_
    rintro next ⟨⟩
  · rintro next ⟨⟩
  · refine .bind (yields_failRouted hI _ _ _ _ _ _) fun _ _ => .pure ?_
    rintro next ⟨⟩
  · rintro next ⟨⟩
    cases hSettled with
    | paused h => exact absurd h hOpen
    | unsaved h => exact absurd h hSaved
    | failed status h hFailed =>
      rw [hStatus status hFailed] at hEnded
      exact absurd h hEnded
    | completed h hDone => exact ⟨h, hDone⟩

end Loop

section Ready

variable (context : EngineContext) (options : EngineOptions)

/-- A step is routed in a run that has completed all its dependencies. -/
def Ready (entry : RunStep × Run) : Prop :=
  ∀ dependencyId ∈ entry.1.dependencies, entry.2.completes dependencyId = true

def AllReady (world : World) : Prop := ∀ entry ∈ world.routed, Ready entry

theorem allReady_ofRouted : OfRouted AllReady := by
  intro world world' hSame hReady
  unfold AllReady
  rwa [hSame]

def Run.Finished (run : Run) (stepId : String) : Prop := ∃ status ∈ skipped, run.statusOf stepId = some status

theorem Run.Finished.advances {run run' : Run} {stepId : String} (h : run.Finished stepId)
    (hAdvances : run.Advances run') : run'.Finished stepId := by
  obtain ⟨status, hSkipped, hStatus⟩ := h
  obtain hSame | hDone := hAdvances.status stepId
  · exact ⟨status, hSkipped, hSame.trans hStatus⟩
  · exact ⟨"completed", by decide, hDone⟩

theorem yields_runStep {run : Run} (stage : RunStage) {rawStep : RunStep} (hDistinct : run.Distinct)
    (hRaw : rawStep.layout ∈ run.steps.map RunStep.layout)
    (hReady : ¬run.Finished rawStep.id →
      ∀ dependencyId ∈ rawStep.dependencies, run.completes dependencyId = true) :
    Process.Yields AllReady (runStep context options stage rawStep run) fun flow =>
      flow.Meets fun next => run.Advances next ∧ next.Finished rawStep.id := by
  obtain ⟨step, hFind, hLayout⟩ := Run.step?_of_layout hDistinct hRaw
  have hId : step.id = rawStep.id := RunStep.id_eq_of_layout hLayout
  unfold runStep
  rw [hFind, Option.getD_some]
  have hFinished : run.Finished rawStep.id ↔ step.status ∈ skipped := by
    simp only [Run.Finished, Run.statusOf, hFind, Option.map_some, Option.some.injEq]
    exact ⟨fun ⟨status, hSkipped, hStatus⟩ => hStatus ▸ hSkipped, fun h => ⟨step.status, h, rfl⟩⟩
  refine .ite (fun hSkipped => .pure ?_) fun hOpen => ?_
  · rintro next ⟨⟩
    exact ⟨.refl run, hFinished.mpr hSkipped⟩
  refine .bind (yields_checkLimits allReady_ofRouted _ _ _ _ _ _) fun limit _ => ?_
  cases limit with
  | some result =>
    refine .pure ?_
    rintro next ⟨⟩
  | none =>
    refine .bind (yields_prepareStepForReview _ _) fun prepared hPrepared => ?_
    obtain ⟨preparedRun, pauseSignal⟩ := prepared
    have hAdvances : run.Advances preparedRun := by
      refine (Run.advances_sorted hDistinct).trans ⟨?_, fun other => .inl (hPrepared.2 other)⟩
      rw [hPrepared.1]
    have hDistinct' : preparedRun.Distinct := hAdvances.distinct hDistinct
    obtain ⟨current, hCurrent, hSame⟩ := Run.step?_of_layout hDistinct'
      (hAdvances.layout.mem_iff.mpr (hLayout ▸ hRaw))
    have hCurrentId : current.id = step.id := RunStep.id_eq_of_layout hSame
    dsimp only
    rw [hCurrent, Option.getD_some]
    cases pauseSignal with
    | some reason =>
      refine .bind (yields_pausePrepared allReady_ofRouted _ _ _ _ _ _) fun _ _ => .pure ?_
      rintro next ⟨⟩
    | none =>
      have hHolds : preparedRun.holds current.id = true := by
        rw [Run.holds, hCurrentId, hCurrent]
        rfl
      have hEntry : Ready (current, preparedRun) := by
        intro dependencyId hDependency
        have hDependencies : current.dependencies = rawStep.dependencies :=
          congrArg (fun layout => layout.2.2.2) (hSame.trans hLayout)
        exact hAdvances.completes hDistinct
          (hReady (fun h => hOpen (hFinished.mp h)) dependencyId (hDependencies ▸ hDependency))
      refine .bind (yields_executeSingleRoutedStep allReady_ofRouted _ _ _ _ hHolds ?_) fun outcome hSettled => ?_
      · intro world hWorld entry hMem
        obtain hOld | hNew := List.mem_append.mp hMem
        · exact hWorld entry hOld
        · rw [List.mem_singleton.mp hNew]
          exact hEntry
      obtain ⟨nextRun, result⟩ := outcome
      dsimp only at hSettled ⊢
      have hStepId : ((nextRun.step? current.id).getD current).id = current.id := by
        cases hNext : nextRun.step? current.id with
        | none => rfl
        | some found => exact (Run.step?_mem hNext).2
      refine (yields_settleRouted allReady_ofRouted options ?_ (hStepId ▸ hSettled)).weaken ?_
      · intro status hStatus
        rw [hStepId, Run.statusOf, Option.map_eq_some_iff] at hStatus
        obtain ⟨found, hNext, hStatus⟩ := hStatus
        rw [hNext, Option.getD_some, hStatus]
      · intro flow hMeets next hNext
        obtain ⟨hOn, hDone⟩ := hMeets next hNext
        refine ⟨hAdvances.trans hOn, "completed", by decide, ?_⟩
        rwa [hStepId, hCurrentId, hId] at hDone

/-- The steps that are still to run come after the dependencies in their stage, none of which starts out
failed or blocked. -/
structure Run.DependenciesFirst (run : Run) : Prop where
  distinct : run.Distinct
  inStage : ∀ step ∈ run.steps, step.status ∉ skipped → ∀ dependency ∈ run.steps,
    dependency.id ∈ step.dependencies → dependency.stageId = step.stageId →
      dependency.place < step.place ∧ dependency.status ≠ "failed" ∧ dependency.status ≠ "blocked"

/-- What the loop over the steps of a stage knows of the run it starts from. -/
structure StageReady (start run : Run) (stageSteps : List RunStep) : Prop where
  advances : start.Advances run
  sorted : stageSteps.Pairwise fun left right => left.place ≤ right.place
  members : ∀ step ∈ stageSteps, step.layout ∈ run.steps.map RunStep.layout
  first : ∀ step ∈ stageSteps, ¬start.Finished step.id → ∀ dependency ∈ stageSteps,
    dependency.id ∈ step.dependencies → dependency.place < step.place ∧
      start.statusOf dependency.id ≠ some "failed" ∧ start.statusOf dependency.id ≠ some "blocked"
  outside : ∀ step ∈ stageSteps, ∀ dependencyId ∈ step.dependencies,
    (∀ other ∈ stageSteps, other.id ≠ dependencyId) → run.completes dependencyId = true

section Stage

variable {start run : Run} {stageSteps : List RunStep}

theorem StageReady.advance {next : Run} (h : StageReady start run stageSteps) (hDistinct : start.Distinct)
    (hNext : run.Advances next) : StageReady start next stageSteps where
  advances := h.advances.trans hNext
  sorted := h.sorted
  members := fun step hStep => hNext.layout.mem_iff.mpr (h.members step hStep)
  first := h.first
  outside := fun step hStep dependencyId hDependency hOutside =>
    hNext.completes (h.advances.distinct hDistinct) (h.outside step hStep dependencyId hDependency hOutside)

/-- When the steps before it are finished, all dependencies of a step that is not are completed. -/
theorem StageReady.ready (h : StageReady start run stageSteps) (hDistinct : start.Distinct)
    {done rest : List RunStep} {step : RunStep} (hSplit : stageSteps = done ++ step :: rest)
    (hFinished : ∀ other ∈ done, run.Finished other.id) (hOpen : ¬run.Finished step.id) :
    ∀ dependencyId ∈ step.dependencies, run.completes dependencyId = true := by
  intro dependencyId hDependency
  have hStep : step ∈ stageSteps := by simp [hSplit]
  by_cases hInside : ∃ other ∈ stageSteps, other.id = dependencyId
  · obtain ⟨other, hOther, rfl⟩ := hInside
    obtain ⟨hPlace, hFailed, hBlocked⟩ :=
      h.first step hStep (fun hStart => hOpen (hStart.advances h.advances)) other hOther hDependency
    have hDone : other ∈ done := by
      rw [hSplit, List.mem_append, List.mem_cons] at hOther
      have hSorted := h.sorted
      rw [hSplit, List.pairwise_append, List.pairwise_cons] at hSorted
      obtain hDone | rfl | hRest := hOther
      · exact hDone
      · omega
      · have hLater := hSorted.2.1.1 other hRest
        omega
    obtain ⟨status, hSkipped, hStatus⟩ := hFinished other hDone
    rw [Run.completes_iff (h.advances.distinct hDistinct)]
    obtain hSame | hCompleted := h.advances.status other.id
    · simp only [skipped, List.mem_cons, List.not_mem_nil, or_false] at hSkipped
      rw [← hSame, hStatus] at hFailed hBlocked
      obtain rfl | rfl | rfl := hSkipped
      · exact hStatus
      · exact absurd rfl hFailed
      · exact absurd rfl hBlocked
    · exact hCompleted
  · refine h.outside step hStep dependencyId hDependency fun other hOther hId => ?_
    exact hInside ⟨other, hOther, hId⟩

theorem yields_runSteps (stage : RunStage) (hDistinct : start.Distinct) {done rest : List RunStep}
    (hSplit : stageSteps = done ++ rest) (h : StageReady start run stageSteps)
    (hFinished : ∀ other ∈ done, run.Finished other.id) :
    Process.Yields AllReady (runSteps context options stage rest run) fun flow =>
      flow.Meets fun next => start.Advances next := by
  induction rest generalizing run done with
  | nil =>
    refine .pure ?_
    rintro next ⟨⟩
    exact h.advances
  | cons step rest ih =>
    have hMember : step ∈ stageSteps := by simp [hSplit]
    have hSplit' : stageSteps = (done ++ [step]) ++ rest := by simp [hSplit]
    refine .bind (yields_runStep context options stage (h.advances.distinct hDistinct) (h.members step hMember)
      (h.ready hDistinct hSplit hFinished)) fun flow hFlow => ?_
    cases flow with
    | done result =>
      refine .pure ?_
      rintro next ⟨⟩
    | next next =>
      obtain ⟨hNext, hStepDone⟩ := hFlow next rfl
      refine ih hSplit' (h.advance hDistinct hNext) ?_
      intro other hOther
      obtain hOld | hNew := List.mem_append.mp hOther
      · exact (hFinished other hOld).advances hNext
      · rw [List.mem_singleton.mp hNew]
        exact hStepDone

theorem mem_orderedStageSteps {stageId : String} {step : RunStep} :
    step ∈ orderedStageSteps run stageId ↔ step ∈ run.steps ∧ step.stageId = some stageId := by
  simp [orderedStageSteps, getStageSteps]

theorem orderedStageSteps_sorted (run : Run) (stageId : String) :
    (orderedStageSteps run stageId).Pairwise fun left right => left.place ≤ right.place := by
  have hTotal : Std.Total fun left right : RunStep => left.place ≤ right.place :=
    ⟨fun left right => Int.le_total left.place right.place⟩
  have hTrans : IsTrans RunStep fun left right => left.place ≤ right.place :=
    ⟨fun _ _ _ hLeft hRight => Int.le_trans hLeft hRight⟩
  exact List.pairwise_insertionSort _ _

theorem completes_of_missingDependency (h : missingDependency run stageSteps = none) {step : RunStep}
    (hStep : step ∈ stageSteps) {dependencyId : String} (hDependency : dependencyId ∈ step.dependencies)
    (hOutside : ∀ other ∈ stageSteps, other.id ≠ dependencyId) : run.completes dependencyId = true := by
  have hNone := List.find?_eq_none.mp h step hStep
  simp only [List.any_eq_true, not_exists, not_and, Bool.and_eq_true, List.all_eq_true, decide_eq_true_eq,
    Bool.not_eq_true'] at hNone
  have hCompletes := hNone dependencyId hDependency hOutside
  simpa using hCompletes

/-- A stage that passed the test of its outside dependencies is ready for its loop. -/
theorem stageReady_of_missingDependency {next : Run} {stageId : String} (hFirst : start.DependenciesFirst)
    (h : start.Advances run) (hSteps : next.steps = run.steps)
    (hMissing : missingDependency next (orderedStageSteps run stageId) = none) :
    StageReady start next (orderedStageSteps run stageId) where
  advances := h.trans (Run.advances_of_steps hSteps)
  sorted := orderedStageSteps_sorted run stageId
  members := fun step hStep => by
    rw [hSteps]
    exact List.mem_map_of_mem (mem_orderedStageSteps.mp hStep).1
  first := by
    intro step hStep hOpen dependency hDependency hEdge
    obtain ⟨hStep, hStage⟩ := mem_orderedStageSteps.mp hStep
    obtain ⟨hDependency, hStage'⟩ := mem_orderedStageSteps.mp hDependency
    obtain ⟨oldStep, hOldStep, hStepLayout⟩ := h.exists_layout hStep
    obtain ⟨oldDependency, hOld, hLayout⟩ := h.exists_layout hDependency
    simp only [RunStep.layout, Prod.mk.injEq] at hStepLayout hLayout
    obtain ⟨hStepId, hStepStage, hStepPlace, hStepEdges⟩ := hStepLayout
    obtain ⟨hId, hOldStage, hPlace, -⟩ := hLayout
    have hFound := Run.step?_of_mem hFirst.distinct hOld
    have hStatus : start.statusOf dependency.id = some oldDependency.status := by
      rw [Run.statusOf, ← hId, hFound]
      rfl
    have hOpen' : oldStep.status ∉ skipped := by
      intro hSkipped
      refine hOpen ⟨oldStep.status, hSkipped, ?_⟩
      rw [Run.statusOf, ← hStepId, Run.step?_of_mem hFirst.distinct hOldStep]
      rfl
    have hBefore := hFirst.inStage oldStep hOldStep hOpen' oldDependency hOld
      (by rw [hId, hStepEdges]; exact hEdge) (by rw [hOldStage, hStepStage, hStage, hStage'])
    rw [hPlace, hStepPlace] at hBefore
    rw [hStatus]
    simpa using hBefore
  outside := fun _ hStep _ hDependency hOutside =>
    completes_of_missingDependency hMissing hStep hDependency hOutside

theorem yields_completeStage (run : Run) (stage : RunStage) (startedAt : Option Int) :
    Process.Yields AllReady (completeStage options run stage startedAt) fun flow =>
      flow.Meets fun next => run.Advances next := by
  refine .bind yields_now fun _ _ => .bind (yields_setStageStatus allReady_ofRouted _ _ _ _) fun next hNext =>
    .bind (yields_emitLedgerEvent allReady_ofRouted _) fun _ _ => .pure ?_
  rintro _ ⟨⟩
  exact Run.advances_of_steps hNext

theorem yields_runStage (stageId : String) (hFirst : start.DependenciesFirst) (h : start.Advances run) :
    Process.Yields AllReady (runStage context options stageId run) fun flow =>
      flow.Meets fun next => start.Advances next := by
  have hStop (result : EngineResult) : (Flow.done result).Meets fun next => start.Advances next := by
    rintro next ⟨⟩
  have hStay : (Flow.next run).Meets fun next => start.Advances next := by
    rintro next ⟨⟩
    exact h
  unfold runStage
  cases run.stages.find? fun stage => stage.id = stageId with
  | none => exact .pure hStay
  | some stage =>
    refine .ite (fun _ => .pure hStay) fun _ => .ite (fun _ => .pure (hStop _)) fun _ =>
      .bind yields_now fun nowIso _ => .ite (fun _ => ?_) fun _ => ?_
    · exact (yields_completeStage options run stage _).weaken fun flow hFlow next hNext =>
        h.trans (hFlow next hNext)
    · refine .bind (yields_setStageStatus allReady_ofRouted _ _ _ _) fun running hSteps =>
        .bind (yields_emitLedgerEvent allReady_ofRouted _) fun _ _ => ?_
      cases hMissing : missingDependency running (orderedStageSteps run stage.id) with
      | some step =>
        exact .bind (yields_failMissingDependency allReady_ofRouted options _ _ _ _) fun _ _ => .pure (hStop _)
      | none =>
        have hReady := stageReady_of_missingDependency hFirst h hSteps hMissing
        refine .bind (yields_runSteps context options stage hFirst.distinct (List.nil_append _).symm hReady
          (by simp)) fun flow hFlow => ?_
        cases flow with
        | done result => exact .pure (hStop _)
        | next next =>
          exact (yields_completeStage options next stage none).weaken fun flow hLast last hEnd =>
            (hFlow next rfl).trans (hLast last hEnd)

theorem yields_runStages (stageIds : List String) (hFirst : start.DependenciesFirst) (h : start.Advances run) :
    Process.Yields AllReady (runStages context options stageIds run) fun flow =>
      flow.Meets fun next => start.Advances next := by
  induction stageIds generalizing run with
  | nil =>
    refine .pure ?_
    rintro next ⟨⟩
    exact h
  | cons stageId rest ih =>
    refine .bind (yields_runStage context options stageId hFirst h) fun flow hFlow => ?_
    cases flow with
    | done result =>
      refine .pure ?_
      rintro next ⟨⟩
    | next next => exact ih (hFlow next rfl)

end Stage

theorem yields_beginRun (run : Run) :
    Process.Yields AllReady (beginRun options run) fun next => next.steps = run.steps := by
  refine .bind (yields_appendExecutionLog allReady_ofRouted run) fun logged hLogged =>
    .bind (yields_appendExecutionLog allReady_ofRouted _) fun running hRunning =>
      .bind (yields_emitLedgerEvent allReady_ofRouted _) fun _ _ => .pure ?_
  rw [hRunning, ← hLogged]

theorem yields_continueExecution {run : Run} (hFirst : run.DependenciesFirst) :
    Process.Yields AllReady (continueExecution context options run) fun _ => True := by
  have hStages {settle : Flow → Engine EngineResult} (hDone : ∀ result, settle (.done result) = pure result)
      (hNext : ∀ last, settle (.next last) = completeRun options last) (next : Run) (hSteps : next.steps = run.steps) :
      Process.Yields AllReady (runStages context options (orderedStageIds next) next >>= settle) fun _ => True := by
    refine .bind (yields_runStages context options _ hFirst (Run.advances_of_steps hSteps)) fun flow _ => ?_
    cases flow with
    | done result => exact hDone result ▸ .pure trivial
    | next last => exact hNext last ▸ yields_completeRun allReady_ofRouted options last
  exact .ite (fun _ => .pure trivial) fun _ => .ite (fun _ => hStages (fun _ => rfl) (fun _ => rfl) run rfl) fun _ =>
    .bind (yields_beginRun options run) (hStages (fun _ => rfl) fun _ => rfl)

/-- Whatever the tools do, a run that lists its dependencies first routes each step after all of them. -/
theorem continueExecution_routes_after_dependencies {run : Run} (hFirst : run.DependenciesFirst)
    (clock : Nat → Env) (n : Nat) (world : World) (hNone : world.routed = []) :
    ∀ entry ∈ (continueExecution context options run clock n world).2.2.routed, Ready entry := by
  have hRun := yields_continueExecution context options hFirst clock n world (by simp [AllReady, hNone])
  split at hRun
  · rename_i hEnd
    rw [hEnd]
    exact hRun.1
  · rename_i hEnd
    rw [hEnd]
    exact hRun

section Orders

def readStep (id : String) (dependsOn : List String) : PlanStep :=
  { PlanStep.blank with id := some id, kind := some "read", dependsOn := some dependsOn }

def oneStagePlan (steps : List PlanStep) : Plan where
  planId := some "plan_1"
  runId := some "exec_1"
  id := none
  type := none
  planVersion := none
  version := none
  requiresReview := false
  reviewStatus := some "approved"
  triggerSource := none
  steps := none
  stages := some [⟨some "stage_1", none, none, none, false, steps⟩]
  self := PlanStep.blank

/-- Nothing is blocked, no limit is near, and every tool returns. -/
def calmContext : EngineContext where
  rules := ⟨[], 3, 3, 50, 3600000, 3600000, 10⟩
  tools := fun _ _ => ⟨[], .returned none⟩

def calmOrchestration : Orchestration := ⟨fun _ => [], false, fun _ => "approved"⟩

def approvedModes : ExecutionModes := ⟨some "safe_execute", true, none, false⟩

def freshWorld : World := ⟨Db.empty, [], []⟩

def tickingClock (n : Nat) : Env := ⟨1000 + n, "worker_1"⟩

theorem ordered_plan_routes_after_dependencies :
    (stagedRun (oneStagePlan [readStep "step_a" [], readStep "step_b" ["step_a"]]) "exec_1" "safe_execute" 0).DependenciesFirst ∧
      ∀ entry ∈ (continueExecution calmContext ⟨"plan_1", "exec_1", false, none⟩
        (stagedRun (oneStagePlan [readStep "step_a" [], readStep "step_b" ["step_a"]]) "exec_1" "safe_execute" 0)
        tickingClock 0 freshWorld).2.2.routed, Ready entry :=
  have hOrdered : Run.DependenciesFirst _ := ⟨by unfold Run.Distinct; decide, by decide⟩
  ⟨hOrdered, continueExecution_routes_after_dependencies _ _ hOrdered _ _ _ rfl⟩

/-- A stage that lists a step before its dependency routes the step first. -/
theorem later_dependency_not_awaited :
    ¬∀ (context : EngineContext) (orchestration : Orchestration) (modes : ExecutionModes) (plan : Plan)
      (generated : GeneratedIds) (clock : Nat → Env) (world : World), world.routed = [] →
      ∀ entry ∈ (execute context orchestration modes plan generated clock 0 world).2.2.routed, Ready entry := by
  intro h
  have hRouted : ∃ entry ∈ (execute calmContext calmOrchestration approvedModes
      (oneStagePlan [readStep "step_a" ["step_b"], readStep "step_b" []]) ⟨"", ""⟩ tickingClock 0
        freshWorld).2.2.routed, "step_b" ∈ entry.1.dependencies ∧ entry.2.completes "step_b" = false := by
    decide +kernel
  obtain ⟨entry, hEntry, hDependency, hPending⟩ := hRouted
  have hDone := h _ _ _ _ _ _ _ rfl entry hEntry "step_b" hDependency
  rw [hPending] at hDone
  cases hDone

end Orders

end Ready

end CommandConsole.Execution
