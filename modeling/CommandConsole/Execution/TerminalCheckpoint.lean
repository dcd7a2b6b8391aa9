import CommandConsole.Execution.AttemptRuns

/-! # Terminal checkpoints and late workers

The step operations write the checkpoint of their plan without looking at its
status: what may refuse them is the execution row, the step row and the attempt
row. A transition that ends a plan writes the checkpoint alone, so a worker that
comes back late finds the execution open and writes over the terminal status.
-/
namespace CommandConsole.Execution
open Library
set_option autoImplicit false

inductive StepCall where
  | checkpointBefore (planId : String) (stepIndex : Int)
  | checkpointAfter (planId : String) (stepIndex totalSteps : Int)
  | begin (planId executionId stepId : String) (stepIndex : Int) (sideEffectClass : SideEffectClass)
  | finalize (planId executionId stepId : String) (stepIndex attemptNumber : Int) (mode : AttemptEnd)
  | pause (planId executionId stepId : String) (stepIndex attemptNumber : Int) (reason : String)
      (stageId : Option String) (runSnapshot : Option Run) (reviewExecutionId : Option String)
  | pauseBefore (planId executionId stepId : String) (stageId : Option String) (stepIndex : Int)
      (runSnapshot : Run) (reviewExecutionId : Option String)

namespace StepCall

def planId : StepCall → String
  | checkpointBefore planId _ | checkpointAfter planId _ _ | begin planId _ _ _ _ | finalize planId _ _ _ _ _
  | pause planId _ _ _ _ _ _ _ _ | pauseBefore planId _ _ _ _ _ _ => planId

def after (call : StepCall) (env : Env) (db : Db) : Db :=
  match call with
  | checkpointBefore planId stepIndex => (transact (checkpointBeforeStep planId stepIndex) env db).2
  | checkpointAfter planId stepIndex totalSteps =>
    (transact (checkpointAfterStep planId stepIndex totalSteps) env db).2
  | begin planId executionId stepId stepIndex sideEffectClass =>
    (transact (beginExecutionAttemptAtomic planId executionId stepId stepIndex sideEffectClass) env db).2
  | finalize planId executionId stepId stepIndex attemptNumber mode =>
    (transact (finalizeExecutionAttemptAtomic planId executionId stepId stepIndex attemptNumber mode) env db).2
  | pause planId executionId stepId stepIndex attemptNumber reason stageId runSnapshot reviewExecutionId =>
    (transact (pauseExecutionAttemptForReviewAtomic planId executionId stepId stepIndex attemptNumber reason
      stageId runSnapshot reviewExecutionId) env db).2
  | pauseBefore planId executionId stepId stageId stepIndex runSnapshot reviewExecutionId =>
    (transact (pauseBeforeExecutionForReviewAtomic planId executionId stepId stageId stepIndex runSnapshot
      reviewExecutionId) env db).2

/-- What the checks of the call ask of the database; none asks the checkpoint. -/
def admitted (call : StepCall) (db : Db) : Prop :=
  match call with
  | checkpointBefore _ _ | checkpointAfter _ _ _ => True
  | begin planId executionId stepId _ _ =>
    ensureAttemptIdentity planId executionId stepId = none ∧
      (loadExecutionState db executionId).admits stepId = true
  | finalize planId executionId stepId _ attemptNumber _ | pause planId executionId stepId _ attemptNumber _ _ _ _ =>
    ensureAttemptIdentity planId executionId stepId = none ∧
      (loadExecutionState db executionId).admits stepId = true ∧
        (db.attemptStatus (planId, executionId, stepId) attemptNumber).isSome
  | pauseBefore planId executionId stepId _ _ runSnapshot _ =>
    ensureAttemptIdentity planId executionId stepId = none ∧ runSnapshot.identity ≠ none

/-- The checkpoint the call writes, up to its clock. -/
def change (call : StepCall) (checkpoint : Checkpoint) : Checkpoint :=
  match call with
  | checkpointBefore _ stepIndex | begin _ _ _ stepIndex _ =>
    { checkpoint with currentStep := stepIndex, status := .running }
  | checkpointAfter _ stepIndex totalSteps | finalize _ _ _ stepIndex _ (.completed totalSteps) =>
    { checkpoint with
      currentStep := stepIndex + 1
      lastCompletedStepIndex := stepIndex
      status := if totalSteps ≤ stepIndex + 1 then .completed else .running }
  | finalize _ _ _ stepIndex _ .failed => { checkpoint with currentStep := stepIndex, status := .failed }
  | pause _ _ _ stepIndex _ _ _ _ _ | pauseBefore _ _ _ _ stepIndex _ _ =>
    { checkpoint with currentStep := stepIndex, status := .awaitingReview }

end StepCall

/-- The status and the two step indices. -/
def Checkpoint.progress (checkpoint : Checkpoint) : Status × Int × Int :=
  (checkpoint.status, checkpoint.currentStep, checkpoint.lastCompletedStepIndex)

section ChangeCheckpoint

variable {planId : String} {change : Checkpoint → Checkpoint} {env : Env} {db db' : Db}

theorem changeCheckpoint_eq_ok {row : Checkpoint} (h : changeCheckpoint planId change env db = .ok (.ok row, db')) :
    ∃ old, readCheckpointRow db planId = some old ∧ row = { change old with updatedAt := env.nowMs } ∧
      db' = db.putCheckpoint row := by
  unfold changeCheckpoint at h
  rw [Tx.ask_bind, Tx.get_bind] at h
  cases hRead : readCheckpointRow db planId with
  | none =>
    rw [hRead] at h
    cases h
  | some old =>
    rw [hRead] at h
    cases h
    exact ⟨old, rfl, rfl, rfl⟩

theorem changeCheckpoint_refused {err : Failure} (h : changeCheckpoint planId change env db = .ok (.error err, db')) :
    db' = db := by
  unfold changeCheckpoint at h
  rw [Tx.ask_bind, Tx.get_bind] at h
  cases hRead : readCheckpointRow db planId with
  | none =>
    rw [hRead] at h
    cases h
    rfl
  | some old =>
    rw [hRead] at h
    cases h

end ChangeCheckpoint

/-- The call wrote the checkpoint of its plan and no other. -/
structure StepCall.Wrote (call : StepCall) (db db' : Db) : Prop where
  admitted : call.admitted db
  written : ∃ old row, readCheckpointRow db call.planId = some old ∧
    readCheckpointRow db' call.planId = some row ∧ row.progress = (call.change old).progress
  others : ∀ other, other ≠ call.planId → readCheckpointRow db' other = readCheckpointRow db other

theorem StepCall.change_status (call : StepCall) (checkpoint : Checkpoint) :
    normalizeCheckpointStatus (call.change checkpoint).status = (call.change checkpoint).status := by
  cases call with
  | checkpointBefore planId stepIndex => rfl
  | begin planId executionId stepId stepIndex sideEffectClass => rfl
  | checkpointAfter planId stepIndex totalSteps =>
    unfold change
    dsimp only
    split <;> rfl
  | finalize planId executionId stepId stepIndex attemptNumber mode =>
    cases mode with
    | completed totalSteps =>
      unfold change
      dsimp only
      split <;> rfl
    | failed => rfl
  | pause => rfl
  | pauseBefore => rfl

theorem StepCall.change_planId (call : StepCall) (checkpoint : Checkpoint) :
    (call.change checkpoint).planId = checkpoint.planId := by
  cases call with
  | finalize planId executionId stepId stepIndex attemptNumber mode => cases mode <;> rfl
  | _ => rfl

section Effects

variable {env : Env} {db : Db}

theorem StepCall.Wrote.of_parts {call : StepCall} {db₁ db₂ db' : Db} {row : Checkpoint}
    (hAdmitted : call.admitted db) (hFirst : ∀ other, readCheckpointRow db₁ other = readCheckpointRow db other)
    (hChange : changeCheckpoint call.planId call.change env db₁ = .ok (.ok row, db₂))
    (hLast : ∀ other, readCheckpointRow db' other = readCheckpointRow db₂ other) : call.Wrote db db' := by
  obtain ⟨old, hOld, hRow, rfl⟩ := changeCheckpoint_eq_ok hChange
  have hPlan : row.planId = call.planId := by
    rw [hRow]
    exact (call.change_planId old).trans (readCheckpointRow_planId hOld)
  have hStatus : normalizeCheckpointStatus row.status = row.status := by
    rw [hRow]
    exact call.change_status old
  refine ⟨hAdmitted, ⟨old, row, hFirst _ ▸ hOld, ?_, by rw [hRow]; rfl⟩, ?_⟩
  · rw [hLast, readCheckpointRow, Db.putCheckpoint_executionState, PlainTable.find?_put, if_pos hPlan.symm,
      Option.map_some, hStatus]
  · intro other hOther
    rw [hLast, ← hFirst, readCheckpointRow, readCheckpointRow, Db.putCheckpoint_executionState,
      PlainTable.find?_put, if_neg]
    exact fun hSame => hOther (hSame.trans hPlan)

theorem keeps_checkpoint_finalizeAttempt (other planId executionId stepId : String) (attemptNumber : Int)
    (status : AttemptStatus) : Tx.Keeps (fun db => readCheckpointRow db other)
      (finalizeAttempt planId executionId stepId attemptNumber status) :=
  keeps_finalizeAttempt (fun _ _ => rfl) (fun _ _ => rfl) (fun _ _ _ => rfl) planId executionId stepId attemptNumber

theorem keeps_checkpoint_persist (other : String) (run : Run) (options : PersistOptions) :
    Tx.Keeps (fun db => readCheckpointRow db other) (persistExecutionSnapshot run options) :=
  keeps_persistExecutionSnapshot (fun _ _ => rfl) (fun _ _ => rfl) (fun _ _ => rfl) run options

theorem keeps_checkpoint_pauseEvents (other planId executionId stepId : String) (stageId : Option String) :
    Tx.Keeps (fun db => readCheckpointRow db other) (pauseEvents planId executionId stepId stageId) :=
  keeps_pauseEvents (fun _ _ _ => rfl) (fun _ _ _ => rfl) (fun _ _ _ => rfl) planId executionId stepId stageId

theorem keeps_checkpoint_releaseIfHeld (other planId executionId : String) :
    Tx.Keeps (fun db => readCheckpointRow db other) (releaseIfHeld planId executionId) :=
  keeps_releaseIfHeld (fun _ _ => rfl) (fun _ _ => rfl) planId executionId fun _ _ _ => rfl

theorem checkpoint_effect {call : StepCall} {change : Checkpoint → Checkpoint} {planId : String}
    (hPlan : call.planId = planId) (hSame : call.change = change) (hAdmitted : call.admitted db)
    (hAfter : call.after env db = (transact (changeCheckpoint planId change) env db).2) :
    call.after env db = db ∨ call.Wrote db (call.after env db) := by
  subst hPlan hSame
  rw [hAfter]
  cases hRun : changeCheckpoint call.planId call.change env db with
  | error err => exact .inl (by rw [transact_of_throw hRun])
  | ok result =>
    obtain ⟨outcome, db'⟩ := result
    cases outcome with
    | error err => exact .inl (by rw [transact_of_ok hRun, changeCheckpoint_refused hRun])
    | ok row =>
      right
      rw [transact_of_ok hRun]
      exact .of_parts hAdmitted (fun _ => rfl) hRun fun _ => rfl

theorem begin_effect (planId executionId stepId : String) (stepIndex : Int) (sideEffectClass : SideEffectClass) :
    let call := StepCall.begin planId executionId stepId stepIndex sideEffectClass
    call.after env db = db ∨ call.Wrote db (call.after env db) := by
  intro call
  obtain ⟨err, hFail⟩ | ⟨data, db', hId, hWork, hDone⟩ :=
    transact_atomically planId executionId stepId _ env db
  · left
    change (transact (beginExecutionAttemptAtomic planId executionId stepId stepIndex sideEffectClass) env db).2 = db
    unfold beginExecutionAttemptAtomic
    rw [hFail]
  · right
    change call.Wrote db
      (transact (beginExecutionAttemptAtomic planId executionId stepId stepIndex sideEffectClass) env db).2
    unfold beginExecutionAttemptAtomic
    rw [hDone]
    rw [Tx.ask_bind, Tx.get_bind] at hWork
    obtain ⟨execution, db₁, hGuard, hRest⟩ := Tx.bind_eq_ok.mp hWork
    obtain ⟨rfl, -, hAdmits⟩ := getExecutionAndStep_eq_ok hGuard
    obtain ⟨checkpoint, db₂, hCheckpoint, hRest⟩ := Tx.bind_eq_ok.mp hRest
    refine .of_parts ⟨hId, hAdmits⟩ (fun _ => rfl) (orThrow_eq_ok.mp hCheckpoint) fun other => ?_
    have hCreate : Tx.Keeps (fun db => readCheckpointRow db other)
        (createExecutionAttempt planId executionId stepId sideEffectClass none) :=
      keeps_createExecutionAttempt (fun _ _ => rfl) (fun _ _ => rfl) (fun _ _ _ => rfl) _ _ _ _ _
    exact Tx.Respects.bind (keeps_orThrow hCreate) (fun attempt =>
      .bind (keeps_reloadExecution executionId execution) fun loaded =>
        .bind (keeps_checkpoint_persist other _ _) fun _ => .pure _) env db₂ data db' hRest

theorem finalize_effect (planId executionId stepId : String) (stepIndex attemptNumber : Int) (mode : AttemptEnd) :
    let call := StepCall.finalize planId executionId stepId stepIndex attemptNumber mode
    call.after env db = db ∨ call.Wrote db (call.after env db) := by
  intro call
  obtain ⟨err, hFail⟩ | ⟨data, db', hId, hWork, hDone⟩ :=
    transact_atomically planId executionId stepId _ env db
  · left
    change (transact (finalizeExecutionAttemptAtomic planId executionId stepId stepIndex attemptNumber mode)
      env db).2 = db
    unfold finalizeExecutionAttemptAtomic
    rw [hFail]
  · right
    change call.Wrote db
      (transact (finalizeExecutionAttemptAtomic planId executionId stepId stepIndex attemptNumber mode) env db).2
    unfold finalizeExecutionAttemptAtomic
    rw [hDone]
    rw [Tx.ask_bind, Tx.get_bind] at hWork
    obtain ⟨execution, db₁, hGuard, hRest⟩ := Tx.bind_eq_ok.mp hWork
    obtain ⟨rfl, -, hAdmits⟩ := getExecutionAndStep_eq_ok hGuard
    obtain ⟨attempt, db₂, hFinalize, hRest⟩ := Tx.bind_eq_ok.mp hRest
    obtain ⟨checkpoint, db₃, hCheckpoint, hRest⟩ := Tx.bind_eq_ok.mp hRest
    have hFirst (other : String) : readCheckpointRow db₂ other = readCheckpointRow db₁ other :=
      keeps_checkpoint_finalizeAttempt other planId executionId stepId attemptNumber mode.attemptStatus env db₁ _
        db₂ (orThrow_eq_ok.mp hFinalize)
    have hMode : mode.checkpoint planId stepIndex = changeCheckpoint call.planId call.change := by
      cases mode <;> rfl
    rw [hMode] at hCheckpoint
    refine .of_parts ⟨hId, hAdmits, (finalizeAttempt_closed (orThrow_eq_ok.mp hFinalize)).1⟩ hFirst
      (orThrow_eq_ok.mp hCheckpoint) fun other => ?_
    exact Tx.Respects.bind (keeps_reloadExecution executionId execution) (fun loaded =>
      .bind (keeps_checkpoint_persist other _ _) fun _ => .pure _) env db₃ data db' hRest

theorem pause_effect (planId executionId stepId : String) (stepIndex attemptNumber : Int) (reason : String)
    (stageId : Option String) (runSnapshot : Option Run) (reviewExecutionId : Option String) :
    let call := StepCall.pause planId executionId stepId stepIndex attemptNumber reason stageId runSnapshot
      reviewExecutionId
    call.after env db = db ∨ call.Wrote db (call.after env db) := by
  intro call
  obtain ⟨err, hFail⟩ | ⟨data, db', hId, hWork, hDone⟩ :=
    transact_atomically planId executionId stepId _ env db
  · left
    change (transact (pauseExecutionAttemptForReviewAtomic planId executionId stepId stepIndex attemptNumber
      reason stageId runSnapshot reviewExecutionId) env db).2 = db
    unfold pauseExecutionAttemptForReviewAtomic
    rw [hFail]
  · right
    change call.Wrote db (transact (pauseExecutionAttemptForReviewAtomic planId executionId stepId stepIndex
      attemptNumber reason stageId runSnapshot reviewExecutionId) env db).2
    unfold pauseExecutionAttemptForReviewAtomic
    rw [hDone]
    rw [Tx.ask_bind, Tx.get_bind] at hWork
    obtain ⟨execution, db₁, hGuard, hRest⟩ := Tx.bind_eq_ok.mp hWork
    obtain ⟨rfl, -, hAdmits⟩ := getExecutionAndStep_eq_ok hGuard
    obtain ⟨attempt, db₂, hCancel, hRest⟩ := Tx.bind_eq_ok.mp hRest
    obtain ⟨checkpoint, db₃, hCheckpoint, hRest⟩ := Tx.bind_eq_ok.mp hRest
    have hFirst (other : String) : readCheckpointRow db₂ other = readCheckpointRow db₁ other :=
      keeps_checkpoint_finalizeAttempt other planId executionId stepId attemptNumber .cancelled env db₁ _ db₂
        (orThrow_eq_ok.mp hCancel)
    refine .of_parts ⟨hId, hAdmits, (finalizeAttempt_closed (orThrow_eq_ok.mp hCancel)).1⟩ hFirst
      (orThrow_eq_ok.mp hCheckpoint) fun other => ?_
    have hRelease {α : Type} (f : Option Int → α) : Tx.Keeps (fun db => readCheckpointRow db other) (do
        let lockReleasedAt ← releaseIfHeld planId executionId
        pure (f lockReleasedAt)) :=
      .bind (keeps_checkpoint_releaseIfHeld other planId executionId) fun _ => .pure _
    cases runSnapshot with
    | none =>
      exact Tx.Respects.bind (keeps_checkpoint_persist other _ _) (fun _ => hRelease _) env db₃ data db' hRest
    | some run =>
      exact Tx.Respects.bind (keeps_checkpoint_persist other _ _) (fun _ =>
        .bind (keeps_checkpoint_pauseEvents other _ _ _ _) fun _ => hRelease _) env db₃ data db' hRest

theorem pauseBefore_effect (planId executionId stepId : String) (stageId : Option String) (stepIndex : Int)
    (runSnapshot : Run) (reviewExecutionId : Option String) :
    let call := StepCall.pauseBefore planId executionId stepId stageId stepIndex runSnapshot reviewExecutionId
    call.after env db = db ∨ call.Wrote db (call.after env db) := by
  intro call
  change (transact (pauseBeforeExecutionForReviewAtomic planId executionId stepId stageId stepIndex runSnapshot
    reviewExecutionId) env db).2 = db ∨ call.Wrote db (transact (pauseBeforeExecutionForReviewAtomic planId
      executionId stepId stageId stepIndex runSnapshot reviewExecutionId) env db).2
  cases hRun : pauseBeforeExecutionForReviewAtomic planId executionId stepId stageId stepIndex runSnapshot
      reviewExecutionId env db with
  | error err => exact .inl (by rw [transact_of_throw hRun])
  | ok result =>
    obtain ⟨outcome, db'⟩ := result
    rw [transact_of_ok hRun]
    unfold pauseBeforeExecutionForReviewAtomic at hRun
    cases hId : ensureAttemptIdentity planId executionId stepId with
    | some err =>
      rw [hId] at hRun
      cases hRun
      exact .inl rfl
    | none =>
      rw [hId] at hRun
      dsimp only at hRun
      by_cases hIdentity : runSnapshot.identity = none
      · rw [if_pos hIdentity] at hRun
        cases hRun
        exact .inl rfl
      · rw [if_neg hIdentity, Tx.ask_bind, Tx.get_bind] at hRun
        obtain ⟨checkpoint, db₁, hCheckpoint, hRest⟩ := Tx.bind_eq_ok.mp hRun
        refine .inr (.of_parts ⟨hId, hIdentity⟩ (fun _ => rfl) (orThrow_eq_ok.mp hCheckpoint) fun other => ?_)
        exact Tx.Respects.bind (keeps_checkpoint_persist other _ _) (fun _ =>
          .bind (keeps_checkpoint_pauseEvents other _ _ _ _) fun _ =>
            .bind (keeps_checkpoint_releaseIfHeld other planId executionId) fun _ => .pure _)
          env db₁ outcome db' hRest

/-- A call changes nothing about checkpoints or writes that of its plan. -/
theorem StepCall.effect (call : StepCall) (env : Env) (db : Db) :
    call.after env db = db ∨ call.Wrote db (call.after env db) := by
  cases call with
  | checkpointBefore planId stepIndex => exact checkpoint_effect rfl rfl trivial rfl
  | checkpointAfter planId stepIndex totalSteps => exact checkpoint_effect rfl rfl trivial rfl
  | begin planId executionId stepId stepIndex sideEffectClass =>
    exact begin_effect planId executionId stepId stepIndex sideEffectClass
  | finalize planId executionId stepId stepIndex attemptNumber mode =>
    exact finalize_effect planId executionId stepId stepIndex attemptNumber mode
  | pause planId executionId stepId stepIndex attemptNumber reason stageId runSnapshot reviewExecutionId =>
    exact pause_effect planId executionId stepId stepIndex attemptNumber reason stageId runSnapshot
      reviewExecutionId
  | pauseBefore planId executionId stepId stageId stepIndex runSnapshot reviewExecutionId =>
    exact pauseBefore_effect planId executionId stepId stageId stepIndex runSnapshot reviewExecutionId

end Effects

/-- Where the call's own checks let it through, a terminal checkpoint of its plan already says what it writes. -/
def StepCall.mindful (call : StepCall) (db : Db) : Prop :=
  ∀ row, readCheckpointRow db call.planId = some row → row.status.terminalCheckpoint → call.admitted db →
    (call.change row).progress = row.progress

/-- The terminal checkpoints of the first state stand in the second one. -/
def TerminalStays (db db' : Db) : Prop :=
  ∀ planId row, readCheckpointRow db planId = some row → row.status.terminalCheckpoint →
    ∃ row', readCheckpointRow db' planId = some row' ∧ row'.progress = row.progress

theorem Checkpoint.status_of_progress {row row' : Checkpoint} (h : row'.progress = row.progress) :
    row'.status = row.status := congrArg Prod.fst h

instance : Std.Refl TerminalStays := ⟨fun _ _ row h _ => ⟨row, h, rfl⟩⟩

instance : IsTrans Db TerminalStays := by
  refine ⟨fun db db' db'' h h' planId row hRow hTerminal => ?_⟩
  obtain ⟨row', hRow', hSame⟩ := h planId row hRow hTerminal
  obtain ⟨row'', hRow'', hSame'⟩ := h' planId row' hRow' (Checkpoint.status_of_progress hSame ▸ hTerminal)
  exact ⟨row'', hRow'', hSame'.trans hSame⟩

theorem StepCall.terminalStays_of_mindful {call : StepCall} {db : Db} (env : Env) (h : call.mindful db) :
    TerminalStays db (call.after env db) := by
  intro planId row hRow hTerminal
  obtain hSame | hWrote := call.effect env db
  · rw [hSame]
    exact ⟨row, hRow, rfl⟩
  · by_cases hPlan : planId = call.planId
    · subst hPlan
      obtain ⟨old, row', hOld, hRow', hProgress⟩ := hWrote.written
      have hEq : old = row := Option.some.inj (hOld.symm.trans hRow)
      subst hEq
      exact ⟨row', hRow', hProgress.trans (h old hOld hTerminal hWrote.admitted)⟩
    · exact ⟨row, (hWrote.others planId hPlan).trans hRow, rfl⟩

/-- A call by the worker and at the clock of its environment. -/
def stepNext (op : Env × StepCall) (db : Db) : Db := op.2.after op.1 db

/-- From any database, in every run of step operations of any workers in which no call finds a terminal
checkpoint that it would overwrite, the terminal checkpoints stand. -/
theorem terminal_checkpoint_stays (start db : Db)
    (hRun : Reaches stepNext (fun op db => op.2.mindful db) start db) :
    TerminalStays start db :=
  hRun.relates fun op _ hMindful => op.2.terminalStays_of_mindful op.1 hMindful

section LateWorker

/-- The plan was abandoned while the first worker ran its step: only the checkpoint says so. -/
def abandonedDb : Db :=
  (transact (finalizeExecutionTransition "plan_1" "exec_1" {
    status := some .executionAbandoned, eventType := some .executionAbandoned }) ⟨90000, "worker_2"⟩
    ((beginCall 1 "worker_1").next
      (transact (acquireExecutionLockTx "plan_1" "exec_1" .none) ⟨0, "worker_1"⟩ startedDb).2)).2

def lateCall (stepId : String) : Env × StepCall :=
  (⟨95000, "worker_1"⟩, .finalize "plan_1" "exec_1" stepId 0 1 (.completed 1))

/-- A late call for a step that the execution does not have is refused. -/
theorem abandoned_plan_stays : TerminalStays abandonedDb (stepNext (lateCall "step_b") abandonedDb) := by
  refine terminal_checkpoint_stays abandonedDb _ (.step (lateCall "step_b") .refl ?_)
  rintro row - - ⟨-, hAdmits, -⟩
  exact absurd hAdmits (by decide +kernel)

/-- The first worker completes the abandoned plan. -/
theorem abandoned_plan_completed :
    ¬∀ start db : Db, Reaches stepNext (fun _ _ => True) start db → TerminalStays start db := by
  intro h
  have hStays := h abandonedDb (stepNext (lateCall "step_a") abandonedDb) (.step (lateCall "step_a") .refl trivial)
  have hBefore : (readCheckpointRow abandonedDb "plan_1").map Checkpoint.status = some .executionAbandoned := by
    decide +kernel
  have hAfter : (readCheckpointRow (stepNext (lateCall "step_a") abandonedDb) "plan_1").map
      Checkpoint.status = some .completed := by decide +kernel
  obtain ⟨row, hRow, hStatus⟩ := Option.map_eq_some_iff.mp hBefore
  obtain ⟨row', hRow', hProgress⟩ := hStays "plan_1" row hRow (by rw [hStatus]; rfl)
  rw [hRow', Option.map_some, Checkpoint.status_of_progress hProgress, hStatus] at hAfter
  exact absurd hAfter (by decide)

end LateWorker

end CommandConsole.Execution
