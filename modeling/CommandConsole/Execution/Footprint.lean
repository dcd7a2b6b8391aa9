import CommandConsole.Execution.LockOperations
import CommandConsole.Execution.LifecycleAttemptAtomic
import CommandConsole.Execution.Reconciliation

/-! # What each operation writes

A view of the database that ignores the tables an operation writes is the same
before and after it. Each lemma names those tables; the views are the business
of the modules that use them.
-/
namespace CommandConsole.Execution
open Library
set_option autoImplicit false

section Views

variable {τ : Type}

def IgnoresExecutions (view : Db → τ) : Prop :=
  ∀ (db : Db) (executions : PlainTable ExecutionRow.id), view { db with executions } = view db

def IgnoresCheckpoints (view : Db → τ) : Prop :=
  ∀ (db : Db) (executionState : PlainTable Checkpoint.planId), view { db with executionState } = view db

def IgnoresLocks (view : Db → τ) : Prop :=
  ∀ (db : Db) (executionLocks : PlainTable LockRow.planId), view { db with executionLocks } = view db

def IgnoresAttempts (view : Db → τ) : Prop :=
  ∀ (db : Db) (executionAttempts : Table AttemptRow.key AttemptRow.idempotencyKey),
    view { db with executionAttempts } = view db

def IgnoresSteps (view : Db → τ) : Prop :=
  ∀ (db : Db) (executionSteps : Table StepRow.key StepRow.position), view { db with executionSteps } = view db

def IgnoresStages (view : Db → τ) : Prop :=
  ∀ (db : Db) (executionStages : Table StageRow.key StageRow.position),
    view { db with executionStages } = view db

def IgnoresQueue (view : Db → τ) : Prop :=
  ∀ (db : Db) (executionRecoveryQueue : List RecoveryRow), view { db with executionRecoveryQueue } = view db

def IgnoresEvent (view : Db → τ) (eventType : EventType) : Prop :=
  ∀ (db : Db) (row : LedgerRow), row.eventType = eventType → view (db.log row) = view db

end Views

section Footprints

variable {τ : Type} {view : Db → τ}

theorem keeps_appendLedgerEventTx {event : LedgerEvent} (hEvent : IgnoresEvent view event.eventType) :
    Tx.Keeps view (appendLedgerEventTx event) :=
  .bind .ask fun _ => .bind (.modify fun db => hEvent db _ rfl) fun _ => .pure _

theorem keeps_appendLedgerEvent {event : LedgerEvent} (hEvent : IgnoresEvent view event.eventType) :
    Tx.Keeps view (appendLedgerEvent event) := by
  unfold appendLedgerEvent
  split
  · exact .pure _
  · exact .bind (keeps_appendLedgerEventTx hEvent) fun _ => .pure _

theorem keeps_orThrow {α : Type} {work : Tx (Result α)} (h : Tx.Keeps view work) :
    Tx.Keeps view (orThrow work) := by
  refine .bind h fun result => ?_
  split
  · exact .pure _
  · exact .throw _

theorem keeps_identified {α : Type} {planId executionId : String} {work : Tx (Result α)}
    (h : Tx.Keeps view work) : Tx.Keeps view (identified planId executionId work) := by
  unfold identified
  split
  · exact .pure _
  · exact h

theorem view_syncLease (hExecutions : IgnoresExecutions view) (db : Db) (executionId : String)
    (owner : Option String) (expires : Option Int) :
    view (db.syncLease executionId owner expires) = view db := by
  unfold Db.syncLease
  split
  · rfl
  · exact hExecutions db _

theorem view_touchMetrics (hExecutions : IgnoresExecutions view) (db : Db) (executionId : String)
    (updates : MetricUpdates) : view (db.touchMetrics executionId updates) = view db := by
  unfold Db.touchMetrics
  split
  · rfl
  · exact hExecutions db _

theorem view_stepsAndStages (hSteps : IgnoresSteps view) (hStages : IgnoresStages view) (db : Db)
    (executionSteps : Table StepRow.key StepRow.position) (executionStages : Table StageRow.key StageRow.position) :
    view { db with executionSteps, executionStages } = view db :=
  (hStages { db with executionSteps } executionStages).trans (hSteps db executionSteps)

theorem keeps_changeCheckpoint (hCheckpoints : IgnoresCheckpoints view) (planId : String)
    (change : Checkpoint → Checkpoint) : Tx.Keeps view (changeCheckpoint planId change) := by
  refine .bind .ask fun env => .bind .get fun db => ?_
  split
  · exact .pure _
  · exact .bind (.modify fun db => hCheckpoints db _) fun _ => .pure _

section Locks

variable (hLocks : IgnoresLocks view) (hExecutions : IgnoresExecutions view)
  (planId executionId : String) (scope : TenantScope)

include hLocks hExecutions

theorem keeps_writeAcquiredLockTx (existing : Option LockRow) {eventType : EventType}
    (hEvent : IgnoresEvent view eventType) :
    Tx.Keeps view (writeAcquiredLockTx planId executionId scope existing eventType) :=
  .bind .ask fun _ => .bind (.modify fun db => hLocks db _) fun _ =>
    .bind (.modify fun db => view_syncLease hExecutions db _ _ _) fun _ =>
      .bind (keeps_appendLedgerEventTx hEvent) fun _ => .pure _

theorem keeps_renewExecutionLockTx (hRenewed : IgnoresEvent view .leaseRenewed)
    (hConflict : IgnoresEvent view .leaseConflict) :
    Tx.Keeps view (renewExecutionLockTx planId executionId scope) := by
  have hRefused (message : String) : Tx.Keeps view (lockConflictTx planId executionId message) :=
    .bind (keeps_appendLedgerEventTx hConflict) fun _ => .pure _
  refine .bind .ask fun env => .bind .get fun db => ?_
  split
  · exact .pure _
  · refine .ite (.pure _) (.ite (hRefused _) (.ite (.pure _) (.ite (hRefused _) ?_)))
    exact .bind (.modify fun db => hLocks db _) fun _ =>
      .bind (.modify fun db => view_syncLease hExecutions db _ _ _) fun _ =>
        .bind (keeps_appendLedgerEventTx hRenewed) fun _ => .pure _

theorem keeps_releaseExecutionLockTx (hReleased : IgnoresEvent view .leaseReleased) :
    Tx.Keeps view (releaseExecutionLockTx planId executionId scope) := by
  refine .bind .ask fun env => .bind .get fun db => ?_
  split
  · exact .pure _
  · refine .ite (.pure _) (.ite (.pure _) ?_)
    exact .bind (.modify fun db => hLocks db _) fun _ =>
      .bind (.modify fun db => view_syncLease hExecutions db _ _ _) fun _ =>
        .bind (keeps_appendLedgerEventTx hReleased) fun _ => .pure _

theorem keeps_releaseIfHeld (hReleased : IgnoresEvent view .leaseReleased) :
    Tx.Keeps view (releaseIfHeld planId executionId) := by
  refine .bind (keeps_identified (keeps_releaseExecutionLockTx hLocks hExecutions _ _ _ hReleased))
    fun result => ?_
  split
  · exact .pure _
  · exact .ite (.pure _) (.throw _)

end Locks

section Snapshots

theorem keeps_checkExecutionTransition (row : ExecutionRow) : Tx.Keeps view (checkExecutionTransition row) := by
  refine .bind .get fun db => ?_
  split
  · exact .pure _
  · exact .ite (.pure _) (.throw _)

theorem keeps_checkStageTransition (row : StageRow) : Tx.Keeps view (checkStageTransition row) := by
  refine .bind .get fun db => ?_
  split
  · exact .pure _
  · exact .ite (.pure _) (.throw _)

theorem keeps_checkStepTransition (row : StepRow) : Tx.Keeps view (checkStepTransition row) := by
  refine .bind .get fun db => ?_
  split
  · exact .pure _
  · exact .ite (.pure _) (.throw _)

theorem keeps_requireExecution (executionId : String) : Tx.Keeps view (requireExecution executionId) := by
  refine .bind .get fun db => ?_
  split
  · exact .pure _
  · exact .throw _

theorem keeps_replaceExecutionSteps (hSteps : IgnoresSteps view) (executionId : String)
    (rows : List StepRow) : Tx.Keeps view (replaceExecutionSteps executionId rows) := by
  refine .bind (.forEach (fun row => .write fun db db' h => ?_) rows) fun _ => .modify fun db => hSteps db _
  split at h
  · cases h
    exact hSteps db _
  · cases h

theorem keeps_replaceExecutionStages (hStages : IgnoresStages view) (executionId : String)
    (rows : List StageRow) : Tx.Keeps view (replaceExecutionStages executionId rows) := by
  refine .bind (.forEach (fun row => .write fun db db' h => ?_) rows) fun _ => .modify fun db => hStages db _
  split at h
  · cases h
    exact hStages db _
  · cases h

theorem keeps_persistExecutionSnapshot (hExecutions : IgnoresExecutions view) (hSteps : IgnoresSteps view)
    (hStages : IgnoresStages view) (run : Run) (options : PersistOptions) :
    Tx.Keeps view (persistExecutionSnapshot run options) := by
  unfold persistExecutionSnapshot
  split
  · exact .throw _
  · exact .bind .ask fun _ => .bind (keeps_checkExecutionTransition _) fun _ =>
      .bind (.forEach keeps_checkStageTransition _) fun _ =>
        .bind (.forEach keeps_checkStepTransition _) fun _ =>
          .bind (.modify fun db => hExecutions db _) fun _ =>
            .bind (keeps_replaceExecutionStages hStages _ _) fun _ =>
              .bind (keeps_replaceExecutionSteps hSteps _ _) fun _ =>
                .bind (.forEach keeps_requireExecution _) fun _ =>
                  .bind (.forEach keeps_requireExecution _) fun _ => .pure _

theorem keeps_reloadExecution (executionId : String) (execution : ExecutionRow) :
    Tx.Keeps view (reloadExecution executionId execution) := .bind .get fun _ => .pure _

theorem keeps_pauseEvents (hStage : IgnoresEvent view .stagePausedForReview)
    (hReview : IgnoresEvent view .reviewRequested) (hPaused : IgnoresEvent view .executionPaused)
    (planId executionId stepId : String) (stageId : Option String) :
    Tx.Keeps view (pauseEvents planId executionId stepId stageId) :=
  .bind (keeps_orThrow (keeps_appendLedgerEvent hStage)) fun _ =>
    .bind (keeps_orThrow (keeps_appendLedgerEvent hReview)) fun _ =>
      .bind (keeps_orThrow (keeps_appendLedgerEvent hPaused)) fun _ => .pure _

end Snapshots

section Attempts

theorem keeps_caught {α : Type} {work : Tx (Result α)} (h : Tx.Keeps view work) :
    Tx.Keeps view (caught work) := by
  intro env db result db' hRun
  unfold caught at hRun
  cases hWork : work env db with
  | error err =>
    rw [hWork] at hRun
    cases hRun
    rfl
  | ok outcome =>
    rw [hWork] at hRun
    exact h env db result db' (hWork.trans hRun)

theorem keeps_createExecutionAttempt (hAttempts : IgnoresAttempts view) (hExecutions : IgnoresExecutions view)
    (hStarted : IgnoresEvent view .attemptStarted) (planId executionId stepId : String)
    (sideEffectClass : SideEffectClass) (idempotencyKey : Option String) :
    Tx.Keeps view (createExecutionAttempt planId executionId stepId sideEffectClass idempotencyKey) := by
  refine keeps_identified (.ite (.pure _) (keeps_caught (.bind .ask fun env => .bind .get fun db => ?_)))
  refine .bind (.write fun db db' h => ?_) fun _ =>
    .bind (.modify fun db => view_touchMetrics hExecutions db _ _) fun _ =>
      .bind (keeps_appendLedgerEventTx hStarted) fun _ => .pure _
  split at h
  · cases h
    exact hAttempts db _
  · cases h

theorem keeps_finalizeAttempt (hAttempts : IgnoresAttempts view) (hExecutions : IgnoresExecutions view)
    {status : AttemptStatus} (hFinal : IgnoresEvent view (.attempt status))
    (planId executionId stepId : String) (attemptNumber : Int) :
    Tx.Keeps view (finalizeAttempt planId executionId stepId attemptNumber status) := by
  refine keeps_identified (.bind .ask fun env => .bind .get fun db => ?_)
  split
  · exact .pure _
  · refine .bind (.modify fun db => hAttempts db _) fun _ => ?_
    have hEvent : Tx.Keeps view (appendLedgerEventTx {
        planId, executionId := some executionId, stepId := some stepId
        attemptNumber := some attemptNumber, eventType := .attempt status }) :=
      keeps_appendLedgerEventTx hFinal
    split
    · exact .bind (.modify fun db => view_touchMetrics hExecutions db _ _) fun _ => .bind hEvent fun _ => .pure _
    · exact .bind hEvent fun _ => .pure _

end Attempts

section Transitions

theorem keeps_transitionCheckpoint (hCheckpoints : IgnoresCheckpoints view) (status : Option Status)
    (overrides : CheckpointOverrides) (checkpoint : Option Checkpoint) :
    Tx.Keeps view (transitionCheckpoint status overrides checkpoint) := by
  refine .bind .ask fun env => ?_
  split
  · exact .bind (.modify fun db => hCheckpoints db _) fun _ => .pure _
  · exact .pure _

theorem keeps_transitionEvent (planId executionId : String) (options : TransitionOptions)
    (hEvent : ∀ eventType, options.eventType = some eventType → IgnoresEvent view eventType) :
    Tx.Keeps view (transitionEvent planId executionId options) := by
  unfold transitionEvent
  split
  · exact .pure _
  · rename_i eventType hType
    exact .bind (keeps_appendLedgerEventTx (hEvent eventType hType)) fun _ => .pure _

theorem keeps_finalizeExecutionTransition (hCheckpoints : IgnoresCheckpoints view)
    (hLocks : IgnoresLocks view) (hExecutions : IgnoresExecutions view)
    (hReleased : IgnoresEvent view .leaseReleased) (planId executionId : String) (options : TransitionOptions)
    (hEvent : ∀ eventType, options.eventType = some eventType → IgnoresEvent view eventType) :
    Tx.Keeps view (finalizeExecutionTransition planId executionId options) := by
  refine .bind .get fun db => .ite (.pure _) ?_
  refine .bind (keeps_transitionCheckpoint hCheckpoints _ _ _) fun _ =>
    .bind (keeps_transitionEvent _ _ _ hEvent) fun _ => .ite ?_ (.pure _)
  exact .bind (keeps_orThrow (keeps_releaseExecutionLockTx hLocks hExecutions _ _ _ hReleased)) fun _ => .pure _

theorem keeps_enqueueOperatorRecovery (hQueue : IgnoresQueue view)
    (hEnqueued : IgnoresEvent view .recoveryEnqueued) (request : RecoveryRequest) :
    Tx.Keeps view (enqueueOperatorRecovery request) := by
  refine keeps_identified (.ite (.pure _) (.bind .ask fun env => .bind (.modify fun db => hQueue db _) fun _ => ?_))
  exact .bind (keeps_appendLedgerEventTx hEnqueued) fun _ => .pure _

theorem keeps_queueRecoveryReviewTx (hCheckpoints : IgnoresCheckpoints view)
    (hLocks : IgnoresLocks view) (hExecutions : IgnoresExecutions view) (hQueue : IgnoresQueue view)
    (hReleased : IgnoresEvent view .leaseReleased) (hEnqueued : IgnoresEvent view .recoveryEnqueued)
    (hAmbiguous : IgnoresEvent view .recoveryAmbiguous) (planId executionId : String) (checkpoint : Checkpoint)
    (stepId : Option String) (reason : String) :
    Tx.Keeps view (queueRecoveryReviewTx planId executionId checkpoint stepId reason) := by
  refine .bind (keeps_orThrow (keeps_enqueueOperatorRecovery hQueue hEnqueued _)) fun _ =>
    .bind (keeps_orThrow (keeps_finalizeExecutionTransition hCheckpoints hLocks hExecutions hReleased _ _ _ ?_))
      fun _ => .pure _
  rintro eventType hType
  cases hType
  exact hAmbiguous

theorem keeps_cancelExecutionAction (hCheckpoints : IgnoresCheckpoints view) (hLocks : IgnoresLocks view)
    (hExecutions : IgnoresExecutions view) (hSteps : IgnoresSteps view) (hStages : IgnoresStages view)
    (hCancelled : IgnoresEvent view .executionCancelled) (hReleased : IgnoresEvent view .leaseReleased)
    (planId executionId : String) (checkpoint : Checkpoint) (reason : String) :
    Tx.Keeps view (cancelExecutionAction planId executionId checkpoint reason) :=
  .bind .ask fun _ => .bind (.modify fun db => hCheckpoints db _) fun _ =>
    .bind (.modify fun db => hExecutions db _) fun _ =>
      .bind (.modify fun db => view_stepsAndStages hSteps hStages db _ _) fun _ =>
        .bind (keeps_requireExecution _) fun _ =>
          .bind (keeps_appendLedgerEventTx hCancelled) fun _ =>
            .bind (keeps_orThrow (keeps_releaseExecutionLockTx hLocks hExecutions _ _ _ hReleased)) fun _ =>
              .pure _

theorem keeps_retryStepAction (hCheckpoints : IgnoresCheckpoints view)
    (hExecutions : IgnoresExecutions view) (hSteps : IgnoresSteps view) (hStages : IgnoresStages view)
    (hRequested : IgnoresEvent view .operatorRetryRequested)
    (planId executionId : String) (checkpoint : Checkpoint) (stepId : Option String) :
    Tx.Keeps view (retryStepAction planId executionId checkpoint stepId) := by
  refine .bind .ask fun env => .bind .get fun db => ?_
  split
  · exact .pure _
  · refine .bind (.modify fun db => hCheckpoints db _) fun _ =>
      .bind (.modify fun db => hExecutions db _) fun _ => .bind (.modify fun db => hSteps db _) fun _ => ?_
    split
    · exact .bind (keeps_requireExecution _) fun _ =>
        .bind (keeps_appendLedgerEventTx hRequested) fun _ => .pure _
    · exact .bind (.modify fun db => hStages db _) fun _ => .bind (keeps_requireExecution _) fun _ =>
        .bind (keeps_appendLedgerEventTx hRequested) fun _ => .pure _

theorem keeps_applyOperatorRecoveryAction (hCheckpoints : IgnoresCheckpoints view) (hLocks : IgnoresLocks view)
    (hExecutions : IgnoresExecutions view) (hSteps : IgnoresSteps view) (hStages : IgnoresStages view)
    (hCancelled : IgnoresEvent view .executionCancelled) (hReleased : IgnoresEvent view .leaseReleased)
    (hRequested : IgnoresEvent view .operatorRetryRequested) (planId executionId : String)
    (options : OperatorOptions) : Tx.Keeps view (applyOperatorRecoveryAction planId executionId options) := by
  refine .ite (.pure _) (.ite (.pure _) (.ite (.pure _) (.ite (.pure _) (.mapThrow (.bind .get fun db => ?_) _))))
  split
  · exact .pure _
  · split
    · exact .pure _
    · refine .ite (.pure _) (.ite (.pure _) ?_)
      split
      · exact keeps_cancelExecutionAction hCheckpoints hLocks hExecutions hSteps hStages hCancelled hReleased _ _ _ _
      · exact keeps_retryStepAction hCheckpoints hExecutions hSteps hStages hRequested _ _ _ _
      · exact .pure _

theorem keeps_expireOperatorRecoveryItems {planId : String}
    (hExpired : ∀ now db, view (expiredDb planId now db) = view db) :
    Tx.Keeps view (expireOperatorRecoveryItems planId) := by
  intro env db result db' h
  rw [expireOperatorRecoveryItems_apply] at h
  cases h
  exact hExpired env.nowMs db

end Transitions

end Footprints

end CommandConsole.Execution
