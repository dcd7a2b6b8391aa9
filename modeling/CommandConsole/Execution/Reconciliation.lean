import CommandConsole.Execution.Integrity

/-! # Reconciliation

Validation may write: it expires recovery items and marks a plan with issues
corrupted. Reconciliation validates under the held lock and then decides from
the checkpoint, the attempts and the persisted step what happens next.
-/
namespace CommandConsole.Execution
open Library
set_option autoImplicit false

def maxExecutionDurationMs : Int := 3600000

def maxExecutionAttempts : Nat := 50

/-- Operations that run one transaction after the other. -/
abbrev Op (α : Type) := Library.Session Env Db α

/-- An operation's own transaction. -/
def transaction {α : Type} (work : Tx (Result α)) : Op (Result α) := fun clock n db =>
  ((transact work (clock n) db).1, n + 1, (transact work (clock n) db).2)

theorem transaction_bind {α β : Type} (work : Tx (Result α)) (f : Result α → Op β) (clock : Nat → Env)
    (n : Nat) (db : Db) :
    (transaction work >>= f) clock n db =
      f (transact work (clock n) db).1 clock (n + 1) (transact work (clock n) db).2 := rfl

/-- `getDatabaseNowMs`. -/
def databaseNow : Op Int := do
  let env ← Session.ask
  pure env.nowMs

/-- The payload of a valid plan; the ledger is not part of it. -/
structure Validation where
  checkpoint : Option Checkpoint
  activeLock : Option LockRow
  attempts : List AttemptRow
  recovery : List RecoveryRow

/-- `validateExecutionIntegrity`; every issue marks the plan corrupted. -/
def validateExecutionIntegrity (planId : String) (planIds : Option (List String)) : Op (Result Validation) := do
  if isBlank planId then pure (.error ⟨"INVALID_STATE", "planId is required for integrity validation."⟩)
  else do
    let _ ← transaction (expireOperatorRecoveryItems planId)
    let db ← Session.read id
    let ids := planIds.map renormalizedIds
    if collectIntegrityIssues db planId ids ≠ [] then do
      if (readCheckpointRow db planId).isSome then do
        let _ ← transaction (setExecutionCheckpointStatus planId .corrupted {})
        let _ ← transaction (appendLedgerEvent {
          planId, executionId := (activeLocks db planId).head?.map LockRow.executionId
          eventType := .executionCorrupted })
        pure (.error ⟨"CORRUPTED", s!"Execution integrity validation failed for {planId}."⟩)
      else pure (.error ⟨"CORRUPTED", s!"Execution integrity validation failed for {planId}."⟩)
    else
      pure (.ok {
        checkpoint := readCheckpointRow db planId
        activeLock := (activeLocks db planId).head?
        attempts := listExecutionAttempts db planId
        recovery := listRecoveryQueue db planId })

inductive RecoveryDecision where
  | operatorRecovery
  | retry
  | guardedRetry
  deriving DecidableEq

/-- The attempt fields that a decision reads. -/
structure AttemptEvidence where
  sideEffectClass : SideEffectClass
  idempotencyKey : Option String
  deriving DecidableEq

def decideRecoveryAction (step : Option CheckpointStep) (attempt : AttemptEvidence) :
    RecoveryDecision × SideEffectClass :=
  let sideEffectClass := attempt.sideEffectClass
  let sideEffects := (step.map CheckpointStep.sideEffects).getD []
  let hasIdempotencyEvidence := (truthy attempt.idempotencyKey).isSome ||
    (step.any fun row => row.idempotent || !isBlank (row.idempotencyKey.getD ""))
  if "unknown" ∈ sideEffects then (.operatorRecovery, sideEffectClass)
  else if (step.any fun row => row.retryStrategy = .manualOnly) && sideEffectClass ≠ .pureRead then
    (.operatorRecovery, sideEffectClass)
  else
    match sideEffectClass with
    | .pureRead => (.retry, .pureRead)
    | .localWrite =>
      if sideEffects.isEmpty || !hasIdempotencyEvidence then (.operatorRecovery, .localWrite)
      else (.guardedRetry, .localWrite)
    | .networkCall => (.operatorRecovery, .networkCall)
    | .externalWrite => (.operatorRecovery, .externalWrite)
    | .destructive => (.operatorRecovery, .destructive)
    | .humanReview => (.operatorRecovery, .humanReview)
    | _ => (.operatorRecovery, .unknown)

structure AttemptStats where
  totalAttempts : Nat
  firstCreatedAt : Option Int

def getExecutionAttemptStats (attempts : List AttemptRow) (executionId : String) : AttemptStats :=
  let relevant := attempts.filter fun attempt => attempt.executionId = executionId
  ⟨relevant.length, (relevant.map AttemptRow.createdAt).min?⟩

/-- `/^attempt\./`. -/
def EventType.ofAttempt : EventType → Bool
  | .attemptStarted | .attemptHeartbeat | .attempt _ => true
  | _ => false

structure AttemptLedgerState where
  attemptNumber : Option Int
  started : Bool
  completed : Bool
  failed : Bool
  cancelled : Bool
  terminalEventType : Option EventType
  deriving DecidableEq

/-- Newest attempt first, newest event first. -/
def laterAttemptEvent (left right : LedgerRow) : Bool :=
  right.attemptNumber.getD 0 < left.attemptNumber.getD 0 ||
    left.attemptNumber.getD 0 = right.attemptNumber.getD 0 && right.createdAt ≤ left.createdAt

def getLatestAttemptLedgerState (ledger : List LedgerRow) (executionId : String) (stepId : Option String)
    (attemptNumber : Option Int) : AttemptLedgerState :=
  let relevant := ((ledger.filter fun event =>
      event.executionId.getD "" = executionId && event.stepId.getD "" = stepId.getD "" &&
        event.eventType.ofAttempt &&
        (attemptNumber = none || event.attemptNumber.getD 0 = attemptNumber.getD 0)).reverse).insertionSort
    fun left right => laterAttemptEvent left right
  match relevant with
  | [] => ⟨attemptNumber, false, false, false, false, none⟩
  | newest :: _ =>
    let resolved := attemptNumber.getD (newest.attemptNumber.getD 0)
    let events := relevant.filter fun event => event.attemptNumber.getD 0 = resolved
    { attemptNumber := some resolved
      started := events.any fun event => event.eventType = .attemptStarted
      completed := events.any fun event => event.eventType = .attempt .completed
      failed := events.any fun event => event.eventType = .attempt .failed
      cancelled := events.any fun event => event.eventType = .attempt .cancelled
      terminalEventType := (events.find? fun event => event.eventType ∈
        [.attempt .completed, .attempt .failed, .attempt .cancelled, .attempt .abandoned]).map
          LedgerRow.eventType }

structure PersistedStepState where
  status : Option Status
  started : Bool
  completed : Bool
  failed : Bool
  pausedForReview : Bool
  deriving DecidableEq

def getPersistedStepRecoveryState (db : Db) (executionId : String) (stepId : Option String) :
    PersistedStepState :=
  if isBlank executionId || isBlank (stepId.getD "") then ⟨none, false, false, false, false⟩
  else
    let step := (loadExecutionState db executionId).steps.find? fun row => row.id = stepId.getD ""
    let status := step.map StepRow.status
    { status := status
      started := (step.bind StepRow.startedAt).isSome
      completed := status = some .completed
      failed := status = some .failed
      pausedForReview := status = some .pausedForReview }

inductive ReconcileAction where
  | none
  | abandon
  | completed
  | cancelled
  | halt
  | operatorRecovery
  | continue
  | retry
  | guardedRetry
  | noop
  | cancelPending
  | resume
  deriving DecidableEq

structure Reconciliation where
  action : ReconcileAction
  checkpoint : Option Checkpoint
  executionId : String
  nextStepIndex : Option Int := Option.none
  deriving DecidableEq

/-- One transition transaction and the outcome it stands for. -/
def transition (planId executionId : String) (options : TransitionOptions) (action : ReconcileAction)
    (fallback : Option Checkpoint) : Op (Result Reconciliation) := do
  match ← transaction (finalizeExecutionTransition planId executionId options) with
  | .error err => pure (.error err)
  | .ok checkpoint => pure (.ok ⟨action, checkpoint <|> fallback, executionId, Option.none⟩)

def keptIndices (checkpoint : Checkpoint) : CheckpointOverrides where
  currentStep := some checkpoint.currentStep
  lastCompletedStepIndex := some checkpoint.lastCompletedStepIndex

/-- The queue item and the pause stand or fall together. -/
def queueRecoveryReviewTx (planId executionId : String) (checkpoint : Checkpoint) (stepId : Option String)
    (reason : String) : Tx (Result Reconciliation) := do
  let _ ← orThrow (enqueueOperatorRecovery {
    planId, executionId, stepId, reason, lastState := checkpoint.status
    safeOptions := ["inspect", "cancel"], recommended := some "inspect", ttlMs := operatorRecoveryTtlMs })
  let paused ← orThrow (finalizeExecutionTransition planId executionId {
    status := some .pauseForOperatorRecovery, overrides := keptIndices checkpoint
    eventType := some .recoveryAmbiguous, stepId })
  success ⟨.operatorRecovery, paused <|> some checkpoint, executionId, Option.none⟩

def queueRecoveryReview (planId executionId : String) (checkpoint : Checkpoint) (stepId : Option String)
    (reason : String) : Op (Result Reconciliation) :=
  transaction (queueRecoveryReviewTx planId executionId checkpoint stepId reason)

def pauseForExistingRecoveryQueue (planId executionId : String) (checkpoint : Checkpoint)
    (recoveryQueue : List RecoveryRow) : Op (Result Reconciliation) :=
  transition planId executionId {
    status := some .pauseForOperatorRecovery, overrides := keptIndices checkpoint
    eventType := some .recoveryPending, stepId := recoveryQueue.head?.bind RecoveryRow.stepId }
    .operatorRecovery (some checkpoint)

def outcome (action : ReconcileAction) (checkpoint : Checkpoint) (executionId : String)
    (nextStepIndex : Option Int) : Op (Result Reconciliation) :=
  pure (.ok ⟨action, some checkpoint, executionId, nextStepIndex⟩)

/-- `firstCreatedAt != null && now - firstCreatedAt > MAX_EXECUTION_DURATION_MS`. -/
def AttemptStats.overdue (stats : AttemptStats) (now : Int) : Bool :=
  stats.firstCreatedAt.any fun created => maxExecutionDurationMs < now - created

def abandonForAttempts (planId executionId : String) (checkpoint : Checkpoint) (stepId : Option String) :
    Op (Result Reconciliation) :=
  transition planId executionId {
    status := some .executionAbandoned, eventType := some .executionAbandoned, stepId } .abandon
    (some checkpoint)

/-- The terminal and operator-held checkpoints other than completed and cancelled ones. -/
def reconcileHalted (plan : CheckpointPlan) (validation : Validation) (lock : LockRow)
    (checkpoint : Checkpoint) : Op (Result Reconciliation) := do
  if checkpoint.status = .failed then do
    let stats := getExecutionAttemptStats validation.attempts lock.executionId
    let now ← databaseNow
    if stats.overdue now then
      queueRecoveryReview plan.id lock.executionId checkpoint
        ((atIndex plan.steps checkpoint.currentStep).map CheckpointStep.id) "execution_duration_exceeded"
    else if maxExecutionAttempts ≤ stats.totalAttempts then
      abandonForAttempts plan.id lock.executionId checkpoint Option.none
    else outcome .halt checkpoint lock.executionId Option.none
  else outcome .halt checkpoint lock.executionId Option.none

/-- What the running branch gathers before it decides. -/
structure StepEvidence where
  step : Option CheckpointStep
  stats : AttemptStats
  latestAttempt : Option AttemptRow
  attemptLedger : AttemptLedgerState
  persistedStep : PersistedStepState

/-- The ledger is read from the validation payload, which has none. -/
def gatherEvidence (plan : CheckpointPlan) (validation : Validation) (executionId : String)
    (checkpoint : Checkpoint) (db : Db) : StepEvidence :=
  let step := atIndex plan.steps checkpoint.currentStep
  let stepId := step.map CheckpointStep.id
  let attemptsForStep := (validation.attempts.filter fun attempt =>
      attempt.executionId = executionId && some attempt.stepId = stepId).insertionSort
    fun left right => right.attemptNumber ≤ left.attemptNumber
  let latestAttempt := attemptsForStep.head?
  { step := step
    stats := getExecutionAttemptStats validation.attempts executionId
    latestAttempt := latestAttempt
    attemptLedger := getLatestAttemptLedgerState [] executionId stepId
      (latestAttempt.map AttemptRow.attemptNumber)
    persistedStep := getPersistedStepRecoveryState db executionId stepId }

namespace StepEvidence

def stepId (evidence : StepEvidence) : Option String := evidence.step.map CheckpointStep.id

def latestIs (evidence : StepEvidence) (status : AttemptStatus) : Bool :=
  evidence.latestAttempt.any fun attempt => attempt.status = status

def hasStepStartedEvidence (evidence : StepEvidence) : Bool :=
  evidence.latestAttempt.isSome || evidence.attemptLedger.started || evidence.persistedStep.started ||
    evidence.persistedStep.pausedForReview || evidence.persistedStep.failed || evidence.persistedStep.completed

def hasStepTerminalEvidence (evidence : StepEvidence) : Bool :=
  evidence.attemptLedger.completed || evidence.attemptLedger.failed || evidence.attemptLedger.cancelled ||
    evidence.persistedStep.failed || evidence.persistedStep.completed

/-- The attempt fields a decision after a failure reads; without an attempt, those of the plan. -/
def failedAttempt (evidence : StepEvidence) : AttemptEvidence :=
  match evidence.latestAttempt with
  | some attempt => ⟨attempt.sideEffectClass, attempt.idempotencyKey⟩
  | none => ⟨(evidence.step.map CheckpointStep.sideEffectClass).getD .unknown, none⟩

end StepEvidence

def RecoveryDecision.action : RecoveryDecision → ReconcileAction
  | .operatorRecovery => .operatorRecovery
  | .retry => .retry
  | .guardedRetry => .guardedRetry

def reconcileFailedAttempt (plan : CheckpointPlan) (lock : LockRow) (checkpoint : Checkpoint)
    (evidence : StepEvidence) : Op (Result Reconciliation) :=
  let decision := decideRecoveryAction evidence.step evidence.failedAttempt
  if decision.1 = .operatorRecovery then
    queueRecoveryReview plan.id lock.executionId checkpoint evidence.stepId
      s!"unsafe_recovery_{decision.2.text}"
  else outcome decision.1.action checkpoint lock.executionId (some checkpoint.currentStep)

/-- A requested cancellation: an attempt that still runs is cancelled first, in its own transaction. -/
def reconcileCancellation (plan : CheckpointPlan) (lock : LockRow) (checkpoint : Checkpoint)
    (evidence : StepEvidence) : Op (Result Reconciliation) := do
  let cancel := transition plan.id lock.executionId {
    status := some .cancelled, overrides := { currentStep := some checkpoint.currentStep }
    eventType := some .executionCancelled, stepId := evidence.stepId } .cancelled (some checkpoint)
  match evidence.latestAttempt.filter fun attempt => attempt.status = .running with
  | none => cancel
  | some attempt =>
    match ← transaction
        (cancelExecutionAttempt plan.id lock.executionId attempt.stepId attempt.attemptNumber) with
    | .error err => pure (.error err)
    | .ok _ => cancel

/-- The decision of the running branch; the early returns in the order of the source. -/
def reconcileStep (plan : CheckpointPlan) (lock : LockRow) (checkpoint : Checkpoint) (evidence : StepEvidence)
    (now : Int) : Op (Result Reconciliation) :=
  let review := queueRecoveryReview plan.id lock.executionId checkpoint evidence.stepId
  if evidence.stats.overdue now then review "execution_duration_exceeded"
  else if maxExecutionAttempts ≤ evidence.stats.totalAttempts then
    abandonForAttempts plan.id lock.executionId checkpoint evidence.stepId
  else if evidence.persistedStep.completed && !evidence.attemptLedger.completed &&
      !evidence.latestIs .completed then
    review "recovery_snapshot_ledger_mismatch"
  else if evidence.attemptLedger.completed || evidence.latestIs .completed then do
    match ← transaction (checkpointAfterStep plan.id checkpoint.currentStep plan.steps.length) with
    | .ok advanced => outcome .continue advanced lock.executionId Option.none
    | .error _ => outcome .continue checkpoint lock.executionId Option.none
  else if evidence.attemptLedger.failed || evidence.latestIs .failed then
    reconcileFailedAttempt plan lock checkpoint evidence
  else if evidence.latestAttempt.any fun attempt => attempt.status = .running && now < attempt.leaseExpiresAt then
    outcome (if checkpoint.cancellationRequested then .cancelPending else .noop) checkpoint lock.executionId
      Option.none
  else if checkpoint.cancellationRequested then reconcileCancellation plan lock checkpoint evidence
  else if evidence.hasStepStartedEvidence && !evidence.hasStepTerminalEvidence then review "recovery_ambiguous"
  else if evidence.attemptLedger.started || evidence.latestAttempt.isSome then review "recovery_ambiguous"
  else outcome .resume checkpoint lock.executionId (some checkpoint.currentStep)

def reconcileRunning (plan : CheckpointPlan) (validation : Validation) (lock : LockRow)
    (checkpoint : Checkpoint) : Op (Result Reconciliation) := do
  let evidence ← Session.read (gatherEvidence plan validation lock.executionId checkpoint)
  let now ← databaseNow
  reconcileStep plan lock checkpoint evidence now

/-- Paused, pending and awaiting-review checkpoints: a safe boundary. -/
def reconcileBoundary (plan : CheckpointPlan) (lock : LockRow) (checkpoint : Checkpoint) :
    Op (Result Reconciliation) :=
  if checkpoint.cancellationRequested then
    transition plan.id lock.executionId {
      status := some .cancelled, overrides := { currentStep := some checkpoint.currentStep }
      eventType := some .executionCancelled } .cancelled (some checkpoint)
  else outcome .resume checkpoint lock.executionId (some (checkpoint.lastCompletedStepIndex + 1))

/-- The case split over the status of a validated checkpoint. -/
def reconcileCheckpoint (plan : CheckpointPlan) (validation : Validation) (lock : LockRow)
    (checkpoint : Checkpoint) : Op (Result Reconciliation) :=
  let unresolved := validation.recovery.filter fun row => row.resolvedAt = Option.none
  if unresolved ≠ [] then pauseForExistingRecoveryQueue plan.id lock.executionId checkpoint unresolved
  else
    match checkpoint.status with
    | .completed => outcome .completed checkpoint lock.executionId Option.none
    | .cancelled => transition plan.id lock.executionId {} .cancelled (some checkpoint)
    | .failed | .corrupted | .executionAbandoned | .pauseForOperatorRecovery =>
      reconcileHalted plan validation lock checkpoint
    | .running => reconcileRunning plan validation lock checkpoint
    | .paused | .pending | .awaitingReview => reconcileBoundary plan lock checkpoint
    | .pausedForReview => outcome .none checkpoint lock.executionId Option.none

/-- What follows once no recovery item has just expired. -/
def reconcileValidated (plan : CheckpointPlan) (lock : LockRow) : Op (Result Reconciliation) := do
  match ← validateExecutionIntegrity plan.id (some plan.stepIds) with
  | .error err => pure (.error err)
  | .ok validation =>
    match validation.checkpoint with
    | none => pure (.ok ⟨.none, Option.none, lock.executionId, Option.none⟩)
    | some checkpoint => reconcileCheckpoint plan validation lock checkpoint

def reconcileExecutionState (plan : CheckpointPlan) : Op (Result Reconciliation) := do
  if plan.id = "" then pure (.error ⟨"INVALID_STATE", "plan id is required for reconciliation."⟩)
  else do
    match ← transaction (expireOperatorRecoveryItems plan.id) with
    | .error err => pure (.error err)
    | .ok expired =>
      let db ← Session.read id
      match (activeLocks db plan.id).head? with
      | none =>
        pure (.error ⟨"LOCK_REQUIRED", s!"Execution lock is required to reconcile {plan.id}."⟩)
      | some lock =>
        let checkpoint := readCheckpointRow db plan.id
        if expired ≠ [] then
          transition plan.id lock.executionId {
            status := checkpoint.map fun _ => .executionAbandoned, eventType := some .executionAbandoned
            requireCheckpoint := false } .abandon checkpoint
        else reconcileValidated plan lock

end CommandConsole.Execution
