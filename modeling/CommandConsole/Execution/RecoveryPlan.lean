import CommandConsole.Execution.Reconciliation

/-! # Recovery plans, their stale tokens and their previews

A recovery plan carries the token that its preview made of the stored state. The
token hashes the checkpoint, the steps and the containment counters and names the
execution status, the lock and the last ledger event. The columns of a step row
that only the token reads stand beside the database. -/
namespace CommandConsole.Execution
open Library
set_option autoImplicit false

/-- `attempt_number`, `attempts`, `reason` and `last_output_hash` of a step row. -/
structure StepColumns where
  attemptNumber : Int
  attempts : Int
  reason : Option String
  lastOutputHash : Option String
  deriving DecidableEq

structure RecoveryStore where
  db : Db
  stepColumns : String × String → StepColumns

/-- An execution as `loadExecutionState` returns it, with all the columns. -/
structure RecoverySnapshot where
  execution : ExecutionRow
  stages : List StageRow
  steps : List (StepRow × StepColumns)
  deriving DecidableEq

def loadRecoverySnapshot (store : RecoveryStore) (executionId : String) : Option RecoverySnapshot :=
  let snapshot := loadExecutionState store.db executionId
  snapshot.execution.map fun execution =>
    { execution
      stages := snapshot.stages
      steps := snapshot.steps.map fun step => (step, store.stepColumns step.key) }

/-- A step of the flat list of the recovered plan, as the preview reads it. -/
structure CandidateStep where
  id : String
  sequence : Int
  status : Option String
  idempotent : Bool
  idempotencyKey : Option String
  sideEffects : List String
  deriving DecidableEq

structure StaleToken where
  executionStatus : Option String
  lockOwner : Option String
  leaseExpiresAt : Option Int
  lastLedgerEventId : Option Nat
  checkpointHash : String
  stepStateHash : String
  containmentHash : String
  deriving DecidableEq

/-- The `staleToken` of a plan object; an object of any other form equals no token. -/
inductive GivenToken where
  | missing
  | foreign
  | token (token : StaleToken)
  deriving DecidableEq

/-- `checkpointPlan` is what `normalizeCheckpointPlan` makes of `recoveredPlan || { id: planId }`, `runId` the
one of that object. -/
structure RecoveryPlan where
  executionId : String
  planId : String
  recoveryMode : String
  staleToken : GivenToken
  checkpointPlan : CheckpointPlan
  runId : Option String
  steps : List CandidateStep
  nextStepId : Option String
  deriving DecidableEq

/-- What `buildCurrentPlan` puts into the plan. -/
structure CurrentState where
  snapshot : RecoverySnapshot
  checkpoint : Checkpoint
  activeLock : Option LockRow
  ledgerEvents : List LedgerRow
  lastLedgerEventId : Option Nat
  deriving DecidableEq

/-- `listLedgerEvents(planId, executionId)` with the ids of the rows. -/
def executionLedger (db : Db) (planId executionId : String) : List (LedgerRow × Nat) :=
  (db.executionLedger.mapIdx fun index row => (row, index + 1)).filter fun entry =>
    entry.1.planId = planId && entry.1.executionId = some executionId

/-- The loads before the stale check. -/
def loadCurrentState (store : RecoveryStore) (planId executionId : String) : Result CurrentState :=
  match loadRecoverySnapshot store executionId with
  | none => .error ⟨"EXECUTION_NOT_FOUND", s!"Execution {executionId} was not found for recovery commit."⟩
  | some snapshot =>
    match readCheckpointRow store.db planId with
    | none => .error ⟨"NOT_FOUND", s!"Execution checkpoint {planId} was not found."⟩
    | some checkpoint =>
      .ok {
        snapshot
        checkpoint
        activeLock := (activeLocks store.db planId).head?
        ledgerEvents := (executionLedger store.db planId executionId).map Prod.fst
        lastLedgerEventId := (executionLedger store.db planId executionId).getLast?.map Prod.snd }

section Tokens

structure CheckpointReading where
  planId : String
  status : String
  currentStep : Int
  lastCompletedStepIndex : Int
  cancellationRequested : Bool
  deriving DecidableEq

structure StepReading where
  id : String
  status : String
  attemptNumber : Int
  attempts : Int
  errorType : Option String
  reason : Option String
  lastOutputHash : Option String
  deriving DecidableEq

structure ContainmentReading where
  totalAttempts : Nat
  consecutiveFailures : Nat
  noProgressAttempts : Nat
  lastProgressAt : Option Int
  deriving DecidableEq

/-- `sha256(JSON.stringify(..))` of the three objects. -/
structure Digests where
  checkpoint : CheckpointReading → String
  steps : List StepReading → String
  containment : ContainmentReading → String

def Checkpoint.reading (checkpoint : Checkpoint) : CheckpointReading where
  planId := checkpoint.planId
  status := checkpoint.status.text
  currentStep := checkpoint.currentStep
  lastCompletedStepIndex := checkpoint.lastCompletedStepIndex
  cancellationRequested := checkpoint.cancellationRequested

def stepReading (step : StepRow × StepColumns) : StepReading where
  id := step.1.id
  status := step.1.status.text
  attemptNumber := step.2.attemptNumber
  attempts := step.2.attempts
  errorType := step.1.errorType
  reason := step.2.reason
  lastOutputHash := step.2.lastOutputHash

def ExecutionRow.containment (execution : ExecutionRow) : ContainmentReading where
  totalAttempts := execution.totalAttempts
  consecutiveFailures := execution.consecutiveFailures
  noProgressAttempts := execution.noProgressAttempts
  lastProgressAt := execution.lastProgressAt

def createRecoveryPlanHash (digests : Digests) (current : CurrentState) : StaleToken where
  executionStatus := some current.snapshot.execution.status.text
  lockOwner := current.activeLock.map LockRow.workerId
  leaseExpiresAt := current.activeLock.bind LockRow.leaseExpiresAt
  lastLedgerEventId := current.lastLedgerEventId
  checkpointHash := digests.checkpoint current.checkpoint.reading
  stepStateHash := digests.steps (current.snapshot.steps.map stepReading)
  containmentHash := digests.containment current.snapshot.execution.containment

/-- The token of the stored state, when the loads succeed. -/
def storedToken (digests : Digests) (store : RecoveryStore) (planId executionId : String) : Option StaleToken :=
  (loadCurrentState store planId executionId).toOption.map (createRecoveryPlanHash digests)

end Tokens

section Preview

inductive ReplayClassification where
  | safeReplay
  | idempotentReplay
  | requiresOperator
  | unsafeReplay
  | corrupted
  deriving DecidableEq

structure AttemptTerminalState where
  started : Bool
  terminals : List AttemptStatus
  latestTerminal : Option AttemptStatus
  deriving DecidableEq

def EventType.terminalAttempt : EventType → Option AttemptStatus
  | .attempt status => if status.terminal then some status else none
  | _ => none

/-- The attempt events of the whole ledger, newest first; the last terminal of that order is the oldest one. -/
def getAttemptTerminalLedgerState (ledgerEvents : List LedgerRow) : AttemptTerminalState :=
  let ordered := ((ledgerEvents.filter fun event => event.eventType.ofAttempt).reverse).insertionSort
    fun left right => laterAttemptEvent left right
  match ordered with
  | [] => ⟨false, [], none⟩
  | newest :: _ =>
    let attemptLedger := ordered.filter fun event => event.attemptNumber.getD 0 = newest.attemptNumber.getD 0
    let terminals := attemptLedger.filterMap fun event => event.eventType.terminalAttempt
    { started := attemptLedger.any fun event => event.eventType = .attemptStarted
      terminals := terminals
      latestTerminal := terminals.getLast? }

/-- `detectCorruption`; a candidate carries neither `finishedAt` nor `lastOutputHash`. -/
def detectCorruption (status : String) (ledger : AttemptTerminalState) : Bool :=
  1 < ledger.terminals.eraseDups.length ||
  wordIs status "completed" && (ledger.latestTerminal.any fun terminal => terminal ≠ .completed) ||
  wordIs status "failed" && ledger.latestTerminal = some .completed ||
  wordIs status "cancelled" && ledger.latestTerminal.any fun terminal => terminal ≠ .cancelled

def classifyReplayCandidate (step : CandidateStep) (ledgerEvents : List LedgerRow) : ReplayClassification :=
  let sideEffects := normalizedWords step.sideEffects
  let idempotencyEvidence := step.idempotent || !isBlank (step.idempotencyKey.getD "")
  let ledger := getAttemptTerminalLedgerState ledgerEvents
  if detectCorruption ((truthy step.status).getD "pending") ledger then .corrupted
  else if !sideEffects.isEmpty && !idempotencyEvidence && "unknown" ∉ sideEffects then .unsafeReplay
  else if "unknown" ∈ sideEffects || (ledger.started && ledger.latestTerminal.isNone) then .requiresOperator
  else if !sideEffects.isEmpty then .idempotentReplay
  else .safeReplay

def getCandidateSteps (plan : RecoveryPlan) (checkpoint : Checkpoint) : List CandidateStep :=
  plan.steps.filter fun step => checkpoint.currentStep ≤ step.sequence - 1

/-- `blocked` of `previewRecoveryPlan`. -/
def previewBlocked (plan : RecoveryPlan) (current : CurrentState) : Bool :=
  (getCandidateSteps plan current.checkpoint).any fun step =>
    classifyReplayCandidate step current.ledgerEvents ∈ [.corrupted, .unsafeReplay, .requiresOperator]

end Preview

end CommandConsole.Execution
