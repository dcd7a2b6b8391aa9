import CommandConsole.Execution.CheckpointStore
import CommandConsole.Library.Session

/-! # The integrity checker

The checker compares the checkpoint, the snapshot tables, the attempts, the lock
and the ledger of one plan and lists what does not fit together.
-/
namespace CommandConsole.Execution
open Library
set_option autoImplicit false

inductive IssueCode where
  | schemaMismatch
  | invalidStepOrder
  | checkpointInvalid
  | lockConflict
  | lockInvalid
  | ledgerInvalid
  | ledgerMissing
  | snapshotMismatch
  | invalidAttemptSequence
  | idempotencyMismatch
  | multipleActiveAttempts
  | recoveryMissing
  deriving DecidableEq

structure Issue where
  code : IssueCode
  message : String
  deriving DecidableEq

/-- The issue when the test holds. -/
def issueIf (test : Bool) (code : IssueCode) (message : String) : List Issue :=
  if test then [⟨code, message⟩] else []

/-- `groupBy`: the groups stand in the order of their first items. -/
def groupBy {α : Type} (items : List α) (key : α → String) : List (String × List α) :=
  (items.map key).eraseDups.map fun group => (group, items.filter fun item => key item = group)

def EventType.terminal (eventType : EventType) : Bool :=
  eventType ∈ [.executionCompleted, .executionFailed, .executionCancelled, .executionAbandoned,
    .executionCorrupted]

/-- `/^stage\./`. -/
def EventType.stage (eventType : EventType) : Bool :=
  eventType ∈ [.stageStarted, .stageResumed, .stageCompleted, .stageFailed, .stagePausedForReview]

def stageIssues (executionId stageId : String) (events : List LedgerRow) : List Issue :=
  let started := events.filter fun row => row.eventType ∈ [.stageStarted, .stageResumed]
  let terminal := events.filter fun row => row.eventType ∈ [.stageCompleted, .stageFailed]
  issueIf (1 < terminal.length) .ledgerInvalid
      s!"Stage {stageId} in execution {executionId} has multiple terminal ledger entries." ++
    issueIf ((events.any fun row =>
        row.eventType ∈ [.stageCompleted, .stageFailed, .stagePausedForReview]) && started.isEmpty)
      .ledgerInvalid
      s!"Stage {stageId} in execution {executionId} has terminal or paused ledger entries without a prior start."

/-- The terminal event that a terminal checkpoint calls for. -/
def expectedTerminal : Status → EventType
  | .executionAbandoned => .executionAbandoned
  | .cancelled => .executionCancelled
  | .corrupted => .executionCorrupted
  | .failed => .executionFailed
  | _ => .executionCompleted

def terminalEventText : EventType → String
  | .executionAbandoned => "execution.abandoned"
  | .executionCancelled => "execution.cancelled"
  | .executionCorrupted => "execution.corrupted"
  | .executionFailed => "execution.failed"
  | _ => "execution.completed"

def terminalCheckpointIssues (events : List LedgerRow) (checkpoint : Option Checkpoint) : List Issue :=
  match checkpoint with
  | none => []
  | some row =>
    let expected := expectedTerminal row.status
    issueIf (row.status.terminalCheckpoint && !events.any fun event => event.eventType = expected)
      .ledgerMissing (s!"Checkpoint {row.planId} is {row.status.text} without matching " ++
        s!"{terminalEventText expected} ledger entry.")

def executionIssues (executionId : String) (ledger : List LedgerRow) (checkpoint : Option Checkpoint) :
    List Issue :=
  let events := (ledger.filter fun row => row.executionId = some executionId).insertionSort
    fun left right => left.createdAt ≤ right.createdAt
  if events.isEmpty then []
  else
    let created := events.countP fun row => row.eventType = .executionCreated
    let started := events.countP fun row => row.eventType = .executionStarted
    let terminal := events.countP fun row => row.eventType.terminal
    issueIf (1 < created) .ledgerInvalid
        s!"Execution {executionId} has duplicate execution.created ledger entries." ++
      issueIf (1 < started) .ledgerInvalid
        s!"Execution {executionId} has duplicate execution.started ledger entries." ++
      issueIf (1 < terminal) .ledgerInvalid
        s!"Execution {executionId} has multiple terminal ledger entries." ++
      issueIf ((0 < started || 0 < terminal) && created ≠ 1) .ledgerInvalid
        s!"Execution {executionId} is missing a single execution.created ledger entry." ++
      issueIf (terminal = 1 && started ≠ 1) .ledgerInvalid (s!"Execution {executionId} reached a terminal " ++
        "state without a single execution.started ledger entry.") ++
      (groupBy (events.filter fun row => row.eventType.stage) fun row =>
          (truthy row.stageId <|> truthy row.stepId).getD "unknown").flatMap
        (fun (stageId, group) => stageIssues executionId stageId group) ++
      terminalCheckpointIssues events checkpoint

def collectExecutionLifecycleIssues (ledger : List LedgerRow) (checkpoint : Option Checkpoint)
    (activeExecutionId : Option String) : List Issue :=
  let targets := ((activeExecutionId :: ledger.map LedgerRow.executionId).filterMap id).filter
    fun executionId => !isBlank executionId
  targets.eraseDups.flatMap fun executionId => executionIssues executionId ledger checkpoint

/-- ORDER BY last_updated_at DESC, created_at DESC, id DESC. -/
def ExecutionRow.isLater (left right : ExecutionRow) : Bool :=
  right.lastUpdatedAt < left.lastUpdatedAt ||
    left.lastUpdatedAt = right.lastUpdatedAt && (right.createdAt < left.createdAt ||
      left.createdAt = right.createdAt && right.id < left.id)

def latestExecution (db : Db) (planId : String) : Option ExecutionRow :=
  (db.executions.rows.filter fun row => row.planId = some planId).foldl
    (fun latest row =>
      match latest with
      | none => some row
      | some other => if row.isLater other then some row else some other) none

def loadLatestExecutionSnapshot (db : Db) (planId : String) : Option Snapshot :=
  match latestExecution db planId with
  | none => none
  | some row => if row.id = "" then none else some (loadExecutionState db row.id)

def planStepIssues (planId : String) (planIds snapshotIds : List String) : List Issue :=
  issueIf (snapshotIds.eraseDups.length ≠ planIds.eraseDups.length) .snapshotMismatch
      s!"Execution snapshot for {planId} does not contain the same number of steps as the plan." ++
    (planIds.eraseDups.flatMap fun stepId => issueIf (stepId ∉ snapshotIds) .snapshotMismatch
      s!"Execution snapshot for {planId} is missing step {stepId}.") ++
    snapshotIds.eraseDups.flatMap fun stepId => issueIf (stepId ∉ planIds) .snapshotMismatch
      s!"Execution snapshot for {planId} contains unexpected step {stepId}."

def stageMemberIssues (planId : String) (steps : List StepRow) (stages : List StageRow) : List Issue :=
  if stages.isEmpty then []
  else
    (steps.flatMap fun step =>
      match truthy step.stageId with
      | none => []
      | some stageId =>
        issueIf (stages.all fun stage => stage.id ≠ stageId) .snapshotMismatch
          s!"Execution snapshot for {planId} contains step {step.id} assigned to missing stage {stageId}.") ++
    stages.flatMap fun stage =>
      let stageSteps := steps.filter fun step => step.stageId.getD "" = stage.id
      issueIf (stage.status = .completed && stageSteps.any fun step => step.status ≠ .completed)
          .snapshotMismatch (s!"Execution snapshot for {planId} marks stage {stage.id} completed " ++
            "while it still has non-completed steps.") ++
        issueIf (stage.status = .failed && !stageSteps.isEmpty &&
            stageSteps.all fun step => step.status ∉ [.failed, .cancelled])
          .snapshotMismatch (s!"Execution snapshot for {planId} marks stage {stage.id} failed " ++
            "without a failed or cancelled step.")

/-- `list[index]` of a number that may be negative. -/
def atIndex {α : Type} (items : List α) (index : Int) : Option α :=
  if 0 ≤ index then items[index.toNat]? else none

def currentStepIssues (planId : String) (checkpoint : Checkpoint) (planIds : Option (List String))
    (steps : List StepRow) : List Issue :=
  if checkpoint.status ∉ [.running, .paused, .awaitingReview, .pauseForOperatorRecovery] then []
  else
    match planIds.bind fun ids => atIndex ids checkpoint.currentStep with
    | none => []
    | some stepId =>
      match steps.find? fun step => step.id = stepId with
      | none =>
        [⟨.snapshotMismatch,
          s!"Execution snapshot for {planId} cannot locate checkpoint current step {stepId}."⟩]
      | some step => issueIf (step.status = .completed) .snapshotMismatch
          s!"Execution snapshot for {planId} marks checkpoint current step {stepId} completed."

def checkpointSnapshotIssues (planId : String) (checkpoint : Checkpoint) (planIds : Option (List String))
    (execution : ExecutionRow) (steps : List StepRow) : List Issue :=
  let completedSteps : Int := steps.countP fun step => step.status = .completed
  let totalSteps : Int := (planIds.map List.length).getD steps.length
  let expectedCompletedSteps := checkpoint.lastCompletedStepIndex + 1
  let found := execution.status.text
  issueIf (completedSteps < expectedCompletedSteps) .snapshotMismatch
      s!"Execution snapshot for {planId} trails checkpoint completion progress." ++
    issueIf (0 < totalSteps && totalSteps < completedSteps) .snapshotMismatch
      s!"Execution snapshot for {planId} reports more completed steps than exist in the plan." ++
    issueIf (checkpoint.status = .completed && execution.status ≠ .completed) .snapshotMismatch
      s!"Checkpoint {planId} is completed while execution snapshot status is {found}." ++
    issueIf (checkpoint.status = .failed && execution.status ≠ .failed) .snapshotMismatch
      s!"Checkpoint {planId} is failed while execution snapshot status is {found}." ++
    issueIf (checkpoint.status = .cancelled && execution.status ≠ .cancelled) .snapshotMismatch
      s!"Checkpoint {planId} is cancelled while execution snapshot status is {found}." ++
    issueIf (checkpoint.status = .running && execution.status ∉ [.running, .pending]) .snapshotMismatch
      s!"Checkpoint {planId} is running while execution snapshot status is {found}." ++
    issueIf (checkpoint.status ∈ [.awaitingReview, .pauseForOperatorRecovery, .paused] &&
        execution.status ∉ [.paused, .pausedForReview, .pending, .running]) .snapshotMismatch
      s!"Checkpoint {planId} is {checkpoint.status.text} while execution snapshot status is {found}." ++
    issueIf (checkpoint.status ≠ .completed && 0 < totalSteps && expectedCompletedSteps < completedSteps)
      .snapshotMismatch s!"Execution snapshot for {planId} is ahead of checkpoint completion progress." ++
    currentStepIssues planId checkpoint planIds steps

def collectExecutionSnapshotIssues (db : Db) (planId : String) (checkpoint : Option Checkpoint)
    (planIds : Option (List String)) : List Issue :=
  match loadLatestExecutionSnapshot db planId with
  | none => []
  | some snapshot =>
    match snapshot.execution with
    | none => []
    | some execution =>
      (match planIds with
        | none => []
        | some ids => planStepIssues planId ids (snapshot.steps.map StepRow.id)) ++
      stageMemberIssues planId snapshot.steps snapshot.stages ++
      match checkpoint with
      | none => []
      | some row => checkpointSnapshotIssues planId row planIds execution snapshot.steps

/-- `String(value)` of a nullable value inside a template. -/
def nullableText {α : Type} [ToString α] (value : Option α) : String := (value.map toString).getD "null"

def AttemptRow.groupText (row : AttemptRow) : String := s!"{row.executionId}:{row.stepId}"

def AttemptRow.ledgerText (row : AttemptRow) : String :=
  s!"{row.executionId}:{row.stepId}:{row.attemptNumber}"

def LedgerRow.attemptText (row : LedgerRow) : String :=
  nullableText row.executionId ++ ":" ++ nullableText row.stepId ++ ":" ++ nullableText row.attemptNumber

def AttemptStatus.terminal (status : AttemptStatus) : Bool :=
  status ∈ [.completed, .failed, .cancelled, .abandoned]

def attemptIssues (ledger : List LedgerRow) (attempt : AttemptRow) : List Issue :=
  let entries := ledger.filter fun event => event.attemptText = attempt.ledgerText
  issueIf (attempt.sideEffectClass = .externalWrite && (truthy attempt.idempotencyKey).isNone)
      .idempotencyMismatch s!"External write attempt {attempt.ledgerText} is missing an idempotency key." ++
    issueIf ((entries.countP fun event => event.eventType = .attemptStarted) ≠ 1) .ledgerMissing
      s!"Attempt {attempt.ledgerText} is missing a single start ledger entry." ++
    issueIf (attempt.status.terminal &&
        (entries.countP fun event => event.eventType = .attempt attempt.status) ≠ 1) .ledgerMissing
      s!"Attempt {attempt.ledgerText} is missing a terminal ledger entry."

/-- The loop over the attempts of one step; it stops at the first gap in the numbering. -/
def orderedAttemptIssues (ledger : List LedgerRow) : Int → List AttemptRow → List Issue
  | _, [] => []
  | expected, attempt :: rest =>
    if attempt.attemptNumber ≠ expected then
      [⟨.invalidAttemptSequence, s!"Attempt numbering is non-contiguous for {attempt.groupText}."⟩]
    else attemptIssues ledger attempt ++ orderedAttemptIssues ledger (expected + 1) rest

/-- The attempts that the same loop counts as running. -/
def runningAttempts : Int → List AttemptRow → Nat
  | _, [] => 0
  | expected, attempt :: rest =>
    if attempt.attemptNumber ≠ expected then 0
    else (if attempt.status = .running then 1 else 0) + runningAttempts (expected + 1) rest

def attemptGroupIssues (ledger : List LedgerRow) (rows : List AttemptRow) : List Issue :=
  let ordered := rows.insertionSort fun left right => left.attemptNumber ≤ right.attemptNumber
  orderedAttemptIssues ledger 1 ordered ++
    issueIf (1 < runningAttempts 1 ordered) .multipleActiveAttempts
      s!"More than one running attempt exists for {(rows.head?.map AttemptRow.groupText).getD default}."

def checkpointIndexIssues (planId : String) (checkpoint : Checkpoint) (planIds : Option (List String)) :
    List Issue :=
  issueIf (checkpoint.lastCompletedStepIndex < -1 || checkpoint.currentStep < 0) .invalidStepOrder
      "Checkpoint contains negative step indices." ++
    issueIf (!checkpoint.status.terminalCheckpoint &&
        checkpoint.currentStep < checkpoint.lastCompletedStepIndex + 1) .invalidStepOrder
      "Checkpoint currentStep regressed behind lastCompletedStepIndex." ++
    match planIds with
    | none => []
    | some ids => issueIf (ids.length ≤ checkpoint.lastCompletedStepIndex || ids.length < checkpoint.currentStep)
        .checkpointInvalid s!"Checkpoint for {planId} references steps outside the plan."

def activeLocks (db : Db) (planId : String) : List LockRow :=
  (listExecutionLocks db planId).filter fun row => row.lockReleasedAt = none

def lockIssues (planId : String) (checkpoint : Option Checkpoint) (locks : List LockRow) : List Issue :=
  issueIf (1 < locks.length) .lockConflict s!"Multiple active locks detected for {planId}." ++
    issueIf ((checkpoint.any fun row => row.status.terminalCheckpoint) && !locks.isEmpty) .lockInvalid
      s!"Terminal checkpoint {planId} still holds an active lock."

def recoveryIssues (db : Db) (planId : String) (checkpoint : Option Checkpoint) : List Issue :=
  let unresolved := (listRecoveryQueue db planId).filter fun row => row.resolvedAt = none
  issueIf ((checkpoint.any fun row => row.status = .pauseForOperatorRecovery) && unresolved.isEmpty)
    .recoveryMissing s!"Checkpoint {planId} is paused for operator recovery without a recovery queue item."

/-- `collectIntegrityIssues(planId, plan)`; of the plan it reads the step ids. -/
def collectIntegrityIssues (db : Db) (planId : String) (planIds : Option (List String)) : List Issue :=
  let checkpoint := readCheckpointRow db planId
  let locks := activeLocks db planId
  let ledger := listLedgerEvents db planId
  issueIf (db.schemaVersion ≠ executionStateSchemaVersion) .schemaMismatch
      s!"Expected execution_state schema version {executionStateSchemaVersion}." ++
    (match checkpoint with
      | none => []
      | some row => checkpointIndexIssues planId row planIds) ++
    lockIssues planId checkpoint locks ++
    collectExecutionLifecycleIssues ledger checkpoint (locks.head?.map LockRow.executionId) ++
    collectExecutionSnapshotIssues db planId checkpoint planIds ++
    ((groupBy (listExecutionAttempts db planId) AttemptRow.groupText).flatMap
      fun group => attemptGroupIssues ledger group.2) ++
    recoveryIssues db planId checkpoint

end CommandConsole.Execution
