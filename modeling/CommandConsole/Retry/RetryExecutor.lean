import CommandConsole.Identity.Accounts
import CommandConsole.Library.Process

/-! # Retried transactions

An attempt begins a transaction, runs the action and commits. A failure before the
commit is rolled back; its class and the number of the attempt decide whether
another one follows.
-/
namespace CommandConsole.Retry
open Library Identity
set_option autoImplicit false

inductive RetryFailureClassification where
  | connectionTransient
  | transactionTransient
  | fatal
  | capacity
  | indeterminate
  deriving DecidableEq

/-- The exceptions that the executor and the classifier tell apart. -/
inductive ExceptionKind where
  | operationCanceled
  | indeterminateCommit
  | nestedRetry
  | argument
  | postgres (sqlState : Option String)
  | npgsql (isTransient : Bool)
  | other
  deriving DecidableEq

/-- An exception, and the kinds of the chain of its inner exceptions. -/
structure Thrown where
  kind : ExceptionKind
  message : String
  inner : List ExceptionKind
  deriving DecidableEq

structure RetryOperationContext where
  name : String
  correlationId : String
  maximumAttempts : Int
  deriving DecidableEq

section Classifier

def classifySqlState (sqlState : Option String) : RetryFailureClassification :=
  if sqlState ∈ [some "40001", some "40P01"] then .transactionTransient
  else if sqlState ∈ [some "53300", some "53400"] then .capacity
  else .fatal

def classifyChain : List ExceptionKind → RetryFailureClassification
  | [] => .fatal
  | .indeterminateCommit :: _ => .indeterminate
  | .postgres sqlState :: _ => classifySqlState sqlState
  | .npgsql isTransient :: _ => if isTransient then .connectionTransient else .fatal
  | _ :: rest => classifyChain rest

/-- `PostgresRetryClassifier.Classify`. -/
def classify (err : Thrown) : RetryFailureClassification := classifyChain (err.kind :: err.inner)

def canRetry (classification : RetryFailureClassification) : Bool :=
  classification ∈ [.connectionTransient, .transactionTransient]

end Classifier

/-- What the executor calls, and the failures that it classifies. -/
inductive Event where
  | begin (attempt : Nat) (begun : Bool)
  | action (attempt : Nat)
  | commit (attempt : Nat)
  | rollback (attempt : Nat)
  | failed (attempt : Nat) (classification : RetryFailureClassification)
  deriving DecidableEq

/-- The depth of the calls, whether the token is cancelled, the flag of the attempt, and the events so far,
which no operation reads. -/
structure RetryState where
  executionDepth : Nat
  cancellationRequested : Bool
  transactionStarted : Bool
  events : List Event
  deriving DecidableEq

/-- The clock says at every look at the token whether it has been cancelled meanwhile. -/
abbrev Retry (α : Type) := Library.Process Bool Thrown RetryState α

def isCancellationRequested : Retry Bool := do
  let cancelled ← Process.ask
  Process.modify fun state =>
    { state with cancellationRequested := state.cancellationRequested || cancelled }
  Process.read RetryState.cancellationRequested

/-- The part of the state that belongs to the executor. -/
def RetryState.own (state : RetryState) : Nat × Bool × List Event :=
  (state.executionDepth, state.transactionStarted, state.events)

/-- Code that runs inside an attempt cannot reach what belongs to the executor. -/
def Isolated {α : Type} (action : Retry α) : Prop :=
  ∀ own : Nat × Bool × List Event, own.1 ≠ 0 →
    Process.Ends (fun state => state.own = own) action (fun _ state => state.own = own)
      fun _ state => state.own = own

/-- What the calls of one attempt come to: `none` is a normal return. -/
structure Attempt (α : Type) where
  begin : Option Thrown
  action : Retry α
  isolated : Isolated action
  commit : Option Thrown
  rollback : Option Thrown

def record (event : Event) : Retry Unit :=
  Process.modify fun state => { state with events := state.events ++ [event] }

def setTransactionStarted (transactionStarted : Bool) : Retry Unit :=
  Process.modify fun state => { state with transactionStarted }

/-- An awaited call that the executor makes. -/
def invoke (event : Event) (outcome : Option Thrown) : Retry Unit := do
  record event
  match outcome with
  | none => pure ()
  | some err => throwThe Thrown err

section Attempts

variable {α : Type} (operation : RetryOperationContext)

def indeterminateCommit (commitException : Thrown) : Thrown where
  kind := .indeterminateCommit
  message := s!"Commit outcome for retry operation '{operation.name}' could not be determined."
  inner := commitException.kind :: commitException.inner

def commitTransaction (attempt : Attempt α) (attemptNumber : Nat) : Retry Unit :=
  tryCatchThe Thrown (invoke (.commit attemptNumber) attempt.commit) fun err => do
    if err.kind = .operationCanceled then do
      if ← isCancellationRequested then throwThe Thrown err
      else throwThe Thrown (indeterminateCommit operation err)
    else throwThe Thrown (indeterminateCommit operation err)

/-- The guarded part of an attempt; detaching the tracked state does not fail. -/
def attemptOnce (attempt : Attempt α) (attemptNumber : Nat) : Retry α := do
  invoke (.begin attemptNumber attempt.begin.isNone) attempt.begin
  setTransactionStarted true
  record (.action attemptNumber)
  let result ← attempt.action
  setTransactionStarted false
  commitTransaction operation attempt attemptNumber
  pure result

/-- `exception is not OperationCanceledException || !cancellationToken.IsCancellationRequested`. -/
def handles (err : Thrown) : Retry Bool := do
  if err.kind = .operationCanceled then do
    let cancelled ← isCancellationRequested
    pure !cancelled
  else pure true

/-- A rollback that fails is logged. -/
def rollbackStarted (attempt : Attempt α) (attemptNumber : Nat) : Retry Unit := do
  if ← Process.read RetryState.transactionStarted then
    tryCatchThe Thrown (invoke (.rollback attemptNumber) attempt.rollback) fun _ => pure ()
  else pure ()

def throwIfCancellationRequested : Retry Unit := do
  if ← isCancellationRequested then throwThe Thrown ⟨.operationCanceled, "The operation was canceled.", []⟩
  else pure ()

/-- The attempts from the given number on. -/
def runAttempts (attempts : Nat → Attempt α) (attemptNumber : Nat) : Retry α := do
  throwIfCancellationRequested
  setTransactionStarted false
  tryCatchThe Thrown (attemptOnce operation (attempts attemptNumber) attemptNumber) fun err => do
    if ← handles err then do
      rollbackStarted (attempts attemptNumber) attemptNumber
      record (.failed attemptNumber (classify err))
      if h : operation.maximumAttempts ≤ attemptNumber ∨ canRetry (classify err) = false then throwThe Thrown err
      else runAttempts attempts (attemptNumber + 1)
    else throwThe Thrown err
termination_by (operation.maximumAttempts - attemptNumber).toNat
decreasing_by omega

def changeDepth (change : Nat → Nat) : Retry Unit :=
  Process.modify fun state => { state with executionDepth := change state.executionDepth }

def executeAsync (attempts : Nat → Attempt α) : Retry α := do
  if isNullOrWhiteSpace operation.name then
    throwThe Thrown ⟨.argument, "A retry operation name is required.", []⟩
  else if isNullOrWhiteSpace operation.correlationId then
    throwThe Thrown ⟨.argument, "A retry correlation identifier is required.", []⟩
  else if operation.maximumAttempts < 1 then
    throwThe Thrown ⟨.argument, "Maximum attempts must be at least one.", []⟩
  else do
    let depth ← Process.read RetryState.executionDepth
    if depth ≠ 0 then
      throwThe Thrown ⟨.nestedRetry,
        s!"Retry operation '{operation.name}' cannot be nested inside another retry boundary.", []⟩
    else do
      changeDepth fun depth => depth + 1
      let result ← tryCatchThe Thrown (runAttempts operation attempts 1) fun err => do
        changeDepth fun depth => depth - 1
        throwThe Thrown err
      changeDepth fun depth => depth - 1
      pure result

end Attempts

end CommandConsole.Retry
