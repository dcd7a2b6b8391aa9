import CommandConsole.Execution.Schema

/-! # Status texts of in-memory runs

A run object carries free text in its status fields. The store trims and
lower-cases that text before it compares it with a status word.
-/
namespace CommandConsole.Execution
open Library
set_option autoImplicit false

def isSpace (c : Char) : Bool :=
  c ∈ ['\t', '\n', '\x0b', '\x0c', '\r', ' ', '\u00a0', '\u1680', '\u2000', '\u2001', '\u2002', '\u2003',
    '\u2004', '\u2005', '\u2006', '\u2007', '\u2008', '\u2009', '\u200a', '\u2028', '\u2029', '\u202f',
    '\u205f', '\u3000', '\ufeff']

/-- `!String(value || "").trim()`. -/
def isBlank (text : String) : Bool := text.toList.all isSpace

/-- `String(value).trim()`. -/
def trimmed (text : String) : String :=
  String.ofList ((text.toList.dropWhile isSpace).reverse.dropWhile isSpace).reverse

/-- Lower case, up to the letters that the lower case of a character outside ASCII can equal. -/
def lowerChar (c : Char) : Char :=
  if c = '\u212a' then 'k'
  else if 'A' ≤ c ∧ c ≤ 'Z' then Char.ofNat (c.toNat + 32)
  else c

/-- `String(value || "").trim().toLowerCase()`. -/
def normalizedWord (text : String) : List Char :=
  (((text.toList.dropWhile isSpace).reverse.dropWhile isSpace).reverse).map lowerChar

def wordIs (text word : String) : Bool := normalizedWord text = word.toList

/-- `value ? String(value) : null`. -/
def truthy (text : Option String) : Option String := text.filter fun value => value ≠ ""

def Status.text : Status → String
  | .pending => "pending"
  | .running => "running"
  | .paused => "paused"
  | .pausedForReview => "paused_for_review"
  | .awaitingReview => "awaiting_review"
  | .pauseForOperatorRecovery => "pause_for_operator_recovery"
  | .completed => "completed"
  | .cancelled => "cancelled"
  | .failed => "failed"
  | .executionAbandoned => "execution_abandoned"
  | .corrupted => "corrupted"

def normalizeStageStatus (status : String) : Status :=
  if wordIs status "running" then .running
  else if wordIs status "completed" then .completed
  else if wordIs status "failed" then .failed
  else if wordIs status "paused_for_review" then .pausedForReview
  else .pending

def normalizeStepStatus (status : String) : Status :=
  if wordIs status "running" then .running
  else if wordIs status "completed" then .completed
  else if wordIs status "failed" || wordIs status "timeout" || wordIs status "blocked" then .failed
  else if wordIs status "cancelled" then .cancelled
  else if wordIs status "paused_for_review" then .pausedForReview
  else if wordIs status "awaiting_review" then .pausedForReview
  else if wordIs status "paused" || wordIs status "deferred" then .paused
  else .pending

/-- A stored step status comes back unless it is one that only executions and checkpoints hold. -/
theorem normalizeStepStatus_text (status : Status) :
    normalizeStepStatus status.text =
      match status with
      | .awaitingReview => .pausedForReview
      | .pauseForOperatorRecovery | .executionAbandoned | .corrupted => .pending
      | other => other := by
  cases status <;> decide

end CommandConsole.Execution
