import CommandConsole.Library.Crowd
import CommandConsole.Library.JsonRoundTrip

/-! # Operator recovery actions and their idempotency records

A request looks for the record of its key, checks what the surface allows, applies its action
and records the response. A resumed or retried execution is awaited before the record is written.
-/
namespace CommandConsole.Operators
open Library Value
set_option autoImplicit false

def OPERATOR_IDEMPOTENCY_TTL_MS : Int := 24 * 60 * 60 * 1000

section Texts

def isSpace (unit : Nat) : Bool :=
  [0x09, 0x0A, 0x0B, 0x0C, 0x0D, 0x20, 0xA0, 0x1680, 0x2028, 0x2029, 0x202F, 0x205F, 0x3000, 0xFEFF].contains unit ||
    0x2000 ≤ unit && unit ≤ 0x200A

/-- `!text.trim()`. -/
def isBlank (text : Text) : Bool := text.all isSpace

def trimmed (text : Text) : Text := ((text.dropWhile isSpace).reverse.dropWhile isSpace).reverse

/-- `text.toLowerCase()`, up to the letters that the lower case of a unit outside ASCII can equal. -/
def lowered (text : Text) : Text :=
  text.map fun unit => if unit = 0x212A then 0x6B else if 0x41 ≤ unit ∧ unit ≤ 0x5A then unit + 32 else unit

def parseJson (payload : Text) (fallback : Value) : Value :=
  if isBlank payload then fallback else (parse payload).getD fallback

end Texts

inductive ActionName where
  | approveResume
  | modifyResume
  | rejectResume
  | retryStep
  | cancelExecution
  deriving DecidableEq

def ActionName.text : ActionName → Text
  | .approveResume => units "approve_resume"
  | .modifyResume => units "modify_resume"
  | .rejectResume => units "reject_resume"
  | .retryStep => units "retry_step"
  | .cancelExecution => units "cancel_execution"

/-- A request; what it leaves out is the empty text. -/
structure ActionRequest where
  planId : Text
  action : Text
  operatorId : Text
  stepId : Option Text
  reason : Text
  updatedInput : Option Value
  idempotencyKey : Text

namespace ActionRequest

variable (request : ActionRequest)

def actionName : Text := lowered (trimmed request.action)

/-- `String(options.operatorId || "operator")`. -/
def operator : Text := if request.operatorId = [] then units "operator" else request.operatorId

def buildIdempotencyFingerprint : Text :=
  Value.text (object [
    (units "planId", string request.planId),
    (units "action", string request.actionName),
    (units "operatorId", string request.operatorId),
    (units "stepId", request.stepId.elim null string),
    (units "reason", string request.reason),
    (units "updatedInput", request.updatedInput.getD null)])

end ActionRequest

section Responses

def success (data : Value) : Value := object [(units "ok", bool true), (units "data", data)]

def failure (code : String) (message : Value) (extra : List (Text × Value)) : Value :=
  object ([(units "ok", bool false), (units "error", object [(units "code", string (units code)), (units "message", message)])] ++
    extra)

def alreadyBound : Value :=
  failure "INVALID_TRANSITION" (string (units "Idempotency key is already bound to a different operator action.")) []

def invalidStored : Value :=
  failure "INVALID_TRANSITION" (string (units "Stored idempotent response is invalid.")) []

/-- What a request receives in place of a response that was recorded. -/
def stored (response : Value) : Value := parseJson (Value.text response) invalidStored

/-- A failure of the store or of the engine: a code, which may be missing, and a message. -/
structure Refusal where
  code : Option String
  message : Value

/-- What the engine answers; a text that is missing is empty. -/
structure EngineResult where
  ok : Bool
  code : String
  error : Text
  message : Text
  value : Value

def normalizeEngineResult (result : EngineResult) : Value :=
  if result.ok then success result.value
  else
    failure (if result.code = "" then "INVALID_TRANSITION" else result.code)
      (string (if result.error ≠ [] then result.error
        else if result.message ≠ [] then result.message
        else units "Operator recovery action failed."))
      [(units "result", result.value)]

end Responses

section Surface

/-- What the surface says of the execution. -/
structure RecoverySurface where
  data : Value
  checkpointStatus : Text
  executionStatus : Text

structure SafeAction where
  action : ActionName
  label : String
  requiresReason : Bool

def buildSafeActions (surface : RecoverySurface) : List SafeAction :=
  let rawCheckpointStatus := lowered (trimmed surface.checkpointStatus)
  let rawExecutionStatus := lowered (trimmed surface.executionStatus)
  (if rawExecutionStatus ∈ [units "paused", units "paused_for_review"] ∨ rawCheckpointStatus = units "paused" then
    [⟨.approveResume, "Approve Resume", false⟩, ⟨.modifyResume, "Modify And Resume", true⟩,
      ⟨.rejectResume, "Reject Execution", true⟩]
  else []) ++
  (if rawCheckpointStatus ∈ [units "failed", units "awaiting_review", units "pause_for_operator_recovery",
      units "execution_abandoned"] ∨ rawExecutionStatus = units "failed" then
    [⟨.retryStep, "Retry Step", true⟩]
  else []) ++
  (if rawExecutionStatus ∉ [units "completed", units "cancelled"] ∧
      rawCheckpointStatus ∉ [units "completed", units "cancelled"] then
    [⟨.cancelExecution, "Cancel Execution", true⟩]
  else [])

end Surface

/-- What the code that a request calls answers before the first await. -/
structure Answers where
  surface : Except Value RecoverySurface
  executionId : Option Text
  lock : Except Refusal Unit
  transition : Except Refusal Value
  refreshedSurface : Value
  planRebuilt : Bool
  /-- The record is written; not when its transaction fails or the process ends before it. -/
  committed : Bool

structure ActionRecord where
  planId : Text
  executionId : Text
  actionType : Text
  actorId : Text
  requestFingerprint : Text
  responsePayload : Text
  createdAt : Int
  expiresAtMs : Int

/-- What a request does. -/
inductive ActionEvent where
  | locked
  | transition (action : ActionName)
  | resumed (action : ActionName)
  | recovered
  | recorded (response : Value) (expiresAtMs : Int)
  | replayed (response : Value)
  | refused

structure ActionEntry where
  key : Text
  fingerprint : Text
  instant : Int
  event : ActionEvent

/-- The table of the records, by their key, the time and what the requests did, the latest first. -/
structure ActionStore where
  now : Int
  records : Text → Option ActionRecord
  log : List ActionEntry

namespace ActionStore

variable (store : ActionStore)

def empty (now : Int) : ActionStore := ⟨now, fun _ => none, []⟩

def purgeExpiredOperatorActionIdempotency : ActionStore :=
  { store with records := fun key => (store.records key).filter fun record => store.now < record.expiresAtMs }

def noted (request : ActionRequest) (event : ActionEvent) : ActionStore :=
  { store with
    log := ⟨request.idempotencyKey, request.buildIdempotencyFingerprint, store.now, event⟩ :: store.log }

/-- The row of the insert; where the key has a row, the insert only changes its response and its expiry. -/
def storedRow (request : ActionRequest) (executionId : Text) (response : Value) : ActionRecord :=
  match store.records request.idempotencyKey with
  | some record =>
    { record with
      responsePayload := Value.text response
      expiresAtMs := store.now + OPERATOR_IDEMPOTENCY_TTL_MS }
  | none =>
    { planId := request.planId
      executionId
      actionType := request.actionName
      actorId := request.operator
      requestFingerprint := request.buildIdempotencyFingerprint
      responsePayload := Value.text response
      createdAt := store.now
      expiresAtMs := store.now + OPERATOR_IDEMPOTENCY_TTL_MS }

def storeOperatorActionIdempotency (request : ActionRequest) (executionId : Text) (response : Value) : ActionStore :=
  { store with
    records := Function.update store.records request.idempotencyKey (some (store.storedRow request executionId response)) }.noted
    request (.recorded response (store.now + OPERATOR_IDEMPOTENCY_TTL_MS))

end ActionStore

/-- Where a request stands; one that is interrupted has no response. -/
inductive ActionCall where
  | waiting (request : ActionRequest)
  | awaiting (request : ActionRequest) (executionId : Text)
  | answered (request : ActionRequest) (response : Value)
  | interrupted (request : ActionRequest)

/-- The response is recorded and returned. -/
def respond (request : ActionRequest) (executionId : Text) (response : Value) (committed : Bool) (store : ActionStore) :
    ActionCall × ActionStore :=
  if committed then (.answered request response, store.storeOperatorActionIdempotency request executionId response)
  else (.interrupted request, store)

/-- The lookup and the checks; what passes them goes on with an action and an execution. -/
def admitted (request : ActionRequest) (answers : Answers) (store : ActionStore) :
    Except (ActionCall × ActionStore) (RecoverySurface × ActionName × Text) :=
  if isBlank request.planId then
    .error (.answered request (failure "EXECUTION_NOT_FOUND" (string (units "planId is required.")) []), store)
  else if isBlank request.idempotencyKey then
    .error (.answered request
      (failure "IDEMPOTENCY_KEY_REQUIRED" (string (units "Operator actions require an idempotency key.")) []), store)
  else
    let store := store.purgeExpiredOperatorActionIdempotency
    match store.records request.idempotencyKey with
    | some record =>
      if record.requestFingerprint ≠ request.buildIdempotencyFingerprint then
        .error (.answered request alreadyBound, store.noted request .refused)
      else
        let response := parseJson record.responsePayload invalidStored
        .error (.answered request response, store.noted request (.replayed response))
    | none =>
      match answers.surface with
      | .error response => .error (.answered request response, store)
      | .ok surface =>
        let extra := [(units "surface", surface.data)]
        match (buildSafeActions surface).find? fun entry => entry.action.text = request.actionName with
        | none =>
          .error (.answered request (failure "INVALID_TRANSITION" (string
            (units "Action " ++ request.action ++ units " is not currently safe for " ++ request.planId ++ units ".")) extra),
            store)
        | some available =>
          if available.requiresReason ∧ isBlank request.reason then
            .error (.answered request (failure "OPERATOR_REASON_REQUIRED"
              (string (units "Operator reason is required for this action.")) extra), store)
          else
            match answers.executionId with
            | none =>
              .error (.answered request (failure "EXECUTION_NOT_FOUND"
                (string (units "Execution " ++ request.planId ++ units " was not found.")) extra), store)
            | some executionId => .ok (surface, available.action, executionId)

def Refusal.response (refusal : Refusal) (code : String) (extra : List (Text × Value)) : Value :=
  failure ((refusal.code.filter fun text => text ≠ "").getD code) refusal.message extra

/-- The action, up to its first await. -/
def applied (request : ActionRequest) (answers : Answers) (surface : RecoverySurface) (action : ActionName)
    (executionId : Text) (store : ActionStore) : ActionCall × ActionStore :=
  let extra := [(units "surface", surface.data)]
  match action with
  | .approveResume | .rejectResume => (.awaiting request executionId, store.noted request (.resumed action))
  | .modifyResume =>
    match request.updatedInput with
    | none =>
      respond request executionId (failure "INVALID_TRANSITION"
        (string (units "updatedInput is required for modify_resume.")) extra) answers.committed store
    | some _ => (.awaiting request executionId, store.noted request (.resumed action))
  | .cancelExecution =>
    match answers.lock with
    | .error refusal => respond request executionId (refusal.response "LOCK_CONFLICT" extra) answers.committed store
    | .ok () =>
      let store := (store.noted request .locked).noted request (.transition action)
      match answers.transition with
      | .error refusal => respond request executionId (refusal.response "INVALID_TRANSITION" []) answers.committed store
      | .ok data =>
        respond request executionId (success (object [(units "action", string action.text), (units "transition", data),
          (units "surface", answers.refreshedSurface)])) answers.committed store
  | .retryStep =>
    match answers.lock with
    | .error refusal => respond request executionId (refusal.response "LOCK_CONFLICT" extra) answers.committed store
    | .ok () =>
      let store := (store.noted request .locked).noted request (.transition action)
      match answers.transition with
      | .error refusal => respond request executionId (refusal.response "INVALID_TRANSITION" extra) answers.committed store
      | .ok _ =>
        if answers.planRebuilt then (.awaiting request executionId, store.noted request .recovered)
        else
          respond request executionId (failure "EXECUTION_NOT_FOUND" (string
            (units "Recovered plan " ++ request.planId ++ units " could not be reconstructed.")) []) answers.committed store

def applyOperatorRecoveryAction (request : ActionRequest) (answers : Answers) (store : ActionStore) :
    ActionCall × ActionStore :=
  match admitted request answers store with
  | .error result => result
  | .ok (surface, action, executionId) =>
    applied request answers surface action executionId store.purgeExpiredOperatorActionIdempotency

/-- What a section of a request is given; no result where the awaited call throws or the process ends. -/
inductive SectionInput where
  | answers (answers : Answers)
  | settled (result : Option EngineResult) (committed : Bool)

def advance (input : SectionInput) (call : ActionCall) (store : ActionStore) : ActionCall × ActionStore :=
  match call, input with
  | .waiting request, .answers answers => applyOperatorRecoveryAction request answers store
  | .awaiting request executionId, .settled (some result) committed =>
    respond request executionId (normalizeEngineResult result) committed store
  | .awaiting request _, .settled none _ => (.interrupted request, store)
  | call, _ => (call, store)

/-- The requests of any operators; the time goes on between their sections. -/
def actionRules : CrowdRules ActionRequest ActionCall SectionInput Nat ActionStore where
  start := .waiting
  advance := advance
  outside ms store := { store with now := store.now + ms }

end CommandConsole.Operators
