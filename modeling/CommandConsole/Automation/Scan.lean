import CommandConsole.Library.EventLog

/-! # Recovery automation scans

A scan asks for advisories, evaluates the policy of each, asks the throttle and then opens a
recovery request or suppresses the advisory. Everything it does goes into the audit log, and
the throttle reads its history from the same log. Time passes before each reading of the clock.
-/
namespace CommandConsole.Automation
open Library
set_option autoImplicit false

section Policy

inductive PolicyAction where
  | block
  | suppress
  | advisoryOnly
  | createRequest
  deriving DecidableEq

structure AutomationPolicy where
  allowed : Bool
  action : PolicyAction
  requiresOperator : Bool
  reason : String
  policyCode : String
  deriving DecidableEq

/-- An absent text is none. -/
structure Recommendation where
  recommendation : Option String
  confidence : Option Rat
  requiresOperator : Bool
  reason : Option String
  deriving DecidableEq

structure Advisory where
  advisoryId : String
  executionId : String
  signal : Option String
  candidate : Option String
  recommendation : Option Recommendation
  deriving DecidableEq

structure AutomationModes where
  automationMinConfidence : Option Rat
  automationAllowResume : Bool
  deriving DecidableEq

/-- `text || other`. -/
def orText (text : Option String) (other : String) : String := (text.filter fun value => value ≠ "").getD other

/-- `Number(value || other)`. -/
def orNumber (value : Option Rat) (other : Rat) : Rat := (value.filter fun number => number ≠ 0).getD other

/-- `advisory.signal?.signalType || advisory.candidate?.signalType || null`. -/
def Advisory.signalType (advisory : Advisory) : Option String :=
  (advisory.signal.filter fun value => value ≠ "") <|> advisory.candidate.filter fun value => value ≠ ""

/-- `advisory.recommendation?.recommendation || "none"`. -/
def Advisory.recommended (advisory : Advisory) : String :=
  orText (advisory.recommendation.bind Recommendation.recommendation) "none"

def evaluateAutomationPolicy (recommendation : Option Recommendation) (modes : AutomationModes) (paused : Bool) :
    AutomationPolicy :=
  match recommendation with
  | none => ⟨false, .block, true, "missing_automation_policy_input", "BLOCKED_UNSAFE_RECOVERY_AUTOMATION"⟩
  | some given =>
    let action := orText given.recommendation "none"
    if paused then ⟨false, .block, true, "automation_paused", "AUTOMATION_PAUSED"⟩
    else if given.reason = some "unknown_recovery_signal" then
      ⟨false, .suppress, true, "unknown_recovery_signal", "SUPPRESS_UNKNOWN"⟩
    else if action = "none" then ⟨false, .suppress, true, orText given.reason "no_action", "SUPPRESS_NONE"⟩
    else if action = "operator_recovery" then
      ⟨false, .advisoryOnly, true, orText given.reason "operator_recovery", "ADVISORY_ONLY_OPERATOR_RECOVERY"⟩
    else if action = "resume" ∧ (¬modes.automationAllowResume ∨
        orNumber given.confidence 0 < orNumber modes.automationMinConfidence (9 / 10)) then
      ⟨false, .advisoryOnly, true, orText given.reason "resume_below_confidence_threshold",
        "RESUME_REQUIRES_OPERATOR"⟩
    else ⟨true, .createRequest, given.requiresOperator, orText given.reason "automation_allowed",
      "ALLOW_CREATE_REQUEST"⟩

end Policy

section Throttle

structure AutomationThrottle where
  throttled : Bool
  reason : String
  nextEligibleAt : Option Nat
  deriving DecidableEq

inductive AutomationType where
  | scanStarted
  | scanCompleted
  | policyEvaluated
  | suppressed
  | requestOpened
  | blocked
  | failed
  | paused
  | resumed
  deriving DecidableEq

structure AutomationPayload where
  scope : Option String := none
  executionId : Option String := none
  advisoryId : Option String := none
  signalType : Option String := none
  recommendation : Option String := none
  policy : Option AutomationPolicy := none
  throttle : Option AutomationThrottle := none
  deriving DecidableEq

/-- A timestamp that is no date is none. -/
structure AutomationEvent where
  type : AutomationType
  payload : AutomationPayload
  timestamp : Option Nat
  deriving DecidableEq

def DEFAULT_COOLDOWN_MS : Nat := 5 * 60 * 1000

def AutomationEvent.About (event : AutomationEvent) (executionId signalType recommendation : String) : Prop :=
  event.payload.executionId.getD "" = executionId ∧ event.payload.signalType.getD "" = signalType ∧
    event.payload.recommendation.getD "" = recommendation

instance (event : AutomationEvent) (executionId signalType recommendation : String) :
    Decidable (event.About executionId signalType recommendation) := inferInstanceAs (Decidable (_ ∧ _))

def eligible : AutomationThrottle := ⟨false, "eligible", none⟩

def shouldThrottleAutomation (executionId signalType recommendation : String) (history : List AutomationEvent)
    (now : Nat) : AutomationThrottle :=
  match history.find? fun event => event.About executionId signalType recommendation with
  | none => eligible
  | some relevant =>
    match relevant.timestamp with
    | none => ⟨true, "invalid_history_timestamp", none⟩
    | some eventTime =>
      if now < eventTime + DEFAULT_COOLDOWN_MS then
        ⟨true, "cooldown_active", some (eventTime + DEFAULT_COOLDOWN_MS)⟩
      else eligible

end Throttle

section AuditLog

/-- A line of the audit log; none stands for an event of another part of the program. -/
abbrev AuditLine := Option AutomationEvent

def stampOf (line : AuditLine) : Option Nat := line.bind AutomationEvent.timestamp

def Precedes (earlier later : AuditLine) : Prop :=
  ∀ time ∈ stampOf earlier, ∀ time' ∈ stampOf later, time ≤ time'

/-- The log and the clock, which never goes back. -/
structure AuditTrail where
  log : List AuditLine
  clock : Nat
  ordered : log.Pairwise Precedes
  past : ∀ line ∈ log, ∀ time ∈ stampOf line, time ≤ clock

namespace AuditTrail

def empty : AuditTrail := ⟨[], 0, .nil, fun _ hLine => nomatch hLine⟩

def wait (trail : AuditTrail) (elapsed : Nat) : AuditTrail where
  log := trail.log
  clock := trail.clock + elapsed
  ordered := trail.ordered
  past line hLine time hTime := Nat.le_add_right_of_le (trail.past line hLine time hTime)

/-- A line written now. -/
def append (trail : AuditTrail) (written : Option (AutomationType × AutomationPayload)) : AuditTrail where
  log := trail.log ++ [written.map fun entry => ⟨entry.1, entry.2, some trail.clock⟩]
  clock := trail.clock
  ordered := by
    refine List.pairwise_append.mpr ⟨trail.ordered, List.pairwise_singleton _ _, fun line hLine last hLast => ?_⟩
    obtain rfl := List.mem_singleton.mp hLast
    intro time hTime time' hTime'
    cases written with
    | none => cases hTime'
    | some entry =>
      obtain rfl := Option.some.inj hTime'
      exact trail.past line hLine time hTime
  past := by
    intro line hLine time hTime
    rcases List.mem_append.mp hLine with hOld | hNew
    · exact trail.past line hOld time hTime
    · obtain rfl := List.mem_singleton.mp hNew
      cases written with
      | none => cases hTime
      | some entry => exact Nat.le_of_eq (Option.some.inj hTime).symm

def appendAutomationEvent (trail : AuditTrail) (elapsed : Nat) (type : AutomationType)
    (payload : AutomationPayload) : AuditTrail :=
  (trail.wait elapsed).append (some (type, payload))

end AuditTrail

/-- Newest first, as far back as the limit goes. -/
def listAutomationEvents (log : List AuditLine) : List AutomationEvent := (newest 5000 log).filterMap id

/-- `getAutomationStatus(..).paused`, globally where there is no execution. -/
def automationPaused (log : List AuditLine) (executionId : Option String) : Bool :=
  let events := (listAutomationEvents log).filter fun event =>
    let scope := orText event.payload.scope "global"
    scope = "global" ∨ executionId.isSome ∧ scope = "execution" ∧ event.payload.executionId = executionId
  (events.find? fun event => event.type = .paused ∨ event.type = .resumed).any fun latest => latest.type = .paused

/-- What others write to the log while a scan waits: an event of another part, a pause or a resumption. -/
inductive OtherLine where
  | event (elapsed : Nat)
  | pause (elapsed : Nat) (scope : String) (executionId : Option String)
  | resume (elapsed : Nat) (scope : String) (executionId : Option String)
  deriving DecidableEq

def OtherLine.write (trail : AuditTrail) : OtherLine → AuditTrail
  | .event elapsed => (trail.wait elapsed).append none
  | .pause elapsed scope executionId =>
    trail.appendAutomationEvent elapsed .paused { scope := some scope, executionId }
  | .resume elapsed scope executionId =>
    trail.appendAutomationEvent elapsed .resumed { scope := some scope, executionId }

end AuditLog

section Scan

structure AutomationExplanation where
  summary : String
  actionTaken : PolicyAction
  reason : String
  safetyNotes : List String
  deriving DecidableEq

def explainAutomationDecision (advisory : Advisory) (policy : AutomationPolicy) : AutomationExplanation where
  summary := "Automation reviewed recovery advisory for execution " ++ advisory.executionId ++ "."
  actionTaken := policy.action
  reason := policy.reason
  safetyNotes := ["D-9 is a controlled automation layer only.",
    "Any real recovery request still routes through D-8 and D-7.",
    "D-9 does not approve or commit recovery."]

structure AutomationDecision where
  advisoryId : String
  policy : AutomationPolicy
  throttle : AutomationThrottle
  explanation : AutomationExplanation
  opened : Bool
  deriving DecidableEq

/-- An advisory, the time before each reading of the clock, and how the creation of its request goes. -/
structure AdvisoryTurn where
  advisory : Advisory
  evaluating : Nat
  checking : Nat
  creating : List OtherLine
  created : Bool
  recording : Nat
  deriving DecidableEq

/-- A consultation of the throttle, with the log as it was when the scan began. -/
structure ThrottleCheck where
  advisory : Advisory
  earlier : List AuditLine
  log : List AuditLine
  evaluatedAt : Nat
  checkedAt : Nat
  policy : AutomationPolicy
  throttle : AutomationThrottle

structure ScanProgress where
  trail : AuditTrail
  decisions : List AutomationDecision
  requestsOpened : Nat
  checks : List ThrottleCheck

def Advisory.payload (advisory : Advisory) : AutomationPayload where
  executionId := some advisory.executionId
  advisoryId := some advisory.advisoryId
  signalType := advisory.signalType
  recommendation := some advisory.recommended

def AdvisoryTurn.check (modes : AutomationModes) (earlier : List AuditLine) (trail : AuditTrail)
    (turn : AdvisoryTurn) : ThrottleCheck :=
  let advisory := turn.advisory
  let policy := evaluateAutomationPolicy advisory.recommendation modes
    (automationPaused trail.log (some advisory.executionId))
  let evaluated := trail.appendAutomationEvent turn.evaluating .policyEvaluated { advisory.payload with policy }
  let now := evaluated.clock + turn.checking
  let throttle := shouldThrottleAutomation advisory.executionId (advisory.signalType.getD "") advisory.recommended
    (listAutomationEvents evaluated.log) now
  ⟨advisory, earlier, evaluated.log, evaluated.clock, now, policy, throttle⟩

/-- The decision loop for one advisory. -/
def reviewAdvisory (modes : AutomationModes) (dryRun : Bool) (earlier : List AuditLine) (progress : ScanProgress)
    (turn : AdvisoryTurn) : ScanProgress :=
  let advisory := turn.advisory
  let check := turn.check modes earlier progress.trail
  let payload : AutomationPayload := { advisory.payload with policy := some check.policy }
  let checked := (progress.trail.appendAutomationEvent turn.evaluating .policyEvaluated payload).wait turn.checking
  let decided (opened : Bool) : AutomationDecision :=
    ⟨advisory.advisoryId, check.policy, check.throttle, explainAutomationDecision advisory check.policy, opened⟩
  let suppressed :=
    checked.appendAutomationEvent turn.recording .suppressed { payload with throttle := some check.throttle }
  if check.throttle.throttled then
    ⟨suppressed, progress.decisions ++ [decided false], progress.requestsOpened, progress.checks ++ [check]⟩
  else if ¬check.policy.allowed ∨ check.policy.action ≠ .createRequest ∨ dryRun then
    ⟨suppressed, progress.decisions ++ [decided false], progress.requestsOpened, progress.checks ++ [check]⟩
  else
    let waited := turn.creating.foldl OtherLine.write checked
    if ¬turn.created then
      ⟨waited.appendAutomationEvent turn.recording .blocked payload, progress.decisions ++ [decided false],
        progress.requestsOpened, progress.checks ++ [check]⟩
    else
      ⟨waited.appendAutomationEvent turn.recording .requestOpened advisory.payload,
        progress.decisions ++ [decided true], progress.requestsOpened + 1, progress.checks ++ [check]⟩

/-- The advisories, or the message of the failure, and what others write while they are made. -/
structure ScanInput where
  modes : AutomationModes
  dryRun : Bool
  starting : Nat
  scanning : List OtherLine
  scanned : Except String (List AdvisoryTurn)
  ending : Nat

inductive ScanResult where
  | failure (message : String)
  | success (advisoriesProcessed requestsOpened : Nat) (decisions : List AutomationDecision)
  deriving DecidableEq

def runRecoveryAutomationScan (input : ScanInput) (trail : AuditTrail) :
    ScanResult × AuditTrail × List ThrottleCheck :=
  if automationPaused trail.log none then (.failure "Recovery automation is paused.", trail, [])
  else
    let started := trail.appendAutomationEvent input.starting .scanStarted {}
    let scanned := input.scanning.foldl OtherLine.write started
    match input.scanned with
    | .error message =>
      (.failure (orText (some message) "Recovery automation scan failed."),
        scanned.appendAutomationEvent input.ending .failed {}, [])
    | .ok turns =>
      let progress := turns.foldl (reviewAdvisory input.modes input.dryRun trail.log) ⟨scanned, [], 0, []⟩
      (.success turns.length progress.requestsOpened progress.decisions,
        progress.trail.appendAutomationEvent input.ending .scanCompleted {}, progress.checks)

/-- A completed scan, or a line that another part of the program writes between two scans. -/
inductive AutomationOp where
  | scan (input : ScanInput)
  | other (line : OtherLine)

structure AutomationRun where
  trail : AuditTrail
  checks : List ThrottleCheck

def AutomationRun.step (op : AutomationOp) (run : AutomationRun) : AutomationRun :=
  match op with
  | .scan input =>
    let result := runRecoveryAutomationScan input run.trail
    ⟨result.2.1, run.checks ++ result.2.2⟩
  | .other line => ⟨line.write run.trail, run.checks⟩

end Scan

end CommandConsole.Automation
