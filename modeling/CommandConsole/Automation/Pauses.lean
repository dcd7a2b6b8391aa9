import CommandConsole.Automation.Scan
import CommandConsole.Library.Crowd

/-! # Pauses of recovery automation

Scans take their turns between pauses, resumptions and lines of other parts of the program.
Whether automation is paused is read off the newest lines of the log, where a switch of all
executions and a switch of one are told apart by nothing but their order.
-/
namespace CommandConsole.Automation
open Library
set_option autoImplicit false

section Law

def AutomationEvent.isSwitch (event : AutomationEvent) : Bool := event.type = .paused ∨ event.type = .resumed

def AutomationEvent.isGlobal (event : AutomationEvent) : Bool := orText event.payload.scope "global" = "global"

def AutomationEvent.isFor (executionId : String) (event : AutomationEvent) : Bool :=
  orText event.payload.scope "global" = "execution" ∧ event.payload.executionId = some executionId

/-- The last pause or resumption of a kind. -/
def lastSwitch (kind : AutomationEvent → Bool) (log : List AuditLine) : Option AutomationEvent :=
  (log.reverse.filterMap id).find? fun event => event.isSwitch && kind event

def PausedBy (kind : AutomationEvent → Bool) (log : List AuditLine) : Prop :=
  ∃ event, lastSwitch kind log = some event ∧ event.type = .paused

def PausedGlobally (log : List AuditLine) : Prop := PausedBy AutomationEvent.isGlobal log

def PausedFor (executionId : String) (log : List AuditLine) : Prop :=
  PausedBy (AutomationEvent.isFor executionId) log ∨ PausedGlobally log

/-- The last switch of a kind is a pause and one of the newest 5000 lines. -/
def PauseSeen (kind : AutomationEvent → Bool) (log : List AuditLine) : Prop :=
  ∃ event, lastSwitch kind log = some event ∧ event.type = .paused ∧ some event ∈ newest 5000 log

instance (kind : AutomationEvent → Bool) (log : List AuditLine) : Decidable (PausedBy kind log) :=
  decidable_of_iff ((lastSwitch kind log).any fun event => event.type = .paused) (by simp [PausedBy, Option.any_eq_true])

instance (log : List AuditLine) : Decidable (PausedGlobally log) := inferInstanceAs (Decidable (PausedBy _ _))

instance (executionId : String) (log : List AuditLine) : Decidable (PausedFor executionId log) :=
  inferInstanceAs (Decidable (_ ∨ _))

instance (kind : AutomationEvent → Bool) (log : List AuditLine) : Decidable (PauseSeen kind log) :=
  decidable_of_iff ((lastSwitch kind log).any fun event => event.type = .paused ∧ some event ∈ newest 5000 log)
    (by simp [PauseSeen, Option.any_eq_true])

end Law

section Status

theorem newest_eq_take {ε : Type} (limit : Nat) (log : List ε) : newest limit log = log.reverse.take limit := by
  rw [newest, List.take_reverse]

theorem find?_of_weaker {α : Type} {p q : α → Bool} {xs : List α} {a : α} (h : xs.find? p = some a)
    (hWeaker : ∀ b, q b = true → p b = true) (hMet : q a = true) : xs.find? q = some a := by
  induction xs with
  | nil => cases h
  | cons b xs ih =>
    by_cases hp : p b = true
    · rw [List.find?_cons_of_pos hp] at h
      obtain rfl := Option.some.inj h
      exact List.find?_cons_of_pos hMet
    · rw [List.find?_cons_of_neg hp] at h
      rw [List.find?_cons_of_neg fun hq => hp (hWeaker b hq)]
      exact ih h

/-- The switch that a status finds is the last of all, as far as the newest lines reach. -/
theorem find?_newest_iff (kind : AutomationEvent → Bool) (log : List AuditLine) (event : AutomationEvent) :
    ((listAutomationEvents log).filter kind).find? AutomationEvent.isSwitch = some event ↔
      lastSwitch kind log = some event ∧ some event ∈ newest 5000 log := by
  have hAll : lastSwitch kind log =
      (((listAutomationEvents log).filter kind).find? AutomationEvent.isSwitch).or
        ((((log.reverse.drop 5000).filterMap id).filter kind).find? AutomationEvent.isSwitch) := by
    rw [listAutomationEvents, newest_eq_take, List.find?_filter, List.find?_filter, ← List.find?_append,
      ← List.filterMap_append, List.take_append_drop, lastSwitch]
    congr 1
    funext other
    rw [Bool.and_comm, Bool.decide_and, Bool.decide_eq_true, Bool.decide_eq_true]
  constructor
  · intro h
    refine ⟨by rw [hAll, h, Option.some_or], ?_⟩
    have hMem := (List.mem_filter.mp (List.mem_of_find?_eq_some h)).1
    obtain ⟨line, hLine, rfl⟩ := List.mem_filterMap.mp hMem
    exact hLine
  · rintro ⟨hLast, hMem⟩
    have hSwitch := List.find?_some hLast
    simp only [Bool.and_eq_true] at hSwitch
    cases hFind : ((listAutomationEvents log).filter kind).find? AutomationEvent.isSwitch with
    | some found =>
      rw [hAll, hFind, Option.some_or] at hLast
      exact hLast
    | none =>
      have hNone := List.find?_eq_none.mp hFind event
        (List.mem_filter.mpr ⟨List.mem_filterMap.mpr ⟨_, hMem, rfl⟩, hSwitch.2⟩)
      exact absurd hSwitch.1 hNone

theorem any_paused_iff (kind : AutomationEvent → Bool) (log : List AuditLine) :
    ((((listAutomationEvents log).filter kind).find? AutomationEvent.isSwitch).any
      fun latest => latest.type = .paused) = true ↔ PauseSeen kind log := by
  rw [Option.any_eq_true]
  constructor
  · rintro ⟨event, hFind, hPaused⟩
    obtain ⟨hLast, hMem⟩ := (find?_newest_iff kind log event).mp hFind
    exact ⟨event, hLast, of_decide_eq_true hPaused, hMem⟩
  · rintro ⟨event, hLast, hPaused, hMem⟩
    exact ⟨event, (find?_newest_iff kind log event).mpr ⟨hLast, hMem⟩, decide_eq_true hPaused⟩

/-- The switches that the status of an execution merges. -/
def AutomationEvent.isMerged (executionId : String) (event : AutomationEvent) : Bool :=
  event.isGlobal || event.isFor executionId

theorem automationPaused_none_iff (log : List AuditLine) :
    automationPaused log none = true ↔ PauseSeen AutomationEvent.isGlobal log := by
  rw [← any_paused_iff, automationPaused]
  simp only [Option.isSome_none, Bool.false_eq_true, false_and, or_false]
  rfl

theorem automationPaused_some_iff (log : List AuditLine) (executionId : String) :
    automationPaused log (some executionId) = true ↔ PauseSeen (AutomationEvent.isMerged executionId) log := by
  rw [← any_paused_iff, automationPaused]
  simp only [Option.isSome_some, true_and]
  have hKind : (fun event : AutomationEvent => decide (orText event.payload.scope "global" = "global" ∨
      orText event.payload.scope "global" = "execution" ∧ event.payload.executionId = some executionId)) =
      AutomationEvent.isMerged executionId := by
    funext event
    rw [AutomationEvent.isMerged, AutomationEvent.isGlobal, AutomationEvent.isFor, Bool.decide_or]
  rw [hKind]
  rfl

theorem PauseSeen.pausedBy {kind : AutomationEvent → Bool} {log : List AuditLine} (h : PauseSeen kind log) :
    PausedBy kind log := by
  obtain ⟨event, hLast, hPaused, _⟩ := h
  exact ⟨event, hLast, hPaused⟩

theorem PausedBy.pausedFor {executionId : String} {log : List AuditLine}
    (h : PausedBy (AutomationEvent.isMerged executionId) log) : PausedFor executionId log := by
  obtain ⟨event, hLast, hPaused⟩ := h
  have hMet := List.find?_some hLast
  simp only [AutomationEvent.isMerged, Bool.and_eq_true, Bool.or_eq_true] at hMet
  rcases hMet.2 with hGlobal | hFor
  · refine .inr ⟨event, find?_of_weaker hLast (fun other hOther => ?_) (by simp [hMet.1, hGlobal]), hPaused⟩
    simp only [Bool.and_eq_true] at hOther
    simp [AutomationEvent.isMerged, hOther.1, hOther.2]
  · refine .inl ⟨event, find?_of_weaker hLast (fun other hOther => ?_) (by simp [hMet.1, hFor]), hPaused⟩
    simp only [Bool.and_eq_true] at hOther
    simp [AutomationEvent.isMerged, hOther.1, hOther.2]

/-- Any pause is forgotten under 5000 further lines without a switch. -/
theorem not_paused_after {log later : List AuditLine} (hMany : 5000 ≤ later.length)
    (hNone : ∀ event, some event ∈ later → event.isSwitch = false) (executionId : Option String) :
    automationPaused (log ++ later) executionId = false := by
  have hFar : log.length ≤ (log ++ later).length - 5000 := by
    rw [List.length_append]
    omega
  have hNewest : newest 5000 (log ++ later) = (later.drop ((log ++ later).length - 5000 - log.length)).reverse := by
    rw [newest, List.drop_append, List.drop_eq_nil_of_le hFar, List.nil_append]
  rw [automationPaused, List.find?_eq_none.mpr]
  · rfl
  · intro event hMem
    obtain ⟨line, hLine, rfl⟩ := List.mem_filterMap.mp (List.mem_filter.mp hMem).1
    rw [hNewest] at hLine
    have hQuiet := hNone event (List.mem_of_mem_drop (List.mem_reverse.mp hLine))
    simp only [AutomationEvent.isSwitch] at hQuiet
    rw [hQuiet]
    exact Bool.false_ne_true

def globalPause : AutomationEvent := ⟨.paused, { scope := some "global" }, none⟩

theorem global_pause_forgotten :
    automationPaused [some globalPause] none = true ∧
      automationPaused ([some globalPause] ++ List.replicate 5000 none) none = false :=
  ⟨by decide, not_paused_after (Nat.le_of_eq List.length_replicate.symm)
    (fun _ hMem => absurd (List.eq_of_mem_replicate hMem) (Option.some_ne_none _)) none⟩

end Status

section Turns

structure ScanOptions where
  modes : AutomationModes
  dryRun : Bool
  deriving DecidableEq

/-- A request that was opened, with the log that its scan began with and the log at its evaluation. -/
structure RequestOpening where
  executionId : String
  begun : List AuditLine
  evaluated : List AuditLine
  deriving DecidableEq

/-- The log, and the requests that were opened. -/
structure AutomationStore where
  trail : AuditTrail
  openings : List RequestOpening

structure ScanAnswers where
  elapsed : Nat
  scanned : Except String (List Advisory)
  created : Bool

structure ReviewState where
  options : ScanOptions
  begun : List AuditLine
  processed : Nat
  remaining : List Advisory
  requestsOpened : Nat
  decisions : List AutomationDecision

inductive ScanStage where
  | requested (options : ScanOptions)
  | starting (options : ScanOptions) (begun : List AuditLine)
  | scanning (options : ScanOptions) (begun : List AuditLine)
  | failing (message : String)
  | reviewing (review : ReviewState)
  | evaluated (review : ReviewState) (advisory : Advisory) (policy : AutomationPolicy) (log : List AuditLine)
  | throttling (review : ReviewState) (advisory : Advisory) (policy : AutomationPolicy) (log : List AuditLine)
  | suppressing (review : ReviewState) (advisory : Advisory) (policy : AutomationPolicy)
      (throttle : AutomationThrottle)
  | creating (review : ReviewState) (advisory : Advisory) (policy : AutomationPolicy)
      (throttle : AutomationThrottle) (log : List AuditLine)
  | recording (review : ReviewState) (advisory : Advisory) (policy : AutomationPolicy)
      (throttle : AutomationThrottle) (opened : Bool)
  | ended (result : ScanResult)

def ReviewState.decide (review : ReviewState) (advisory : Advisory) (policy : AutomationPolicy)
    (throttle : AutomationThrottle) (opened : Bool) : ReviewState :=
  { review with
    requestsOpened := if opened then review.requestsOpened + 1 else review.requestsOpened
    decisions := review.decisions ++
      [⟨advisory.advisoryId, policy, throttle, explainAutomationDecision advisory policy, opened⟩] }

def AutomationStore.record (store : AutomationStore) (elapsed : Nat) (type : AutomationType)
    (payload : AutomationPayload) : AutomationStore :=
  { store with trail := store.trail.appendAutomationEvent elapsed type payload }

/-- One section of a scan. -/
def ScanStage.advance (answers : ScanAnswers) (stage : ScanStage) (store : AutomationStore) :
    ScanStage × AutomationStore :=
  match stage with
  | .requested options =>
    if automationPaused store.trail.log none then (.ended (.failure "Recovery automation is paused."), store)
    else (.starting options store.trail.log, store)
  | .starting options begun => (.scanning options begun, store.record answers.elapsed .scanStarted {})
  | .scanning options begun =>
    match answers.scanned with
    | .error message => (.failing message, store)
    | .ok advisories => (.reviewing ⟨options, begun, advisories.length, advisories, 0, []⟩, store)
  | .failing message =>
    (.ended (.failure (orText (some message) "Recovery automation scan failed.")),
      store.record answers.elapsed .failed {})
  | .reviewing review =>
    match review.remaining with
    | [] =>
      (.ended (.success review.processed review.requestsOpened review.decisions),
        store.record answers.elapsed .scanCompleted {})
    | advisory :: remaining =>
      let paused := automationPaused store.trail.log (some advisory.executionId)
      (.evaluated { review with remaining } advisory
        (evaluateAutomationPolicy advisory.recommendation review.options.modes paused) store.trail.log, store)
  | .evaluated review advisory policy log =>
    (.throttling review advisory policy log,
      store.record answers.elapsed .policyEvaluated { advisory.payload with policy := some policy })
  | .throttling review advisory policy log =>
    let throttle := shouldThrottleAutomation advisory.executionId (advisory.signalType.getD "") advisory.recommended
      (listAutomationEvents store.trail.log) (store.trail.clock + answers.elapsed)
    let next : ScanStage :=
      if throttle.throttled then .suppressing review advisory policy throttle
      else if ¬policy.allowed ∨ policy.action ≠ .createRequest ∨ review.options.dryRun then
        .suppressing review advisory policy throttle
      else .creating review advisory policy throttle log
    (next, { store with trail := store.trail.wait answers.elapsed })
  | .suppressing review advisory policy throttle =>
    (.reviewing (review.decide advisory policy throttle false),
      store.record answers.elapsed .suppressed
        { advisory.payload with policy := some policy, throttle := some throttle })
  | .creating review advisory policy throttle log =>
    (.recording review advisory policy throttle answers.created,
      if answers.created then
        { store with openings := store.openings ++ [⟨advisory.executionId, review.begun, log⟩] }
      else store)
  | .recording review advisory policy throttle opened =>
    (.reviewing (review.decide advisory policy throttle opened),
      if opened then store.record answers.elapsed .requestOpened advisory.payload
      else store.record answers.elapsed .blocked { advisory.payload with policy := some policy })
  | .ended result => (.ended result, store)

def automationRules : CrowdRules ScanOptions ScanStage ScanAnswers OtherLine AutomationStore where
  start := .requested
  advance := ScanStage.advance
  outside line store := { store with trail := line.write store.trail }

abbrev AutomationTurn := CrowdTurn ScanOptions ScanAnswers OtherLine

abbrev Scans := Crowd ScanStage AutomationStore

/-- Where automation is paused as far as a status is read for, the newest switch that it merges is
a pause, and among the newest 5000 lines. -/
def ScanStage.SeesPauses (stage : ScanStage) (log : List AuditLine) : Prop :=
  match stage with
  | .requested _ => PausedGlobally log → PauseSeen AutomationEvent.isGlobal log
  | .reviewing review => ∀ advisory ∈ review.remaining.head?, PausedFor advisory.executionId log →
    PauseSeen (AutomationEvent.isMerged advisory.executionId) log
  | _ => True

def SeesPauses (turn : AutomationTurn) (crowd : Scans) : Prop :=
  match turn with
  | .advance index _ => ∀ stage ∈ crowd.calls[index]?, stage.SeesPauses crowd.store.trail.log
  | _ => True

instance (stage : ScanStage) (log : List AuditLine) : Decidable (stage.SeesPauses log) := by
  unfold ScanStage.SeesPauses
  split <;> infer_instance

instance (turn : AutomationTurn) (crowd : Scans) : Decidable (SeesPauses turn crowd) := by
  unfold SeesPauses
  split <;> infer_instance

end Turns

section Runs

/-- The scan began unpaused, and so was the execution at its evaluation. -/
def RequestOpening.Lawful (opening : RequestOpening) : Prop :=
  ¬PausedGlobally opening.begun ∧ ¬PausedFor opening.executionId opening.evaluated

/-- What a scan has made sure of. -/
def ScanStage.Cleared : ScanStage → Prop
  | .requested _ => True
  | .starting _ begun => ¬PausedGlobally begun
  | .scanning _ begun => ¬PausedGlobally begun
  | .failing _ => True
  | .reviewing review => ¬PausedGlobally review.begun
  | .evaluated review advisory policy log =>
    ¬PausedGlobally review.begun ∧ (policy.allowed = true → ¬PausedFor advisory.executionId log)
  | .throttling review advisory policy log =>
    ¬PausedGlobally review.begun ∧ (policy.allowed = true → ¬PausedFor advisory.executionId log)
  | .suppressing review .. => ¬PausedGlobally review.begun
  | .creating review advisory _ _ log => ¬PausedGlobally review.begun ∧ ¬PausedFor advisory.executionId log
  | .recording review .. => ¬PausedGlobally review.begun
  | .ended _ => True

def AutomationStore.Lawful (store : AutomationStore) : Prop := ∀ opening ∈ store.openings, opening.Lawful

theorem not_allowed_of_paused (recommendation : Option Recommendation) (modes : AutomationModes) :
    (evaluateAutomationPolicy recommendation modes true).allowed = false := by
  cases recommendation <;> rfl

theorem ScanStage.advance_cleared (answers : ScanAnswers) {stage : ScanStage} {store : AutomationStore}
    (hSees : stage.SeesPauses store.trail.log) (hStore : store.Lawful) (hStage : stage.Cleared) :
    (stage.advance answers store).2.Lawful ∧ (stage.advance answers store).1.Cleared := by
  cases stage with
  | requested options =>
    dsimp only [advance]
    split
    · exact ⟨hStore, trivial⟩
    · rename_i hRead
      exact ⟨hStore, fun hPaused => hRead ((automationPaused_none_iff _).mpr (hSees hPaused))⟩
  | starting options begun => exact ⟨hStore, hStage⟩
  | scanning options begun =>
    dsimp only [advance]
    cases answers.scanned with
    | error message => exact ⟨hStore, trivial⟩
    | ok advisories => exact ⟨hStore, hStage⟩
  | failing message => exact ⟨hStore, trivial⟩
  | reviewing review =>
    dsimp only [advance]
    cases hRemaining : review.remaining with
    | nil => exact ⟨hStore, trivial⟩
    | cons advisory remaining =>
      refine ⟨hStore, hStage, fun hAllowed hPaused => ?_⟩
      have hSeen : PauseSeen (AutomationEvent.isMerged advisory.executionId) store.trail.log :=
        hSees advisory (by rw [hRemaining]; rfl) hPaused
      rw [(automationPaused_some_iff _ _).mpr hSeen, not_allowed_of_paused] at hAllowed
      cases hAllowed
  | evaluated review advisory policy log => exact ⟨hStore, hStage⟩
  | throttling review advisory policy log =>
    dsimp only [advance]
    generalize shouldThrottleAutomation _ _ _ _ _ = throttle
    refine ⟨hStore, ?_⟩
    split
    · exact hStage.1
    · split
      · exact hStage.1
      · rename_i hCreates
        simp only [not_or, Decidable.not_not] at hCreates
        exact ⟨hStage.1, hStage.2 hCreates.1⟩
  | suppressing review advisory policy throttle => exact ⟨hStore, hStage⟩
  | creating review advisory policy throttle log =>
    dsimp only [advance]
    refine ⟨?_, hStage.1⟩
    split
    · intro opening hMem
      rcases List.mem_append.mp hMem with hOld | hNew
      · exact hStore opening hOld
      · obtain rfl := List.mem_singleton.mp hNew
        exact hStage
    · exact hStore
  | recording review advisory policy throttle opened =>
    dsimp only [advance]
    cases opened with
    | true => exact ⟨hStore, hStage⟩
    | false => exact ⟨hStore, hStage⟩
  | ended result => exact ⟨hStore, trivial⟩

theorem openings_lawful {start : AuditTrail} {crowd : Scans}
    (h : Reaches (Crowd.step automationRules) SeesPauses (Crowd.init ⟨start, []⟩) crowd) : crowd.store.Lawful := by
  refine (Crowd.invariant h (P := AutomationStore.Lawful) (Q := fun stage _ => stage.Cleared) (R := fun _ _ => True)
    (fun opening hMem => absurd hMem List.not_mem_nil) (fun _ _ _ => trivial) ?_ ?_ fun _ _ _ _ hQ => hQ).1
  · intro index answers stage crowd hGuard hCall hStore hStage
    obtain ⟨hStore', hStage'⟩ := ScanStage.advance_cleared answers (hGuard stage hCall) hStore hStage
    exact ⟨hStore', trivial, hStage'⟩
  · exact fun line crowd _ hStore => ⟨hStore, trivial⟩

/-- A status reports what the law says exactly where the newest merged switch tells it. Where all the
reads of a run do, no scan that begins paused opens a request, nor any for an execution that is paused
at its evaluation. -/
theorem paused_stays_paused (log : List AuditLine) :
    ((PausedGlobally log ↔ automationPaused log none = true) ↔
      (PausedGlobally log → PauseSeen AutomationEvent.isGlobal log)) ∧
    (∀ executionId, (PausedFor executionId log ↔ automationPaused log (some executionId) = true) ↔
      (PausedFor executionId log → PauseSeen (AutomationEvent.isMerged executionId) log)) ∧
    ∀ (start : AuditTrail) (crowd : Scans),
      Reaches (Crowd.step automationRules) SeesPauses (Crowd.init ⟨start, []⟩) crowd → ∀ opening ∈ crowd.store.openings,
        ¬PausedGlobally opening.begun ∧ ¬PausedFor opening.executionId opening.evaluated := by
  refine ⟨?_, fun executionId => ?_, fun start crowd h => openings_lawful h⟩
  · rw [automationPaused_none_iff]
    exact ⟨Iff.mp, fun hSeen => ⟨hSeen, PauseSeen.pausedBy⟩⟩
  · rw [automationPaused_some_iff]
    exact ⟨Iff.mp, fun hSeen => ⟨hSeen, fun h => h.pausedBy.pausedFor⟩⟩

def failedAdvisory : Advisory where
  advisoryId := "advisory_1"
  executionId := "exec_1"
  signal := some "FAILED_EXECUTION"
  candidate := none
  recommendation := some ⟨some "retry_safe_steps", some (19 / 20), false, some "failed_execution_safe_retry"⟩

/-- A scan of one advisory, up to the creation of its request. -/
def scanTurns (index : Nat) : List AutomationTurn :=
  .enter ⟨⟨none, true⟩, false⟩ ::
    List.replicate 7 (.advance index ⟨DEFAULT_COOLDOWN_MS, .ok [failedAdvisory], true⟩)

def unpausedRun : Scans :=
  runAll (Crowd.step automationRules) (Crowd.init ⟨.empty, []⟩)
    (.outside (.pause 0 "execution" (some "exec_2")) :: scanTurns 0)

theorem unpausedRun_lawful : unpausedRun.store.openings.length = 1 ∧
    ∀ opening ∈ unpausedRun.store.openings,
      ¬PausedGlobally opening.begun ∧ ¬PausedFor opening.executionId opening.evaluated :=
  ⟨by decide +kernel, (paused_stays_paused []).2.2 .empty unpausedRun (GuardedAll.reaches (by decide +kernel))⟩

/-- The execution is paused, then automation is resumed globally. -/
def resumedGlobally : List AutomationTurn :=
  [.outside (.pause 0 "execution" (some "exec_1")), .outside (.resume 0 "global" none)]

/-- The global resumption lifts the pause of the execution, and a scan opens a request for it. -/
theorem resume_lifts_other_pause :
    ∃ crowd : Scans, Reaches (Crowd.step automationRules) (fun _ _ => True) (Crowd.init ⟨.empty, []⟩) crowd ∧
      ∃ opening ∈ crowd.store.openings, PausedFor opening.executionId opening.evaluated ∧
        automationPaused opening.evaluated (some opening.executionId) = false :=
  ⟨_, reaches_runAll _ _ (resumedGlobally ++ scanTurns 0), by decide +kernel⟩

end Runs

end CommandConsole.Automation
