import CommandConsole.Automation.Scan
import CommandConsole.Library.Run

/-! # The cooldown of recovery automation

The newest event about an advisory is always its own evaluation, so a refusal follows from the
time that passes after that evaluation and from nothing that was attempted before.
-/
namespace CommandConsole.Automation
open Library
set_option autoImplicit false

section Statement

/-- A request was opened or its creation was blocked. -/
def AutomationEvent.attempt (event : AutomationEvent) : Bool :=
  event.type = .requestOpened ∨ event.type = .blocked

def AutomationEvent.AboutAdvisory (event : AutomationEvent) (advisory : Advisory) : Prop :=
  event.About advisory.executionId (advisory.signalType.getD "") advisory.recommended

instance (event : AutomationEvent) (advisory : Advisory) : Decidable (event.AboutAdvisory advisory) :=
  inferInstanceAs (Decidable (event.About ..))

/-- A request for the advisory was opened or attempted, less than the cooldown before `now`. -/
def AttemptedWithin (log : List AuditLine) (advisory : Advisory) (now : Nat) : Prop :=
  ∃ event, some event ∈ log ∧ event.attempt = true ∧ event.AboutAdvisory advisory ∧
    ∃ time, event.timestamp = some time ∧ now < time + DEFAULT_COOLDOWN_MS

def ThrottleCheck.Asks (check : ThrottleCheck) : Prop := check.policy.action = .createRequest

instance (check : ThrottleCheck) : Decidable check.Asks := inferInstanceAs (Decidable (_ = _))

def ThrottleCheck.Refused (check : ThrottleCheck) : Prop := check.Asks ∧ check.throttle.throttled = true

/-- The attempts alone, newest first. -/
def attempts (log : List AuditLine) : List AutomationEvent :=
  ((log.filterMap id).filter AutomationEvent.attempt).reverse

/-- A refusal is due to an attempt of an earlier scan, and evaluations and suppressions have no part in it. -/
structure ThrottleCheck.Earned (check : ThrottleCheck) : Prop where
  attempted : check.Refused → AttemptedWithin check.earlier check.advisory check.checkedAt
  withoutEvaluations : check.Refused →
    (shouldThrottleAutomation check.advisory.executionId (check.advisory.signalType.getD "")
      check.advisory.recommended (attempts check.log) check.checkedAt).throttled = true

/-- A request that is opened after the first `start` lines comes a whole cooldown after every earlier
one for the same advisory. -/
def OpenedApart (start : Nat) (log : List AuditLine) : Prop :=
  ∀ i j earlier later, i < j → start ≤ j → log[i]? = some (some earlier) → log[j]? = some (some later) →
    earlier.type = .requestOpened → later.type = .requestOpened →
    later.About (earlier.payload.executionId.getD "") (earlier.payload.signalType.getD "")
      (earlier.payload.recommendation.getD "") →
    ∀ time ∈ earlier.timestamp, ∀ time' ∈ later.timestamp, time + DEFAULT_COOLDOWN_MS ≤ time'

/-- Nothing is asked within the cooldown of its own evaluation but what is in that of an attempt. -/
def ThrottleCheck.Spaced (check : ThrottleCheck) : Prop :=
  check.Asks → check.evaluatedAt + DEFAULT_COOLDOWN_MS ≤ check.checkedAt ∨
    AttemptedWithin check.earlier check.advisory check.checkedAt

end Statement

section Checks

variable {modes : AutomationModes} {earlier : List AuditLine} {trail : AuditTrail} {turn : AdvisoryTurn}

theorem listAutomationEvents_concat (log : List AuditLine) (event : AutomationEvent) :
    ∃ rest, listAutomationEvents (log ++ [some event]) = event :: rest := by
  rw [listAutomationEvents, newest_concat (by omega)]
  exact ⟨_, List.filterMap_cons_some rfl⟩

/-- The throttle finds the evaluation that has just been recorded. -/
theorem check_throttled (modes : AutomationModes) (earlier : List AuditLine) (trail : AuditTrail)
    (turn : AdvisoryTurn) :
    (turn.check modes earlier trail).throttle.throttled = true ↔
      (turn.check modes earlier trail).checkedAt <
        (turn.check modes earlier trail).evaluatedAt + DEFAULT_COOLDOWN_MS := by
  dsimp only [AdvisoryTurn.check, AuditTrail.appendAutomationEvent, AuditTrail.append, Option.map_some]
  obtain ⟨rest, hRest⟩ := listAutomationEvents_concat (trail.wait turn.evaluating).log
    ⟨.policyEvaluated, { turn.advisory.payload with
      policy := some (evaluateAutomationPolicy turn.advisory.recommendation modes
        (automationPaused trail.log (some turn.advisory.executionId))) },
      some (trail.wait turn.evaluating).clock⟩
  rw [hRest, shouldThrottleAutomation, List.find?_cons_of_pos]
  · dsimp only
    split
    · rename_i hLt
      simp only [hLt]
    · rename_i hLe
      simp only [eligible, Bool.false_eq_true, hLe]
  · simp [AutomationEvent.About, Advisory.payload]

/-- The newest attempt for the advisory is at least as late as any other. -/
theorem throttled_of_attempted {log : List AuditLine} (hOrdered : log.Pairwise Precedes) {advisory : Advisory}
    {now : Nat} (h : AttemptedWithin log advisory now) :
    (shouldThrottleAutomation advisory.executionId (advisory.signalType.getD "") advisory.recommended
      (attempts log) now).throttled = true := by
  obtain ⟨event, hMem, hAttempt, hAbout, time, hTime, hLt⟩ := h
  have hNewest : (attempts log).Pairwise fun later earlier => Precedes (some earlier) (some later) := by
    refine List.pairwise_reverse.mpr (List.Pairwise.filter _ (List.pairwise_filterMap.mpr (hOrdered.imp ?_)))
    rintro _ _ hPrecedes earlier rfl later rfl
    exact hPrecedes
  have hIn : event ∈ attempts log :=
    List.mem_reverse.mpr (List.mem_filter.mpr ⟨List.mem_filterMap.mpr ⟨_, hMem, rfl⟩, hAttempt⟩)
  obtain ⟨relevant, hFind, hOrder⟩ := find?_of_pairwise
    (fun other : AutomationEvent => decide (other.AboutAdvisory advisory)) hNewest hIn (decide_eq_true hAbout)
  have hFound : ((attempts log).find? fun other => other.About advisory.executionId (advisory.signalType.getD "")
      advisory.recommended) = some relevant := hFind
  rw [shouldThrottleAutomation, hFound]
  dsimp only
  split
  · rfl
  · rename_i eventTime hEventTime
    have hLe : time ≤ eventTime := by
      rcases hOrder with rfl | hPrecedes
      · exact Nat.le_of_eq (Option.some.inj (hTime.symm.trans hEventTime))
      · exact hPrecedes time hTime eventTime hEventTime
    rw [if_pos (by omega)]

/-- What is true of every consultation of the throttle. -/
structure ThrottleCheck.Sound (check : ThrottleCheck) : Prop where
  throttled : check.throttle.throttled = true ↔ check.checkedAt < check.evaluatedAt + DEFAULT_COOLDOWN_MS
  ordered : check.log.Pairwise Precedes
  prior : ∀ line ∈ check.earlier, line ∈ check.log

theorem ThrottleCheck.Sound.earned_iff {check : ThrottleCheck} (h : check.Sound) : check.Earned ↔ check.Spaced := by
  constructor
  · intro hEarned hAsks
    by_cases hLate : check.evaluatedAt + DEFAULT_COOLDOWN_MS ≤ check.checkedAt
    · exact .inl hLate
    · exact .inr (hEarned.attempted ⟨hAsks, h.throttled.mpr (Nat.lt_of_not_le hLate)⟩)
  · intro hSpaced
    have hAttempted : check.Refused → AttemptedWithin check.earlier check.advisory check.checkedAt := by
      rintro ⟨hAsks, hThrottled⟩
      exact (hSpaced hAsks).resolve_left (Nat.not_le_of_lt (h.throttled.mp hThrottled))
    refine ⟨hAttempted, fun hRefused => throttled_of_attempted h.ordered ?_⟩
    obtain ⟨event, hMem, hRest⟩ := hAttempted hRefused
    exact ⟨event, h.prior _ hMem, hRest⟩

end Checks

section Writes

/-- Lines have been written, none of which opens a request. -/
structure Quiet (before after : AuditTrail) : Prop where
  kept : ∀ line ∈ before.log, line ∈ after.log
  clock : before.clock ≤ after.clock
  apart : ∀ start, OpenedApart start before.log → OpenedApart start after.log
  opened : ∀ event, some event ∈ after.log → event.type = .requestOpened → some event ∈ before.log

instance : Std.Refl Quiet where
  refl _ := ⟨fun _ => id, Nat.le_refl _, fun _ => id, fun _ hMem _ => hMem⟩

instance : IsTrans AuditTrail Quiet where
  trans _ _ _ h h' :=
    ⟨fun line hLine => h'.kept line (h.kept line hLine), Nat.le_trans h.clock h'.clock,
      fun start hApart => h'.apart start (h.apart start hApart),
      fun event hMem hOpened => h.opened event (h'.opened event hMem hOpened) hOpened⟩

theorem OpenedApart.concat {start : Nat} {log : List AuditLine} (h : OpenedApart start log) {line : AuditLine}
    (hLine : ∀ later, line = some later → later.type = .requestOpened → ∀ time' ∈ later.timestamp,
      ∀ earlier, some earlier ∈ log → earlier.type = .requestOpened → ∀ time ∈ earlier.timestamp,
        time + DEFAULT_COOLDOWN_MS ≤ time') : OpenedApart start (log ++ [line]) := by
  intro i j earlier later hLt hStart hi hj hOpened hOpened' hAbout time hTime time' hTime'
  rw [List.getElem?_append] at hi hj
  split at hj
  · rename_i hOld
    rw [if_pos (Nat.lt_trans hLt hOld)] at hi
    exact h i j earlier later hLt hStart hi hj hOpened hOpened' hAbout time hTime time' hTime'
  · rename_i hNew
    have hLast : line = some later := (List.mem_singleton.mp (List.mem_of_getElem? hj)).symm
    have hIndex : j - log.length < [line].length := (List.getElem?_eq_some_iff.mp hj).1
    rw [if_pos (by simp only [List.length_singleton] at hIndex; omega)] at hi
    exact hLine later hLast hOpened' time' hTime' earlier (List.mem_of_getElem? hi) hOpened time hTime

theorem quiet_wait (trail : AuditTrail) (elapsed : Nat) : Quiet trail (trail.wait elapsed) :=
  ⟨fun _ => id, Nat.le_add_right _ _, fun _ => id, fun _ hMem _ => hMem⟩

theorem quiet_append (trail : AuditTrail) {written : Option (AutomationType × AutomationPayload)}
    (hWritten : ∀ entry, written = some entry → entry.1 ≠ .requestOpened) : Quiet trail (trail.append written) := by
  have hLine : ∀ event, (written.map fun entry => (⟨entry.1, entry.2, some trail.clock⟩ : AutomationEvent)) =
      some event → event.type ≠ .requestOpened := by
    intro event hEvent
    obtain ⟨entry, hEntry, rfl⟩ := Option.map_eq_some_iff.mp hEvent
    exact hWritten entry hEntry
  refine ⟨fun line hLine => List.mem_append_left _ hLine, Nat.le_refl _, fun start hApart => ?_, fun event hMem hOpened => ?_⟩
  · exact hApart.concat fun later hLater hOpened => absurd hOpened (hLine later hLater)
  · rcases List.mem_append.mp hMem with hOld | hNew
    · exact hOld
    · exact absurd hOpened (hLine event (List.mem_singleton.mp hNew).symm)

theorem quiet_event (trail : AuditTrail) (elapsed : Nat) (type : AutomationType) (payload : AutomationPayload)
    (hType : type ≠ .requestOpened) : Quiet trail (trail.appendAutomationEvent elapsed type payload) := by
  refine trans_of Quiet (quiet_wait trail elapsed) (quiet_append _ ?_)
  intro entry hEntry
  obtain rfl := Option.some.inj hEntry
  exact hType

theorem quiet_other (trail : AuditTrail) (line : OtherLine) : Quiet trail (line.write trail) := by
  cases line with
  | event elapsed =>
    refine trans_of Quiet (quiet_wait trail elapsed) (quiet_append _ ?_)
    rintro _ ⟨⟩
  | pause elapsed scope executionId => exact quiet_event trail elapsed .paused _ (by decide)
  | resume elapsed scope executionId => exact quiet_event trail elapsed .resumed _ (by decide)

theorem quiet_others (lines : List OtherLine) (trail : AuditTrail) : Quiet trail (lines.foldl OtherLine.write trail) := by
  induction lines generalizing trail with
  | nil => exact Std.Refl.refl trail
  | cons line lines ih => exact trans_of Quiet (quiet_other trail line) (ih _)

end Writes

section Scans

variable {start : Nat} {modes : AutomationModes} {dryRun : Bool} {earlier : List AuditLine}

theorem check_sound {trail : AuditTrail} (turn : AdvisoryTurn) (hPrior : ∀ line ∈ earlier, line ∈ trail.log) :
    (turn.check modes earlier trail).Sound where
  throttled := check_throttled modes earlier trail turn
  ordered := AuditTrail.ordered _
  prior line hLine := List.mem_append_left _ (hPrior line hLine)

/-- The log and the clock when the throttle is asked. -/
def AdvisoryTurn.checked (modes : AutomationModes) (earlier : List AuditLine) (trail : AuditTrail)
    (turn : AdvisoryTurn) : AuditTrail :=
  (trail.appendAutomationEvent turn.evaluating .policyEvaluated { turn.advisory.payload with
    policy := some (turn.check modes earlier trail).policy }).wait turn.checking

theorem quiet_checked (modes : AutomationModes) (earlier : List AuditLine) (trail : AuditTrail)
    (turn : AdvisoryTurn) : Quiet trail (turn.checked modes earlier trail) :=
  trans_of Quiet (quiet_event trail turn.evaluating .policyEvaluated _ (by decide)) (quiet_wait _ turn.checking)

/-- What the decision loop of a scan keeps. -/
structure SoundProgress (start : Nat) (earlier : List AuditLine) (progress : ScanProgress) : Prop where
  prior : ∀ line ∈ earlier, line ∈ progress.trail.log
  checks : ∀ check ∈ progress.checks, check.Sound
  apart : OpenedApart start progress.trail.log

/-- A request is opened only where its evaluation is a whole cooldown old. -/
theorem opened_apart {trail waited : AuditTrail} {turn : AdvisoryTurn} (payload : AutomationPayload)
    (hPast : ¬(turn.check modes earlier trail).throttle.throttled = true)
    (hQuiet : Quiet trail waited) (hClock : (turn.check modes earlier trail).checkedAt ≤ waited.clock)
    (hApart : OpenedApart start trail.log) (elapsed : Nat) :
    OpenedApart start (waited.appendAutomationEvent elapsed .requestOpened payload).log := by
  refine OpenedApart.concat (hQuiet.apart start hApart) ?_
  intro later hLater _ time' hTime' opened hMem hOpened time hTime
  obtain rfl := Option.some.inj hLater
  obtain rfl := Option.some.inj hTime'
  have hBefore := trail.past _ (hQuiet.opened opened hMem hOpened) time hTime
  rw [check_throttled] at hPast
  have hEvaluated : trail.clock ≤ (turn.check modes earlier trail).evaluatedAt := Nat.le_add_right _ _
  dsimp only [AuditTrail.wait]
  omega

theorem SoundProgress.review {progress : ScanProgress} (h : SoundProgress start earlier progress)
    (turn : AdvisoryTurn) : SoundProgress start earlier (reviewAdvisory modes dryRun earlier progress turn) := by
  have hChecks : ∀ check ∈ progress.checks ++ [turn.check modes earlier progress.trail], check.Sound := by
    intro check hCheck
    rcases List.mem_append.mp hCheck with hOld | hNew
    · exact h.checks check hOld
    · obtain rfl := List.mem_singleton.mp hNew
      exact check_sound turn h.prior
  have hSound : ∀ after decisions opened, Quiet progress.trail after → SoundProgress start earlier
      ⟨after, decisions, opened, progress.checks ++ [turn.check modes earlier progress.trail]⟩ :=
    fun after _ _ hAfter =>
      ⟨fun line hLine => hAfter.kept line (h.prior line hLine), hChecks, hAfter.apart start h.apart⟩
  have hChecked := quiet_checked modes earlier progress.trail turn
  have hOthers := quiet_others turn.creating (turn.checked modes earlier progress.trail)
  have hWaited := trans_of Quiet hChecked hOthers
  have hSuppressed : ∀ payload, Quiet progress.trail
      ((turn.checked modes earlier progress.trail).appendAutomationEvent turn.recording .suppressed payload) :=
    fun payload => trans_of Quiet hChecked (quiet_event _ turn.recording .suppressed payload (by decide))
  unfold reviewAdvisory
  dsimp only
  split
  · exact hSound _ _ _ (hSuppressed _)
  · rename_i hPast
    split
    · exact hSound _ _ _ (hSuppressed _)
    · split
      · exact hSound _ _ _ (trans_of Quiet hWaited (quiet_event _ turn.recording .blocked _ (by decide)))
      · refine ⟨fun line hLine => List.mem_append_left _ (hWaited.kept line (h.prior line hLine)), hChecks, ?_⟩
        exact opened_apart _ hPast hWaited hOthers.clock h.apart turn.recording

theorem SoundProgress.reviews {progress : ScanProgress} (h : SoundProgress start earlier progress)
    (modes : AutomationModes) (dryRun : Bool) (turns : List AdvisoryTurn) :
    SoundProgress start earlier (turns.foldl (reviewAdvisory modes dryRun earlier) progress) := by
  induction turns generalizing progress with
  | nil => exact h
  | cons turn turns ih =>
    rw [List.foldl_cons]
    exact ih (h.review turn)

theorem scan_sound (input : ScanInput) {trail : AuditTrail} (hApart : OpenedApart start trail.log) :
    (∀ check ∈ (runRecoveryAutomationScan input trail).2.2, check.Sound) ∧
      OpenedApart start (runRecoveryAutomationScan input trail).2.1.log := by
  have hNone : ∀ check ∈ ([] : List ThrottleCheck), check.Sound := fun _ hCheck => nomatch hCheck
  have hStarted := quiet_event trail input.starting .scanStarted {} (by decide)
  have hScanned := trans_of Quiet hStarted (quiet_others input.scanning _)
  unfold runRecoveryAutomationScan
  split
  · exact ⟨hNone, hApart⟩
  · dsimp only
    split
    · have hFailed := trans_of Quiet hScanned (quiet_event _ input.ending .failed {} (by decide))
      exact ⟨hNone, hFailed.apart start hApart⟩
    · rename_i turns _
      have hStart : SoundProgress start trail.log ⟨_, [], 0, []⟩ :=
        ⟨hScanned.kept, hNone, hScanned.apart start hApart⟩
      have hReviewed := hStart.reviews input.modes input.dryRun turns
      refine ⟨hReviewed.checks, ?_⟩
      exact (quiet_event _ input.ending .scanCompleted {} (by decide)).apart start hReviewed.apart

end Scans

section Runs

def automationRun (start : AuditTrail) (ops : List AutomationOp) : AutomationRun :=
  runAll AutomationRun.step ⟨start, []⟩ ops

/-- What the claims of a run are about: all refusals and all openings of its scans. -/
def AutomationRun.Earned (start : AuditTrail) (run : AutomationRun) : Prop :=
  (∀ check ∈ run.checks, check.Earned) ∧ OpenedApart start.log.length run.trail.log

theorem openedApart_length (log : List AuditLine) : OpenedApart log.length log := by
  intro i j earlier later _ hStart _ hj
  have hLt := (List.getElem?_eq_some_iff.mp hj).1
  omega

/-- What every operation keeps. -/
structure SoundRun (start : Nat) (run : AutomationRun) : Prop where
  checks : ∀ check ∈ run.checks, check.Sound
  apart : OpenedApart start run.trail.log

theorem SoundRun.extend {start : Nat} {run : AutomationRun} (h : SoundRun start run) {trail : AuditTrail}
    {checks : List ThrottleCheck} (hChecks : ∀ check ∈ checks, check.Sound) (hApart : OpenedApart start trail.log) :
    SoundRun start ⟨trail, run.checks ++ checks⟩ := by
  refine ⟨fun check hCheck => ?_, hApart⟩
  rcases List.mem_append.mp hCheck with hOld | hNew
  · exact h.checks check hOld
  · exact hChecks check hNew

theorem SoundRun.step {start : Nat} {run : AutomationRun} (h : SoundRun start run) (op : AutomationOp) :
    SoundRun start (AutomationRun.step op run) := by
  cases op with
  | scan input => exact h.extend (scan_sound input h.apart).1 (scan_sound input h.apart).2
  | other line => exact ⟨h.checks, (quiet_other run.trail line).apart _ h.apart⟩

theorem run_sound (start : AuditTrail) (ops : List AutomationOp) :
    SoundRun start.log.length (automationRun start ops) := by
  have hStart : SoundRun start.log.length ⟨start, []⟩ := ⟨fun _ hCheck => (nomatch hCheck), openedApart_length _⟩
  exact (reaches_runAll AutomationRun.step ⟨start, []⟩ ops).invariant hStart fun op _ hRun _ => hRun.step op

/-- Over any history and any sequence of scans. -/
theorem cooldowns_earned_iff (start : AuditTrail) (ops : List AutomationOp) :
    (automationRun start ops).Earned start ↔ ∀ check ∈ (automationRun start ops).checks, check.Spaced := by
  obtain ⟨hSound, hApart⟩ := run_sound start ops
  rw [AutomationRun.Earned, and_iff_left hApart]
  exact forall₂_congr fun check hCheck => (hSound check hCheck).earned_iff

end Runs

section Examples

def retryAdvisory : Advisory where
  advisoryId := "advisory_1"
  executionId := "exec_1"
  signal := some "FAILED_EXECUTION"
  candidate := none
  recommendation := some ⟨some "retry_safe_steps", some (9 / 10), false, none⟩

def retryScan : ScanInput where
  modes := ⟨none, false⟩
  dryRun := false
  starting := 0
  scanning := []
  scanned := .ok [⟨retryAdvisory, 1, 1, [], true, 1⟩]
  ending := 0

def scanCounts : ScanResult → Option (Nat × Nat)
  | .failure _ => none
  | .success advisoriesProcessed requestsOpened _ => some (advisoriesProcessed, requestsOpened)

def firstTrail : AuditTrail := AuditTrail.empty.appendAutomationEvent 0 .scanStarted {}

def firstCheck : ThrottleCheck :=
  AdvisoryTurn.check ⟨none, false⟩ [] firstTrail ⟨retryAdvisory, 1, 1, [], true, 1⟩

/-- In an empty log an advisory is refused by its own evaluation. -/
theorem first_advisory_refused :
    scanCounts (runRecoveryAutomationScan retryScan .empty).1 = some (1, 0) ∧
    (automationRun .empty [.scan retryScan]).checks.map ThrottleCheck.throttle =
      [⟨true, "cooldown_active", some 300001⟩] ∧
    ¬ ∀ start ops, (automationRun start ops).Earned start := by
  refine ⟨by decide +kernel, by decide +kernel, fun h => ?_⟩
  have hEarned := (h .empty [.scan retryScan]).1 firstCheck (List.mem_singleton.mpr rfl)
  obtain ⟨event, hMem, -⟩ := hEarned.attempted ⟨by decide +kernel, by decide +kernel⟩
  cases hMem

end Examples

end CommandConsole.Automation
