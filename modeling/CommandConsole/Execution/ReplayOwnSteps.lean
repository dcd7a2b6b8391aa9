import CommandConsole.Execution.ReplayClassification
import Mathlib.Algebra.GroupWithZero.Nat

/-! # Whose events a classification reads

The preview hands the events of the whole execution to the classifier. A step that
holds the newest attempt of the ledger is classified by its own events; any other
step by those of a stranger. -/
namespace CommandConsole.Execution
open Library
set_option autoImplicit false

section OwnSteps

def ownEvents (stepId : String) (ledgerEvents : List PlanEvent) : List PlanEvent :=
  ledgerEvents.filter fun event => event.row.stepId = some stepId

/-- The ledger less the events that name another step. -/
def withoutOthers (stepId : String) (ledgerEvents : List PlanEvent) : List PlanEvent :=
  ledgerEvents.filter fun event => event.row.stepId.all fun named => named = stepId

/-- The newest attempt of the events, if there is one, has a terminal event. -/
def LatestSettled (events : List PlanEvent) : Prop :=
  ∀ number, NewestAttempt events number →
    ∃ event ∈ events, event.attemptNumber = number ∧ event.terminal.isSome = true

/-- Some attempt of the events has two different terminals. -/
def Contradicted (events : List PlanEvent) : Prop :=
  ∃ a ∈ events, ∃ b ∈ events, a.attemptNumber = b.attemptNumber ∧
    ∃ left right, a.terminal = some left ∧ b.terminal = some right ∧ left ≠ right

namespace ReplayReading

def classifications (plan : ReplayReading) : List ReplayClassification :=
  plan.replayCandidates.map ReplayCandidate.classification

def replayable : ReplayClassification → Bool
  | .safeReplay | .idempotentReplay => true
  | _ => false

/-- Every candidate is classified by its own events, and replayed freely on settled evidence only. -/
structure LooksAtOwnSteps (plan : ReplayReading) : Prop where
  unaffected : ∀ (i : Nat) (step : CandidateStep) (ledgerEvents : List PlanEvent),
    plan.candidateSteps[i]? = some step →
    withoutOthers step.id ledgerEvents = withoutOthers step.id plan.ledgerEvents →
    { plan with ledgerEvents }.classifications[i]? = plan.classifications[i]?
  settled : ∀ (i : Nat) (step : CandidateStep), plan.candidateSteps[i]? = some step →
    (plan.classifications[i]?.any replayable) = true → LatestSettled (ownEvents step.id plan.ledgerEvents)
  uncontradicted : ∀ (i : Nat) (step : CandidateStep), plan.candidateSteps[i]? = some step →
    (plan.classifications[i]?.any replayable) = true → ¬Contradicted (ownEvents step.id plan.ledgerEvents)
  evidenced : ∀ (i : Nat) (step : CandidateStep), plan.candidateSteps[i]? = some step →
    (plan.classifications[i]?.any replayable) = true →
    normalizedWords step.sideEffects = [] ∨ hasIdempotencyEvidence step = true

theorem classifications_get (plan : ReplayReading) {i : Nat} {step : CandidateStep}
    (h : plan.candidateSteps[i]? = some step) :
    plan.classifications[i]? =
      some (classifyEvidence step (attemptTerminalLedgerState plan.ledgerEvents)).1 := by
  simp [classifications, replayCandidates, List.getElem?_map, h]

/-- An attempt event of a step that is not the given one. -/
def strangerEvent (plan : ReplayReading) (stepId : String) (number : Int) (eventType : EventType) : PlanEvent where
  id := (plan.ledgerEvents.map PlanEvent.id).sum + 1
  row := {
    planId := plan.planId
    executionId := some plan.executionId
    stepId := some (stepId ++ "'")
    attemptNumber := some number
    eventType
    stageId := none
    createdAt := 0 }

theorem withoutOthers_append_stranger (plan : ReplayReading) (stepId : String) (ledger extra : List PlanEvent)
    (hExtra : ∀ event ∈ extra, ∃ number eventType, event = plan.strangerEvent stepId number eventType) :
    withoutOthers stepId (ledger ++ extra) = withoutOthers stepId ledger := by
  unfold withoutOthers
  rw [List.filter_append, List.append_right_eq_self, List.filter_eq_nil_iff]
  intro event hMem
  obtain ⟨number, eventType, rfl⟩ := hExtra event hMem
  simp [strangerEvent]

theorem exists_attemptNumber_gt (ledger : List PlanEvent) :
    ∃ number, ∀ event ∈ ledger, event.attemptNumber < number := by
  induction ledger with
  | nil => exact ⟨0, by simp⟩
  | cons event rest ih =>
    obtain ⟨number, hRest⟩ := ih
    refine ⟨max number (event.attemptNumber + 1), ?_⟩
    intro other hOther
    rcases List.mem_cons.mp hOther with rfl | hIn
    · omega
    · have := hRest other hIn
      omega

/-- The strangers carry the newest attempt. -/
theorem newestAttempt_append {ledger extra : List PlanEvent} {number : Int}
    (hLess : ∀ event ∈ ledger, event.attemptNumber < number)
    (hExtra : ∀ event ∈ extra, event.ofAttempt = true ∧ event.attemptNumber = number) (hSome : extra ≠ []) :
    NewestAttempt (ledger ++ extra) number := by
  obtain ⟨event, hIn⟩ := List.exists_mem_of_ne_nil extra hSome
  refine ⟨⟨event, List.mem_append_right _ hIn, hExtra event hIn⟩, ?_⟩
  intro other hOther _
  rcases List.mem_append.mp hOther with hLedger | hAdded
  · exact (hLess other hLedger).le
  · exact (hExtra other hAdded).2.le

/-- A running attempt of another step clears every sign of corruption. -/
theorem not_corrupted_of_stranger (plan : ReplayReading) (step : CandidateStep) {number : Int}
    (hLess : ∀ event ∈ plan.ledgerEvents, event.attemptNumber < number) :
    (classifyEvidence step (attemptTerminalLedgerState
      (plan.ledgerEvents ++ [plan.strangerEvent step.id number .attemptStarted]))).1 ≠ .corrupted := by
  have hNewest : NewestAttempt (plan.ledgerEvents ++ [plan.strangerEvent step.id number .attemptStarted]) number :=
    newestAttempt_append hLess
      (by simp [strangerEvent, PlanEvent.ofAttempt, EventType.ofAttempt, PlanEvent.attemptNumber]) (by simp)
  have evidence := attemptTerminalLedgerState_newest hNewest
  generalize attemptTerminalLedgerState (plan.ledgerEvents ++ _) = state at evidence ⊢
  have hNil : state.terminals = [] := by
    rw [List.eq_nil_iff_forall_not_mem]
    intro status hStatus
    obtain ⟨event, hIn, hNumber, hTerminal⟩ := (evidence.terminals status).mp hStatus
    rcases List.mem_append.mp hIn with hLedger | hAdded
    · exact (hLess event hLedger).ne hNumber
    · obtain rfl := List.mem_singleton.mp hAdded
      simp [strangerEvent, PlanEvent.terminal, EventType.terminalAttempt] at hTerminal
  have hLatest : state.latestTerminal = none := by rw [evidence.latest, hNil, List.getLast?_nil]
  have hClear : corruptionReason ((truthy step.status).getD "pending") state = none := by
    simp [corruptionReason, hNil, hLatest]
  unfold classifyEvidence
  rw [hClear]
  dsimp only
  split_ifs <;> simp

/-- Two outcomes of another step's attempt make every candidate look corrupted. -/
theorem corrupted_of_strangers (plan : ReplayReading) (step : CandidateStep) {number : Int}
    (hLess : ∀ event ∈ plan.ledgerEvents, event.attemptNumber < number) :
    (classifyEvidence step (attemptTerminalLedgerState (plan.ledgerEvents ++
      [plan.strangerEvent step.id number (.attempt .completed),
        plan.strangerEvent step.id number (.attempt .failed)]))).1 = .corrupted := by
  have hNewest : NewestAttempt (plan.ledgerEvents ++ [plan.strangerEvent step.id number (.attempt .completed),
      plan.strangerEvent step.id number (.attempt .failed)]) number :=
    newestAttempt_append hLess
      (by simp [strangerEvent, PlanEvent.ofAttempt, EventType.ofAttempt, PlanEvent.attemptNumber]) (by simp)
  have evidence := attemptTerminalLedgerState_newest hNewest
  apply classifyEvidence_contradictory
  refine ⟨.completed, ?_, .failed, ?_, by decide⟩
  · refine (evidence.terminals _).mpr ⟨plan.strangerEvent step.id number (.attempt .completed), by simp, ?_, ?_⟩
    · simp [strangerEvent, PlanEvent.attemptNumber]
    · simp [strangerEvent, PlanEvent.terminal, EventType.terminalAttempt, AttemptStatus.terminal]
  · refine (evidence.terminals _).mpr ⟨plan.strangerEvent step.id number (.attempt .failed), by simp, ?_, ?_⟩
    · simp [strangerEvent, PlanEvent.attemptNumber]
    · simp [strangerEvent, PlanEvent.terminal, EventType.terminalAttempt, AttemptStatus.terminal]

theorem candidate_get {plan : ReplayReading} {step : CandidateStep} (h : step ∈ plan.candidateSteps) :
    ∃ i : Nat, plan.candidateSteps[i]? = some step :=
  List.mem_iff_getElem?.mp h

end ReplayReading

/-- Attempts of other steps, or of no step, have smaller numbers than some attempt of the step. -/
def Foremost (stepId : String) (ledgerEvents : List PlanEvent) : Prop :=
  ∀ event ∈ ledgerEvents, event.ofAttempt = true → event.row.stepId ≠ some stepId →
    ∃ own ∈ ownEvents stepId ledgerEvents, own.ofAttempt = true ∧ event.attemptNumber < own.attemptNumber

/-- The newest attempt was started or ended, and no earlier attempt ended in two ways. -/
structure Regular (events : List PlanEvent) : Prop where
  started : ∀ number, NewestAttempt events number →
    ∃ event ∈ events, event.attemptNumber = number ∧ (event.started = true ∨ event.terminal.isSome = true)
  earlier : ∀ number, NewestAttempt events number →
    ¬Contradicted (events.filter fun event => event.attemptNumber < number)

theorem mem_ownEvents {stepId : String} {ledgerEvents : List PlanEvent} {event : PlanEvent} :
    event ∈ ownEvents stepId ledgerEvents ↔ event ∈ ledgerEvents ∧ event.row.stepId = some stepId := by
  simp [ownEvents]

/-- A step that holds the newest attempt is classified by its own events. -/
theorem classifyEvidence_foremost {step : CandidateStep} {ledgerEvents : List PlanEvent}
    (h : Foremost step.id ledgerEvents) :
    classifyEvidence step (attemptTerminalLedgerState ledgerEvents) =
      classifyEvidence step (attemptTerminalLedgerState (ownEvents step.id ledgerEvents)) := by
  by_cases hNone : ∀ event ∈ ownEvents step.id ledgerEvents, event.ofAttempt = false
  · have hAll : ∀ event ∈ ledgerEvents, event.ofAttempt = false := by
      intro event hIn
      by_cases hOwn : event.row.stepId = some step.id
      · exact hNone event (mem_ownEvents.mpr ⟨hIn, hOwn⟩)
      · by_contra hOf
        obtain ⟨own, hMem, hOwnOf, -⟩ := h event hIn (by simpa using hOf) hOwn
        rw [hNone own hMem] at hOwnOf
        cases hOwnOf
    rw [attemptTerminalLedgerState_none hNone, attemptTerminalLedgerState_none hAll]
  · push Not at hNone
    obtain ⟨event, hIn, hOf⟩ := hNone
    obtain ⟨number, hNewest⟩ := exists_newestAttempt hIn (by simpa using hOf)
    obtain ⟨⟨newest, hMem, hNewestOf, hNumber⟩, hMax⟩ := hNewest
    have hBelow (other : PlanEvent) (hOther : other ∈ ledgerEvents) (hOtherOf : other.ofAttempt = true)
        (hStranger : other.row.stepId ≠ some step.id) : other.attemptNumber < number := by
      obtain ⟨own, hOwn, hOwnOf, hLess⟩ := h other hOther hOtherOf hStranger
      exact hLess.trans_le (hMax own hOwn hOwnOf)
    refine classifyEvidence_of_newest step (?_ : NewestAttempt ledgerEvents number) ?_ ?_
    · refine ⟨⟨newest, (mem_ownEvents.mp hMem).1, hNewestOf, hNumber⟩, fun other hOther hOtherOf => ?_⟩
      by_cases hOwn : other.row.stepId = some step.id
      · exact hMax other (mem_ownEvents.mpr ⟨hOther, hOwn⟩) hOtherOf
      · exact (hBelow other hOther hOtherOf hOwn).le
    · exact ⟨⟨newest, hMem, hNewestOf, hNumber⟩, hMax⟩
    · intro other hOtherOf hOtherNumber
      rw [mem_ownEvents]
      refine ⟨fun hOther => ⟨hOther, ?_⟩, And.left⟩
      by_contra hOwn
      exact (hBelow other hOther hOtherOf hOwn).ne hOtherNumber

theorem ownEvents_eq_of_withoutOthers {stepId : String} {left right : List PlanEvent}
    (h : withoutOthers stepId left = withoutOthers stepId right) :
    ownEvents stepId left = ownEvents stepId right := by
  have hFilter (ledger : List PlanEvent) : ownEvents stepId ledger = ownEvents stepId (withoutOthers stepId ledger) := by
    unfold ownEvents withoutOthers
    rw [List.filter_filter]
    apply List.filter_congr
    intro event _
    cases event.row.stepId <;> simp
  rw [hFilter left, h, ← hFilter right]

theorem replayable_cases {step : CandidateStep} {state : AttemptTerminalState}
    (h : ReplayReading.replayable (classifyEvidence step state).1 = true) :
    ¬state.Contradictory ∧ (state.started = true → state.latestTerminal.isSome = true) ∧
      (normalizedWords step.sideEffects = [] ∨ hasIdempotencyEvidence step = true) := by
  refine ⟨fun hBad => ?_, ?_⟩
  · rw [classifyEvidence_contradictory step hBad] at h
    cases h
  · unfold classifyEvidence at h
    split at h
    · cases h
    · dsimp only at h
      split at h
      · cases h
      · rename_i hUnsafe
        split at h
        · cases h
        · rename_i hUnclear
          refine ⟨fun hStarted => ?_, ?_⟩
          · by_contra hNone
            exact hUnclear (by simp [hStarted, Option.not_isSome_iff_eq_none.mp hNone])
          · by_cases hEffects : normalizedWords step.sideEffects = []
            · exact Or.inl hEffects
            · by_contra hEvidence
              simp_all

/-- Free replay of regular events speaks of settled evidence. -/
theorem settled_of_replayable {step : CandidateStep} {events : List PlanEvent} (hRegular : Regular events)
    (h : ReplayReading.replayable (classifyEvidence step (attemptTerminalLedgerState events)).1 = true) :
    LatestSettled events ∧ ¬Contradicted events := by
  obtain ⟨hAgree, hDone, -⟩ := replayable_cases h
  refine ⟨fun number hNewest => ?_, ?_⟩
  · have evidence := attemptTerminalLedgerState_newest hNewest
    obtain ⟨event, hIn, hNumber, hStarted | hTerminal⟩ := hRegular.started number hNewest
    · obtain ⟨status, hStatus⟩ := Option.isSome_iff_exists.mp
        (hDone (evidence.started.mpr ⟨event, hIn, hNumber, hStarted⟩))
      obtain ⟨last, hLast, hLastNumber, hLastTerminal⟩ :=
        (evidence.terminals status).mp ((latestTerminal_eq_some evidence.latest hAgree status).mp hStatus)
      exact ⟨last, hLast, hLastNumber, by simp [hLastTerminal]⟩
    · exact ⟨event, hIn, hNumber, hTerminal⟩
  · rintro ⟨a, hA, b, hB, hSame, left, right, hLeft, hRight, hNe⟩
    obtain ⟨number, hNewest⟩ := exists_newestAttempt hA (PlanEvent.ofAttempt_of_terminal hLeft)
    have evidence := attemptTerminalLedgerState_newest hNewest
    rcases (hNewest.2 a hA (PlanEvent.ofAttempt_of_terminal hLeft)).lt_or_eq with hLess | hEq
    · refine hRegular.earlier number hNewest ⟨a, ?_, b, ?_, hSame, left, right, hLeft, hRight, hNe⟩
      · exact List.mem_filter.mpr ⟨hA, by simpa using hLess⟩
      · exact List.mem_filter.mpr ⟨hB, by simpa [← hSame] using hLess⟩
    · exact hAgree ⟨left, (evidence.terminals left).mpr ⟨a, hA, hEq, hLeft⟩,
        right, (evidence.terminals right).mpr ⟨b, hB, hSame ▸ hEq, hRight⟩, hNe⟩

namespace ReplayReading

theorem not_looksAtOwnSteps {plan : ReplayReading} {i : Nat} {step : CandidateStep}
    (hCandidate : plan.candidateSteps[i]? = some step) : ¬plan.LooksAtOwnSteps := by
  intro hOwn
  obtain ⟨number, hLess⟩ := exists_attemptNumber_gt plan.ledgerEvents
  have hKept (extra : List PlanEvent)
      (hExtra : ∀ event ∈ extra, ∃ number eventType, event = plan.strangerEvent step.id number eventType) :
      (classifyEvidence step (attemptTerminalLedgerState (plan.ledgerEvents ++ extra))).1 =
        (classifyEvidence step (attemptTerminalLedgerState plan.ledgerEvents)).1 := by
    have hSame := hOwn.unaffected i step (plan.ledgerEvents ++ extra) hCandidate
      (withoutOthers_append_stranger plan step.id plan.ledgerEvents extra hExtra)
    rw [plan.classifications_get hCandidate,
      classifications_get { plan with ledgerEvents := plan.ledgerEvents ++ extra } hCandidate] at hSame
    exact Option.some.inj hSame
  have hCorrupted := corrupted_of_strangers plan step hLess
  have hClear := not_corrupted_of_stranger plan step hLess
  rw [hKept _ (by simp)] at hCorrupted hClear
  exact hClear hCorrupted

/-- The preview looks at the right step for no candidate and no ledger. The declared side effects are always
weighed; a candidate that holds the newest attempt of the ledgers is classified by its own events. -/
theorem looksAtOwnSteps_iff (plan : ReplayReading) :
    (plan.LooksAtOwnSteps ↔ plan.candidateSteps = []) ∧
    ∀ (i : Nat) (step : CandidateStep), plan.candidateSteps[i]? = some step →
      ((plan.classifications[i]?.any replayable) = true →
        normalizedWords step.sideEffects = [] ∨ hasIdempotencyEvidence step = true) ∧
      (Foremost step.id plan.ledgerEvents →
        (∀ ledgerEvents, Foremost step.id ledgerEvents →
          withoutOthers step.id ledgerEvents = withoutOthers step.id plan.ledgerEvents →
          { plan with ledgerEvents }.classifications[i]? = plan.classifications[i]?) ∧
        (Regular (ownEvents step.id plan.ledgerEvents) → (plan.classifications[i]?.any replayable) = true →
          LatestSettled (ownEvents step.id plan.ledgerEvents) ∧
            ¬Contradicted (ownEvents step.id plan.ledgerEvents))) := by
  refine ⟨⟨fun hOwn => ?_, fun hNil => ?_⟩, ?_⟩
  · rw [List.eq_nil_iff_forall_not_mem]
    intro step hStep
    obtain ⟨i, hCandidate⟩ := candidate_get hStep
    exact not_looksAtOwnSteps hCandidate hOwn
  · constructor <;> intro i step <;> simp [hNil]
  · intro i step hCandidate
    rw [plan.classifications_get hCandidate]
    refine ⟨fun hReplay => (replayable_cases hReplay).2.2, fun hForemost => ⟨?_, ?_⟩⟩
    · intro ledgerEvents hOther hSame
      rw [classifications_get { plan with ledgerEvents } hCandidate, classifyEvidence_foremost hForemost,
        classifyEvidence_foremost hOther, ownEvents_eq_of_withoutOthers hSame]
    · intro hRegular hReplay
      rw [Option.any_some, classifyEvidence_foremost hForemost] at hReplay
      exact settled_of_replayable hRegular hReplay

section Overlooked

def attemptEvent (id : Nat) (stepId : String) (number : Int) (eventType : EventType) : PlanEvent where
  id
  row := {
    planId := "plan", executionId := some "execution", stepId := some stepId, attemptNumber := some number
    eventType, stageId := none, createdAt := id }

def waitingStep (id : String) (sequence : Int) : CandidateStep where
  id
  sequence
  status := none
  idempotent := false
  idempotencyKey := none
  sideEffects := []

/-- Step `a` is in an unfinished attempt, step `b` has failed once and succeeded in its second attempt. -/
def overlookedPlan : ReplayReading where
  planId := "plan"
  executionId := "execution"
  currentStep := some 0
  steps := [waitingStep "a" 1, waitingStep "b" 2]
  ledgerEvents := [attemptEvent 1 "b" 1 .attemptStarted, attemptEvent 2 "b" 1 (.attempt .failed),
    attemptEvent 3 "a" 1 .attemptStarted, attemptEvent 4 "b" 2 .attemptStarted,
    attemptEvent 5 "b" 2 (.attempt .completed)]

/-- The unfinished attempt of `a` is passed over, and shows as soon as the events of `b` are gone. -/
theorem overlooked_unsettled :
    overlookedPlan.classifications = [.safeReplay, .safeReplay] ∧
    { overlookedPlan with ledgerEvents := ownEvents "a" overlookedPlan.ledgerEvents }.classifications[0]? =
      some .requiresOperator ∧
    ¬LatestSettled (ownEvents "a" overlookedPlan.ledgerEvents) ∧ ¬overlookedPlan.LooksAtOwnSteps := by
  have hOwn : ownEvents "a" overlookedPlan.ledgerEvents = [attemptEvent 3 "a" 1 .attemptStarted] := by
    decide +kernel
  have hUnsettled : ¬LatestSettled (ownEvents "a" overlookedPlan.ledgerEvents) := by
    rw [hOwn]
    intro hSettled
    obtain ⟨event, hIn, -, hTerminal⟩ := hSettled 1 ⟨⟨_, List.mem_singleton_self _, rfl, rfl⟩, by decide⟩
    obtain rfl := List.mem_singleton.mp hIn
    cases hTerminal
  refine ⟨by decide +kernel, by decide +kernel, hUnsettled, fun hLooks => ?_⟩
  exact hUnsettled (hLooks.settled 0 (waitingStep "a" 1) (by decide +kernel) (by decide +kernel))

/-- The same plan when only `b` has run. -/
def foremostPlan : ReplayReading where
  planId := "plan"
  executionId := "execution"
  currentStep := some 0
  steps := [waitingStep "a" 1, waitingStep "b" 2]
  ledgerEvents := [attemptEvent 2 "b" 1 (.attempt .failed), attemptEvent 1 "b" 1 .attemptStarted]

theorem foremostPlan_settled :
    LatestSettled (ownEvents "b" foremostPlan.ledgerEvents) ∧ ¬Contradicted (ownEvents "b" foremostPlan.ledgerEvents) := by
  have hOwn : ownEvents "b" foremostPlan.ledgerEvents = foremostPlan.ledgerEvents := by decide +kernel
  refine (((looksAtOwnSteps_iff foremostPlan).2 1 (waitingStep "b" 2) (by decide +kernel)).2 ?_).2 ?_
    (by decide +kernel)
  · intro event hIn _ hStranger
    exact absurd (mem_ownEvents.mp (hOwn.symm ▸ hIn)).2 hStranger
  · change Regular (ownEvents "b" foremostPlan.ledgerEvents)
    rw [hOwn]
    have hAll : ∀ event ∈ foremostPlan.ledgerEvents, event.attemptNumber = 1 := by decide +kernel
    refine ⟨fun number hNewest => ?_, fun number hNewest => ?_⟩
    · obtain ⟨⟨event, hIn, -, hNumber⟩, -⟩ := hNewest
      exact ⟨attemptEvent 1 "b" 1 .attemptStarted, by decide +kernel, (hAll event hIn).symm.trans hNumber,
        Or.inl rfl⟩
    · rintro ⟨event, hIn, -⟩
      obtain ⟨⟨newest, hMem, -, hNumber⟩, -⟩ := hNewest
      have hLess := (List.mem_filter.mp hIn).2
      rw [hAll event (List.mem_filter.mp hIn).1, ← hNumber, hAll newest hMem] at hLess
      simp at hLess

end Overlooked

end ReplayReading

section StoredLedger

/-- The stored order of the ledger breaks ties by position. -/
def laterEvent (left right : PlanEvent) : Prop := laterAttemptEvent left.row right.row = true

instance : DecidableRel laterEvent := fun _ _ => inferInstanceAs (Decidable (_ = true))

theorem laterEvent_iff (left right : PlanEvent) :
    laterEvent left right ↔ right.attemptNumber < left.attemptNumber ∨
      left.attemptNumber = right.attemptNumber ∧ right.row.createdAt ≤ left.row.createdAt := by
  simp [laterEvent, laterAttemptEvent, PlanEvent.attemptNumber]

instance : Std.Total laterEvent where
  total left right := by simp only [laterEvent_iff]; omega

instance : IsTrans PlanEvent laterEvent where
  trans a b c := by simp only [laterEvent_iff]; omega

theorem getAttemptTerminalLedgerState_rows (events : List PlanEvent) :
    getAttemptTerminalLedgerState (events.map PlanEvent.row) =
      match ((events.filter PlanEvent.ofAttempt).reverse).insertionSort laterEvent with
      | [] => ⟨false, [], none⟩
      | newest :: rest =>
        let attemptLedger := (newest :: rest).filter fun event => event.attemptNumber = newest.attemptNumber
        ⟨attemptLedger.any PlanEvent.started, attemptLedger.filterMap PlanEvent.terminal,
          (attemptLedger.filterMap PlanEvent.terminal).getLast?⟩ := by
  have hRows : ((events.map PlanEvent.row).filter fun row => row.eventType.ofAttempt).reverse.insertionSort
      (fun left right => laterAttemptEvent left right) =
        (((events.filter PlanEvent.ofAttempt).reverse).insertionSort laterEvent).map PlanEvent.row := by
    rw [List.map_insertionSort laterEvent (fun left right => laterAttemptEvent left right) PlanEvent.row _
      (fun _ _ _ _ => Iff.rfl), List.map_reverse, List.filter_map]
    rfl
  unfold getAttemptTerminalLedgerState
  rw [hRows]
  cases (((events.filter PlanEvent.ofAttempt).reverse).insertionSort laterEvent) with
  | nil => rfl
  | cons newest rest =>
    simp only [List.map_cons]
    rw [← List.map_cons, List.filter_map]
    simp only [List.any_map, List.filterMap_map]
    rfl

theorem getAttemptTerminalLedgerState_newest {events : List PlanEvent} {number : Int}
    (h : NewestAttempt events number) :
    EvidenceOf events number (getAttemptTerminalLedgerState (events.map PlanEvent.row)) := by
  have hMem (event : PlanEvent) :
      event ∈ ((events.filter PlanEvent.ofAttempt).reverse).insertionSort laterEvent ↔
        event ∈ events ∧ event.ofAttempt = true := by
    rw [List.mem_insertionSort, List.mem_reverse, List.mem_filter]
  have hSorted := List.pairwise_insertionSort laterEvent ((events.filter PlanEvent.ofAttempt).reverse)
  rw [getAttemptTerminalLedgerState_rows]
  cases hList : ((events.filter PlanEvent.ofAttempt).reverse).insertionSort laterEvent with
  | nil =>
    obtain ⟨⟨event, hEvent, hOf, -⟩, -⟩ := h
    have hIn := (hMem event).mpr ⟨hEvent, hOf⟩
    rw [hList] at hIn
    cases hIn
  | cons newest rest =>
    rw [hList] at hSorted hMem
    have hFirst := first_attemptNumber h hMem hSorted fun left right hBefore => by
      rw [laterEvent_iff] at hBefore
      omega
    dsimp only
    rw [hFirst]
    exact evidenceOf_ordered number hMem

/-- The reading of a plan over the current stored state. -/
def currentReading (plan : RecoveryPlan) (current : CurrentState) (ids : List Nat) : ReplayReading where
  planId := plan.planId
  executionId := plan.executionId
  currentStep := some current.checkpoint.currentStep
  steps := plan.steps
  ledgerEvents := (ids.zip current.ledgerEvents).map fun entry => ⟨entry.1, entry.2⟩

theorem detectCorruption_eq (status : String) (ledger : AttemptTerminalState) :
    detectCorruption status ledger = (corruptionReason status ledger).isSome := by
  unfold detectCorruption corruptionReason
  split_ifs <;> simp_all

theorem classifyReplayCandidate_eq (step : CandidateStep) (rows : List LedgerRow) :
    classifyReplayCandidate step rows = (classifyEvidence step (getAttemptTerminalLedgerState rows)).1 := by
  unfold classifyReplayCandidate classifyEvidence
  simp only [detectCorruption_eq, hasIdempotencyEvidence]
  cases corruptionReason ((truthy step.status).getD "pending") (getAttemptTerminalLedgerState rows) with
  | some reason => rfl
  | none =>
    dsimp only
    split_ifs <;> simp_all

theorem classifyReplayCandidate_events (step : CandidateStep) (events : List PlanEvent) :
    classifyReplayCandidate step (events.map PlanEvent.row) =
      (classifyEvidence step (attemptTerminalLedgerState events)).1 := by
  rw [classifyReplayCandidate_eq]
  by_cases hNone : ∀ event ∈ events, event.ofAttempt = false
  · have hNil : events.filter PlanEvent.ofAttempt = [] :=
      List.filter_eq_nil_iff.mpr fun event hIn => by simp [hNone event hIn]
    rw [attemptTerminalLedgerState_none hNone, getAttemptTerminalLedgerState_rows, hNil]
    rfl
  · push Not at hNone
    obtain ⟨event, hIn, hOf⟩ := hNone
    obtain ⟨number, hNewest⟩ := exists_newestAttempt hIn (by simpa using hOf)
    have left := getAttemptTerminalLedgerState_newest hNewest
    have right := attemptTerminalLedgerState_newest hNewest
    rw [classifyEvidence_congr step (Bool.eq_iff_iff.mpr (left.started.trans right.started.symm))
      (fun status => (left.terminals status).trans (right.terminals status).symm) left.latest right.latest]

/-- The committer's preview of the stored state is the preview of its reading. -/
theorem previewBlocked_eq (plan : RecoveryPlan) (current : CurrentState) {ids : List Nat}
    (hIds : ids.length = current.ledgerEvents.length) :
    previewBlocked plan current = (currentReading plan current ids).blocked := by
  have hRows : (currentReading plan current ids).ledgerEvents.map PlanEvent.row = current.ledgerEvents := by
    rw [currentReading, List.map_map]
    exact List.map_snd_zip hIds.ge
  unfold previewBlocked ReplayReading.blocked ReplayReading.replayCandidates
  rw [List.any_map, ← hRows]
  simp only [classifyReplayCandidate_events]
  rfl

/-- A preview reads the events as a set, and so does the committer's: neither their order nor a repetition decides. -/
theorem preview_of_same_events (plan : ReplayReading) (events : List PlanEvent)
    (hEvents : ∀ event, event ∈ events ↔ event ∈ plan.ledgerEvents) :
    { plan with ledgerEvents := events }.replayCandidates = plan.replayCandidates ∧
      ∀ (recovery : RecoveryPlan) (current : CurrentState),
        previewBlocked recovery { current with ledgerEvents := events.map PlanEvent.row } =
          previewBlocked recovery { current with ledgerEvents := plan.ledgerEvents.map PlanEvent.row } := by
  have hSame (step : CandidateStep) := classifyEvidence_of_same_events step hEvents
  constructor
  · unfold ReplayReading.replayCandidates
    simp only [hSame]
    rfl
  · intro recovery current
    unfold previewBlocked
    simp only [classifyReplayCandidate_events, hSame]

theorem reversed_previews_agree :
    { ReplayReading.overlookedPlan with
      ledgerEvents := ReplayReading.overlookedPlan.ledgerEvents.reverse }.replayCandidates =
        ReplayReading.overlookedPlan.replayCandidates :=
  (preview_of_same_events ReplayReading.overlookedPlan _ fun _ => List.mem_reverse).1

end StoredLedger

end OwnSteps

end CommandConsole.Execution
