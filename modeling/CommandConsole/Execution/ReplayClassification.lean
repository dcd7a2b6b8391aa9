import CommandConsole.Execution.RecoveryPlan
import Mathlib.Data.Set.Finite.Lemmas

/-! # Replay classification of recovery candidates

The preview of a recovery plan classifies every step that is still ahead. The
classifier reads the newest attempt among all the ledger events of the plan, so
what it says of a step depends on the attempts of the other steps. -/
namespace CommandConsole.Execution
open Library
set_option autoImplicit false

/-- An entry of `source.ledgerEvents`; the array may stand in any order. -/
structure PlanEvent where
  id : Nat
  row : LedgerRow
  deriving DecidableEq

namespace PlanEvent

def attemptNumber (event : PlanEvent) : Int := event.row.attemptNumber.getD 0

def ofAttempt (event : PlanEvent) : Bool := event.row.eventType.ofAttempt

def started (event : PlanEvent) : Bool := event.row.eventType = .attemptStarted

def terminal (event : PlanEvent) : Option AttemptStatus := event.row.eventType.terminalAttempt

/-- Newest attempt first, then newest event, then highest id. -/
def comesBefore (left right : PlanEvent) : Prop :=
  right.attemptNumber < left.attemptNumber ∨
    left.attemptNumber = right.attemptNumber ∧ (right.row.createdAt < left.row.createdAt ∨
      left.row.createdAt = right.row.createdAt ∧ right.id ≤ left.id)

instance : DecidableRel comesBefore := fun _ _ => inferInstanceAs (Decidable (_ ∨ _))

instance : Std.Total comesBefore where
  total left right := by unfold comesBefore; omega

instance : IsTrans PlanEvent comesBefore where
  trans a b c hab hbc := by unfold comesBefore at *; omega

end PlanEvent

def attemptTerminalLedgerState (ledgerEvents : List PlanEvent) : AttemptTerminalState :=
  let attemptEvents := (ledgerEvents.filter PlanEvent.ofAttempt).insertionSort PlanEvent.comesBefore
  match attemptEvents with
  | [] => ⟨false, [], none⟩
  | newest :: _ =>
    let attemptLedger := attemptEvents.filter fun event => event.attemptNumber = newest.attemptNumber
    let terminals := attemptLedger.filterMap PlanEvent.terminal
    { started := attemptLedger.any PlanEvent.started
      terminals := terminals
      latestTerminal := terminals.getLast? }

/-- The texts of `detectCorruption`. -/
def corruptionReason (status : String) (ledger : AttemptTerminalState) : Option String :=
  if 1 < ledger.terminals.eraseDups.length then
    some "Multiple terminal attempt ledger events exist for the same replay candidate."
  else if wordIs status "completed" && (ledger.latestTerminal.any fun terminal => terminal ≠ .completed) then
    some "Persisted completed step state conflicts with terminal attempt ledger evidence."
  else if wordIs status "failed" && ledger.latestTerminal = some .completed then
    some "Persisted failed step state conflicts with completed attempt ledger evidence."
  else if wordIs status "cancelled" && (ledger.latestTerminal.any fun terminal => terminal ≠ .cancelled) then
    some "Persisted cancelled step state conflicts with terminal attempt ledger evidence."
  else none

def hasIdempotencyEvidence (step : CandidateStep) : Bool :=
  step.idempotent || !isBlank (step.idempotencyKey.getD "")

/-- What `classifyReplayCandidate` answers once the attempt evidence is gathered. -/
def classifyEvidence (step : CandidateStep) (ledger : AttemptTerminalState) : ReplayClassification × String :=
  let sideEffects := normalizedWords step.sideEffects
  match corruptionReason ((truthy step.status).getD "pending") ledger with
  | some reason => (.corrupted, reason)
  | none =>
    if !sideEffects.isEmpty && !hasIdempotencyEvidence step && "unknown" ∉ sideEffects then
      (.unsafeReplay, "Replay candidate has declared side effects without idempotency evidence.")
    else if "unknown" ∈ sideEffects || (ledger.started && ledger.latestTerminal.isNone) then
      (.requiresOperator,
        if "unknown" ∈ sideEffects then "Replay candidate includes unknown side effects."
        else "Replay candidate has ambiguous attempt evidence without a terminal outcome.")
    else if !sideEffects.isEmpty then
      (.idempotentReplay, "Replay candidate has side effects but also has idempotency evidence.")
    else (.safeReplay, "Replay candidate has no declared side effects.")

/-- The part of a plan that its classifications are computed from; `currentStep` is the one of the checkpoint. -/
structure ReplayReading where
  planId : String
  executionId : String
  currentStep : Option Int
  steps : List CandidateStep
  ledgerEvents : List PlanEvent
  deriving DecidableEq

structure ReplayCandidate where
  stepId : String
  sequence : Int
  classification : ReplayClassification
  reason : String
  deriving DecidableEq

namespace ReplayReading

def candidateSteps (plan : ReplayReading) : List CandidateStep :=
  plan.steps.filter fun step => plan.currentStep.getD 0 ≤ step.sequence - 1

def replayCandidates (plan : ReplayReading) : List ReplayCandidate :=
  plan.candidateSteps.map fun step =>
    let classified := classifyEvidence step (attemptTerminalLedgerState plan.ledgerEvents)
    ⟨step.id, step.sequence, classified.1, classified.2⟩

def blocked (plan : ReplayReading) : Bool :=
  plan.replayCandidates.any fun candidate =>
    candidate.classification ∈ [.corrupted, .unsafeReplay, .requiresOperator]

end ReplayReading

section Policy

structure ReplayPolicy where
  allowed : Bool
  requiresApproval : Bool
  reason : String
  policyCode : String
  deriving DecidableEq

def policyByClassification : ReplayClassification → ReplayPolicy
  | .safeReplay => ⟨true, false, "safe_replay", "SAFE_REPLAY"⟩
  | .idempotentReplay => ⟨true, false, "idempotent_replay", "IDEMPOTENT_REPLAY"⟩
  | .requiresOperator => ⟨true, true, "requires_operator", "REQUIRES_OPERATOR"⟩
  | .unsafeReplay => ⟨true, true, "unsafe_replay", "UNSAFE_REPLAY"⟩
  | .corrupted => ⟨true, true, "corrupted", "CORRUPTED"⟩

def classificationOrder : List ReplayClassification :=
  [.corrupted, .unsafeReplay, .requiresOperator, .idempotentReplay, .safeReplay]

/-- None stands for `"UNKNOWN"`. -/
def selectClassification (candidates : List ReplayCandidate) : Option ReplayClassification :=
  match classificationOrder.find? fun classification =>
      candidates.any fun candidate => candidate.classification = classification with
  | some classification => some classification
  | none => if candidates.isEmpty then some .safeReplay else none

def evaluateRecoveryPolicy (candidates : List ReplayCandidate) : ReplayPolicy :=
  match selectClassification candidates with
  | some classification => policyByClassification classification
  | none => ⟨false, false, "unknown_classification", "BLOCKED_UNSAFE_RECOVERY"⟩

theorem mem_classificationOrder (classification : ReplayClassification) :
    classification ∈ classificationOrder := by
  cases classification <;> decide

/-- The policy of a plan's candidates is never the refusal. -/
theorem evaluateRecoveryPolicy_allowed (candidates : List ReplayCandidate) :
    (evaluateRecoveryPolicy candidates).allowed = true := by
  unfold evaluateRecoveryPolicy selectClassification
  split
  · rename_i classification _
    cases classification <;> rfl
  · rename_i hNone
    split at hNone
    · simp at hNone
    · rename_i hFind
      cases candidates with
      | nil => simp at hNone
      | cons candidate rest =>
        have := List.find?_eq_none.mp hFind candidate.classification (mem_classificationOrder _)
        simp at this

end Policy

section Evidence

/-- The highest attempt number among the attempt events. -/
def NewestAttempt (events : List PlanEvent) (number : Int) : Prop :=
  (∃ event ∈ events, event.ofAttempt = true ∧ event.attemptNumber = number) ∧
    ∀ event ∈ events, event.ofAttempt = true → event.attemptNumber ≤ number

theorem exists_newestAttempt {events : List PlanEvent} {event : PlanEvent} (hMem : event ∈ events)
    (hAttempt : event.ofAttempt = true) : ∃ number, NewestAttempt events number := by
  obtain ⟨newest, hNewest, hMax⟩ := Set.exists_max_image {entry | entry ∈ events.filter PlanEvent.ofAttempt}
    PlanEvent.attemptNumber (List.finite_toSet _) ⟨event, List.mem_filter.mpr ⟨hMem, hAttempt⟩⟩
  have hNewest := List.mem_filter.mp hNewest
  exact ⟨newest.attemptNumber, ⟨newest, hNewest.1, hNewest.2, rfl⟩,
    fun other hOther hOf => hMax other (List.mem_filter.mpr ⟨hOther, hOf⟩)⟩

theorem PlanEvent.ofAttempt_of_started {event : PlanEvent} (h : event.started = true) :
    event.ofAttempt = true := by
  have hType : event.row.eventType = .attemptStarted := by simpa [started] using h
  simp [ofAttempt, hType, EventType.ofAttempt]

theorem PlanEvent.ofAttempt_of_terminal {event : PlanEvent} {status : AttemptStatus}
    (h : event.terminal = some status) : event.ofAttempt = true := by
  unfold terminal EventType.terminalAttempt at h
  split at h
  · rename_i hType
    simp [ofAttempt, hType, EventType.ofAttempt]
  · cases h

/-- What a state says of one attempt, in terms of the events that occur and not of their order. -/
structure EvidenceOf (events : List PlanEvent) (number : Int) (state : AttemptTerminalState) : Prop where
  started : state.started = true ↔ ∃ event ∈ events, event.attemptNumber = number ∧ event.started = true
  terminals : ∀ status, status ∈ state.terminals ↔
    ∃ event ∈ events, event.attemptNumber = number ∧ event.terminal = some status
  latest : state.latestTerminal = state.terminals.getLast?

theorem attemptTerminalLedgerState_none {events : List PlanEvent}
    (h : ∀ event ∈ events, event.ofAttempt = false) :
    attemptTerminalLedgerState events = ⟨false, [], none⟩ := by
  have hNil : events.filter PlanEvent.ofAttempt = [] :=
    List.filter_eq_nil_iff.mpr fun event hMem => by simp [h event hMem]
  simp [attemptTerminalLedgerState, hNil]

theorem evidenceOf_ordered {events ordered : List PlanEvent} (number : Int)
    (hMem : ∀ event, event ∈ ordered ↔ event ∈ events ∧ event.ofAttempt = true) :
    EvidenceOf events number {
      started := (ordered.filter fun event => event.attemptNumber = number).any PlanEvent.started
      terminals := (ordered.filter fun event => event.attemptNumber = number).filterMap PlanEvent.terminal
      latestTerminal :=
        ((ordered.filter fun event => event.attemptNumber = number).filterMap PlanEvent.terminal).getLast? } := by
  refine ⟨?_, ?_, rfl⟩
  · simp only [List.any_eq_true, List.mem_filter, decide_eq_true_eq]
    refine ⟨?_, ?_⟩
    · rintro ⟨event, ⟨hIn, hEq⟩, hStarted⟩
      exact ⟨event, ((hMem event).mp hIn).1, hEq, hStarted⟩
    · rintro ⟨event, hIn, hEq, hStarted⟩
      exact ⟨event, ⟨(hMem event).mpr ⟨hIn, PlanEvent.ofAttempt_of_started hStarted⟩, hEq⟩, hStarted⟩
  · intro status
    simp only [List.mem_filterMap, List.mem_filter, decide_eq_true_eq]
    refine ⟨?_, ?_⟩
    · rintro ⟨event, ⟨hIn, hEq⟩, hTerminal⟩
      exact ⟨event, ((hMem event).mp hIn).1, hEq, hTerminal⟩
    · rintro ⟨event, hIn, hEq, hTerminal⟩
      exact ⟨event, ⟨(hMem event).mpr ⟨hIn, PlanEvent.ofAttempt_of_terminal hTerminal⟩, hEq⟩, hTerminal⟩

/-- The first of the ordered attempt events carries the newest attempt number. -/
theorem first_attemptNumber {events rest : List PlanEvent} {newest : PlanEvent} {number : Int}
    {before : PlanEvent → PlanEvent → Prop} (h : NewestAttempt events number)
    (hMem : ∀ event, event ∈ newest :: rest ↔ event ∈ events ∧ event.ofAttempt = true)
    (hSorted : (newest :: rest).Pairwise before)
    (hBefore : ∀ left right, before left right → right.attemptNumber ≤ left.attemptNumber) :
    newest.attemptNumber = number := by
  obtain ⟨⟨event, hEvent, hOf, hNumber⟩, hMax⟩ := h
  have hIn := (hMem newest).mp List.mem_cons_self
  have hLe := hMax newest hIn.1 hIn.2
  rcases List.mem_cons.mp ((hMem event).mpr ⟨hEvent, hOf⟩) with rfl | hRest
  · exact hNumber
  · have hGe := hBefore _ _ (List.rel_of_pairwise_cons hSorted hRest)
    omega

theorem attemptTerminalLedgerState_newest {events : List PlanEvent} {number : Int}
    (h : NewestAttempt events number) :
    EvidenceOf events number (attemptTerminalLedgerState events) := by
  have hMem (event : PlanEvent) :
      event ∈ (events.filter PlanEvent.ofAttempt).insertionSort PlanEvent.comesBefore ↔
        event ∈ events ∧ event.ofAttempt = true := by
    rw [List.mem_insertionSort, List.mem_filter]
  have hSorted := List.pairwise_insertionSort PlanEvent.comesBefore (events.filter PlanEvent.ofAttempt)
  unfold attemptTerminalLedgerState
  dsimp only
  cases hList : (events.filter PlanEvent.ofAttempt).insertionSort PlanEvent.comesBefore with
  | nil =>
    obtain ⟨⟨event, hEvent, hOf, -⟩, -⟩ := h
    have hIn := (hMem event).mpr ⟨hEvent, hOf⟩
    rw [hList] at hIn
    cases hIn
  | cons newest rest =>
    rw [hList] at hSorted hMem
    have hFirst := first_attemptNumber h hMem hSorted fun left right hBefore => by
      unfold PlanEvent.comesBefore at hBefore
      omega
    dsimp only
    rw [hFirst]
    exact evidenceOf_ordered number hMem

theorem one_lt_eraseDups {α : Type} [DecidableEq α] (entries : List α) :
    1 < entries.eraseDups.length ↔ ∃ a ∈ entries, ∃ b ∈ entries, a ≠ b := by
  cases entries with
  | nil => simp
  | cons first rest =>
    rw [List.eraseDups_cons, List.length_cons, Nat.lt_add_left_iff_pos, List.length_pos_iff]
    refine ⟨?_, ?_⟩
    · intro hNe
      obtain ⟨other, hOther⟩ := List.exists_mem_of_ne_nil _ hNe
      rw [List.mem_eraseDups, List.mem_filter] at hOther
      exact ⟨other, List.mem_cons_of_mem _ hOther.1, first, List.mem_cons_self, by simpa using hOther.2⟩
    · rintro ⟨a, hA, b, hB, hNe⟩ hNil
      have hAll (entry : α) (hEntry : entry ∈ first :: rest) : entry = first := by
        by_contra hOther
        have : entry ∈ (rest.filter fun c => !c == first).eraseDups := by
          rw [List.mem_eraseDups, List.mem_filter]
          exact ⟨(List.mem_cons.mp hEntry).resolve_left hOther, by simpa using hOther⟩
        rw [hNil] at this
        cases this
      exact hNe ((hAll a hA).trans (hAll b hB).symm)

/-- Two terminals of one attempt that differ. -/
def AttemptTerminalState.Contradictory (state : AttemptTerminalState) : Prop :=
  ∃ a ∈ state.terminals, ∃ b ∈ state.terminals, a ≠ b

theorem classifyEvidence_contradictory (step : CandidateStep) {state : AttemptTerminalState}
    (h : state.Contradictory) : (classifyEvidence step state).1 = .corrupted := by
  have hMany := (one_lt_eraseDups state.terminals).mpr h
  simp [classifyEvidence, corruptionReason, hMany]

theorem latestTerminal_eq_some {state : AttemptTerminalState} (hLatest : state.latestTerminal = state.terminals.getLast?)
    (hAgree : ¬state.Contradictory) (status : AttemptStatus) :
    state.latestTerminal = some status ↔ status ∈ state.terminals := by
  rw [hLatest]
  refine ⟨List.mem_of_getLast?, fun hMem => ?_⟩
  obtain ⟨last, hLast⟩ := Option.isSome_iff_exists.mp
    (List.getLast?_isSome.mpr (List.ne_nil_of_mem hMem))
  have hSame : last = status := by
    by_contra hNe
    exact hAgree ⟨last, List.mem_of_getLast? hLast, status, hMem, hNe⟩
  rw [hLast, hSame]

/-- The classification knows the terminals as a set. -/
theorem classifyEvidence_congr (step : CandidateStep) {state state' : AttemptTerminalState}
    (hStarted : state.started = state'.started)
    (hTerminals : ∀ status, status ∈ state.terminals ↔ status ∈ state'.terminals)
    (hLatest : state.latestTerminal = state.terminals.getLast?)
    (hLatest' : state'.latestTerminal = state'.terminals.getLast?) :
    classifyEvidence step state = classifyEvidence step state' := by
  have hContradictory : state.Contradictory ↔ state'.Contradictory := by
    simp only [AttemptTerminalState.Contradictory, hTerminals]
  have hMany : 1 < state.terminals.eraseDups.length ↔ 1 < state'.terminals.eraseDups.length := by
    rw [one_lt_eraseDups, one_lt_eraseDups]
    exact hContradictory
  by_cases hAgree : state.Contradictory
  · have hLeft := (one_lt_eraseDups state.terminals).mpr hAgree
    simp [classifyEvidence, corruptionReason, hLeft, hMany.mp hLeft]
  · have hSame : state.latestTerminal = state'.latestTerminal := by
      apply Option.ext
      intro status
      rw [latestTerminal_eq_some hLatest hAgree, hTerminals status,
        ← latestTerminal_eq_some hLatest' (fun h => hAgree (hContradictory.mpr h))]
    simp only [classifyEvidence, corruptionReason, hMany, hSame, hStarted]

/-- The evidence of one attempt settles the classification, whatever else the ledgers hold. -/
theorem classifyEvidence_of_newest (step : CandidateStep) {events events' : List PlanEvent} {number : Int}
    (h : NewestAttempt events number) (h' : NewestAttempt events' number)
    (hSame : ∀ event, event.ofAttempt = true → event.attemptNumber = number →
      (event ∈ events ↔ event ∈ events')) :
    classifyEvidence step (attemptTerminalLedgerState events) =
      classifyEvidence step (attemptTerminalLedgerState events') := by
  have left := attemptTerminalLedgerState_newest h
  have right := attemptTerminalLedgerState_newest h'
  have hTransfer (marked : PlanEvent → Prop) (hMarked : ∀ event, marked event → event.ofAttempt = true) :
      (∃ event ∈ events, event.attemptNumber = number ∧ marked event) ↔
        ∃ event ∈ events', event.attemptNumber = number ∧ marked event := by
    refine ⟨?_, ?_⟩
    · rintro ⟨event, hIn, hNumber, hMark⟩
      exact ⟨event, (hSame event (hMarked event hMark) hNumber).mp hIn, hNumber, hMark⟩
    · rintro ⟨event, hIn, hNumber, hMark⟩
      exact ⟨event, (hSame event (hMarked event hMark) hNumber).mpr hIn, hNumber, hMark⟩
  apply classifyEvidence_congr step _ _ left.latest right.latest
  · rw [Bool.eq_iff_iff, left.started, right.started]
    exact hTransfer _ fun event => PlanEvent.ofAttempt_of_started
  · intro status
    rw [left.terminals, right.terminals]
    exact hTransfer _ fun event => PlanEvent.ofAttempt_of_terminal

/-- The events are read as a set. -/
theorem classifyEvidence_of_same_events (step : CandidateStep) {events events' : List PlanEvent}
    (h : ∀ event, event ∈ events ↔ event ∈ events') :
    classifyEvidence step (attemptTerminalLedgerState events) =
      classifyEvidence step (attemptTerminalLedgerState events') := by
  by_cases hNone : ∀ event ∈ events, event.ofAttempt = false
  · rw [attemptTerminalLedgerState_none hNone,
      attemptTerminalLedgerState_none fun event hIn => hNone event ((h event).mpr hIn)]
  · push Not at hNone
    obtain ⟨event, hIn, hOf⟩ := hNone
    obtain ⟨number, hNewest⟩ := exists_newestAttempt hIn (by simpa using hOf)
    obtain ⟨⟨newest, hMem, hOfNewest, hNumber⟩, hMax⟩ := hNewest
    exact classifyEvidence_of_newest step ⟨⟨newest, hMem, hOfNewest, hNumber⟩, hMax⟩
      ⟨⟨newest, (h newest).mp hMem, hOfNewest, hNumber⟩, fun other hOther => hMax other ((h other).mpr hOther)⟩
      fun other _ _ => h other

end Evidence

end CommandConsole.Execution
