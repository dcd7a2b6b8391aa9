import CommandConsole.Library.Run
import Mathlib.Data.List.Induction
import Mathlib.Order.Lattice

/-! # Evidence of retention

A passing demonstration raises the stage of a skill, a failing one suspends it until a later pass. The evidence
carries the time at which it occurred, which need not follow the order of arrival.
-/
namespace CommandConsole.DurableLearning
open Library
set_option autoImplicit false

section Model

inductive RetentionStage where
  | notEvaluated
  | immediateOnly
  | shortTermRetained
  | mediumTermRetained
  | longTermRetained
  | durablyRetained
  | retentionAtRisk
  | degraded
  | remediationRequired
  deriving DecidableEq

inductive RetentionCheckpoint where
  | immediate
  | shortTerm
  | mediumTerm
  | longTerm
  | naturalUse
  | adversarial
  | reactivation
  deriving DecidableEq

inductive RetentionOutcome where
  | pass
  | fail
  | inconclusive
  deriving DecidableEq

inductive RetentionEvidenceValidity where
  | valid
  | invalid
  | stale
  | superseded
  deriving DecidableEq

inductive SourceKnowledgeStatus where
  | active
  | superseded
  | retired
  deriving DecidableEq

structure RetentionEvidence where
  evidenceId : String
  retentionId : String
  skillId : String
  checkpoint : RetentionCheckpoint
  outcome : RetentionOutcome
  validity : RetentionEvidenceValidity
  independentExecution : Bool
  novelContext : Bool
  answerExposed : Bool
  sourceKnowledgeStatus : SourceKnowledgeStatus
  occurredAt : String
  immutable : Bool
  deriving DecidableEq

structure RetentionRecord where
  retentionId : String
  skillId : String
  initialLearningAt : String
  stage : RetentionStage
  evidenceIds : List String
  lastSuccessfulDemonstrationAt : Option String
  lastFailureAt : Option String
  remediationRequired : Bool
  suspendedStage : Option RetentionStage
  updatedAt : String
  deriving DecidableEq

structure RetentionTransition where
  record : RetentionRecord
  accepted : Bool
  advanced : Bool
  reason : String
  requiresRemediation : Bool
  deriving DecidableEq

inductive RetentionArtifact where
  | evidence (evidence : RetentionEvidence)
  | transition (evidenceId : String) (record : RetentionRecord)
  deriving DecidableEq

def stageFor : RetentionCheckpoint → Option RetentionStage
  | .immediate => some .immediateOnly
  | .shortTerm => some .shortTermRetained
  | .mediumTerm => some .mediumTermRetained
  | .longTerm => some .longTermRetained
  | .reactivation => some .shortTermRetained
  | .naturalUse => none
  | .adversarial => none

def rank : RetentionStage → Nat
  | .notEvaluated => 0
  | .immediateOnly => 1
  | .shortTermRetained => 2
  | .mediumTermRetained => 3
  | .longTermRetained => 4
  | .durablyRetained => 5
  | .retentionAtRisk => 0
  | .degraded => 0
  | .remediationRequired => 0

/-- Comparison of numbers, where none stands for one that is not a number. -/
def before (a b : Option Int) : Bool :=
  match a, b with
  | some a, some b => a < b
  | _, _ => false

variable (parse : String → Option Int)

def reject (record : RetentionRecord) (evidence : RetentionEvidence) (reason : String) :
    RetentionTransition × List RetentionArtifact :=
  (⟨{ record with evidenceIds := record.evidenceIds ++ [evidence.evidenceId], updatedAt := evidence.occurredAt },
    false, false, reason, record.remediationRequired⟩, [.evidence evidence])

def applyFailure (record : RetentionRecord) (evidence : RetentionEvidence) : RetentionTransition × List RetentionArtifact :=
  let next := { record with
    stage := .remediationRequired
    suspendedStage := if record.remediationRequired then record.suspendedStage else some record.stage
    evidenceIds := record.evidenceIds ++ [evidence.evidenceId]
    lastFailureAt := some evidence.occurredAt
    remediationRequired := true
    updatedAt := evidence.occurredAt }
  (⟨next, true, false, "A valid failure suspends the retention claim pending targeted remediation.", true⟩,
    [.evidence evidence, .transition evidence.evidenceId next])

def baselineStage (record : RetentionRecord) : RetentionStage :=
  if record.remediationRequired then record.suspendedStage.getD .notEvaluated else record.stage

def newStage (record : RetentionRecord) (checkpoint : RetentionCheckpoint) : RetentionStage :=
  match stageFor checkpoint with
  | some target => if rank (baselineStage record) < rank target then target else baselineStage record
  | none => baselineStage record

def applyPass (record : RetentionRecord) (evidence : RetentionEvidence) : RetentionTransition × List RetentionArtifact :=
  let stage := newStage record evidence.checkpoint
  let next := { record with
    stage := stage
    suspendedStage := none
    evidenceIds := record.evidenceIds ++ [evidence.evidenceId]
    lastSuccessfulDemonstrationAt := some evidence.occurredAt
    remediationRequired := false
    updatedAt := evidence.occurredAt }
  (⟨next, true, stage ≠ baselineStage record,
    if stage = baselineStage record then "Evidence was retained without advancing the current stage."
    else "Fresh independent evidence advanced the retention stage.", false⟩,
    [.evidence evidence, .transition evidence.evidenceId next])

/-- `target && rank[target] > bound` -/
def targetAbove (checkpoint : RetentionCheckpoint) (bound : Nat) : Bool :=
  match stageFor checkpoint with
  | some target => bound < rank target
  | none => false

/-- The transition and what is appended to the artifacts, none where it throws. -/
def applyEvidence (record : RetentionRecord) (evidence : RetentionEvidence) :
    Option (RetentionTransition × List RetentionArtifact) :=
  if evidence.retentionId ≠ record.retentionId ∨ evidence.skillId ≠ record.skillId ∨ evidence.immutable = false ∨
      parse evidence.occurredAt = none then none
  else if evidence.validity ≠ .valid ∨ evidence.sourceKnowledgeStatus ≠ .active then
    some (reject record evidence "Only valid evidence for active knowledge can support retention.")
  else if evidence.outcome = .inconclusive then
    some (reject record evidence "Inconclusive evidence changes neither retention nor remediation state.")
  else if before (parse evidence.occurredAt) (parse record.initialLearningAt) then
    some (reject record evidence "Retention evidence cannot predate initial learning.")
  else if evidence.outcome = .fail then some (applyFailure record evidence)
  else if evidence.independentExecution = false ∨ evidence.answerExposed = true then
    some (reject record evidence "Passing evidence must be independently executed without answer exposure.")
  else if targetAbove evidence.checkpoint (rank (baselineStage record) + 1) then
    some (reject record evidence "Retention stages cannot be skipped by a single demonstration.")
  else if targetAbove evidence.checkpoint 1 ∧ evidence.novelContext = false then
    some (reject record evidence "Delayed retention stages require a novel context.")
  else some (applyPass record evidence)

end Model

section History

/-- Accepted evidence that decides, with its time. -/
structure Decisive where
  time : Int
  failed : Bool
  deriving DecidableEq

/-- The record in a sequence of evidence, with the decisive evidence so far and the highest stage reached. -/
structure History where
  record : RetentionRecord
  decisive : List Decisive
  highest : Nat
  deriving DecidableEq

variable (parse : String → Option Int)

/-- The last failure and the last success that a record itself names. -/
def recorded (record : RetentionRecord) : List Decisive :=
  let failures := ((record.lastFailureAt.bind parse).map fun time => Decisive.mk time true).toList
  let successes := ((record.lastSuccessfulDemonstrationAt.bind parse).map fun time => Decisive.mk time false).toList
  if record.remediationRequired then successes ++ failures else failures ++ successes

def History.start (record : RetentionRecord) : History where
  record := record
  decisive := recorded parse record
  highest := max (rank record.stage) ((record.suspendedStage.map rank).getD 0)

def History.apply (evidence : RetentionEvidence) (history : History) : History :=
  match applyEvidence parse history.record evidence with
  | none => history
  | some (transition, _) =>
    { record := transition.record
      decisive := if transition.accepted then
        history.decisive ++ [⟨(parse evidence.occurredAt).getD 0, evidence.outcome = .fail⟩] else history.decisive
      highest := max history.highest (rank transition.record.stage) }

/-- The decisive evidence that occurred last; of two at one time the one that arrived later. -/
def latest (decisive : List Decisive) : Option Decisive :=
  decisive.foldl (fun best next =>
    match best with
    | none => some next
    | some best => if next.time < best.time then some best else some next) none

end History

section Steps

variable (parse : String → Option Int) (record : RetentionRecord) (evidence : RetentionEvidence)

/-- What a passing demonstration has to be. -/
def Demonstrates : Prop :=
  (evidence.independentExecution = true ∧ evidence.answerExposed = false) ∧
    targetAbove evidence.checkpoint (rank (baselineStage record) + 1) = false ∧
    (targetAbove evidence.checkpoint 1 = true → evidence.novelContext = true)

/-- The evidence decides: a valid failure, or a pass that demonstrates. -/
def Acceptable : Prop :=
  (evidence.retentionId = record.retentionId ∧ evidence.skillId = record.skillId ∧ evidence.immutable = true ∧
      (parse evidence.occurredAt).isSome = true) ∧
    (evidence.validity = .valid ∧ evidence.sourceKnowledgeStatus = .active ∧ evidence.outcome ≠ .inconclusive) ∧
    before (parse evidence.occurredAt) (parse record.initialLearningAt) = false ∧
    (evidence.outcome = .pass → Demonstrates record evidence)

instance : Decidable (Demonstrates record evidence) := by
  unfold Demonstrates
  infer_instance

instance : Decidable (Acceptable parse record evidence) := by
  unfold Acceptable
  infer_instance

variable {parse record evidence}

/-- All that evidence can do. -/
theorem applyEvidence_cases :
    (applyEvidence parse record evidence = none ∧ ¬ Acceptable parse record evidence) ∨
    (∃ reason, applyEvidence parse record evidence = some (reject record evidence reason) ∧
      ¬ Acceptable parse record evidence) ∨
    (applyEvidence parse record evidence = some (applyFailure record evidence) ∧ evidence.outcome = .fail ∧
      Acceptable parse record evidence) ∨
    (applyEvidence parse record evidence = some (applyPass record evidence) ∧ evidence.outcome = .pass ∧
      Acceptable parse record evidence) := by
  unfold applyEvidence
  split
  · rename_i hBound
    refine .inl ⟨rfl, fun h => ?_⟩
    obtain ⟨⟨hRetention, hSkill, hImmutable, hTime⟩, -⟩ := h
    rcases hBound with hNot | hNot | hNot | hNot
    · exact hNot hRetention
    · exact hNot hSkill
    · rw [hImmutable] at hNot
      cases hNot
    · rw [hNot] at hTime
      cases hTime
  rename_i hBound
  split
  · rename_i hInvalid
    exact .inr (.inl ⟨_, rfl, fun h => hInvalid.elim (· h.2.1.1) (· h.2.1.2.1)⟩)
  rename_i hValid
  split
  · rename_i hInconclusive
    exact .inr (.inl ⟨_, rfl, fun h => h.2.1.2.2 hInconclusive⟩)
  rename_i hConclusive
  split
  · rename_i hEarly
    refine .inr (.inl ⟨_, rfl, fun h => ?_⟩)
    rw [h.2.2.1] at hEarly
    cases hEarly
  rename_i hLate
  have hBase : (evidence.retentionId = record.retentionId ∧ evidence.skillId = record.skillId ∧ evidence.immutable = true ∧
      (parse evidence.occurredAt).isSome = true) ∧
      (evidence.validity = .valid ∧ evidence.sourceKnowledgeStatus = .active ∧ evidence.outcome ≠ .inconclusive) ∧
      before (parse evidence.occurredAt) (parse record.initialLearningAt) = false := by
    simp only [not_or, not_not, ne_eq, Bool.not_eq_false, ← Option.isSome_iff_ne_none] at hBound hValid
    exact ⟨hBound, ⟨hValid.1, hValid.2, hConclusive⟩, Bool.eq_false_iff.mpr hLate⟩
  split
  · rename_i hFail
    refine .inr (.inr (.inl ⟨rfl, hFail, hBase.1, hBase.2.1, hBase.2.2, fun hPass => ?_⟩))
    rw [hFail] at hPass
    cases hPass
  rename_i hPassed
  have hPass : evidence.outcome = .pass := by
    cases hOutcome : evidence.outcome with
    | pass => rfl
    | fail => exact absurd hOutcome hPassed
    | inconclusive => exact absurd hOutcome hConclusive
  split
  · rename_i hExposed
    refine .inr (.inl ⟨_, rfl, fun h => ?_⟩)
    obtain ⟨hIndependent, hHidden⟩ := (h.2.2.2 hPass).1
    rw [hIndependent, hHidden] at hExposed
    rcases hExposed with hNot | hNot <;> cases hNot
  rename_i hIndependent
  split
  · rename_i hSkips
    refine .inr (.inl ⟨_, rfl, fun h => ?_⟩)
    rw [(h.2.2.2 hPass).2.1] at hSkips
    cases hSkips
  rename_i hNear
  split
  · rename_i hRepeated
    refine .inr (.inl ⟨_, rfl, fun h => ?_⟩)
    rw [(h.2.2.2 hPass).2.2 hRepeated.1] at hRepeated
    cases hRepeated.2
  · rename_i hNovel
    refine .inr (.inr (.inr ⟨rfl, hPass, hBase.1, hBase.2.1, hBase.2.2, fun _ => ⟨?_, Bool.eq_false_iff.mpr hNear, ?_⟩⟩))
    · simpa only [not_or, Bool.not_eq_false, Bool.not_eq_true] using hIndependent
    · exact fun hDelayed => Bool.of_not_eq_false fun hNot => hNovel ⟨hDelayed, hNot⟩

end Steps

section Discipline

variable {parse : String → Option Int} {start : RetentionRecord} {evidence : RetentionEvidence} {s : History}

def timeOf (parse : String → Option Int) (evidence : RetentionEvidence) : Int := (parse evidence.occurredAt).getD 0

/-- Evidence that decides and occurred before the latest that did has the same outcome. -/
def InOrder (parse : String → Option Int) (evidence : RetentionEvidence) (s : History) : Prop :=
  Acceptable parse s.record evidence → ∀ d ∈ latest s.decisive, timeOf parse evidence < d.time →
    (evidence.outcome = .fail ↔ d.failed = true)

/-- Where the evidence leaves the history as it decides. -/
theorem apply_cases :
    ((History.apply parse evidence s).decisive = s.decisive ∧
      (History.apply parse evidence s).record.stage = s.record.stage ∧
      (History.apply parse evidence s).record.suspendedStage = s.record.suspendedStage ∧
      (History.apply parse evidence s).record.remediationRequired = s.record.remediationRequired ∧
      ¬ Acceptable parse s.record evidence) ∨
    (evidence.outcome = .fail ∧ Acceptable parse s.record evidence ∧
      History.apply parse evidence s = ⟨(applyFailure s.record evidence).1.record,
        s.decisive ++ [⟨timeOf parse evidence, true⟩], max s.highest 0⟩) ∨
    (evidence.outcome = .pass ∧ Acceptable parse s.record evidence ∧
      History.apply parse evidence s = ⟨(applyPass s.record evidence).1.record,
        s.decisive ++ [⟨timeOf parse evidence, false⟩], max s.highest (rank (newStage s.record evidence.checkpoint))⟩) := by
  rcases @applyEvidence_cases parse s.record evidence with
    ⟨hThrows, hNot⟩ | ⟨reason, hReject, hNot⟩ | ⟨hFails, hOutcome, hAccept⟩ | ⟨hPasses, hOutcome, hAccept⟩
  · rw [History.apply, hThrows]
    exact .inl ⟨rfl, rfl, rfl, rfl, hNot⟩
  · rw [History.apply, hReject]
    exact .inl ⟨rfl, rfl, rfl, rfl, hNot⟩
  · refine .inr (.inl ⟨hOutcome, hAccept, ?_⟩)
    rw [History.apply, hFails]
    simp only [applyFailure, hOutcome, if_true, decide_true, rank, timeOf]
  · refine .inr (.inr ⟨hOutcome, hAccept, ?_⟩)
    rw [History.apply, hPasses]
    simp only [applyPass, hOutcome, if_true, timeOf, reduceCtorEq, decide_false]

theorem latest_append (decisive : List Decisive) (next : Decisive) :
    latest (decisive ++ [next]) = match latest decisive with
      | none => some next
      | some best => if next.time < best.time then some best else some next := by
  rw [latest, List.foldl_append]
  rfl

/-- What the flag says is what the latest evidence says. -/
def Settled (start : RetentionRecord) (parse : String → Option Int) (s : History) : Prop :=
  (recorded parse start).length < s.decisive.length →
    ∃ d, latest s.decisive = some d ∧ s.record.remediationRequired = d.failed

theorem latest_failed {next : Decisive} (h : ∀ d ∈ latest s.decisive, next.time < d.time → d.failed = next.failed) :
    ∃ d, latest (s.decisive ++ [next]) = some d ∧ next.failed = d.failed := by
  rw [latest_append]
  cases hLatest : latest s.decisive with
  | none => exact ⟨next, rfl, rfl⟩
  | some best =>
    dsimp only
    split
    · rename_i hEarlier
      exact ⟨best, rfl, (h best hLatest hEarlier).symm⟩
    · exact ⟨next, rfl, rfl⟩

theorem settled_apply (h : Settled start parse s) (hOrder : InOrder parse evidence s) :
    Settled start parse (History.apply parse evidence s) := by
  rcases @apply_cases parse evidence s with ⟨hDecisive, -, -, hFlag, -⟩ | ⟨hOutcome, hAccept, hApply⟩ | ⟨hOutcome, hAccept, hApply⟩
  · rw [Settled, hDecisive, hFlag]
    exact h
  · rw [hApply]
    refine fun _ => latest_failed fun d hLatest hEarlier => ?_
    exact (hOrder hAccept d hLatest hEarlier).mp hOutcome
  · rw [hApply]
    refine fun _ => latest_failed fun d hLatest hEarlier => ?_
    have hSame := hOrder hAccept d hLatest hEarlier
    rw [hOutcome] at hSame
    exact Bool.eq_false_iff.mpr fun hFailed => by cases hSame.mpr hFailed

/-- The highest stage bounds the stage and the one that is suspended. -/
def Bounded (s : History) : Prop :=
  rank s.record.stage ≤ s.highest ∧ ∀ stage ∈ s.record.suspendedStage, rank stage ≤ s.highest

theorem rank_baseline (h : Bounded s) : rank (baselineStage s.record) ≤ s.highest := by
  unfold baselineStage
  split
  · cases hSuspended : s.record.suspendedStage with
    | none => exact Nat.zero_le _
    | some stage => exact h.2 stage hSuspended
  · exact h.1

theorem rank_newStage (hBounded : Bounded s) (h : Demonstrates s.record evidence) :
    rank (newStage s.record evidence.checkpoint) ≤ s.highest + 1 := by
  have hBase := rank_baseline hBounded
  have hNear := h.2.1
  unfold newStage
  unfold targetAbove at hNear
  cases hTarget : stageFor evidence.checkpoint with
  | none => exact Nat.le_succ_of_le hBase
  | some target =>
    rw [hTarget] at hNear
    have hStep := Nat.le_of_not_lt (of_decide_eq_false hNear)
    dsimp only
    split
    · exact Nat.le_trans hStep (Nat.succ_le_succ hBase)
    · exact Nat.le_succ_of_le hBase

theorem bounded_apply (h : Bounded s) :
    Bounded (History.apply parse evidence s) ∧ rank (History.apply parse evidence s).record.stage ≤ s.highest + 1 := by
  rcases @apply_cases parse evidence s with ⟨-, hStage, hSuspended, -, -⟩ | ⟨-, -, hApply⟩ | ⟨hOutcome, hAccept, hApply⟩
  · have hHighest : s.highest ≤ (History.apply parse evidence s).highest := by
      unfold History.apply
      split
      · exact Nat.le_refl _
      · exact Nat.le_max_left _ _
    rw [Bounded, hStage, hSuspended]
    refine ⟨⟨Nat.le_trans h.1 hHighest, fun stage hStage => Nat.le_trans (h.2 stage hStage) hHighest⟩, ?_⟩
    exact Nat.le_succ_of_le h.1
  · rw [hApply]
    refine ⟨⟨Nat.zero_le _, fun stage hStage => ?_⟩, Nat.zero_le _⟩
    refine Nat.le_trans ?_ (Nat.le_max_left _ _)
    dsimp only [applyFailure] at hStage
    split at hStage
    · exact h.2 stage hStage
    · exact Option.some.inj hStage ▸ h.1
  · rw [hApply]
    exact ⟨⟨Nat.le_max_right _ _, fun _ hNone => nomatch hNone⟩, rank_newStage h (hAccept.2.2.2 hOutcome)⟩

/-- The stage was suspended by a failure and comes back. -/
def Restores (s : History) (stage : RetentionStage) : Prop :=
  s.record.remediationRequired = true ∧ s.record.suspendedStage = some stage

theorem newStage_novel (h : Demonstrates s.record evidence)
    (hNew : newStage s.record evidence.checkpoint ≠ s.record.stage) (hDelayed : 2 ≤ rank (newStage s.record evidence.checkpoint)) :
    evidence.novelContext = true ∨ Restores s (newStage s.record evidence.checkpoint) := by
  have hBase : newStage s.record evidence.checkpoint = baselineStage s.record →
      Restores s (newStage s.record evidence.checkpoint) := by
    intro hSame
    rw [hSame] at hNew hDelayed ⊢
    unfold baselineStage at hNew hDelayed ⊢
    split
    · rename_i hFlag
      rw [if_pos hFlag] at hDelayed
      cases hSuspended : s.record.suspendedStage with
      | none =>
        rw [hSuspended] at hDelayed
        cases hDelayed
      | some stage => exact ⟨hFlag, hSuspended⟩
    · rename_i hFlag
      rw [if_neg hFlag] at hNew
      exact absurd rfl hNew
  have hNovel := h.2.2
  unfold newStage at hBase hDelayed ⊢
  unfold targetAbove at hNovel
  cases hTarget : stageFor evidence.checkpoint with
  | none =>
    rw [hTarget] at hBase
    exact .inr (hBase rfl)
  | some target =>
    rw [hTarget] at hBase hDelayed hNovel
    dsimp only at hBase hDelayed hNovel ⊢
    split
    · rename_i hRises
      rw [if_pos hRises] at hDelayed
      exact .inl (hNovel (decide_eq_true hDelayed))
    · rename_i hStays
      rw [if_neg hStays] at hBase
      exact .inr (hBase rfl)

/-- A delayed stage is entered, or comes back, by what demonstrates it. -/
theorem entered (hNew : (History.apply parse evidence s).record.stage ≠ s.record.stage)
    (hDelayed : 2 ≤ rank (History.apply parse evidence s).record.stage) :
    Acceptable parse s.record evidence ∧ evidence.outcome = .pass ∧ evidence.independentExecution = true ∧
      (evidence.novelContext = true ∨ Restores s (History.apply parse evidence s).record.stage) := by
  rcases @apply_cases parse evidence s with ⟨-, hStage, -, -, -⟩ | ⟨-, -, hApply⟩ | ⟨hOutcome, hAccept, hApply⟩
  · exact absurd hStage hNew
  · rw [hApply] at hDelayed
    exact absurd hDelayed (Nat.not_succ_le_zero 1)
  · have hPass := hAccept.2.2.2 hOutcome
    rw [hApply] at hNew hDelayed ⊢
    exact ⟨hAccept, hOutcome, hPass.1.1, newStage_novel hPass hNew hDelayed⟩

theorem eq_nil_of_latest {decisive : List Decisive} (h : latest decisive = none) : decisive = [] := by
  cases decisive using List.reverseRecOn with
  | nil => rfl
  | append_singleton decisive next =>
    rw [latest_append] at h
    split at h
    · cases h
    · split at h <;> cases h

theorem latest_is_last {decisive : List Decisive} {d x : Decisive} (h : latest decisive = some d) (hMem : x ∈ decisive) :
    x.time ≤ d.time := by
  induction decisive using List.reverseRecOn generalizing d with
  | nil => cases hMem
  | append_singleton decisive next ih =>
    rw [latest_append] at h
    rw [List.mem_append, List.mem_singleton] at hMem
    cases hLatest : latest decisive with
    | none =>
      rw [hLatest] at h
      obtain rfl := Option.some.inj h
      rcases hMem with hOld | rfl
      · rw [eq_nil_of_latest hLatest] at hOld
        cases hOld
      · exact Int.le_refl _
    | some best =>
      rw [hLatest] at h
      dsimp only at h
      split at h
      · rename_i hEarlier
        obtain rfl := Option.some.inj h
        rcases hMem with hOld | rfl
        · exact ih hLatest hOld
        · exact Int.le_of_lt hEarlier
      · rename_i hLater
        obtain rfl := Option.some.inj h
        rcases hMem with hOld | rfl
        · exact Int.le_trans (ih hLatest hOld) (Int.not_lt.mp hLater)
        · exact Int.le_refl _

/-- A failure that is the latest is cleared only by a pass that occurred after it. -/
theorem cleared (hOrder : InOrder parse evidence s) {d : Decisive} (hLatest : latest s.decisive = some d)
    (hFailed : d.failed = true) (hFlag : s.record.remediationRequired = true)
    (hCleared : (History.apply parse evidence s).record.remediationRequired = false) :
    ∀ x ∈ s.decisive, x.time ≤ timeOf parse evidence := by
  rcases @apply_cases parse evidence s with ⟨-, -, -, hSame, -⟩ | ⟨-, -, hApply⟩ | ⟨hOutcome, hAccept, -⟩
  · rw [hSame, hFlag] at hCleared
    cases hCleared
  · rw [hApply] at hCleared
    cases hCleared
  · intro x hx
    refine Int.le_trans (latest_is_last hLatest hx) (Int.not_lt.mp fun hEarlier => ?_)
    have hFails := (hOrder hAccept d hLatest hEarlier).mpr hFailed
    rw [hOutcome] at hFails
    cases hFails

theorem invariant_of_run {record : RetentionRecord}
    (h : Reaches (History.apply parse) (InOrder parse) (.start parse record) s) : Settled record parse s ∧ Bounded s := by
  refine h.invariant (P := fun s => Settled record parse s ∧ Bounded s) ⟨fun hLess => ?_, ?_, fun stage hStage => ?_⟩
    fun evidence s hBoth hOrder => ⟨settled_apply hBoth.1 hOrder, (bounded_apply hBoth.2).1⟩
  · exact absurd hLess (Nat.lt_irrefl _)
  · exact Nat.le_max_left _ _
  · refine Nat.le_trans (Nat.le_of_eq ?_) (Nat.le_max_right _ _)
    rw [Option.mem_def] at hStage
    change record.suspendedStage = some stage at hStage
    rw [hStage]
    rfl

/-- Where the evidence that decides arrives in the order in which it occurred, or agrees with the latest. -/
theorem retention_follows_evidence (parse : String → Option Int) (record : RetentionRecord) {s : History}
    (h : Reaches (History.apply parse) (InOrder parse) (.start parse record) s) :
    ((recorded parse record).length < s.decisive.length →
      ∃ d, latest s.decisive = some d ∧ s.record.remediationRequired = d.failed) ∧
    ∀ evidence, rank (History.apply parse evidence s).record.stage ≤ s.highest + 1 ∧
      ((History.apply parse evidence s).record.stage ≠ s.record.stage →
        2 ≤ rank (History.apply parse evidence s).record.stage →
        (evidence.validity = .valid ∧ evidence.sourceKnowledgeStatus = .active ∧ evidence.independentExecution = true) ∧
          (evidence.novelContext = true ∨ Restores s (History.apply parse evidence s).record.stage)) ∧
      (InOrder parse evidence s → ∀ d, latest s.decisive = some d → d.failed = true →
        s.record.remediationRequired = true → (History.apply parse evidence s).record.remediationRequired = false →
        ∀ x ∈ s.decisive, x.time ≤ timeOf parse evidence) := by
  obtain ⟨hSettled, hBounded⟩ := invariant_of_run h
  refine ⟨hSettled, fun evidence => ⟨(bounded_apply hBounded).2, fun hNew hDelayed => ?_, fun hOrder d hLatest hFailed hFlag hCleared =>
    cleared hOrder hLatest hFailed hFlag hCleared⟩⟩
  obtain ⟨hAccept, -, hIndependent, hNovel⟩ := entered hNew hDelayed
  exact ⟨⟨hAccept.2.1.1, hAccept.2.1.2.1, hIndependent⟩, hNovel⟩

end Discipline

section Examples

instance (parse : String → Option Int) (evidence : RetentionEvidence) (s : History) : Decidable (InOrder parse evidence s) := by
  unfold InOrder
  cases hLatest : latest s.decisive with
  | none => exact isTrue fun _ d hd => nomatch hd
  | some best =>
    refine decidable_of_iff (Acceptable parse s.record evidence → timeOf parse evidence < best.time →
      (evidence.outcome = .fail ↔ best.failed = true)) ⟨fun h hAccept d hd => ?_, fun h hAccept => h hAccept best rfl⟩
    exact Option.some.inj hd ▸ h hAccept

def week (text : String) : Option Int := (["week 0", "week 1", "week 2", "week 3", "week 4"].idxOf? text).map Int.ofNat

def learned : RetentionRecord :=
  ⟨"RET-33", "SK-33", "week 0", .notEvaluated, [], none, none, false, none, "week 0"⟩

def evidenceOf (evidenceId : String) (checkpoint : RetentionCheckpoint) (outcome : RetentionOutcome) (occurredAt : String) :
    RetentionEvidence :=
  ⟨evidenceId, "RET-33", "SK-33", checkpoint, outcome, .valid, true, true, false, .active, occurredAt, true⟩

def after (evidence : List RetentionEvidence) : History := runAll (History.apply week) (.start week learned) evidence

/-- A pass, a failure, and a pass after it. -/
def relearned : List RetentionEvidence :=
  [evidenceOf "e1" .immediate .pass "week 1", evidenceOf "e2" .shortTerm .fail "week 2",
    evidenceOf "e3" .shortTerm .pass "week 3"]

theorem retention_follows_evidence_relearned :
    (after relearned).record.stage = .shortTermRetained ∧
    ∃ d, latest (after relearned).decisive = some d ∧ (after relearned).record.remediationRequired = d.failed :=
  ⟨by decide +kernel, (retention_follows_evidence week learned (GuardedAll.reaches (by decide +kernel))).1
    (by decide +kernel)⟩

/-- The pass before the failure arrives after it. -/
def passArrivesLate : List RetentionEvidence :=
  [evidenceOf "e1" .immediate .pass "week 1", evidenceOf "e3" .shortTerm .fail "week 3",
    evidenceOf "e2" .naturalUse .pass "week 2"]

theorem late_pass_clears_remediation :
    (after passArrivesLate).record.remediationRequired = false ∧
    (after passArrivesLate).record.stage = .immediateOnly ∧
    latest (after passArrivesLate).decisive = some ⟨3, true⟩ ∧
    ¬ ∀ parse record s, Reaches (History.apply parse) (fun _ _ => True) (.start parse record) s →
      (recorded parse record).length < s.decisive.length →
        ∃ d, latest s.decisive = some d ∧ s.record.remediationRequired = d.failed := by
  have hFlag : (after passArrivesLate).record.remediationRequired = false := by decide +kernel
  have hLatest : latest (after passArrivesLate).decisive = some ⟨3, true⟩ := by decide +kernel
  refine ⟨hFlag, by decide +kernel, hLatest, fun h => ?_⟩
  obtain ⟨d, hd, hSame⟩ := h week learned _ (reaches_runAll _ _ passArrivesLate) (by decide +kernel)
  change latest (after passArrivesLate).decisive = some d at hd
  rw [hLatest] at hd
  obtain rfl := Option.some.inj hd
  change (after passArrivesLate).record.remediationRequired = true at hSame
  rw [hFlag] at hSame
  cases hSame

end Examples

end CommandConsole.DurableLearning
