import CommandConsole.Execution.Execute
import CommandConsole.Execution.StepRecovery

/-! # The engine's form of a plan and the plan itself

The engine hands its own normalization of a plan to recovery, which normalizes it
once more. It keeps the ids, an action word and the flag of idempotency; the side
effect class, the declared side effects and the idempotency key are dropped, and
default ids count from one.
-/
namespace CommandConsole.Execution
open Library
set_option autoImplicit false

section Recover

structure RecoveredCheckpoint where
  checkpoint : Checkpoint
  nextStepIndex : Int
  shouldExecute : Bool
  completed : Bool := false
  interrupted : Bool := false
  deriving DecidableEq

/-- The running branch; `idempotent` is the flag of the interrupted step, if there is one. -/
def recoverInterrupted (planId : String) (checkpoint : Checkpoint) :
    Option Bool → Tx (Result RecoveredCheckpoint)
  | none => failure "CHECKPOINT_INVALID" s!"Execution checkpoint {planId} points at an invalid running step."
  | some true =>
    success { checkpoint, nextStepIndex := checkpoint.currentStep, shouldExecute := true, interrupted := true }
  | some false => do
    let env ← Tx.ask
    writeCheckpointRow { checkpoint with status := .awaitingReview, updatedAt := env.nowMs }
    failure "MANUAL_REVIEW_REQUIRED"
      s!"Execution checkpoint {planId} stopped on a non-idempotent step and requires manual review."

/-- `recoverExecutionState`; of the plan it reads the id, the length and the flags of idempotency. -/
def recoverExecutionState (plan : CheckpointPlan) : Tx (Result RecoveredCheckpoint) :=
  if plan.id = "" then failure "INVALID_STATE" "Execution plan requires an id for recovery."
  else do
    let env ← Tx.ask
    let db ← Tx.get
    match readCheckpointRow db plan.id with
    | none => failure "NOT_FOUND" s!"Execution checkpoint {plan.id} was not found."
    | some checkpoint =>
      let totalSteps : Int := plan.steps.length
      let nextStepIndex := checkpoint.lastCompletedStepIndex + 1
      if totalSteps ≤ checkpoint.lastCompletedStepIndex then
        failure "CHECKPOINT_INVALID" s!"Execution checkpoint {plan.id} references a completed step outside the plan."
      else if totalSteps = 0 ∨ totalSteps ≤ nextStepIndex then do
        let completedRow := { checkpoint with
          status := .completed, currentStep := totalSteps, updatedAt := env.nowMs }
        writeCheckpointRow completedRow
        success { checkpoint := completedRow, nextStepIndex := totalSteps, shouldExecute := false, completed := true }
      else
        match checkpoint.status with
        | .completed =>
          success { checkpoint, nextStepIndex := totalSteps, shouldExecute := false, completed := true }
        | .failed =>
          failure "INVALID_STATE" s!"Execution checkpoint {plan.id} is failed and cannot be resumed automatically."
        | .running =>
          recoverInterrupted plan.id checkpoint
            ((atIndex plan.steps checkpoint.currentStep).map CheckpointStep.idempotent)
        | _ =>
          if nextStepIndex < 0 then
            failure "CHECKPOINT_INVALID" s!"Execution checkpoint {plan.id} points at an invalid next step."
          else success { checkpoint, nextStepIndex, shouldExecute := true }

end Recover

section Steps

/-- `metadata.idempotent === true || idempotencyClass is "safe_repeat"`. -/
def PlanStep.flaggedIdempotent (step : PlanStep) : Bool :=
  step.metadata.idempotent = some true || wordIs (step.idempotencyClass.getD "") "safe_repeat"

def PlanStep.declaredKey (step : PlanStep) : Option String :=
  truthy step.idempotencyKey <|> truthy step.metadata.idempotencyKey

def PlanStep.declaredClass (step : PlanStep) : String :=
  (truthy step.sideEffectClass <|> truthy step.metadata.sideEffectClass <|> truthy step.effectClass).getD ""

def PlanStep.declaredEffects (step : PlanStep) : List String :=
  normalizedWords ((step.sideEffects <|> step.metadata.sideEffects).getD [])

/-- The action word that reconciliation reads, and the one that the engine writes. -/
def PlanStep.actionWord (step : PlanStep) : String :=
  (truthy step.action <|> truthy step.actionClass <|> truthy step.kind).getD ""

def PlanStep.engineAction (step : PlanStep) : String :=
  (truthy step.action <|> truthy step.actionClass <|> truthy step.tool).getD "step"

/-- The class that an action word stands for. -/
def classOfAction (action : String) : SideEffectClass :=
  inferSideEffectClass { PlanStep.blank with action := some action }

theorem classOfAction_eq (action : String) : classOfAction action =
    if ["read", "read_file", "list", "inspect", "query", "fetch"].any (wordIs action) then .pureRead
    else if ["write", "write_file", "create", "update", "mutate", "edit"].any (wordIs action) then
      .localWrite
    else if ["delete", "remove", "destroy"].any (wordIs action) then .destructive
    else if ["network", "http", "api_call", "plugin"].any (wordIs action) then .networkCall
    else if ["execute", "shell", "run_command"].any (wordIs action) then .externalWrite
    else .unknown := by
  have hWord : (truthy (some action) <|> truthy none <|> truthy none).getD "" = action := by
    by_cases h : action = "" <;> simp [truthy, Option.filter, h]
  unfold classOfAction inferSideEffectClass
  simp only [PlanStep.blank, StepMetadata.empty, hWord]
  rfl

theorem inferSideEffectClass_eq (step : PlanStep) : inferSideEffectClass step =
    if isBlank step.declaredClass then classOfAction step.actionWord else .ofText step.declaredClass := by
  rw [classOfAction_eq]
  cases hBlank : isBlank step.declaredClass with
  | true =>
    rw [if_pos rfl]
    unfold inferSideEffectClass
    rw [if_neg (by simpa [PlanStep.declaredClass] using hBlank)]
    rfl
  | false =>
    rw [if_neg (by simp)]
    unfold inferSideEffectClass
    rw [if_pos (by simpa [PlanStep.declaredClass] using hBlank)]
    rfl

/-- The step that recovery sees when the engine hands over its form of the plan. -/
def engineFormStep (index : Nat) (step : PlanStep) : CheckpointStep :=
  normalizeCheckpointStep (engineCheckpointStep index step) index

theorem truthy_of_ne {text : String} (h : text ≠ "") : truthy (some text) = some text := by
  simp [truthy, Option.filter, h]

theorem engineFormStep_eq (index : Nat) (step : PlanStep) :
    (engineFormStep index step).id = checkpointStepId step.id (index + 1) ∧
      (engineFormStep index step).sideEffectClass = classOfAction step.engineAction ∧
      (engineFormStep index step).idempotent = step.flaggedIdempotent ∧
      (engineFormStep index step).idempotencyKey = none ∧ (engineFormStep index step).sideEffects = [] := by
  have hId : checkpointStepId (some (checkpointStepId step.id (index + 1))) index =
      checkpointStepId step.id (index + 1) := by
    rw [checkpointStepId, truthy_of_ne (checkpointStepId_ne_empty _ _), Option.getD_some]
  refine ⟨hId, rfl, ?_, rfl, rfl⟩
  have hClass : wordIs "" "safe_repeat" = false := by decide
  simp only [engineFormStep, normalizeCheckpointStep, engineCheckpointStep, PlanStep.blank, Option.getD_none,
    Option.some.injEq, hClass, Bool.or_false, Bool.decide_eq_true]
  rfl

/-- Default ids of different positions differ. -/
theorem defaultStepId_injective {m n : Nat} (h : s!"step_{m}" = s!"step_{n}") : m = n := by
  have hList := congrArg String.toList h
  simp only [String.toList_append, toString, List.append_cancel_left_eq, Nat.toList_repr] at hList
  rw [← Nat.ofDigitChars_ten_toDigits (n := m), ← Nat.ofDigitChars_ten_toDigits (n := n), hList]

end Steps

section Preserved

/-- The ids of the two steps, the first with its default counted from one. -/
def SameId (index : Nat) (left right : PlanStep) : Prop :=
  match truthy left.id, truthy right.id with
  | some text, some other => text = other
  | none, some other => s!"step_{index + 1}" = other
  | some text, none => text = s!"step_{index}"
  | none, none => False

/-- What the engine reads of `left` stands for all that recovery reads of `right`. -/
structure Preserved (index : Nat) (left right : PlanStep) : Prop where
  id : SameId index left right
  sideEffectClass : classOfAction left.engineAction =
    if isBlank right.declaredClass then classOfAction right.actionWord else .ofText right.declaredClass
  flag : left.flaggedIdempotent = right.flaggedIdempotent
  key : right.flaggedIdempotent = true ∨ isBlank (right.declaredKey.getD "") = true
  known : "unknown" ∉ right.declaredEffects
  effects : right.declaredEffects = [] ∨ right.metadata.retryStrategy = some "manual_only" ∨
    right.metadata.retryStrategy ≠ some "safe" ∧ right.flaggedIdempotent = false

/-- The steps that the engine takes stand for those that recovery takes, one by one. -/
def Plan.EvidencePreserved (plan : Plan) : Prop :=
  plan.engineSteps.length = plan.rawSteps.length ∧
    ∀ (index : Nat) (left right : PlanStep), plan.engineSteps[index]? = some left →
      plan.rawSteps[index]? = some right → Preserved index left right

theorem sameId_iff {index : Nat} {left right : PlanStep} :
    SameId index left right ↔ checkpointStepId left.id (index + 1) = checkpointStepId right.id index := by
  unfold SameId checkpointStepId
  cases truthy left.id <;> cases truthy right.id
  · simp only [Option.getD_none, false_iff]
    intro h
    exact absurd (defaultStepId_injective h) (Nat.succ_ne_self index)
  all_goals simp only [Option.getD_none, Option.getD_some]

/-- The evidence of idempotency that `decideRecoveryAction` takes from a step. -/
def CheckpointStep.idempotencyEvidence (step : CheckpointStep) : Bool :=
  step.idempotent || !isBlank (step.idempotencyKey.getD "")

def CheckpointStep.evidence (step : CheckpointStep) : String × SideEffectClass × Bool :=
  (step.id, step.sideEffectClass, step.idempotencyEvidence)

variable {index : Nat} {left right : PlanStep}

theorem evidence_eq_iff : (engineFormStep index left).evidence = (normalizeCheckpointStep right index).evidence ↔
    SameId index left right ∧
      (classOfAction left.engineAction =
        if isBlank right.declaredClass then classOfAction right.actionWord else .ofText right.declaredClass) ∧
      left.flaggedIdempotent = (right.flaggedIdempotent || !isBlank (right.declaredKey.getD "")) := by
  obtain ⟨hId, hClass, hFlag, hKey, -⟩ := engineFormStep_eq index left
  have hBlank : isBlank "" = true := by decide
  rw [sameId_iff, ← inferSideEffectClass_eq]
  simp only [CheckpointStep.evidence, CheckpointStep.idempotencyEvidence, hId, hClass, hFlag, hKey, Option.getD_none,
    hBlank, Bool.not_true, Bool.or_false, Prod.mk.injEq]
  rfl

theorem decideRecoveryAction_engineForm (attempt : AttemptEvidence) :
    (decideRecoveryAction (some (engineFormStep index left)) attempt).1 =
      if attempt.sideEffectClass = .pureRead then .retry else .operatorRecovery := by
  obtain ⟨-, -, -, -, hEffects⟩ := engineFormStep_eq index left
  obtain ⟨sideEffectClass, key⟩ := attempt
  unfold decideRecoveryAction
  simp only [Option.map_some, Option.getD_some, hEffects, List.not_mem_nil, if_false, List.isEmpty_nil, Bool.true_or,
    if_true]
  split
  · rename_i hManual
    rw [Bool.and_eq_true, decide_eq_true_eq] at hManual
    rw [if_neg hManual.2]
  · cases sideEffectClass <;> rfl

theorem manualOnly_iff (index : Nat) (right : PlanStep) :
    (normalizeCheckpointStep right index).retryStrategy = .manualOnly ↔
    right.metadata.retryStrategy = some "manual_only" ∨
      right.metadata.retryStrategy ≠ some "safe" ∧ right.flaggedIdempotent = false := by
  change (if right.metadata.retryStrategy = some "safe" then RetryStrategy.safe
    else if right.metadata.retryStrategy = some "manual_only" then .manualOnly
    else if right.flaggedIdempotent then .safe else .manualOnly) = .manualOnly ↔ _
  by_cases hSafe : right.metadata.retryStrategy = some "safe"
  · simp [hSafe]
  · by_cases hManual : right.metadata.retryStrategy = some "manual_only"
    · simp [hManual]
    · cases hFlag : right.flaggedIdempotent <;> simp [hSafe, hManual]

/-- Retrying is decided as for the raw step exactly when that one declares nothing that counts. -/
theorem decisions_eq_iff :
    (∀ attempt, (decideRecoveryAction (some (engineFormStep index left)) attempt).1 =
      (decideRecoveryAction (some (normalizeCheckpointStep right index)) attempt).1) ↔
      "unknown" ∉ right.declaredEffects ∧
        (right.declaredEffects = [] ∨ right.metadata.retryStrategy = some "manual_only" ∨
          right.metadata.retryStrategy ≠ some "safe" ∧ right.flaggedIdempotent = false) := by
  rw [← manualOnly_iff index right]
  have hEffects : (normalizeCheckpointStep right index).sideEffects = right.declaredEffects := rfl
  constructor
  · intro h
    constructor
    · intro hUnknown
      have hRead := h ⟨.pureRead, none⟩
      rw [decideRecoveryAction_engineForm, if_pos rfl] at hRead
      simp [decideRecoveryAction, hEffects, hUnknown] at hRead
    · by_contra hNot
      rw [not_or] at hNot
      have hKey : (truthy (some "key")).isSome = true := by decide
      have hWrite := h ⟨.localWrite, some "key"⟩
      rw [decideRecoveryAction_engineForm, if_neg (by decide)] at hWrite
      by_cases hUnknown : "unknown" ∈ right.declaredEffects
      · have hRead := h ⟨.pureRead, none⟩
        rw [decideRecoveryAction_engineForm, if_pos rfl] at hRead
        simp [decideRecoveryAction, hEffects, hUnknown] at hRead
      · simp [decideRecoveryAction, hEffects, hUnknown, hNot.1, hNot.2, hKey] at hWrite
  · rintro ⟨hKnown, hDeclared⟩ ⟨sideEffectClass, key⟩
    rw [decideRecoveryAction_engineForm]
    simp only [decideRecoveryAction, Option.map_some, Option.getD_some, hEffects, hKnown, if_false, Option.any_some]
    by_cases hManual : (normalizeCheckpointStep right index).retryStrategy = .manualOnly
    · by_cases hClass : sideEffectClass = .pureRead
      · simp [hClass]
      · simp [hManual, hClass]
    · have hNone : right.declaredEffects.isEmpty = true := by
        rw [List.isEmpty_iff]
        exact hDeclared.resolve_right hManual
      simp only [hManual, decide_false, Bool.false_and, Bool.false_eq_true, if_false, hNone, Bool.true_or, if_true]
      cases sideEffectClass <;> rfl

end Preserved

section Agreement

variable {planId executionId : String} {checkpoint : Checkpoint} {db : Db} {left right : List CheckpointStep}

/-- The two lists name the same steps. -/
theorem atIndex_map {α β : Type} (items : List α) (f : α → β) (index : Int) :
    (atIndex items index).map f = atIndex (items.map f) index := by
  unfold atIndex
  split
  · rw [List.getElem?_map]
  · rfl

theorem currentEvidence_step (hIds : left.map CheckpointStep.id = right.map CheckpointStep.id) :
    currentEvidence ⟨planId, left⟩ executionId checkpoint db =
      { currentEvidence ⟨planId, right⟩ executionId checkpoint db with
        step := atIndex left checkpoint.currentStep } := by
  have hStep : (atIndex left checkpoint.currentStep).map CheckpointStep.id =
      (atIndex right checkpoint.currentStep).map CheckpointStep.id := by
    rw [atIndex_map, atIndex_map, hIds]
  unfold currentEvidence gatherEvidence
  simp only [hStep]

/-- Only a failed latest attempt makes the decision depend on the step. -/
theorem decision_step (evidence : StepEvidence) (step : Option CheckpointStep) (now : Int)
    (cancellationRequested : Bool)
    (h : ∀ attempt, (decideRecoveryAction step attempt).1 = (decideRecoveryAction evidence.step attempt).1) :
    ({ evidence with step } : StepEvidence).decision now cancellationRequested =
      evidence.decision now cancellationRequested := by
  obtain ⟨other, stats, latestAttempt, ledger, persisted⟩ := evidence
  cases latestAttempt with
  | none => rfl
  | some attempt =>
    simp only [StepEvidence.decision, StepEvidence.failedAttempt, StepEvidence.latestIs, StepEvidence.runsLive,
      StepEvidence.persistedOpen, h]

/-- A plan whose step failed once. -/
def failedAttemptRow (stepId : String) (attempt : AttemptEvidence) : AttemptRow :=
  ⟨"plan_1", "exec_1", stepId, 1, .failed, attempt.sideEffectClass, attempt.idempotencyKey, "worker_1", 0, 0, 0, 0,
    some 0⟩

def failedAttemptDb (stepId : String) (attempt : AttemptEvidence) : Db :=
  { Db.empty with
    executionAttempts := ⟨[failedAttemptRow stepId attempt], List.pairwise_singleton _ _⟩ }

def checkpointAt (index : Nat) : Checkpoint := ⟨"plan_1", none, index, .running, index - 1, false, 0⟩

theorem decision_failedAttempt {steps : List CheckpointStep} {index : Nat} {step : CheckpointStep}
    (hStep : steps[index]? = some step) (attempt : AttemptEvidence) :
    (currentEvidence ⟨"plan_1", steps⟩ "exec_1" (checkpointAt index) (failedAttemptDb step.id attempt)).decision 0
      false = (decideRecoveryAction (some step) attempt).1.action := by
  have hAt : atIndex steps (checkpointAt index).currentStep = some step := by
    simp [atIndex, checkpointAt, hStep]
  have hAttempts : listExecutionAttempts (failedAttemptDb step.id attempt) "plan_1" =
      [failedAttemptRow step.id attempt] := rfl
  have hPersisted : (getPersistedStepRecoveryState (failedAttemptDb step.id attempt) "exec_1"
      (some step.id)).completed = false := by
    unfold getPersistedStepRecoveryState
    split <;> rfl
  have hLatest : ([failedAttemptRow step.id attempt].filter fun row =>
      row.executionId = "exec_1" && some row.stepId = some step.id) =
        [failedAttemptRow step.id attempt] := by
    simp [failedAttemptRow]
  have hOverdue : (getExecutionAttemptStats [failedAttemptRow step.id attempt] "exec_1").overdue 0 = false := by
    simp [getExecutionAttemptStats, failedAttemptRow, AttemptStats.overdue, maxExecutionDurationMs]
  have hTotal : ¬maxExecutionAttempts ≤
      (getExecutionAttemptStats [failedAttemptRow step.id attempt] "exec_1").totalAttempts := by
    simp [getExecutionAttemptStats, failedAttemptRow, maxExecutionAttempts]
  unfold currentEvidence gatherEvidence StepEvidence.decision
  simp only [hAt, hAttempts, hLatest, hOverdue, hTotal, Bool.false_eq_true, if_false, Option.map_some, hPersisted,
    Bool.false_and, StepEvidence.latestIs, StepEvidence.failedAttempt]
  rfl

/-- The lists lead to the same decisions exactly when their steps do, one by one. -/
theorem decisions_iff (hIds : left.map CheckpointStep.id = right.map CheckpointStep.id) :
    (∀ planId executionId checkpoint db now cancellationRequested,
      (currentEvidence ⟨planId, left⟩ executionId checkpoint db).decision now cancellationRequested =
        (currentEvidence ⟨planId, right⟩ executionId checkpoint db).decision now cancellationRequested) ↔
      ∀ (index : Nat) (step other : CheckpointStep), left[index]? = some step → right[index]? = some other →
        ∀ attempt, (decideRecoveryAction (some step) attempt).1 = (decideRecoveryAction (some other) attempt).1 := by
  have hAction : ∀ {first second : RecoveryDecision}, first.action = second.action → first = second := by
    intro first second h
    cases first <;> cases second <;> first | rfl | cases h
  constructor
  · intro h index step other hStep hOther attempt
    have hSame : step.id = other.id := by
      have hAt : (left.map CheckpointStep.id)[index]? = (right.map CheckpointStep.id)[index]? := by rw [hIds]
      simpa [hStep, hOther] using hAt
    have hDecision := h "plan_1" "exec_1" (checkpointAt index) (failedAttemptDb step.id attempt) 0 false
    rw [decision_failedAttempt hStep, hSame, decision_failedAttempt hOther] at hDecision
    exact hAction hDecision
  · intro h planId executionId checkpoint db now cancellationRequested
    rw [currentEvidence_step hIds]
    refine decision_step _ _ _ _ fun attempt => ?_
    change _ = (decideRecoveryAction (atIndex right checkpoint.currentStep) attempt).1
    have hLength : left.length = right.length := by simpa using congrArg List.length hIds
    unfold atIndex
    split
    · cases hLeft : left[checkpoint.currentStep.toNat]? with
      | none =>
        rw [List.getElem?_eq_none (hLength ▸ List.getElem?_eq_none_iff.mp hLeft)]
      | some step =>
        have hBound := (List.getElem?_eq_some_iff.mp hLeft).choose
        rw [List.getElem?_eq_getElem (hLength ▸ hBound)]
        exact h _ _ _ hLeft (List.getElem?_eq_getElem (hLength ▸ hBound)) attempt
    · rfl

def checkpointDb (index : Nat) : Db :=
  { Db.empty with executionState := PlainTable.put .empty (checkpointAt index) }

theorem recoverExecutionState_at {steps : List CheckpointStep} {index : Nat} {step : CheckpointStep}
    (hStep : steps[index]? = some step) (env : Env) :
    recoverExecutionState ⟨"plan_1", steps⟩ env (checkpointDb index) =
      recoverInterrupted "plan_1" (checkpointAt index) (some step.idempotent) env (checkpointDb index) := by
  have hBound : index < steps.length := (List.getElem?_eq_some_iff.mp hStep).choose
  have hRow : readCheckpointRow (checkpointDb index) "plan_1" = some (checkpointAt index) := rfl
  have hAt : atIndex steps (index : Int) = some step := by simp [atIndex, hStep]
  unfold recoverExecutionState
  rw [if_neg (by simp)]
  simp only [Tx.ask_bind, Tx.get_bind, hRow]
  have hLast : (checkpointAt index).lastCompletedStepIndex = (index : Int) - 1 := rfl
  have hInside : ¬(steps.length : Int) ≤ (checkpointAt index).lastCompletedStepIndex := by omega
  have hUnfinished : ¬((steps.length : Int) = 0 ∨
      (steps.length : Int) ≤ (checkpointAt index).lastCompletedStepIndex + 1) := by omega
  rw [if_neg hInside, if_neg hUnfinished]
  simp only [checkpointAt, hAt, Option.map_some]

/-- The same for `recoverExecutionState`, which only reads the flags. -/
theorem recovers_iff (hIds : left.map CheckpointStep.id = right.map CheckpointStep.id) :
    (∀ planId, recoverExecutionState ⟨planId, left⟩ = recoverExecutionState ⟨planId, right⟩) ↔
      ∀ (index : Nat) (step other : CheckpointStep), left[index]? = some step → right[index]? = some other →
        step.idempotent = other.idempotent := by
  have hLength : left.length = right.length := by simpa using congrArg List.length hIds
  constructor
  · intro h index step other hStep hOther
    have hSame := congrFun (congrFun (h "plan_1") ⟨0, "worker_1"⟩) (checkpointDb index)
    rw [recoverExecutionState_at hStep, recoverExecutionState_at hOther] at hSame
    cases hLeft : step.idempotent <;> cases hRight : other.idempotent <;> rw [hLeft, hRight] at hSame
    all_goals first | rfl | cases hSame
  · intro h planId
    have hFlags : left.map CheckpointStep.idempotent = right.map CheckpointStep.idempotent := by
      refine List.ext_getElem (by simpa using hLength) fun index hi hj => ?_
      simp only [List.getElem_map]
      simp only [List.length_map] at hi hj
      exact h index _ _ (List.getElem?_eq_getElem hi) (List.getElem?_eq_getElem hj)
    unfold recoverExecutionState
    simp only [atIndex_map, hLength, hFlags]

end Agreement

/-- The engine's form of a plan and the plan itself tell recovery the same: the ids, classes and
evidence of idempotency agree in order, and both recoveries decide alike in every state. -/
structure NormalizationsAgree (plan : Plan) (generated : GeneratedIds) : Prop where
  evidence : (engineCheckpointPlan plan generated).normalized.steps.map CheckpointStep.evidence =
    plan.normalized.steps.map CheckpointStep.evidence
  reconciled : ∀ planId executionId checkpoint db now cancellationRequested,
    (currentEvidence ⟨planId, (engineCheckpointPlan plan generated).normalized.steps⟩ executionId checkpoint
        db).decision now cancellationRequested =
      (currentEvidence ⟨planId, plan.normalized.steps⟩ executionId checkpoint db).decision now
        cancellationRequested
  recovered : ∀ planId,
    recoverExecutionState ⟨planId, (engineCheckpointPlan plan generated).normalized.steps⟩ =
      recoverExecutionState ⟨planId, plan.normalized.steps⟩

section Plans

variable {plan : Plan} {generated : GeneratedIds}

theorem engineForm_steps :
    (engineCheckpointPlan plan generated).normalized.steps = plan.engineSteps.mapIdx engineFormStep := by
  change (plan.engineSteps.mapIdx engineCheckpointStep).mapIdx
    (fun index step => normalizeCheckpointStep step index) = _
  rw [List.mapIdx_mapIdx]
  rfl

theorem evidence_iff (plan : Plan) (generated : GeneratedIds) :
    (engineCheckpointPlan plan generated).normalized.steps.map CheckpointStep.evidence =
        plan.normalized.steps.map CheckpointStep.evidence ↔
      plan.engineSteps.length = plan.rawSteps.length ∧
        ∀ (index : Nat) (left right : PlanStep), plan.engineSteps[index]? = some left →
          plan.rawSteps[index]? = some right →
          (engineFormStep index left).evidence = (normalizeCheckpointStep right index).evidence := by
  rw [engineForm_steps]
  simp only [Plan.normalized]
  constructor
  · intro h
    have hLength : plan.engineSteps.length = plan.rawSteps.length := by simpa using congrArg List.length h
    refine ⟨hLength, fun index left right hLeft hRight => ?_⟩
    have hAt := congrArg (fun items => items[index]?) h
    simpa [hLeft, hRight] using hAt
  · rintro ⟨hLength, hSteps⟩
    refine List.ext_getElem (by simpa using hLength) fun index hi hj => ?_
    simp only [List.length_map, List.length_mapIdx] at hi hj
    simp only [List.getElem_map, List.getElem_mapIdx]
    exact hSteps index _ _ (List.getElem?_eq_getElem hi) (List.getElem?_eq_getElem hj)

/-- Its only step reads, but declares that it is destructive. -/
def destructivePlan : Plan where
  planId := some "plan_1"
  runId := none
  id := none
  type := none
  planVersion := none
  version := none
  requiresReview := false
  reviewStatus := some "approved"
  triggerSource := none
  steps := some [{ PlanStep.blank with
    id := some "step_a", action := some "read", sideEffectClass := some "destructive" }]
  stages := none
  self := PlanStep.blank

end Plans

end CommandConsole.Execution
