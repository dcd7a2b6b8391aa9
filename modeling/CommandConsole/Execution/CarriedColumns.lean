import CommandConsole.Execution.AttemptRuns
import CommandConsole.Execution.StepFrame

/-! # Which columns come back

A loaded row is written back through the normalizer. A column comes back when the normalizer looks for it under the
name it was loaded with and its value is one that the normalizer itself would give.
-/
namespace CommandConsole.Execution
open Library
set_option autoImplicit false

section RoundTrip

variable {J : Type}

/-- The row without the columns that an operation on its own step may change. -/
def ownFrame (row : FullRow J) : FullRow J :=
  ({ row.1 with
      status := .pending, createdAt := 0, startedAt := none, finishedAt := none, errorCode := none, errorMessage := none
      errorType := none },
    { row.2 with failedAt := none, lastOutputHash := none })

/-- The columns that are compared: of the step of the operation itself only the frame. -/
def compared (own : Bool) (row : FullRow J) : FullRow J := if own then ownFrame row else row

/-- The columns of a row that come back when its step is written with this pause reason and this error. -/
structure CarriedBack (pause error : Option String) (row : FullRow J) : Prop where
  stageId : row.1.stageId ≠ some ""
  kind : row.1.kind ≠ ""
  dependsOnStepIds : row.1.dependsOnStepIds = []
  pauseReason : row.1.pauseReason = (truthy pause).or (truthy error)
  blockReason : row.1.blockReason ≠ some ""
  parentStepId : row.2.parentStepId ≠ some ""
  originalInput : row.2.originalInput ≠ none
  normalizedInput : row.2.normalizedInput ≠ none ∧ (row.2.normalizedInput = some none → row.2.originalInput.join = none)
  resolvedCommand : row.2.resolvedCommand ≠ some ""
  riskLevel : row.2.riskLevel ≠ none ∧ row.2.riskLevel ≠ some ""
  policyResult : row.2.policyResult ≠ some ""
  rewriteReason : row.2.rewriteReason ≠ some ""
  normalizationNote : row.2.normalizationNote ≠ some ""
  idempotencyClass : row.2.idempotencyClass ∈ idempotencyClasses
  attemptNumber : 0 ≤ row.2.attemptNumber
  attempts : 0 ≤ row.2.attempts
  isIdempotent : row.2.idempotencyClass = "safe_repeat" → row.2.isIdempotent
  reason : row.2.reason = (truthy row.2.reason).or ((truthy pause).or (truthy error))

/-- All columns of a row come back when its step is written as it was loaded. -/
structure SettledColumns (row : FullRow J) : Prop where
  carried : CarriedBack row.1.pauseReason none row
  errorCode : row.1.errorCode = row.1.errorType
  errorMessage : row.1.errorMessage = none
  errorType : row.1.errorType ≠ some ""
  lastOutputHash : row.2.lastOutputHash ≠ some ""

theorem truthy_eq_self {text : Option String} : truthy text = text ↔ text ≠ some "" := by
  cases text with
  | none => simp [truthy]
  | some value => simp [truthy, Option.filter_some]

theorem normalizeIdempotencyClass_eq_self {value : String} :
    normalizeIdempotencyClass (some value) = value ↔ value ∈ idempotencyClasses := by
  constructor
  · intro h
    rw [normalizeIdempotencyClass] at h
    split at h
    · rename_i hClass
      rw [← h]
      exact hClass
    · rw [← h]
      decide
  · intro h
    simp only [idempotencyClasses, List.mem_cons, List.not_mem_nil, or_false] at h
    obtain rfl | rfl | rfl | rfl := h <;> decide +kernel

theorem inferRiskLevel_eq_self {level : Option String} :
    some (inferRiskLevel level none) = level ↔ level ≠ none ∧ level ≠ some "" := by
  cases level with
  | none => simp [inferRiskLevel]
  | some value =>
    by_cases hEmpty : value = ""
    · subst hEmpty
      decide
    · simp [inferRiskLevel, truthy, Option.filter_some, hEmpty]

@[simp] theorem truthy_none : truthy none = none := rfl

theorem truthy_getD_eq_self {text fallback : String} (hFallback : fallback ≠ "") :
    (truthy (some text)).getD fallback = text ↔ text ≠ "" := by
  by_cases hEmpty : text = ""
  · subst hEmpty
    simp [truthy, Option.filter_some, hFallback]
  · simp [truthy, Option.filter_some, hEmpty]

theorem or_truthy_self (text : Option String) : text.or (truthy text) = text := by
  cases text <;> rfl

theorem input_eq_self {input : Option (Option J)} : some (input.getD input.join) = input ↔ input ≠ none := by
  cases input <;> simp

theorem normalizedInput_eq_self {input : Option (Option J)} {original : Option J} :
    some (input.join.or original) = input ↔ input ≠ none ∧ (input = some none → original = none) := by
  obtain _ | _ | value := input <;> simp

/-- The columns of a listing that differs from the loaded row in the status, the times and the reasons only. -/
theorem framed_iff {row : FullRow J} {step : RunStep} {status : String} {startedAt finishedAt updatedAt : Option Int}
    {pause error : Option String} {index : Nat} {nowIso : Int}
    (hStep : step = { row.1.toRunStep with status, startedAt, finishedAt, updatedAt, pauseReason := pause, error })
    (hStatus : status ≠ "deferred") (hId : row.1.id ≠ "") :
    ownFrame (mergeColumns (normalizeColumns row.1.executionId ⟨step, row.2.toRunStepExtras⟩ index nowIso) (some row)) =
      ownFrame row ↔ CarriedBack pause error row := by
  subst hStep
  obtain ⟨stored, extras⟩ := row
  have hKept : (truthy (some stored.id)).getD (toString "step_" ++ (index + 1).repr) = stored.id := by
    rw [truthy_eq_self.mpr (by simpa using hId), Option.getD_some]
  simp only [ownFrame, mergeColumns, mergeStepRow, Option.map_some, normalizeColumns, normalizeStepRow,
    StepRow.toRunStep, Nat.toString_eq_repr, hKept, Option.getD_some, truthy_none, Option.orElse_eq_orElse,
    Option.orElse_eq_or, Option.or_self, Option.or_none, Option.getD_none, hStatus, decide_false, Bool.or_false,
    normalizeStepExtras, StepExtras.toRunStepExtras, Option.map_none, Option.or_some, mergeStepExtras, or_truthy_self,
    Prod.mk.injEq, StepRow.mk.injEq, truthy_eq_self, ne_eq, String.reduceEq, not_false_eq_true, truthy_getD_eq_self,
    List.nil_eq, and_self, and_true, true_and, StepExtras.mk.injEq, input_eq_self, normalizedInput_eq_self,
    inferRiskLevel_eq_self, normalizeIdempotencyClass_eq_self, sup_eq_right, Bool.or_eq_left_iff_imp]
  constructor
  · rintro ⟨⟨hStage, hKind, hDepends, hPause, hBlock⟩, hParent, hOriginal, hNormalized, hCommand, hRisk, hPolicy, hRewrite,
      hNote, hClass, hNumber, hAttempts, hIdempotent, hReason⟩
    have hSame := normalizeIdempotencyClass_eq_self.mpr hClass
    exact ⟨hStage, hKind, hDepends, hPause.symm, hBlock, hParent, hOriginal, hNormalized, hCommand, hRisk, hPolicy,
      hRewrite, hNote, hClass, hNumber, hAttempts, fun hSafe => hIdempotent (decide_eq_true (hSame.trans hSafe)),
      hReason.symm⟩
  · intro h
    have hSame := normalizeIdempotencyClass_eq_self.mpr h.idempotencyClass
    exact ⟨⟨h.stageId, h.kind, h.dependsOnStepIds, h.pauseReason.symm, h.blockReason⟩, h.parentStepId, h.originalInput,
      h.normalizedInput, h.resolvedCommand, h.riskLevel, h.policyResult, h.rewriteReason, h.normalizationNote,
      h.idempotencyClass, h.attemptNumber, h.attempts,
      fun hSafe => h.isIdempotent (hSame.symm.trans (of_decide_eq_true hSafe)), h.reason.symm⟩

theorem eq_iff_ownFrame {left right : FullRow J} :
    left = right ↔ ownFrame left = ownFrame right ∧
      (left.1.status = right.1.status ∧ left.1.createdAt = right.1.createdAt ∧ left.1.startedAt = right.1.startedAt ∧
        left.1.finishedAt = right.1.finishedAt ∧ left.1.errorCode = right.1.errorCode ∧
        left.1.errorMessage = right.1.errorMessage ∧ left.1.errorType = right.1.errorType) ∧
      left.2.failedAt = right.2.failedAt ∧ left.2.lastOutputHash = right.2.lastOutputHash := by
  constructor
  · rintro rfl
    exact ⟨rfl, ⟨rfl, rfl, rfl, rfl, rfl, rfl, rfl⟩, rfl, rfl⟩
  · rintro ⟨hFrame, ⟨hStatus, hCreated, hStarted, hFinished, hCode, hMessage, hType⟩, hFailed, hHash⟩
    calc
      left = ({ (ownFrame left).1 with
            status := left.1.status, createdAt := left.1.createdAt, startedAt := left.1.startedAt
            finishedAt := left.1.finishedAt, errorCode := left.1.errorCode, errorMessage := left.1.errorMessage
            errorType := left.1.errorType },
          { (ownFrame left).2 with failedAt := left.2.failedAt, lastOutputHash := left.2.lastOutputHash }) := rfl
      _ = right := by
        rw [hFrame, hStatus, hCreated, hStarted, hFinished, hCode, hMessage, hType, hFailed, hHash]
        rfl

/-- A listing that is the loaded row itself. -/
theorem settled_iff {row : FullRow J} {index : Nat} {nowIso : Int} (hId : row.1.id ≠ "")
    (hStatus : normalizeStepStatus row.1.status.text = row.1.status) :
    mergeColumns (normalizeColumns row.1.executionId ⟨row.1.toRunStep, row.2.toRunStepExtras⟩ index nowIso) (some row) =
      row ↔ SettledColumns row := by
  have hOpen : row.1.status.text ≠ "deferred" := by
    cases row.1.status <;> decide
  have hStep : row.1.toRunStep = { row.1.toRunStep with
      status := row.1.status.text, startedAt := row.1.startedAt, finishedAt := row.1.finishedAt, updatedAt := none
      pauseReason := row.1.pauseReason, error := none } := rfl
  rw [eq_iff_ownFrame, framed_iff hStep hOpen hId]
  have hStarted : (row.1.startedAt <|> row.1.startedAt) = row.1.startedAt := by
    cases row.1.startedAt <;> rfl
  constructor
  · rintro ⟨hCarried, ⟨-, -, -, -, hCode, hMessage, hType⟩, -, hHash⟩
    exact ⟨hCarried, hCode.symm.trans hType, hMessage.symm, truthy_eq_self.mp hType, truthy_eq_self.mp hHash⟩
  · intro h
    have hType := truthy_eq_self.mpr h.errorType
    exact ⟨h.carried, ⟨hStatus, rfl, hStarted, rfl, hType.trans h.errorCode.symm, h.errorMessage.symm, hType⟩, rfl,
      truthy_eq_self.mpr h.lastOutputHash⟩

end RoundTrip

section Listings

variable {J : Type} {call : AttemptOpCall J} {full : FullDb J}

/-- The pause reason that the step of the operation is written with. -/
def AttemptOp.pauseReason (op : AttemptOp J) (stored : Option String) : Option String :=
  match op with
  | .pause _ _ reason _ _ _ => some reason
  | _ => stored

/-- The error that the step of the operation is written with. -/
def AttemptOp.error (op : AttemptOp J) : Option String :=
  match op with
  | .fail _ _ => some "attempt_failed"
  | _ => none

theorem change_eq (call : AttemptOpCall J) (row : StepRow) :
    ∃ status startedAt finishedAt updatedAt, status ≠ "deferred" ∧ call.change row.toRunStep =
      { row.toRunStep with
        status, startedAt, finishedAt, updatedAt, pauseReason := call.op.pauseReason row.pauseReason
        error := call.op.error } := by
  rw [AttemptOpCall.change]
  cases call.op <;> exact ⟨_, _, _, _, by decide, rfl⟩

theorem writtenColumns_unlisted {listings : List (FullRow J)} {key : String × String}
    (h : ∀ listing ∈ listings, listing.1.key ≠ key) (stored : Option (FullRow J)) :
    writtenColumns listings key stored = stored := by
  induction listings with
  | nil => rfl
  | cons listing listings ih =>
    rw [writtenColumns, List.foldl_cons, if_neg (h listing List.mem_cons_self)]
    exact ih fun other hOther => h other (List.mem_cons_of_mem _ hOther)

/-- A row that is listed once is merged once. -/
theorem writtenColumns_once {listings : List (FullRow J)} {listing : FullRow J}
    (hOnce : (listings.map fun listing => listing.1.key).Nodup) (hListed : listing ∈ listings)
    (stored : Option (FullRow J)) :
    writtenColumns listings listing.1.key stored = some (mergeColumns listing stored) := by
  induction listings with
  | nil => cases hListed
  | cons first listings ih =>
    rw [List.map_cons, List.nodup_cons] at hOnce
    rw [writtenColumns, List.foldl_cons]
    rcases List.mem_cons.mp hListed with rfl | hListed
    · rw [if_pos rfl]
      exact writtenColumns_unlisted (fun other hOther hSame =>
        hOnce.1 (List.mem_map.mpr ⟨other, hOther, hSame⟩)) _
    · rw [if_neg fun hSame => hOnce.1 (List.mem_map.mpr ⟨listing, hListed, hSame.symm⟩)]
      exact ih hOnce.2 hListed

/-- A step as it is listed after the load. -/
def AttemptOpCall.relisted (call : AttemptOpCall J) (full : FullDb J) (row : StepRow) : FullStep J :=
  ⟨if row.id = call.stepId then call.change row.toRunStep else row.toRunStep, (full.extras row.key).toRunStepExtras⟩

theorem target_of_loaded (hSnapshot : call.snapshot = none) : call.target = call.executionId := by
  rw [AttemptOpCall.target, hSnapshot]
  rfl

theorem listings_of_loaded (hSnapshot : call.snapshot = none) :
    call.listings full = (loadExecutionState full.db call.executionId).steps.mapIdx fun index row =>
      normalizeColumns call.executionId (call.relisted full row) index call.env.nowMs := by
  have hSteps : call.writtenSteps full =
      (loadExecutionState full.db call.executionId).steps.map (call.relisted full) := by
    rw [AttemptOpCall.writtenSteps, hSnapshot]
    dsimp only
    rw [FullDb.loadedSteps, List.map_map]
    refine List.map_congr_left fun row _ => ?_
    rw [Function.comp_apply, AttemptOpCall.relisted]
    change (if row.id = call.stepId then _ else _) = _
    split <;> rfl
  refine List.ext_getElem (by simp [AttemptOpCall.listings, hSteps]) fun index h h' => ?_
  simp only [AttemptOpCall.listings, hSteps, target_of_loaded hSnapshot, List.getElem_map, List.getElem_mapIdx]

theorem relisted_id (call : AttemptOpCall J) (full : FullDb J) (row : StepRow) :
    (call.relisted full row).step.id = row.id := by
  rw [AttemptOpCall.relisted]
  dsimp only
  split
  · obtain ⟨status, startedAt, finishedAt, updatedAt, -, hChange⟩ := change_eq call row
    rw [hChange]
    rfl
  · rfl

theorem normalized_id_ne (executionId : String) (step : RunStep) (index : Nat) (nowIso : Int) :
    (normalizeStepRow executionId step index nowIso).id ≠ "" := by
  change (truthy (some step.id)).getD s!"step_{index + 1}" ≠ ""
  cases hId : truthy (some step.id) with
  | some id =>
    rw [truthy, Option.filter_eq_some_iff] at hId
    simpa using hId.2
  | none =>
    intro hEmpty
    have hText := congrArg String.toList hEmpty
    simp at hText

theorem listed_key {row : StepRow} {index : Nat} (hId : row.id ≠ "") :
    (normalizeColumns call.executionId (call.relisted full row) index call.env.nowMs).1.key = (call.executionId, row.id) := by
  change (call.executionId, (truthy (some (call.relisted full row).step.id)).getD _) = _
  rw [relisted_id, truthy_eq_self.mpr (by simpa using hId), Option.getD_some]

theorem mem_stepsOf {db : Db} {executionId : String} {row : StepRow} :
    row ∈ stepsOf db executionId ↔ row.executionId = executionId ∧ db.executionSteps.find? row.key = some row := by
  rw [stepsOf, (List.perm_insertionSort _ _).mem_iff, List.mem_filter, decide_eq_true_iff, Table.find?_eq_some]
  exact ⟨fun h => ⟨h.2, h.1, rfl⟩, fun h => ⟨h.2.1, h.1⟩⟩

theorem stepsOf_keys_nodup (db : Db) (executionId : String) : ((stepsOf db executionId).map StepRow.key).Nodup := by
  rw [stepsOf, ((List.perm_insertionSort _ _).map _).nodup_iff, List.Nodup, List.pairwise_map]
  exact (db.executionSteps.unique.filter _).imp fun h => h.1

theorem loaded_stepsOf {db : Db} {executionId : String} (h : (loadExecutionState db executionId).execution.isSome) :
    (loadExecutionState db executionId).steps = stepsOf db executionId := by
  rw [loadExecutionState] at h ⊢
  cases hRow : db.executions.find? executionId with
  | none =>
    rw [hRow] at h
    cases h
  | some row => rfl

theorem listed_key_of_stored {row : StepRow} {index : Nat} (hRow : row ∈ stepsOf full.db call.executionId)
    (hId : row.id ≠ "") :
    (normalizeColumns call.executionId (call.relisted full row) index call.env.nowMs).1.key = row.key :=
  (listed_key hId).trans (Prod.ext (mem_stepsOf.mp hRow).1.symm rfl)

/-- A loaded row is written once, under its own key, when all loaded rows have ids. -/
theorem replaced_of_loaded (hSnapshot : call.snapshot = none)
    (hPresent : (loadExecutionState full.db call.executionId).execution.isSome)
    (hIds : ∀ row ∈ stepsOf full.db call.executionId, row.id ≠ "") {row : StepRow}
    (hRow : row ∈ stepsOf full.db call.executionId) :
    ∃ index, normalizeColumns call.executionId (call.relisted full row) index call.env.nowMs ∈ call.listings full ∧
      replacedColumns call.target (call.listings full) full.row? row.key =
        some (mergeColumns (normalizeColumns call.executionId (call.relisted full row) index call.env.nowMs)
          (some (row, full.extras row.key))) := by
  have hListings := @listings_of_loaded J call full hSnapshot
  rw [loaded_stepsOf hPresent] at hListings
  obtain ⟨index, hIndex, hAt⟩ := List.getElem_of_mem hRow
  have hMem : normalizeColumns call.executionId (call.relisted full row) index call.env.nowMs ∈ call.listings full := by
    rw [hListings, List.mem_mapIdx]
    exact ⟨index, hIndex, by rw [hAt]⟩
  obtain ⟨hExecution, hStored⟩ := mem_stepsOf.mp hRow
  have hOwn : row.key.1 = call.executionId := hExecution
  have hKey := @listed_key_of_stored J call full row index hRow (hIds row hRow)
  have hOnce : ((call.listings full).map fun listing => listing.1.key).Nodup := by
    have hKeys : (call.listings full).map (fun listing => listing.1.key) =
        (stepsOf full.db call.executionId).map StepRow.key := by
      rw [hListings]
      refine List.ext_getElem (by simp) fun at_ h h' => ?_
      simp only [List.getElem_map, List.getElem_mapIdx]
      have hOther := List.getElem_mem (List.length_map StepRow.key ▸ h')
      exact listed_key_of_stored hOther (hIds _ hOther)
    rw [hKeys]
    exact stepsOf_keys_nodup _ _
  refine ⟨index, hMem, ?_⟩
  rw [replacedColumns, target_of_loaded hSnapshot, if_pos hOwn,
    if_pos (List.any_eq_true.mpr ⟨_, hMem, decide_eq_true hKey⟩), ← hKey, writtenColumns_once hOnce hMem, hKey,
    FullDb.row?, hStored]
  rfl

/-- A row without an id is not listed, so it is deleted. -/
theorem replaced_of_blank {row : StepRow} (hExecution : row.executionId = call.target) (hId : row.id = "") :
    replacedColumns call.target (call.listings full) full.row? row.key = none := by
  have hOwn : row.key.1 = call.target := hExecution
  rw [replacedColumns, if_pos hOwn, if_neg]
  rw [Bool.not_eq_true, List.any_eq_false]
  intro listing hListing hKey
  obtain ⟨index, hIndex, rfl⟩ := List.mem_mapIdx.mp hListing
  have hBlank := congrArg Prod.snd (of_decide_eq_true hKey)
  exact normalized_id_ne call.target _ index call.env.nowMs (hBlank.trans hId)

end Listings

section Restated

variable {J : Type}

/-- The columns that an upsert takes from its listing alone. -/
def overwritten (row : FullRow J) : FullRow J :=
  ({ row.1 with createdAt := 0, startedAt := none },
    { row.2 with originalText := none, originalInput := none, idempotencyKey := none })

/-- What the listings of a row, in their order, say when nothing of the row is to change; of the step of the operation
itself only the frame. -/
structure Restates (own : Bool) (listed : List (FullRow J)) (row : FullRow J) : Prop where
  last : ∃ listing, listed.getLast? = some listing ∧ compared own (overwritten listing) = compared own (overwritten row)
  startedAt : own ∨ ∀ started, (listed.reverse.findSome? fun listing => listing.1.startedAt) = some started →
    row.1.startedAt = some started
  originalText : row.2.originalText = none → ∀ listing ∈ listed, listing.2.originalText = none
  originalInput : row.2.originalInput = none → ∀ listing ∈ listed, listing.2.originalInput = none
  idempotencyKey : row.2.idempotencyKey = none → ∀ listing ∈ listed, listing.2.idempotencyKey = none

/-- The row that the listings leave. -/
def rewritten (listed : List (FullRow J)) (row : FullRow J) : FullRow J :=
  listed.foldl (fun row listing => mergeColumns listing (some row)) row

theorem writtenColumns_stored (listings : List (FullRow J)) (key : String × String) (row : FullRow J) :
    writtenColumns listings key (some row) =
      some (rewritten (listings.filter fun listing => listing.1.key = key) row) := by
  induction listings generalizing row with
  | nil => rfl
  | cons listing listings ih =>
    rw [writtenColumns, List.foldl_cons]
    by_cases hKey : listing.1.key = key
    · rw [if_pos hKey, List.filter_cons_of_pos (by simpa using hKey)]
      exact ih _
    · rw [if_neg hKey, List.filter_cons_of_neg (by simpa using hKey)]
      exact ih _

theorem rewritten_overwritten (listed : List (FullRow J)) (row : FullRow J) :
    overwritten (rewritten listed row) = overwritten (listed.getLast?.getD row) := by
  induction listed generalizing row with
  | nil => rfl
  | cons listing listed ih =>
    rw [rewritten, List.foldl_cons]
    refine (ih _).trans ?_
    cases listed with
    | nil => rfl
    | cons next listed => rfl

theorem rewritten_createdAt (listed : List (FullRow J)) (row : FullRow J) :
    (rewritten listed row).1.createdAt = row.1.createdAt := by
  induction listed generalizing row with
  | nil => rfl
  | cons listing listed ih => exact ih _

theorem rewritten_startedAt (listed : List (FullRow J)) (row : FullRow J) :
    (rewritten listed row).1.startedAt =
      (listed.reverse.findSome? fun listing => listing.1.startedAt).or row.1.startedAt := by
  induction listed generalizing row with
  | nil => rfl
  | cons listing listed ih =>
    refine (ih _).trans ?_
    rw [List.reverse_cons, List.findSome?_append, Option.or_assoc]
    congr 1
    change (listing.1.startedAt <|> row.1.startedAt) = _
    cases hStarted : listing.1.startedAt <;> simp [hStarted]

/-- A column that the stored row has goes before what the listings say. -/
theorem rewritten_kept {α : Type} (column : StepExtras J → Option α)
    (hMerge : ∀ new old, column (mergeStepExtras new (some old)) = (column old).or (column new))
    (listed : List (FullRow J)) (row : FullRow J) :
    column (rewritten listed row).2 = (column row.2).or (listed.findSome? fun listing => column listing.2) := by
  induction listed generalizing row with
  | nil => exact (Option.or_none).symm
  | cons listing listed ih =>
    refine (ih _).trans ?_
    change (column (mergeStepExtras listing.2 (some row.2))).or _ = _
    rw [hMerge, Option.or_assoc, List.findSome?_cons]
    cases column listing.2 <;> rfl

theorem or_findSome?_eq_self {α β : Type} {first : Option α} {column : β → Option α} {listed : List β} :
    first.or (listed.findSome? column) = first ↔ (first = none → ∀ listing ∈ listed, column listing = none) := by
  cases first with
  | none => simp [List.findSome?_eq_none_iff]
  | some value => simp

theorem eq_iff_overwritten {left right : FullRow J} :
    left = right ↔ overwritten left = overwritten right ∧
      (left.1.createdAt = right.1.createdAt ∧ left.1.startedAt = right.1.startedAt) ∧
      left.2.originalText = right.2.originalText ∧ left.2.originalInput = right.2.originalInput ∧
      left.2.idempotencyKey = right.2.idempotencyKey := by
  constructor
  · rintro rfl
    exact ⟨rfl, ⟨rfl, rfl⟩, rfl, rfl, rfl⟩
  · rintro ⟨hRest, ⟨hCreated, hStarted⟩, hText, hInput, hKey⟩
    calc
      left = ({ (overwritten left).1 with createdAt := left.1.createdAt, startedAt := left.1.startedAt },
          { (overwritten left).2 with
            originalText := left.2.originalText, originalInput := left.2.originalInput
            idempotencyKey := left.2.idempotencyKey }) := rfl
      _ = right := by
        rw [hRest, hCreated, hStarted, hText, hInput, hKey]
        rfl

theorem ownFrame_eq_iff {left right : FullRow J} :
    ownFrame left = ownFrame right ↔ ownFrame (overwritten left) = ownFrame (overwritten right) ∧
      left.2.originalText = right.2.originalText ∧ left.2.originalInput = right.2.originalInput ∧
      left.2.idempotencyKey = right.2.idempotencyKey := by
  have hParts (row : FullRow J) : ownFrame row =
      ((ownFrame (overwritten row)).1, { (ownFrame (overwritten row)).2 with
        originalText := row.2.originalText, originalInput := row.2.originalInput
        idempotencyKey := row.2.idempotencyKey }) := rfl
  constructor
  · intro h
    have hFrame : ownFrame (overwritten left) = ownFrame (overwritten right) := by
      change overwritten (ownFrame left) = overwritten (ownFrame right)
      rw [h]
    exact ⟨hFrame, congrArg (fun row => row.2.originalText) h, congrArg (fun row => row.2.originalInput) h,
      congrArg (fun row => row.2.idempotencyKey) h⟩
  · rintro ⟨hFrame, hText, hInput, hKey⟩
    rw [hParts left, hParts right, hFrame, hText, hInput, hKey]

/-- The columns that the stored row keeps. -/
theorem rewritten_kept_iff (listed : List (FullRow J)) (row : FullRow J) :
    ((rewritten listed row).2.originalText = row.2.originalText ∧
      (rewritten listed row).2.originalInput = row.2.originalInput ∧
      (rewritten listed row).2.idempotencyKey = row.2.idempotencyKey) ↔
      (row.2.originalText = none → ∀ listing ∈ listed, listing.2.originalText = none) ∧
      (row.2.originalInput = none → ∀ listing ∈ listed, listing.2.originalInput = none) ∧
      (row.2.idempotencyKey = none → ∀ listing ∈ listed, listing.2.idempotencyKey = none) := by
  rw [rewritten_kept StepExtras.originalText (fun new old => Option.orElse_eq_or ..),
    rewritten_kept StepExtras.originalInput (fun new old => Option.orElse_eq_or ..),
    rewritten_kept StepExtras.idempotencyKey (fun new old => Option.orElse_eq_or ..),
    or_findSome?_eq_self, or_findSome?_eq_self, or_findSome?_eq_self]

theorem startedAt_kept_iff (listed : List (FullRow J)) (row : FullRow J) :
    (rewritten listed row).1.startedAt = row.1.startedAt ↔
      ∀ started, (listed.reverse.findSome? fun listing => listing.1.startedAt) = some started →
        row.1.startedAt = some started := by
  rw [rewritten_startedAt]
  cases listed.reverse.findSome? fun listing => listing.1.startedAt with
  | none => simp
  | some started => simp [eq_comm]

theorem restates_iff (own : Bool) (listed : List (FullRow J)) (row : FullRow J) :
    Restates own listed row ↔ listed ≠ [] ∧ compared own (rewritten listed row) = compared own row := by
  have hKept := rewritten_kept_iff listed row
  have hStarted := startedAt_kept_iff listed row
  have hRest := rewritten_overwritten listed row
  constructor
  · intro h
    obtain ⟨listing, hLast, hSame⟩ := h.last
    rw [hLast, Option.getD_some] at hRest
    have hColumns := hKept.mpr ⟨h.originalText, h.originalInput, h.idempotencyKey⟩
    refine ⟨List.ne_nil_of_mem (List.mem_of_getLast? hLast), ?_⟩
    cases own with
    | true => exact ownFrame_eq_iff.mpr ⟨(congrArg ownFrame hRest).trans hSame, hColumns⟩
    | false =>
      refine eq_iff_overwritten.mpr ⟨hRest.trans hSame, ⟨rewritten_createdAt listed row, ?_⟩, hColumns⟩
      exact hStarted.mpr (h.startedAt.resolve_left Bool.false_ne_true)
  · rintro ⟨hSome, hSame⟩
    have hLast := List.getLast?_eq_some_getLast hSome
    rw [hLast, Option.getD_some] at hRest
    cases own with
    | true =>
      obtain ⟨hFrame, hColumns⟩ := ownFrame_eq_iff.mp hSame
      obtain ⟨hText, hInput, hKey⟩ := hKept.mp hColumns
      exact ⟨⟨_, hLast, (congrArg ownFrame hRest).symm.trans hFrame⟩, .inl rfl, hText, hInput, hKey⟩
    | false =>
      obtain ⟨hRow, ⟨-, hAt⟩, hColumns⟩ := eq_iff_overwritten.mp hSame
      obtain ⟨hText, hInput, hKey⟩ := hKept.mp hColumns
      exact ⟨⟨_, hLast, hRest.symm.trans hRow⟩, .inr (hStarted.mp hAt), hText, hInput, hKey⟩

end Restated

section Calls

variable {J : Type} {call : AttemptOpCall J} {full : FullDb J}

theorem replacedColumns_fst (executionId : String) (listings : List (FullRow J))
    (stored : String × String → Option (FullRow J)) (key : String × String) :
    (replacedColumns executionId listings stored key).map Prod.fst =
      if key.1 = executionId then
        if (listings.map Prod.fst).any fun row => row.key = key then
          writtenRow (listings.map Prod.fst) key ((stored key).map Prod.fst)
        else none
      else (stored key).map Prod.fst := by
  have hAny : (listings.map Prod.fst).any (fun row => row.key = key) = listings.any fun listing => listing.1.key = key := by
    rw [List.any_map]
    rfl
  rw [replacedColumns, hAny]
  split
  · split
    · exact writtenColumns_fst listings key (stored key)
    · rfl
  · rfl

theorem row?_fst (full : FullDb J) (key : String × String) :
    (full.row? key).map Prod.fst = full.db.executionSteps.find? key := by
  rw [FullDb.row?]
  cases full.db.executionSteps.find? key <;> rfl

theorem transact_eq_ok {α : Type} {work : Tx (Result α)} {env : Env} {db db' : Db} {data : α}
    (h : transact work env db = (.ok data, db')) : work env db = .ok (.ok data, db') := by
  cases hRun : work env db with
  | error err =>
    rw [transact_of_throw hRun] at h
    cases h
  | ok result =>
    obtain ⟨result, next⟩ := result
    rw [transact_of_ok hRun] at h
    cases h
    rfl

theorem wrote_of_work {db' : Db} {u : Unit} (h : call.work call.env full.db = .ok (.ok u, db')) : call.Wrote full db' := by
  rw [AttemptOpCall.work] at h
  cases hOp : call.op with
  | begin stepIndex sideEffectClass =>
    rw [hOp] at h
    obtain ⟨data, hRun⟩ := withoutData_eq_ok.mp h
    exact begin_wrote hOp hRun
  | complete stepIndex totalSteps attemptNumber =>
    rw [hOp] at h
    obtain ⟨data, hRun⟩ := withoutData_eq_ok.mp h
    refine finalize_wrote (by rw [AttemptOpCall.snapshot, hOp]) ?_ hRun
    funext step
    rw [AttemptOpCall.change, hOp]
    rfl
  | fail stepIndex attemptNumber =>
    rw [hOp] at h
    obtain ⟨data, hRun⟩ := withoutData_eq_ok.mp h
    refine finalize_wrote (by rw [AttemptOpCall.snapshot, hOp]) ?_ hRun
    funext step
    rw [AttemptOpCall.change, hOp]
    rfl
  | pause stepIndex attemptNumber reason stageId runSnapshot reviewExecutionId =>
    rw [hOp] at h
    obtain ⟨data, hRun⟩ := withoutData_eq_ok.mp h
    exact pause_wrote hOp hRun

/-- A call that succeeds replaces the rows of its target. -/
theorem outcome_ok {u : Unit} (h : (call.outcome full).1 = .ok u) :
    call.Wrote full (call.outcome full).2.db ∧
      ∀ key, (call.outcome full).2.row? key = replacedColumns call.target (call.listings full) full.row? key := by
  rw [AttemptOpCall.outcome] at h ⊢
  cases hRun : transact call.work call.env full.db with
  | mk result db' =>
    cases result with
    | error err =>
      rw [hRun] at h
      cases h
    | ok data =>
      have hWrote : call.Wrote full db' := wrote_of_work (transact_eq_ok hRun)
      refine ⟨hWrote, fun key => ?_⟩
      have hRow : db'.executionSteps.find? key =
          (replacedColumns call.target (call.listings full) full.row? key).map Prod.fst := by
        rw [hWrote.rows.written key, replacedColumns_fst, row?_fst]
      dsimp only
      rw [FullDb.row?, hRow]
      dsimp only
      cases replacedColumns call.target (call.listings full) full.row? key <;> rfl

theorem row?_eq_some {row : FullRow J} :
    full.row? row.1.key = some row ↔
      full.db.executionSteps.find? row.1.key = some row.1 ∧ row.2 = full.extras row.1.key := by
  rw [FullDb.row?]
  cases full.db.executionSteps.find? row.1.key with
  | none => simp
  | some stored =>
    obtain ⟨step, extras⟩ := row
    simp only [Option.map_some, Option.some.injEq, Prod.mk.injEq]
    exact and_congr_right fun _ => eq_comm

/-- The stored status of a step that is written as it was loaded is one that the normalizer gives. -/
theorem normalizeStepStatus_of_allowed {status : Status}
    (h : normalizeStepStatus status.text ∈ allowedStatusTransitions status) : normalizeStepStatus status.text = status := by
  rw [normalizeStepStatus_text] at h ⊢
  cases status <;> first | rfl | exact absurd h (by decide)

/-- The row is the one of the step of the operation. -/
def AttemptOpCall.isOwn (call : AttemptOpCall J) (key : String × String) : Bool := key = (call.executionId, call.stepId)

/-- The columns of the other rows are as before, and those in the frame of the row of the step. -/
def AttemptOpCall.TouchesItsStep (call : AttemptOpCall J) (before after : FullDb J) : Prop :=
  ∀ row : FullRow J, before.row? row.1.key = some row →
    (after.row? row.1.key).map (compared (call.isOwn row.1.key)) = some (compared (call.isOwn row.1.key) row)

/-- What is written of a row comes back: a loaded row has columns that the normalizer gives, and a given run says of
the rows of its execution what they say. -/
def AttemptOpCall.ComesBack (call : AttemptOpCall J) (full : FullDb J) (row : FullRow J) : Prop :=
  match call.snapshot with
  | none => row.1.id ≠ "" ∧
      if call.isOwn row.1.key then CarriedBack (call.op.pauseReason row.1.pauseReason) call.op.error row else SettledColumns row
  | some _ => Restates (call.isOwn row.1.key) ((call.listings full).filter fun listing => listing.1.key = row.1.key) row

theorem loaded_row_iff {db' : Db} (hWrote : call.Wrote full db') (hSnapshot : call.snapshot = none)
    (hIds : ∀ row ∈ stepsOf full.db call.executionId, row.id ≠ "") {row : FullRow J}
    (hRow : full.row? row.1.key = some row) (hOwn : row.1.executionId = call.executionId) :
    (replacedColumns call.target (call.listings full) full.row? row.1.key).map (compared (call.isOwn row.1.key)) =
        some (compared (call.isOwn row.1.key) row) ↔
      if call.isOwn row.1.key then CarriedBack (call.op.pauseReason row.1.pauseReason) call.op.error row else SettledColumns row := by
  obtain ⟨hStored, hExtras⟩ := row?_eq_some.mp hRow
  have hMem : row.1 ∈ stepsOf full.db call.executionId := mem_stepsOf.mpr ⟨hOwn, hStored⟩
  obtain ⟨index, hListed, hReplaced⟩ := replaced_of_loaded hSnapshot hWrote.present hIds hMem
  rw [hReplaced, Option.map_some, Option.some.injEq, ← hExtras, ← hOwn]
  have hIsOwn : call.isOwn row.1.key = decide (row.1.id = call.stepId) := by
    rw [AttemptOpCall.isOwn, StepRow.key, hOwn]
    simp
  rw [hIsOwn]
  by_cases hId : row.1.id = call.stepId
  · have hStep : call.relisted full row.1 = ⟨call.change row.1.toRunStep, row.2.toRunStepExtras⟩ := by
      rw [AttemptOpCall.relisted, if_pos hId, hExtras]
    obtain ⟨status, startedAt, finishedAt, updatedAt, hOpen, hChange⟩ := change_eq call row.1
    rw [decide_eq_true hId, if_pos rfl, hStep]
    exact framed_iff hChange hOpen (hIds row.1 hMem)
  · have hStep : call.relisted full row.1 = ⟨row.1.toRunStep, row.2.toRunStepExtras⟩ := by
      rw [AttemptOpCall.relisted, if_neg hId, hExtras]
    have hAllowed := hWrote.rows.allowed _ (List.mem_map_of_mem hListed) row.1.status (by
      rw [listed_key_of_stored hMem (hIds row.1 hMem), Db.stepStatus, hStored]
      rfl)
    rw [hStep] at hAllowed
    rw [decide_eq_false hId, if_neg Bool.false_ne_true, hStep]
    exact settled_iff (hIds row.1 hMem) (normalizeStepStatus_of_allowed hAllowed)

theorem given_row_iff {given : FullRun J} (hSnapshot : call.snapshot = some given) {row : FullRow J}
    (hRow : full.row? row.1.key = some row) (hTarget : row.1.executionId = call.target) :
    (replacedColumns call.target (call.listings full) full.row? row.1.key).map (compared (call.isOwn row.1.key)) =
        some (compared (call.isOwn row.1.key) row) ↔ call.ComesBack full row := by
  have hOwn : row.1.key.1 = call.target := hTarget
  rw [AttemptOpCall.ComesBack, hSnapshot]
  dsimp only
  rw [restates_iff, replacedColumns, if_pos hOwn, hRow, writtenColumns_stored, ne_eq, List.filter_eq_nil_iff]
  by_cases hListed : ((call.listings full).any fun listing => listing.1.key = row.1.key) = true
  · rw [if_pos hListed, Option.map_some, Option.some.injEq]
    obtain ⟨listing, hMem, hKey⟩ := List.any_eq_true.mp hListed
    exact ⟨fun h => ⟨fun hNone => hNone listing hMem hKey, h⟩, fun h => h.2⟩
  · rw [if_neg hListed]
    refine ⟨nofun, fun h => absurd (fun listing hMem hKey => ?_) h.1⟩
    exact hListed (List.any_eq_true.mpr ⟨listing, hMem, hKey⟩)

theorem attempt_operation_touches_its_step_iff {u : Unit} (h : (call.outcome full).1 = .ok u) :
    call.TouchesItsStep full (call.outcome full).2 ↔
      ∀ row : FullRow J, full.row? row.1.key = some row → row.1.executionId = call.target → call.ComesBack full row := by
  obtain ⟨hWrote, hAfter⟩ := outcome_ok h
  rw [AttemptOpCall.TouchesItsStep]
  simp only [hAfter]
  cases hSnapshot : call.snapshot with
  | some given =>
    refine forall_congr' fun row => forall_congr' fun hRow => ?_
    by_cases hTarget : row.1.executionId = call.target
    · rw [given_row_iff hSnapshot hRow hTarget]
      exact ⟨fun h _ => h, fun h => h hTarget⟩
    · have hOther : row.1.key.1 ≠ call.target := hTarget
      rw [replacedColumns, if_neg hOther, hRow]
      exact ⟨fun _ hOwn => absurd hOwn hTarget, fun _ => rfl⟩
  | none =>
    have hTarget : call.target = call.executionId := target_of_loaded hSnapshot
    have hStored {row : StepRow} (hRow : row ∈ stepsOf full.db call.executionId) :
        full.row? row.key = some (row, full.extras row.key) :=
      (@row?_eq_some J full (row, full.extras row.key)).mpr ⟨(mem_stepsOf.mp hRow).2, rfl⟩
    constructor
    · intro hKept row hRow hOwn
      have hIds : ∀ row ∈ stepsOf full.db call.executionId, row.id ≠ "" := by
        intro row hRow hId
        have hGone := hKept (row, full.extras row.key) (hStored hRow)
        rw [replaced_of_blank ((mem_stepsOf.mp hRow).1.trans hTarget.symm) hId] at hGone
        cases hGone
      have hHere := hOwn.trans hTarget
      rw [AttemptOpCall.ComesBack, hSnapshot]
      exact ⟨hIds row.1 (mem_stepsOf.mpr ⟨hHere, (row?_eq_some.mp hRow).1⟩),
        (loaded_row_iff hWrote hSnapshot hIds hRow hHere).mp (hKept row hRow)⟩
    · intro hBack row hRow
      have hCarried (row : FullRow J) (hRow : full.row? row.1.key = some row) (hOwn : row.1.executionId = call.target) :=
        hBack row hRow hOwn
      simp only [AttemptOpCall.ComesBack, hSnapshot] at hCarried
      have hIds : ∀ row ∈ stepsOf full.db call.executionId, row.id ≠ "" := fun row hRow =>
        (hCarried (row, full.extras row.key) (hStored hRow) ((mem_stepsOf.mp hRow).1.trans hTarget.symm)).1
      by_cases hOwn : row.1.executionId = call.executionId
      · exact (loaded_row_iff hWrote hSnapshot hIds hRow hOwn).mpr (hCarried row hRow (hOwn.trans hTarget.symm)).2
      · have hOther : row.1.key.1 ≠ call.target := fun hSame => hOwn (hSame.trans hTarget)
        rw [replacedColumns, if_neg hOther, hRow]
        rfl

end Calls

section Examples

def pendingRow (id : String) (sequence : Int) (dependsOnStepIds : List String) : StepRow where
  id := id
  executionId := "exec_1"
  stageId := none
  sequence := sequence
  status := .pending
  kind := "read"
  dependsOnStepIds := dependsOnStepIds
  blocking := false
  pauseReason := none
  deferred := false
  blockReason := none
  reviewAcknowledged := false
  createdAt := 0
  startedAt := none
  finishedAt := none
  errorCode := none
  errorMessage := none
  errorType := none

def ordinaryExtras : StepExtras Unit where
  parentStepId := none
  originalText := none
  originalInput := some none
  normalizedInput := some none
  resolvedCommand := none
  canRunIfPriorFailed := false
  canRunIfPriorDeferred := false
  riskLevel := some "low"
  policyResult := none
  rewriteReason := none
  normalizationNote := none
  idempotencyClass := "unknown"
  attemptNumber := 0
  attempts := 0
  idempotencyKey := none
  isIdempotent := false
  sideEffects := []
  failedAt := none
  lastOutputHash := none
  reason := none

/-- An execution of two steps, the second of which depends on the first. -/
def dependentDb : FullDb Unit where
  db := { startedDb with
    executionSteps := ⟨[pendingRow "step_a" 1 [], pendingRow "step_b" 2 ["step_a"]], by
      refine List.Pairwise.cons ?_ (List.pairwise_singleton _ _)
      intro row hRow
      cases List.mem_singleton.mp hRow
      exact ⟨by decide, fun value hLeft hRight => by cases hLeft; exact absurd hRight (by decide)⟩⟩ }
  extras := fun _ => ordinaryExtras

def beginFirst : AttemptOpCall Unit := ⟨⟨1, "worker_1"⟩, "plan_1", "exec_1", "step_a", .begin 0 .pureRead⟩

theorem begin_touches_its_step_iff :
    beginFirst.TouchesItsStep dependentDb (beginFirst.outcome dependentDb).2 ↔
      ∀ row : FullRow Unit, dependentDb.row? row.1.key = some row → row.1.executionId = beginFirst.target →
        beginFirst.ComesBack dependentDb row := by
  have hOk : (beginFirst.outcome dependentDb).1 = .ok () := by decide +kernel
  exact attempt_operation_touches_its_step_iff hOk

/-- Beginning the first step takes the dependency of the second one away. -/
theorem begin_drops_dependencies :
    ((beginFirst.outcome dependentDb).1 = .ok () ∧
      dependentDb.row? ("exec_1", "step_b") = some (pendingRow "step_b" 2 ["step_a"], ordinaryExtras) ∧
      (beginFirst.outcome dependentDb).2.row? ("exec_1", "step_b") = some (pendingRow "step_b" 2 [], ordinaryExtras)) ∧
    ¬ ∀ (call : AttemptOpCall Unit) (full : FullDb Unit), (call.outcome full).1 = .ok () →
      call.TouchesItsStep full (call.outcome full).2 := by
  have hOk : (beginFirst.outcome dependentDb).1 = .ok () := by decide +kernel
  have hBefore : dependentDb.row? ("exec_1", "step_b") = some (pendingRow "step_b" 2 ["step_a"], ordinaryExtras) := by
    decide +kernel
  have hAfter : (beginFirst.outcome dependentDb).2.row? ("exec_1", "step_b") =
      some (pendingRow "step_b" 2 [], ordinaryExtras) := by decide +kernel
  refine ⟨⟨hOk, hBefore, hAfter⟩, fun hAll => ?_⟩
  have hSame := hAll beginFirst dependentDb hOk (pendingRow "step_b" 2 ["step_a"], ordinaryExtras) hBefore
  change ((beginFirst.outcome dependentDb).2.row? ("exec_1", "step_b")).map _ = _ at hSame
  rw [hAfter] at hSame
  exact absurd hSame (by decide +kernel)

end Examples

end CommandConsole.Execution
