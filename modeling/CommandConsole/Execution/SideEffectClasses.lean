import CommandConsole.Execution.RoutedStep
import Mathlib.Data.List.TakeWhile

/-! # The three classifiers of side effects

The idempotency check, the engine and the integrity store each read the class of a step in their own way. The check lets a
step run, the engine and the store record the class of its attempt.
-/
namespace CommandConsole.Execution
set_option autoImplicit false

section Words

def readWords : List String := ["read", "read_file", "list", "inspect", "query", "fetch"]

/-- The words that some classifier knows. -/
def classWords : List String :=
  ["pure_read", "local_write", "external_write", "destructive", "network_call", "human_review", "unknown"] ++ readWords ++
    ["write", "write_file", "create", "update", "mutate", "edit", "delete", "remove", "destroy", "network", "http",
      "api_call", "plugin", "execute", "shell", "run_command"]

def Recognized (word : String) : Prop := ∃ known ∈ classWords, wordIs word known = true

def Reads (word : String) : Prop := ∃ known ∈ "pure_read" :: readWords, wordIs word known = true

theorem normalizedWord_of_blank {word : String} (h : isBlank word = true) : normalizedWord word = [] := by
  have hDrop : word.toList.dropWhile isSpace = [] := List.dropWhile_eq_nil_iff.mpr (List.all_eq_true.mp h)
  rw [normalizedWord, hDrop]
  rfl

/-- The class that the idempotency check reads off the letters of a word. -/
def lettersClass (letters : List Char) : SideEffectClass :=
  if readWords.any (letters = ·.toList) then .pureRead
  else if ["write", "write_file", "create", "update", "mutate", "edit"].any (letters = ·.toList) then .localWrite
  else if ["delete", "remove", "destroy"].any (letters = ·.toList) then .destructive
  else if ["network", "http", "api_call", "plugin"].any (letters = ·.toList) then .networkCall
  else if ["execute", "shell", "run_command"].any (letters = ·.toList) then .externalWrite
  else
    (([.pureRead, .localWrite, .externalWrite, .destructive, .networkCall, .humanReview, .unknown] :
      List SideEffectClass).find? fun known => letters = known.text.toList).getD (.other (String.ofList letters))

def SideEffectClass.isOther : SideEffectClass → Bool
  | .other _ => true
  | _ => false

theorem lettersClass_read : ∀ known ∈ "pure_read" :: readWords, lettersClass known.toList = .pureRead := by decide +kernel

theorem lettersClass_known : ∀ known ∈ classWords, (lettersClass known.toList).isOther = false := by decide +kernel

theorem mem_of_any {words : List String} {letters : List Char} (h : words.any (letters = ·.toList) = true) :
    ∃ known ∈ words, letters = known.toList := by
  obtain ⟨known, hMem, hLetters⟩ := List.any_eq_true.mp h
  exact ⟨known, hMem, of_decide_eq_true hLetters⟩

theorem lettersClass_pureRead {letters : List Char} (h : lettersClass letters = .pureRead) :
    ∃ known ∈ "pure_read" :: readWords, letters = known.toList := by
  rw [lettersClass] at h
  split at h
  next hRead =>
    obtain ⟨known, hMem, hLetters⟩ := mem_of_any hRead
    exact ⟨known, List.mem_cons_of_mem _ hMem, hLetters⟩
  next =>
    repeat (split at h; · cases h)
    cases hFind : ([.pureRead, .localWrite, .externalWrite, .destructive, .networkCall, .humanReview, .unknown] :
        List SideEffectClass).find? fun known => letters = known.text.toList with
    | none =>
      rw [hFind] at h
      cases h
    | some known =>
      rw [hFind] at h
      obtain rfl : known = .pureRead := h
      have hLetters := List.find?_some hFind
      exact ⟨"pure_read", List.mem_cons_self, of_decide_eq_true hLetters⟩

theorem lettersClass_other {letters : List Char} (h : ∀ known ∈ classWords, letters ≠ known.toList) :
    (lettersClass letters).isOther = true := by
  have hNone (words : List String) (hWords : words ⊆ classWords) : ¬ words.any (letters = ·.toList) = true := by
    intro hAny
    obtain ⟨known, hMem, hLetters⟩ := mem_of_any hAny
    exact h known (hWords hMem) hLetters
  have hFind : ([.pureRead, .localWrite, .externalWrite, .destructive, .networkCall, .humanReview, .unknown] :
      List SideEffectClass).find? (fun known => letters = known.text.toList) = none := by
    rw [List.find?_eq_none]
    intro known hMem hLetters
    have hText : known.text ∈ classWords := by
      have hAll : ∀ known ∈ ([.pureRead, .localWrite, .externalWrite, .destructive, .networkCall, .humanReview,
          .unknown] : List SideEffectClass), known.text ∈ classWords := by decide
      exact hAll known hMem
    exact h known.text hText (of_decide_eq_true hLetters)
  rw [lettersClass, if_neg (hNone _ (by decide)), if_neg (hNone _ (by decide)), if_neg (hNone _ (by decide)),
    if_neg (hNone _ (by decide)), if_neg (hNone _ (by decide)), hFind]
  rfl

end Words

section Steps

namespace RunStep

variable (step : RunStep)

def explicitWord : String := (firstTruthy step.explicitClasses).getD ""

def actionWord : String := (firstTruthy [step.actionClass, step.action, step.kind]).getD ""

/-- The word that the idempotency check takes for the class of a step. -/
def classWord : String := (firstTruthy (step.explicitClasses ++ [step.actionClass, step.action, step.kind])).getD "unknown"

def approved : Bool := step.reviewAcknowledged || step.metadata.reviewAcknowledged

/-- The class that is recorded for the attempt of a step. -/
def recordedClass : SideEffectClass := step.sideEffectClass.normalized

def SpelledAsRead : Prop :=
  if isBlank step.explicitWord then ∃ known ∈ readWords, wordIs step.actionWord known = true
  else wordIs step.explicitWord "pure_read" = true

theorem checkedClass_eq :
    step.checkedClass = if isBlank step.classWord then .unknown else lettersClass (normalizedWord step.classWord) := by
  rw [checkedClass, classWord]
  generalize (firstTruthy (step.explicitClasses ++ [step.actionClass, step.action, step.kind])).getD "unknown" = word
  change (if _ then _ else if _ then _ else if _ then _ else if _ then _ else if _ then _ else if isBlank word then _
    else _) = _
  by_cases hBlank : isBlank word = true
  · have hNo (words : List String) (hWords : ∀ known ∈ words, known.toList ≠ []) : ¬ words.any (wordIs word) = true := by
      intro hAny
      obtain ⟨known, hMem, hWord⟩ := List.any_eq_true.mp hAny
      exact hWords known hMem ((of_decide_eq_true hWord).symm.trans (normalizedWord_of_blank hBlank))
    rw [if_pos hBlank, if_pos hBlank, if_neg (hNo _ (by decide)), if_neg (hNo _ (by decide)),
      if_neg (hNo _ (by decide)), if_neg (hNo _ (by decide)), if_neg (hNo _ (by decide))]
  · rw [if_neg hBlank, if_neg hBlank]
    rfl

theorem checkedClass_pureRead_iff : step.checkedClass = .pureRead ↔ Reads step.classWord := by
  rw [checkedClass_eq]
  constructor
  · intro h
    split at h
    · cases h
    · obtain ⟨known, hMem, hLetters⟩ := lettersClass_pureRead h
      exact ⟨known, hMem, decide_eq_true hLetters⟩
  · rintro ⟨known, hMem, hWord⟩
    have hLetters : normalizedWord step.classWord = known.toList := of_decide_eq_true hWord
    have hNonempty : ∀ known ∈ "pure_read" :: readWords, known.toList ≠ [] := by decide
    rw [if_neg fun hBlank => hNonempty known hMem (hLetters.symm.trans (normalizedWord_of_blank hBlank)), hLetters]
    exact lettersClass_read known hMem

/-- Any other word is its own class. -/
theorem checkedClass_isOther_iff :
    step.checkedClass.isOther = true ↔ isBlank step.classWord = false ∧ ¬ Recognized step.classWord := by
  rw [checkedClass_eq]
  constructor
  · intro h
    split at h
    · cases h
    next hBlank =>
      refine ⟨by simpa using hBlank, ?_⟩
      rintro ⟨known, hMem, hWord⟩
      have hLetters : normalizedWord step.classWord = known.toList := of_decide_eq_true hWord
      rw [hLetters, lettersClass_known known hMem] at h
      cases h
  · rintro ⟨hBlank, hUnknown⟩
    rw [if_neg (by simp [hBlank])]
    exact lettersClass_other fun known hMem hLetters => hUnknown ⟨known, hMem, decide_eq_true hLetters⟩

theorem ofText_pureRead_iff (word : String) :
    (SideEffectClass.ofText word).normalized = .pureRead ↔ wordIs word "pure_read" = true := by
  rw [SideEffectClass.ofText]
  constructor
  · intro h
    cases hFind : ([.pureRead, .localWrite, .externalWrite, .destructive, .networkCall, .humanReview, .unknown] :
        List SideEffectClass).find? fun known => wordIs word known.text with
    | none =>
      rw [hFind] at h
      cases h
    | some known =>
      have hWord := List.find?_some hFind
      rw [hFind] at h
      cases known with
      | pureRead => exact hWord
      | _ => cases h
  · intro hWord
    have hFind : ([.pureRead, .localWrite, .externalWrite, .destructive, .networkCall, .humanReview, .unknown] :
        List SideEffectClass).find? (fun known => wordIs word known.text) = some .pureRead :=
      List.find?_cons_of_pos hWord
    rw [hFind]
    rfl

theorem recordedClass_pureRead_iff : step.recordedClass = .pureRead ↔ step.SpelledAsRead := by
  rw [recordedClass, sideEffectClass, SpelledAsRead, explicitWord, actionWord]
  generalize (firstTruthy step.explicitClasses).getD "" = explicit
  generalize (firstTruthy [step.actionClass, step.action, step.kind]).getD "" = action
  dsimp only
  by_cases hBlank : isBlank explicit = true
  · rw [if_neg (by simp [hBlank]), if_pos hBlank]
    constructor
    · intro h
      split at h
      next hRead => exact List.any_eq_true.mp hRead
      next =>
        exfalso
        revert h
        repeat' split
        all_goals nofun
    · intro hRead
      have hAny : ["read", "read_file", "list", "inspect", "query", "fetch"].any (wordIs action) = true :=
        List.any_eq_true.mpr hRead
      rw [if_pos hAny]
      rfl
  · rw [if_pos (by simp [hBlank]), if_neg hBlank]
    exact ofText_pureRead_iff explicit

/-- What the claims of the check rest on: a step is only let through unapproved as a recorded read or with evidence, and a
word that no classifier knows is the unknown class for each of them. -/
structure FailsClosed : Prop where
  allowed : enforceIdempotency step = .allowed → step.approved = false →
    step.recordedClass = .pureRead ∨ (step.declaredSideEffects ≠ [] ∧ step.idempotencyEvidence = true)
  unrecognized : isBlank step.classWord = false → ¬ Recognized step.classWord →
    step.checkedClass = .unknown ∧ step.sideEffectClass = .unknown ∧
      (SideEffectClass.ofText step.classWord).normalized = .unknown

/-- A step that the check lets through as a read without approval. -/
structure PassesAsRead : Prop where
  status : step.status ∉ ["running", "completed"]
  word : Reads step.classWord
  known : "unknown" ∉ step.declaredSideEffects
  approval : step.approved = false

variable {step}

theorem PassesAsRead.allowed (h : step.PassesAsRead) : enforceIdempotency step = .allowed := by
  have hClass := (checkedClass_pureRead_iff step).mpr h.word
  rw [enforceIdempotency, if_neg h.status, hClass]
  simp [h.known]

/-- What lets a step through. -/
theorem allowed_cases (h : enforceIdempotency step = .allowed) (hApproval : step.approved = false) :
    step.PassesAsRead ∨ (step.declaredSideEffects ≠ [] ∧ step.idempotencyEvidence = true) ∨
      step.checkedClass.isOther = true := by
  rw [enforceIdempotency] at h
  split at h
  · cases h
  next hStatus =>
    split at h
    · cases h
    next hKnown =>
      rw [Bool.or_eq_true, not_or, decide_eq_true_iff, decide_eq_true_iff] at hKnown
      split at h
      · cases h
      next hSafe =>
        split at h
        · rw [approved] at hApproval
          rw [if_neg (by simp [hApproval])] at h
          split at h
          · cases h
          next hDeclared =>
            split at h
            · cases h
            next hEvidence =>
              rw [Bool.or_eq_true, not_or] at hEvidence
              exact .inr (.inl ⟨by simpa using hDeclared, by simpa using hEvidence.2⟩)
        next hWrites =>
          cases hClass : step.checkedClass with
          | pureRead => exact .inl ⟨hStatus, (checkedClass_pureRead_iff step).mp hClass, hKnown.2, hApproval⟩
          | other => exact .inr (.inr rfl)
          | unknown => exact absurd hClass hKnown.1
          | destructive | humanReview => simp [hClass] at hSafe
          | localWrite | networkCall | externalWrite => simp [hClass] at hWrites

end RunStep

/-- The check fails closed exactly on the words that some classifier knows, where a read is spelled as the store knows it
or the step has its evidence. -/
theorem idempotency_check_fails_closed_iff (step : RunStep) :
    step.FailsClosed ↔
      (isBlank step.classWord = true ∨ Recognized step.classWord) ∧
        (step.PassesAsRead → step.SpelledAsRead ∨ (step.declaredSideEffects ≠ [] ∧ step.idempotencyEvidence = true)) := by
  constructor
  · intro h
    constructor
    · by_contra hUnknown
      rw [not_or, Bool.not_eq_true] at hUnknown
      have hOther := (step.checkedClass_isOther_iff).mpr hUnknown
      rw [(h.unrecognized hUnknown.1 hUnknown.2).1] at hOther
      cases hOther
    · intro hRead
      rw [← step.recordedClass_pureRead_iff]
      exact h.allowed hRead.allowed hRead.approval
  · rintro ⟨hWord, hReads⟩
    have hKnown : ¬ (isBlank step.classWord = false ∧ ¬ Recognized step.classWord) := by
      rintro ⟨hBlank, hUnknown⟩
      rw [hBlank] at hWord
      exact hWord.elim nofun hUnknown
    refine ⟨fun hAllowed hApproval => ?_, fun hBlank hUnknown => absurd ⟨hBlank, hUnknown⟩ hKnown⟩
    rcases RunStep.allowed_cases hAllowed hApproval with hRead | hEvidence | hOther
    · rw [step.recordedClass_pureRead_iff]
      exact hReads hRead
    · exact .inr hEvidence
    · exact absurd ((step.checkedClass_isOther_iff).mp hOther) hKnown

/-- A step whose action no classifier knows. -/
def deployStep : RunStep where
  id := "step_1"
  stageId := none
  stageSequence := none
  sequence := none
  status := "pending"
  kind := some "step"
  actionClass := none
  action := some "deploy"
  tool := none
  dependsOn := none
  depends_on_step_ids := none
  blocking := false
  requiresReview := false
  rewritten := false
  deferred := false
  safeFallback := false
  reviewAcknowledged := false
  pauseReason := none
  blockReason := none
  rewriteReason := none
  deferReason := none
  error := none
  errorType := none
  createdAt := none
  updatedAt := none
  startedAt := none
  finishedAt := none

theorem deploy_step_let_through :
    enforceIdempotency deployStep = .allowed ∧ deployStep.recordedClass = .unknown ∧
      deployStep.declaredSideEffects = [] ∧ ¬ ∀ step : RunStep, step.FailsClosed := by
  have hAllowed : enforceIdempotency deployStep = .allowed := by decide +kernel
  have hRecorded : deployStep.recordedClass = .unknown := by decide +kernel
  have hDeclared : deployStep.declaredSideEffects = [] := by decide +kernel
  refine ⟨hAllowed, hRecorded, hDeclared, fun hAll => ?_⟩
  rcases (hAll deployStep).allowed hAllowed rfl with hRead | hEvidence
  · rw [hRecorded] at hRead
    cases hRead
  · exact hEvidence.1 hDeclared

end Steps

end CommandConsole.Execution
