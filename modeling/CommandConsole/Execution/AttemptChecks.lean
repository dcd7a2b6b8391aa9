import CommandConsole.Execution.AttemptDiscipline
import Mathlib

/-! # The checker and disciplined attempts

The checker groups the attempts of a plan by a joined text and counts ledger
events by another one. While no two steps share a text these are the attempts
and the entries of one step, so attempts in order raise none of its issues.
-/
namespace CommandConsole.Execution
open Library
set_option autoImplicit false

section Texts

/-- The last separator is the one that no character of the last part is. -/
theorem append_cons_inj {c : Char} {left left' last last' : List Char} (hLast : c ∉ last) (hLast' : c ∉ last')
    (h : left ++ c :: last = left' ++ c :: last') : left = left' ∧ last = last' := by
  have hEmpty {b d d' : List Char} (hd : c ∉ d) (h : c :: d = b ++ c :: d') : b = [] := by
    cases b with
    | nil => rfl
    | cons x xs =>
      rw [List.cons_append, List.cons.injEq] at h
      exact absurd (h.2 ▸ List.mem_append_right xs List.mem_cons_self) hd
  obtain ⟨middle, hLeft, hRest⟩ | ⟨middle, hLeft, hRest⟩ := List.append_eq_append_iff.mp h
  · have hNil := hEmpty hLast hRest
    subst hNil
    exact ⟨by simpa using hLeft.symm, by simpa using hRest⟩
  · have hNil := hEmpty hLast' hRest
    subst hNil
    exact ⟨by simpa using hLeft, by simpa using hRest.symm⟩

theorem colon_not_mem_repr (number : Int) : ':' ∉ (Int.repr number).toList := by
  have hDigits (n : Nat) : ':' ∉ (Nat.repr n).toList := by
    intro h
    rw [Nat.repr, String.toList_ofList] at h
    exact absurd (Nat.isDigit_of_mem_toDigits (by decide) (by decide) h) (by decide)
  cases number with
  | ofNat n => exact hDigits n
  | negSucc n =>
    intro h
    rw [Int.repr, String.toList_append, List.mem_append] at h
    obtain h | h := h
    · simp at h
    · exact hDigits _ h

def attemptLabel (step : StepKey) (number : Int) : String := stepText step ++ ":" ++ Int.repr number

theorem attemptLabel_inj {step step' : StepKey} {number number' : Int}
    (h : attemptLabel step number = attemptLabel step' number') :
    stepText step = stepText step' ∧ number = number' := by
  have hList := congrArg String.toList h
  simp only [attemptLabel, String.toList_append, List.append_assoc] at hList
  obtain ⟨hStep, hNumber⟩ := append_cons_inj (colon_not_mem_repr number) (colon_not_mem_repr number') hList
  exact ⟨String.toList_injective hStep, Int.repr_injective (String.toList_injective hNumber)⟩

end Texts

section Counting

variable {db : Db}

/-- An entry of the ledger belongs to an attempt of the table. -/
theorem AttemptsInOrder.isSome_of_entry (h : AttemptsInOrder db) {row : LedgerRow} {step : StepKey} {number : Int}
    {closedAs : Option AttemptStatus} (hRow : row ∈ db.attemptEvents)
    (hEntry : row.attemptEntry = some ⟨step, number, closedAs⟩) (hNotRunning : closedAs ≠ some .running) :
    (db.attemptStatus step number).isSome := by
  have hMem : ⟨step, number, closedAs⟩ ∈ db.attemptJournal.entries := List.mem_filterMap.mpr ⟨row, hRow, hEntry⟩
  have hCount := List.count_pos_iff.mpr hMem
  cases closedAs with
  | none =>
    rw [h.journal.opening] at hCount
    by_contra hNone
    have hZero : ¬(db.attemptJournal.status step number).isSome = true := hNone
    rw [if_neg hZero] at hCount
    exact absurd hCount (by decide)
  | some status =>
    rw [h.journal.closing step number status (fun hStatus => hNotRunning (congrArg some hStatus))] at hCount
    by_contra hNone
    have hStatus : db.attemptJournal.status step number ≠ some status := by
      intro hStatus
      exact hNone (Option.isSome_iff_exists.mpr ⟨status, hStatus⟩)
    rw [if_neg hStatus] at hCount
    exact absurd hCount (by decide)

theorem attemptEntry_eq_some {row : LedgerRow} {entry : Entry StepKey AttemptStatus} :
    row.attemptEntry = some entry ↔ row.eventType.attemptEnd = some entry.closedAs ∧
      row.planId = entry.group.1 ∧ row.executionId = some entry.group.2.1 ∧
      row.stepId = some entry.group.2.2 ∧ row.attemptNumber = some entry.number := by
  obtain ⟨⟨planId, executionId, stepId⟩, number, closedAs⟩ := entry
  unfold LedgerRow.attemptEntry
  constructor
  · intro h
    split at h
    · rename_i hEnd hExecution hStep hNumber
      rw [Option.some.injEq, Entry.mk.injEq, Prod.mk.injEq, Prod.mk.injEq] at h
      obtain ⟨⟨hPlan, rfl, rfl⟩, rfl, rfl⟩ := h
      exact ⟨hEnd, hPlan, hExecution, hStep, hNumber⟩
    · cases h
  · rintro ⟨hEnd, hPlan, hExecution, hStep, hNumber⟩
    dsimp only at hEnd hPlan hExecution hStep hNumber
    rw [hEnd, hExecution, hStep, hNumber, hPlan]

def attemptEvent : Option AttemptStatus → EventType
  | none => .attemptStarted
  | some status => .attempt status

theorem attemptEnd_eq_some {eventType : EventType} {closedAs : Option AttemptStatus} :
    eventType.attemptEnd = some closedAs ↔ eventType = attemptEvent closedAs := by
  constructor
  · intro h
    cases eventType <;> cases h <;> rfl
  · rintro rfl
    cases closedAs <;> rfl

/-- The events that the checker finds by text are the entries of the attempt. -/
theorem AttemptsInOrder.countP_events (h : AttemptsInOrder db) {step : StepKey} (number : Int)
    (eventType : EventType) {closedAs : Option AttemptStatus} (hType : eventType.attemptEnd = some closedAs)
    (hNotRunning : closedAs ≠ some .running) (hName : ¬db.nameTaken step) :
    (((listLedgerEvents db step.1).filter fun event => event.attemptText = attemptLabel step number).countP
      fun event => event.eventType = eventType) =
      db.attemptJournal.entries.count ⟨step, number, closedAs⟩ := by
  rw [Db.attemptJournal, List.count_filterMap, Db.attemptEvents, listLedgerEvents, List.countP_filter,
    List.countP_filter, List.countP_filter]
  refine List.countP_congr fun row hRow => ?_
  simp only [Bool.and_eq_true, decide_eq_true_eq, beq_iff_eq]
  have hLabel {other : StepKey} {n : Int} {c : Option AttemptStatus}
      (hEntry : row.attemptEntry = some ⟨other, n, c⟩) : row.attemptText = attemptLabel other n := by
    obtain ⟨-, -, hExecution, hStep, hNumber⟩ := attemptEntry_eq_some.mp hEntry
    rw [LedgerRow.attemptText, hExecution, hStep, hNumber]
    simp only [nullableText, Option.map_some, Option.getD_some, attemptLabel, stepText]
    rfl
  constructor
  · rintro ⟨⟨rfl, hText⟩, hPlan⟩
    have hEvent : row ∈ db.attemptEvents := List.mem_filter.mpr ⟨hRow, by rw [hType]; rfl⟩
    obtain ⟨⟨other, n, c⟩, hEntry⟩ := Option.isSome_iff_exists.mp (h.complete row hEvent)
    obtain ⟨hEnd, hOtherPlan, -⟩ := attemptEntry_eq_some.mp hEntry
    have hClosed : c = closedAs := Option.some.inj (hEnd.symm.trans hType)
    subst hClosed
    obtain ⟨hStepText, hNumber⟩ := attemptLabel_inj ((hLabel hEntry).symm.trans hText)
    subst hNumber
    refine ⟨?_, by rw [hType]; rfl⟩
    rw [hEntry]
    by_contra hNe
    refine hName ⟨other, n, hOtherPlan.symm.trans hPlan, ?_, hStepText, h.isSome_of_entry hEvent hEntry hNotRunning⟩
    rintro rfl
    exact hNe rfl
  · rintro ⟨hEntry, -⟩
    obtain ⟨hEnd, hPlan, -⟩ := attemptEntry_eq_some.mp hEntry
    exact ⟨⟨(attemptEnd_eq_some.mp hEnd).trans (attemptEnd_eq_some.mp hType).symm, hLabel hEntry⟩, hPlan⟩

end Counting

section Groups

theorem orderedAttemptIssues_of_contiguous (ledger : List LedgerRow) {last : Int} {rows : List AttemptRow}
    {first : Int} (hSorted : rows.Pairwise fun left right => left.attemptNumber < right.attemptNumber)
    (hNumbers : ∀ number, (∃ row ∈ rows, row.attemptNumber = number) ↔ first ≤ number ∧ number ≤ last) :
    orderedAttemptIssues ledger first rows = rows.flatMap (attemptIssues ledger) := by
  induction rows generalizing first with
  | nil => rfl
  | cons row rest ih =>
    rw [List.pairwise_cons] at hSorted
    obtain ⟨hFirst, hLast⟩ := (hNumbers row.attemptNumber).mp ⟨row, List.mem_cons_self, rfl⟩
    have hHead : row.attemptNumber = first := by
      obtain ⟨least, hLeast, hNumber⟩ := (hNumbers first).mpr ⟨le_refl _, hFirst.trans hLast⟩
      obtain rfl | hRest := List.mem_cons.mp hLeast
      · exact hNumber
      · have hLt := hSorted.1 least hRest
        omega
    rw [orderedAttemptIssues, if_neg (not_not.mpr hHead), List.flatMap_cons]
    congr 1
    refine ih hSorted.2 fun number => ?_
    constructor
    · rintro ⟨other, hOther, hNumber⟩
      have hLt := hSorted.1 other hOther
      have hRange := (hNumbers number).mp ⟨other, List.mem_cons_of_mem _ hOther, hNumber⟩
      omega
    · rintro ⟨hFrom, hTo⟩
      obtain ⟨other, hOther, hNumber⟩ := (hNumbers number).mpr ⟨by omega, hTo⟩
      obtain rfl | hRest := List.mem_cons.mp hOther
      · omega
      · exact ⟨other, hRest, hNumber⟩

theorem runningAttempts_le (first : Int) (rows : List AttemptRow) :
    runningAttempts first rows ≤ rows.countP fun row => row.status = .running := by
  induction rows generalizing first with
  | nil => exact Nat.le_refl 0
  | cons row rest ih =>
    have hRest := ih (first + 1)
    rw [runningAttempts, List.countP_cons]
    split
    · exact Nat.zero_le _
    · simp only [decide_eq_true_eq]
      omega

theorem countP_le_one {α : Type} {rows : List α} {test : α → Bool} (hNodup : rows.Nodup)
    (hSingle : ∀ left ∈ rows, ∀ right ∈ rows, test left = true → test right = true → left = right) :
    rows.countP test ≤ 1 := by
  rw [List.countP_eq_length_filter]
  have hFiltered := hNodup.filter test
  cases hList : rows.filter test with
  | nil => exact Nat.zero_le 1
  | cons first rest =>
    cases rest with
    | nil => exact Nat.le_refl 1
    | cons second rest =>
      have hFirst : first ∈ rows.filter test := by rw [hList]; exact List.mem_cons_self
      have hSecond : second ∈ rows.filter test := by
        rw [hList]
        exact List.mem_cons_of_mem _ List.mem_cons_self
      rw [List.mem_filter] at hFirst hSecond
      rw [hList, List.nodup_cons] at hFiltered
      have hSame := hSingle first hFirst.1 second hSecond.1 hFirst.2 hSecond.2
      exact absurd (hSame ▸ List.mem_cons_self) hFiltered.1

theorem mem_issueIf {test : Bool} {code : IssueCode} {message : String} {issue : Issue} :
    issue ∈ issueIf test code message ↔ test = true ∧ issue = ⟨code, message⟩ := by
  unfold issueIf
  split
  · rename_i hTest
    simp [hTest]
  · rename_i hTest
    simp [hTest]

variable {db : Db}

theorem attempts_nodup (db : Db) : db.executionAttempts.rows.Nodup :=
  db.executionAttempts.unique.imp fun h hSame => h.1 (congrArg AttemptRow.key hSame)

/-- An attempt in order has its start entry and, once closed, its closing entry. -/
theorem AttemptsInOrder.attemptIssues_code (h : AttemptsInOrder db) {row : AttemptRow}
    (hRow : row ∈ db.executionAttempts.rows) (hName : ¬db.nameTaken (row.planId, row.executionId, row.stepId)) :
    ∀ issue ∈ attemptIssues (listLedgerEvents db row.planId) row, issue.code = .idempotencyMismatch := by
  have hLabel : row.ledgerText = attemptLabel (row.planId, row.executionId, row.stepId) row.attemptNumber := rfl
  have hStatus := attemptStatus_of_mem hRow
  have hStarted : (((listLedgerEvents db row.planId).filter fun event =>
      event.attemptText = row.ledgerText).countP fun event => event.eventType = .attemptStarted) = 1 := by
    have hCount := h.countP_events row.attemptNumber .attemptStarted rfl (by decide) hName
    rw [hLabel, hCount, h.journal.opening]
    exact if_pos (Option.isSome_iff_exists.mpr ⟨row.status, hStatus⟩)
  intro issue hIssue
  simp only [attemptIssues, List.mem_append, mem_issueIf, decide_eq_true_eq, Bool.and_eq_true] at hIssue
  obtain (⟨-, rfl⟩ | ⟨hNot, -⟩) | ⟨⟨hTerminal, hNot⟩, -⟩ := hIssue
  · rfl
  · exact absurd hStarted hNot
  · exfalso
    apply hNot
    have hRunning : row.status ≠ .running := by
      intro hRunning
      rw [hRunning] at hTerminal
      exact absurd hTerminal (by decide)
    have hCount := h.countP_events row.attemptNumber (.attempt row.status) rfl
      (fun hSame => hRunning (Option.some.inj hSame)) hName
    rw [hLabel, hCount, h.journal.closing _ _ _ hRunning]
    exact if_pos hStatus

/-- No group of attempts in order raises an issue about numbering, running attempts or missing entries. -/
theorem AttemptsInOrder.attemptGroupIssues_code (h : AttemptsInOrder db) (planId : String)
    {group : String × List AttemptRow}
    (hGroup : group ∈ groupBy (listExecutionAttempts db planId) AttemptRow.groupText) :
    ∀ issue ∈ attemptGroupIssues (listLedgerEvents db planId) group.2, issue.code = .idempotencyMismatch := by
  obtain ⟨text, hText, rfl⟩ := List.mem_map.mp hGroup
  rw [List.mem_eraseDups, List.mem_map] at hText
  obtain ⟨member, hMember, rfl⟩ := hText
  have hList (row : AttemptRow) : row ∈ listExecutionAttempts db planId ↔
      row ∈ db.executionAttempts.rows ∧ row.planId = planId := by
    rw [listExecutionAttempts, List.mem_insertionSort, List.mem_filter, decide_eq_true_eq]
  obtain ⟨hMemberRow, rfl⟩ := (hList member).mp hMember
  have hUsed := attemptStatus_of_mem hMemberRow
  have hName : ¬db.nameTaken (member.planId, member.executionId, member.stepId) := by
    obtain hFree | hUnused := h.apart (member.planId, member.executionId, member.stepId)
    · exact hFree
    · rw [hUnused] at hUsed
      cases hUsed
  dsimp only
  generalize hRows : ((listExecutionAttempts db member.planId).filter fun row =>
    row.groupText = member.groupText) = rows
  -- a group is exactly the attempts of one step
  have hStep (row : AttemptRow) : row ∈ rows ↔ row ∈ db.executionAttempts.rows ∧
      (row.planId, row.executionId, row.stepId) = (member.planId, member.executionId, member.stepId) := by
    rw [← hRows, List.mem_filter, hList, decide_eq_true_eq]
    constructor
    · rintro ⟨⟨hRow, hPlan⟩, hText⟩
      refine ⟨hRow, ?_⟩
      by_contra hNe
      exact hName ⟨_, row.attemptNumber, hPlan, hNe, hText,
        Option.isSome_iff_exists.mpr ⟨_, attemptStatus_of_mem hRow⟩⟩
    · rintro ⟨hRow, hSame⟩
      simp only [Prod.mk.injEq] at hSame
      exact ⟨⟨hRow, hSame.1⟩, by rw [AttemptRow.groupText, AttemptRow.groupText, hSame.2.1, hSame.2.2]⟩
  have hOrderedMem (row : AttemptRow) :
      row ∈ rows.insertionSort (fun left right => left.attemptNumber ≤ right.attemptNumber) ↔ row ∈ rows :=
    List.mem_insertionSort _
  have hNodup : (rows.insertionSort fun left right => left.attemptNumber ≤ right.attemptNumber).Nodup := by
    rw [(List.perm_insertionSort _ _).nodup_iff, ← hRows]
    refine List.Nodup.filter _ ?_
    rw [listExecutionAttempts, (List.perm_insertionSort _ _).nodup_iff]
    exact (attempts_nodup db).filter _
  have hKey {row other : AttemptRow} (hRow : row ∈ rows) (hOther : other ∈ rows)
      (hNumber : row.attemptNumber = other.attemptNumber) : row = other := by
    obtain ⟨hRowMem, hRowStep⟩ := (hStep row).mp hRow
    obtain ⟨hOtherMem, hOtherStep⟩ := (hStep other).mp hOther
    have hSame := hRowStep.trans hOtherStep.symm
    simp only [Prod.mk.injEq] at hSame
    refine db.executionAttempts.eq_of_key_eq hRowMem hOtherMem ?_
    rw [AttemptRow.key, AttemptRow.key, hSame.1, hSame.2.1, hSame.2.2, hNumber]
  have hSorted : (rows.insertionSort fun left right => left.attemptNumber ≤ right.attemptNumber).Pairwise
      fun left right => left.attemptNumber < right.attemptNumber := by
    have hTotal : Std.Total fun left right : AttemptRow => left.attemptNumber ≤ right.attemptNumber :=
      ⟨fun left right => le_total _ _⟩
    have hTrans : IsTrans AttemptRow fun left right => left.attemptNumber ≤ right.attemptNumber :=
      ⟨fun _ _ _ h h' => h.trans h'⟩
    refine ((List.pairwise_insertionSort _ rows).and hNodup).imp_of_mem ?_
    rintro left right hLeft hRight ⟨hLe, hNe⟩
    exact lt_of_le_of_ne hLe fun hSame => hNe (hKey ((hOrderedMem _).mp hLeft) ((hOrderedMem _).mp hRight) hSame)
  obtain ⟨count, hCount⟩ := h.journal.contiguous (member.planId, member.executionId, member.stepId)
  have hNumbers (number : Int) : (∃ row ∈ rows.insertionSort fun left right =>
      left.attemptNumber ≤ right.attemptNumber, row.attemptNumber = number) ↔ 1 ≤ number ∧ number ≤ count := by
    rw [← hCount number]
    refine Iff.trans ?_ attemptStatus_isSome.symm
    simp only [hOrderedMem, hStep, and_assoc]
    refine exists_congr fun row => and_congr_right fun _ => ?_
    rw [AttemptRow.key]
    simp only [Prod.mk.injEq, and_assoc]
  intro issue hIssue
  rw [attemptGroupIssues, List.mem_append] at hIssue
  obtain hIssue | hIssue := hIssue
  · rw [orderedAttemptIssues_of_contiguous _ hSorted hNumbers, List.mem_flatMap] at hIssue
    obtain ⟨row, hRow, hIssue⟩ := hIssue
    obtain ⟨hRowMem, hRowStep⟩ := (hStep row).mp ((hOrderedMem row).mp hRow)
    have hPlan : row.planId = member.planId := congrArg Prod.fst hRowStep
    rw [← hPlan] at hIssue
    exact h.attemptIssues_code hRowMem (hRowStep ▸ hName) issue hIssue
  · exfalso
    obtain ⟨hMany, -⟩ := mem_issueIf.mp hIssue
    have hFew : (rows.insertionSort fun left right => left.attemptNumber ≤ right.attemptNumber).countP
        (fun row => row.status = .running) ≤ 1 := by
      refine countP_le_one hNodup fun left hLeft right hRight hLeftRunning hRightRunning => ?_
      obtain ⟨hLeftMem, hLeftStep⟩ := (hStep left).mp ((hOrderedMem left).mp hLeft)
      obtain ⟨hRightMem, hRightStep⟩ := (hStep right).mp ((hOrderedMem right).mp hRight)
      have hLeftStatus := attemptStatus_of_mem hLeftMem
      have hRightStatus := attemptStatus_of_mem hRightMem
      rw [hLeftStep, of_decide_eq_true hLeftRunning] at hLeftStatus
      rw [hRightStep, of_decide_eq_true hRightRunning] at hRightStatus
      exact hKey ((hOrderedMem left).mp hLeft) ((hOrderedMem right).mp hRight)
        (h.journal.single _ _ _ hLeftStatus hRightStatus)
    have hBound := runningAttempts_le 1
      (rows.insertionSort fun left right => left.attemptNumber ≤ right.attemptNumber)
    have hMany := of_decide_eq_true hMany
    omega

end Groups

section Checker

/-- The issues that are about the numbering, the running attempts or the ledger entries of attempts. -/
def Issue.aboutAttempts (issue : Issue) : Prop :=
  issue.code = .invalidAttemptSequence ∨ issue.code = .multipleActiveAttempts ∨
    ∃ attempt : AttemptRow,
      issue = ⟨.ledgerMissing, s!"Attempt {attempt.ledgerText} is missing a single start ledger entry."⟩ ∨
        issue = ⟨.ledgerMissing, s!"Attempt {attempt.ledgerText} is missing a terminal ledger entry."⟩

theorem Issue.not_aboutAttempts_of_code {issue : Issue}
    (h : issue.code ∉ [IssueCode.invalidAttemptSequence, .multipleActiveAttempts, .ledgerMissing]) :
    ¬issue.aboutAttempts := by
  rintro (hCode | hCode | ⟨attempt, rfl | rfl⟩)
  · exact h (by simp [hCode])
  · exact h (by simp [hCode])
  · exact h (by simp)
  · exact h (by simp)

/-- The only other entry the checker can miss is the one of a terminal checkpoint. -/
theorem terminalCheckpointIssues_not_aboutAttempts {events : List LedgerRow} {checkpoint : Option Checkpoint}
    {issue : Issue} (h : issue ∈ terminalCheckpointIssues events checkpoint) : ¬issue.aboutAttempts := by
  cases checkpoint with
  | none => cases h
  | some row =>
    obtain ⟨-, rfl⟩ := mem_issueIf.mp h
    rintro (hCode | hCode | ⟨attempt, hSame | hSame⟩)
    · cases hCode
    · cases hCode
    all_goals
      have hText := congrArg (fun issue : Issue => issue.message.toList.head?) hSame
      have hCheckpoint : (toString "Checkpoint ").toList.head? = some 'C' := rfl
      have hAttempt : (toString "Attempt ").toList.head? = some 'A' := rfl
      simp [String.toList_append, hCheckpoint, hAttempt] at hText

theorem issueIf_not_aboutAttempts {test : Bool} {code : IssueCode} {message : String}
    (hCode : code ∉ [IssueCode.invalidAttemptSequence, .multipleActiveAttempts, .ledgerMissing]) :
    ∀ issue ∈ issueIf test code message, ¬issue.aboutAttempts := by
  intro issue hIssue
  obtain ⟨-, rfl⟩ := mem_issueIf.mp hIssue
  exact Issue.not_aboutAttempts_of_code hCode

theorem executionIssues_not_aboutAttempts (executionId : String) (ledger : List LedgerRow)
    (checkpoint : Option Checkpoint) :
    ∀ issue ∈ executionIssues executionId ledger checkpoint, ¬issue.aboutAttempts := by
  unfold executionIssues
  dsimp only
  split
  · intro issue hIssue
    cases hIssue
  · have hInvalid {test : Bool} {message : String} :
        ∀ issue ∈ issueIf test .ledgerInvalid message, ¬issue.aboutAttempts :=
      issueIf_not_aboutAttempts (by decide)
    simp only [List.forall_mem_append]
    refine ⟨⟨⟨⟨⟨⟨hInvalid, hInvalid⟩, hInvalid⟩, hInvalid⟩, hInvalid⟩, ?_⟩, fun _ h =>
      terminalCheckpointIssues_not_aboutAttempts h⟩
    intro issue hIssue
    obtain ⟨group, -, hIssue⟩ := List.mem_flatMap.mp hIssue
    obtain h | h := List.mem_append.mp hIssue
    · exact hInvalid issue h
    · exact hInvalid issue h

theorem currentStepIssues_not_aboutAttempts (planId : String) (checkpoint : Checkpoint)
    (planIds : Option (List String)) (steps : List StepRow) :
    ∀ issue ∈ currentStepIssues planId checkpoint planIds steps, ¬issue.aboutAttempts := by
  unfold currentStepIssues
  split
  · intro issue hIssue
    cases hIssue
  · split
    · intro issue hIssue
      cases hIssue
    · split
      · intro issue hIssue
        rw [List.mem_singleton] at hIssue
        subst hIssue
        exact Issue.not_aboutAttempts_of_code (by simp)
      · exact issueIf_not_aboutAttempts (by decide)

theorem stageMemberIssues_not_aboutAttempts (planId : String) (steps : List StepRow) (stages : List StageRow) :
    ∀ issue ∈ stageMemberIssues planId steps stages, ¬issue.aboutAttempts := by
  have hMismatch {test : Bool} {message : String} :
      ∀ issue ∈ issueIf test .snapshotMismatch message, ¬issue.aboutAttempts :=
    issueIf_not_aboutAttempts (by decide)
  unfold stageMemberIssues
  split
  · intro issue hIssue
    cases hIssue
  · intro issue hIssue
    obtain h | h := List.mem_append.mp hIssue
    · obtain ⟨step, -, h⟩ := List.mem_flatMap.mp h
      split at h
      · cases h
      · exact hMismatch issue h
    · obtain ⟨stage, -, h⟩ := List.mem_flatMap.mp h
      obtain h | h := List.mem_append.mp h
      · exact hMismatch issue h
      · exact hMismatch issue h

theorem collectExecutionSnapshotIssues_not_aboutAttempts (db : Db) (planId : String)
    (checkpoint : Option Checkpoint) (planIds : Option (List String)) :
    ∀ issue ∈ collectExecutionSnapshotIssues db planId checkpoint planIds, ¬issue.aboutAttempts := by
  have hMismatch {test : Bool} {message : String} :
      ∀ issue ∈ issueIf test .snapshotMismatch message, ¬issue.aboutAttempts :=
    issueIf_not_aboutAttempts (by decide)
  unfold collectExecutionSnapshotIssues
  split
  · intro issue hIssue
    cases hIssue
  · split
    · intro issue hIssue
      cases hIssue
    · simp only [List.forall_mem_append]
      refine ⟨⟨?_, stageMemberIssues_not_aboutAttempts planId _ _⟩, ?_⟩
      · split
        · intro issue hIssue
          cases hIssue
        · intro issue hIssue
          simp only [planStepIssues, List.mem_append, List.mem_flatMap] at hIssue
          obtain (h | ⟨_, -, h⟩) | ⟨_, -, h⟩ := hIssue <;> exact hMismatch issue h
      · split
        · intro issue hIssue
          cases hIssue
        · unfold checkpointSnapshotIssues
          simp only [List.forall_mem_append]
          exact ⟨⟨⟨⟨⟨⟨⟨⟨hMismatch, hMismatch⟩, hMismatch⟩, hMismatch⟩, hMismatch⟩, hMismatch⟩, hMismatch⟩,
            hMismatch⟩, currentStepIssues_not_aboutAttempts planId _ _ _⟩

/-- The checker has nothing to say about attempts in order. -/
theorem AttemptsInOrder.collectIntegrityIssues_clear {db : Db} (h : AttemptsInOrder db) (planId : String)
    (planIds : Option (List String)) :
    ∀ issue ∈ collectIntegrityIssues db planId planIds, ¬issue.aboutAttempts := by
  unfold collectIntegrityIssues
  simp only [List.forall_mem_append]
  refine ⟨⟨⟨⟨⟨⟨issueIf_not_aboutAttempts (by decide), ?_⟩, ?_⟩, ?_⟩,
    collectExecutionSnapshotIssues_not_aboutAttempts db planId _ _⟩, ?_⟩, issueIf_not_aboutAttempts (by decide)⟩
  · split
    · intro issue hIssue
      cases hIssue
    · unfold checkpointIndexIssues
      simp only [List.forall_mem_append]
      refine ⟨⟨issueIf_not_aboutAttempts (by decide), issueIf_not_aboutAttempts (by decide)⟩, ?_⟩
      split
      · intro issue hIssue
        cases hIssue
      · exact issueIf_not_aboutAttempts (by decide)
  · unfold lockIssues
    simp only [List.forall_mem_append]
    exact ⟨issueIf_not_aboutAttempts (by decide), issueIf_not_aboutAttempts (by decide)⟩
  · intro issue hIssue
    obtain ⟨executionId, -, hIssue⟩ := List.mem_flatMap.mp hIssue
    exact executionIssues_not_aboutAttempts executionId _ _ issue hIssue
  · intro issue hIssue
    obtain ⟨group, hGroup, hIssue⟩ := List.mem_flatMap.mp hIssue
    refine Issue.not_aboutAttempts_of_code ?_
    rw [h.attemptGroupIssues_code planId hGroup issue hIssue]
    decide

end Checker

end CommandConsole.Execution
