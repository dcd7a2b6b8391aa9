import CommandConsole.Retry.RetryExecutor

/-! # What a retried call may do

The events of a call are those of its attempts: every attempt but the last failed
for a transient reason and has been rolled back if it had begun. The bound on the
actions, the silence after a commit and the rollbacks follow from that shape.
-/
namespace CommandConsole.Retry
open Library Identity Library.Process
set_option autoImplicit false

/-- The events of an attempt that another one follows. -/
inductive Retried (n : Nat) : List Event → Prop where
  | begin {classification : RetryFailureClassification} (h : canRetry classification = true) :
      Retried n [.begin n false, .failed n classification]
  | action {classification : RetryFailureClassification} (h : canRetry classification = true) :
      Retried n [.begin n true, .action n, .rollback n, .failed n classification]

/-- The events of the attempt that ends the call. -/
inductive Last (n : Nat) : List Event → Prop where
  | cancelled : Last n []
  | beginCancelled : Last n [.begin n false]
  | beginFailed (classification : RetryFailureClassification) :
      Last n [.begin n false, .failed n classification]
  | actionCancelled : Last n [.begin n true, .action n]
  | actionFailed (classification : RetryFailureClassification) :
      Last n [.begin n true, .action n, .rollback n, .failed n classification]
  | commit : Last n [.begin n true, .action n, .commit n]
  | commitFailed (classification : RetryFailureClassification) :
      Last n [.begin n true, .action n, .commit n, .failed n classification]

/-- The events from the attempt `n` on. -/
inductive Attempted (maximumAttempts : Int) : Nat → List Event → Prop where
  | last {n : Nat} {events : List Event} (h : Last n events) : Attempted maximumAttempts n events
  | retry {n : Nat} {events rest : List Event} (hMaximum : n < maximumAttempts) (h : Retried n events)
      (hRest : Attempted maximumAttempts (n + 1) rest) : Attempted maximumAttempts n (events ++ rest)

def Event.isAction : Event → Bool
  | .action _ => true
  | _ => false

def Event.isCommit : Event → Bool
  | .commit _ => true
  | _ => false

def Event.isBegin : Event → Bool
  | .begin _ _ => true
  | _ => false

structure Safe (maximumAttempts : Int) (events : List Event) : Prop where
  noActionAfterCommit : events.Pairwise fun earlier later => earlier.isCommit = true → later.isAction = false
  bounded : events.countP Event.isAction ≤ maximumAttempts.toNat
  transient : ∀ before between after i j, events = before ++ .action i :: (between ++ .action j :: after) →
    ∃ classification, .failed i classification ∈ between ∧ canRetry classification = true
  rolledBack : ∀ before between after i j begun, events = before ++ .begin i true :: (between ++ .begin j begun :: after) →
    .rollback i ∈ between

section Shape

variable {maximumAttempts : Int} {n : Nat} {events : List Event}

theorem cons_split {first found : Event} {rest before after : List Event} (hNe : first ≠ found)
    (h : first :: rest = before ++ found :: after) :
    ∃ before', before = first :: before' ∧ rest = before' ++ found :: after := by
  cases before with
  | nil => exact absurd (List.cons.inj h).1 hNe
  | cons head before' =>
    obtain ⟨rfl, hRest⟩ := List.cons.inj h
    exact ⟨before', rfl, hRest⟩

theorem two_le_countP {p : Event → Bool} {left right : Event} {before between after : List Event}
    (hLeft : p left = true) (hRight : p right = true) :
    2 ≤ (before ++ left :: (between ++ right :: after)).countP p := by
  simp only [List.countP_append, List.countP_cons, hLeft, hRight, if_true]
  omega

theorem Last.countP_action (h : Last n events) : events.countP Event.isAction ≤ 1 := by
  cases h <;> simp [List.countP_cons, Event.isAction]

theorem Last.countP_begin (h : Last n events) : events.countP Event.isBegin ≤ 1 := by
  cases h <;> simp [List.countP_cons, Event.isBegin]

theorem Retried.countP_action (h : Retried n events) : events.countP Event.isAction ≤ 1 := by
  cases h <;> simp [List.countP_cons, Event.isAction]

theorem Retried.no_commit (h : Retried n events) : ∀ event ∈ events, event.isCommit = false := by
  cases h <;> simp [Event.isCommit]

theorem Last.noActionAfterCommit (h : Last n events) :
    events.Pairwise fun earlier later => earlier.isCommit = true → later.isAction = false := by
  cases h <;> simp [Event.isCommit, Event.isAction]

theorem Attempted.noActionAfterCommit (h : Attempted maximumAttempts n events) :
    events.Pairwise fun earlier later => earlier.isCommit = true → later.isAction = false := by
  induction h with
  | last h => exact h.noActionAfterCommit
  | retry _ h _ ih =>
    have hNone := h.no_commit
    refine List.pairwise_append.mpr ⟨?_, ih, fun earlier hEarlier _ _ hCommit => ?_⟩
    · refine List.pairwise_of_forall_mem_list fun earlier hEarlier _ _ hCommit => ?_
      rw [hNone earlier hEarlier] at hCommit
      cases hCommit
    · rw [hNone earlier hEarlier] at hCommit
      cases hCommit

theorem Attempted.countP_action (h : Attempted maximumAttempts n events) (hMaximum : n ≤ maximumAttempts) :
    (events.countP Event.isAction : Int) ≤ maximumAttempts - n + 1 := by
  induction h with
  | last h =>
    have hOne := h.countP_action
    omega
  | retry hNext h _ ih =>
    have hOne := h.countP_action
    have hRest := ih (by omega)
    rw [List.countP_append]
    push_cast at hRest ⊢
    omega

theorem Attempted.transient (h : Attempted maximumAttempts n events) :
    ∀ before between after i j, events = before ++ .action i :: (between ++ .action j :: after) →
      ∃ classification, .failed i classification ∈ between ∧ canRetry classification = true := by
  induction h with
  | last h =>
    rintro before between after i j rfl
    have hOne := h.countP_action
    have hTwo : 2 ≤ (before ++ .action i :: (between ++ .action j :: after)).countP Event.isAction :=
      two_le_countP rfl rfl
    omega
  | retry _ h _ ih =>
    intro before between after i j hSplit
    cases h with
    | begin hRetry =>
      obtain ⟨before₁, -, hSplit₁⟩ := cons_split (by nofun) hSplit
      obtain ⟨before₂, -, hSplit₂⟩ := cons_split (by nofun) hSplit₁
      exact ih before₂ between after i j hSplit₂
    | @action classification hRetry =>
      obtain ⟨before₁, -, hSplit₁⟩ := cons_split (by nofun) hSplit
      cases before₁ with
      | nil =>
        obtain ⟨hAction, hSplit₂⟩ := List.cons.inj hSplit₁
        cases hAction
        obtain ⟨between₁, hBetween, hSplit₃⟩ := cons_split (by nofun) hSplit₂
        obtain ⟨between₂, hBetween₁, -⟩ := cons_split (by nofun) hSplit₃
        exact ⟨classification, by simp [hBetween, hBetween₁], hRetry⟩
      | cons _ before₂ =>
        obtain ⟨before₃, -, hSplit₃⟩ := cons_split (by nofun) (List.cons.inj hSplit₁).2
        obtain ⟨before₄, -, hSplit₄⟩ := cons_split (by nofun) hSplit₃
        exact ih before₄ between after i j hSplit₄

theorem Attempted.rolledBack (h : Attempted maximumAttempts n events) :
    ∀ before between after i j begun,
      events = before ++ .begin i true :: (between ++ .begin j begun :: after) → .rollback i ∈ between := by
  induction h with
  | last h =>
    rintro before between after i j begun rfl
    have hOne := h.countP_begin
    have hTwo : 2 ≤ (before ++ .begin i true :: (between ++ .begin j begun :: after)).countP Event.isBegin :=
      two_le_countP rfl rfl
    omega
  | retry _ h _ ih =>
    intro before between after i j begun hSplit
    cases h with
    | begin hRetry =>
      obtain ⟨before₁, -, hSplit₁⟩ := cons_split (by nofun) hSplit
      obtain ⟨before₂, -, hSplit₂⟩ := cons_split (by nofun) hSplit₁
      exact ih before₂ between after i j begun hSplit₂
    | action hRetry =>
      cases before with
      | nil =>
        obtain ⟨hBegin, hSplit₁⟩ := List.cons.inj hSplit
        cases hBegin
        obtain ⟨between₁, hBetween, hSplit₂⟩ := cons_split (by nofun) hSplit₁
        obtain ⟨between₂, hBetween₁, -⟩ := cons_split (by nofun) hSplit₂
        simp [hBetween, hBetween₁]
      | cons _ before₁ =>
        obtain ⟨before₂, -, hSplit₂⟩ := cons_split (by nofun) (List.cons.inj hSplit).2
        obtain ⟨before₃, -, hSplit₃⟩ := cons_split (by nofun) hSplit₂
        obtain ⟨before₄, -, hSplit₄⟩ := cons_split (by nofun) hSplit₃
        exact ih before₄ between after i j begun hSplit₄

theorem Attempted.safe (h : Attempted maximumAttempts 1 events) (hMaximum : 1 ≤ maximumAttempts) :
    Safe maximumAttempts events where
  noActionAfterCommit := h.noActionAfterCommit
  bounded := by
    have hCount := h.countP_action hMaximum
    push_cast at hCount
    omega
  transient := h.transient
  rolledBack := h.rolledBack

theorem safe_nil (maximumAttempts : Int) : Safe maximumAttempts [] where
  noActionAfterCommit := .nil
  bounded := Nat.zero_le _
  transient := fun before _ _ _ _ h => by simp at h
  rolledBack := fun before _ _ _ _ _ h => by simp at h

end Shape

section Runs

/-- Inside a call: the flag of the attempt, and the events since `old`. -/
def Owned (old events : List Event) (transactionStarted : Bool) (state : RetryState) : Prop :=
  state.own = (1, transactionStarted, old ++ events)

/-- A failure that the executor catches, with the state it finds. -/
inductive Caught (old : List Event) (n : Nat) (err : Thrown) (state : RetryState) : Prop where
  | begin (h : Owned old [.begin n false] false state)
  | action (h : Owned old [.begin n true, .action n] true state)
  | commit (h : Owned old [.begin n true, .action n, .commit n] false state)
      (hKind : err.kind = .indeterminateCommit)

/-- A failure of an attempt: the cancellation of a commit is not caught. -/
inductive Failed (old : List Event) (n : Nat) (err : Thrown) (state : RetryState) : Prop where
  | caught (h : Caught old n err state)
  | cancelled (h : Owned old [.begin n true, .action n, .commit n] false state)
      (hKind : err.kind = .operationCanceled) (hRequested : state.cancellationRequested = true)

/-- What the events since `old` are once the rollback is done and the failure is classified. -/
def Settled (old : List Event) (n : Nat) (err : Thrown) (state : RetryState) : Prop :=
  ∃ events started, Owned old events started state ∧ Last n (events ++ [.failed n (classify err)]) ∧
    (canRetry (classify err) = true → Retried n (events ++ [.failed n (classify err)]))

/-- The state in which a call leaves its attempts. -/
def Ended (maximumAttempts : Int) (old : List Event) (n : Nat) (state : RetryState) : Prop :=
  ∃ events started, Owned old events started state ∧ Attempted maximumAttempts n events

variable {old new : List Event} {started : Bool} {n : Nat} {α : Type}

theorem ends_record (event : Event) {E : Thrown → RetryState → Prop} :
    Ends (Owned old new started) (record event) (fun _ => Owned old (new ++ [event]) started) E := by
  refine .modify fun state h => ?_
  simp only [Owned, RetryState.own, Prod.mk.injEq] at h ⊢
  obtain ⟨hDepth, hStarted, hEvents⟩ := h
  exact ⟨hDepth, hStarted, by rw [hEvents, List.append_assoc]⟩

theorem ends_setTransactionStarted (next : Bool) {E : Thrown → RetryState → Prop} :
    Ends (Owned old new started) (setTransactionStarted next) (fun _ => Owned old new next) E := by
  refine .modify fun state h => ?_
  simp only [Owned, RetryState.own, Prod.mk.injEq] at h ⊢
  exact ⟨h.1, trivial, h.2.2⟩

/-- A look at the token tells what the token then keeps. -/
theorem ends_isCancellationRequested {P : RetryState → Prop} {own : Nat × Bool × List Event}
    (hOwn : ∀ state, P state → state.own = own) {E : Thrown → RetryState → Prop} :
    Ends P isCancellationRequested (fun requested state => state.own = own ∧ state.cancellationRequested = requested) E :=
  .bind (.ask (Q := fun _ => P) fun _ _ h => h) fun _ =>
    .bind (.modify (Q := fun _ state => state.own = own) fun state h => hOwn state h) fun _ =>
      .read fun _ h => ⟨h, rfl⟩

/-- A cancelled token stays cancelled. -/
theorem ends_isCancellationRequested_of_requested {own : Nat × Bool × List Event} {E : Thrown → RetryState → Prop} :
    Ends (fun state => state.own = own ∧ state.cancellationRequested = true) isCancellationRequested
      (fun requested state => state.own = own ∧ requested = true) E :=
  .bind (.ask (Q := fun _ state => state.own = own ∧ state.cancellationRequested = true) fun _ _ h => h)
    fun _ =>
      .bind (.modify (Q := fun _ state => state.own = own ∧ state.cancellationRequested = true)
        fun state h => ⟨h.1, by simp [h.2]⟩) fun _ => .read fun _ h => h

theorem ends_invoke (event : Event) (outcome : Option Thrown) :
    Ends (Owned old new started) (invoke event outcome)
      (fun _ state => outcome = none ∧ Owned old (new ++ [event]) started state)
      fun err state => outcome = some err ∧ Owned old (new ++ [event]) started state := by
  refine .bind (ends_record event) fun _ => ?_
  cases outcome with
  | none =>
    refine .pure () fun state h => ?_
    exact ⟨rfl, h⟩
  | some err =>
    refine .throw err fun state h => ?_
    exact ⟨rfl, h⟩

theorem ends_commitTransaction (operation : RetryOperationContext) (attempt : Attempt α) :
    Ends (Owned old [.begin n true, .action n] false) (commitTransaction operation attempt n)
      (fun _ => Owned old [.begin n true, .action n, .commit n] false) (Failed old n) := by
  have hWrap (err : Thrown) : Ends (Owned old [.begin n true, .action n, .commit n] false)
      (throwThe Thrown (indeterminateCommit operation err) : Retry Unit)
      (fun _ => Owned old [.begin n true, .action n, .commit n] false) (Failed old n) :=
    .throw _ fun _ h => .caught (.commit h rfl)
  refine .tryCatch ((ends_invoke (.commit n) attempt.commit).weaken (fun _ h => h) (fun _ _ h => h.2)
    fun _ _ h => h.2) fun err => .ite (fun hKind => ?_) fun _ => hWrap err
  refine .bind (ends_isCancellationRequested fun _ h => h) fun requested => ?_
  cases requested with
  | true => exact .throw err fun _ h => .cancelled h.1 hKind h.2
  | false => exact (hWrap err).weaken (fun _ h => h.1) (fun _ _ h => h) fun _ _ h => h

theorem ends_attemptOnce (operation : RetryOperationContext) (attempt : Attempt α) :
    Ends (Owned old [] false) (attemptOnce operation attempt n)
      (fun _ => Owned old [.begin n true, .action n, .commit n] false) (Failed old n) := by
  have hBegin : Ends (Owned old [] false) (invoke (.begin n attempt.begin.isNone) attempt.begin)
      (fun _ => Owned old [.begin n true] false) (Failed old n) := by
    refine (ends_invoke _ _).weaken (fun _ h => h) (fun _ state h => ?_) fun err state h => ?_
    · rw [h.1] at h
      exact h.2
    · rw [h.1] at h
      exact .caught (.begin h.2)
  refine .bind hBegin fun _ => .bind (ends_setTransactionStarted true) fun _ => .bind (ends_record _) fun _ => ?_
  have hAction : Ends (Owned old [.begin n true, .action n] true) attempt.action
      (fun _ => Owned old [.begin n true, .action n] true) (Failed old n) :=
    (attempt.isolated (1, true, old ++ [Event.begin n true, Event.action n]) Nat.one_ne_zero).weaken (fun _ h => h)
      (fun _ _ h => h) fun err _ h => .caught (.action h)
  exact .bind hAction fun result => .bind (ends_setTransactionStarted false) fun _ =>
    .bind (ends_commitTransaction operation attempt) fun _ => .pure result fun _ h => h

theorem Failed.last {err : Thrown} {state : RetryState} (h : Failed old n err state) :
    ∃ events started, Owned old events started state ∧ Last n events := by
  rcases h with (h | h | ⟨h, -⟩) | ⟨h, -, -⟩
  · exact ⟨_, _, h, .beginCancelled⟩
  · exact ⟨_, _, h, .actionCancelled⟩
  · exact ⟨_, _, h, .commit⟩
  · exact ⟨_, _, h, .commit⟩

theorem Failed.of_own {err : Thrown} {state next : RetryState} (h : Caught old n err state)
    (hOwn : next.own = state.own) : Caught old n err next := by
  rcases h with h | h | ⟨h, hKind⟩
  · exact .begin (hOwn.trans h)
  · exact .action (hOwn.trans h)
  · exact .commit (hOwn.trans h) hKind

/-- Only a failure that is caught is handled. -/
theorem ends_handles (err : Thrown) {E : Thrown → RetryState → Prop} :
    Ends (Failed old n err) (handles err) (fun handled state =>
      if handled then Caught old n err state else ∃ events started, Owned old events started state ∧ Last n events) E := by
  refine .ite (fun hKind => .at fun state h => ?_) fun hKind => .pure true fun state h => ?_
  · obtain ⟨events, started, hOwned, hLast⟩ := h.last
    cases h with
    | caught hCaught =>
      refine .bind (ends_isCancellationRequested fun next hNext => congrArg RetryState.own hNext) fun cancelled =>
        .pure _ fun next hNext => ?_
      cases cancelled with
      | true => exact ⟨events, started, hNext.1.trans hOwned, hLast⟩
      | false => exact Failed.of_own hCaught hNext.1
    | cancelled hCommit _ hRequested =>
      have hLook : Ends (fun next => next = state) isCancellationRequested
          (fun requested next => next.own = state.own ∧ requested = true) E :=
        ends_isCancellationRequested_of_requested.weaken
          (fun next hNext => ⟨congrArg RetryState.own hNext, by rw [hNext, hRequested]⟩)
          (fun _ _ hNext => hNext) fun _ _ hNext => hNext
      refine .bind hLook fun cancelled => .pure _ fun next hNext => ?_
      obtain ⟨hOwn, rfl⟩ := hNext
      exact ⟨events, started, hOwn.trans hOwned, hLast⟩
  · cases h with
    | caught hCaught => exact hCaught
    | cancelled _ hCancelled _ => exact absurd hCancelled hKind

theorem ends_rollbackStarted (attempt : Attempt α) (err : Thrown) {E : Thrown → RetryState → Prop} :
    Ends (Caught old n err) (rollbackStarted attempt n) (fun _ => Settled old n err) E := by
  refine .at fun state h => ?_
  have hStay {events : List Event} (hOwned : Owned old events false state)
      (hSettled : Settled old n err state) : Ends (fun next => next = state)
        (rollbackStarted attempt n) (fun _ => Settled old n err) E := by
    refine .bind (.read (Q := fun started next => started = false ∧ next = state) fun next hNext => ?_)
      fun started => .ite (fun hStarted => ?_) fun _ => .pure () fun next hNext => hNext.2 ▸ hSettled
    · subst hNext
      exact ⟨congrArg (fun own => own.2.1) hOwned, rfl⟩
    · intro clock m next hNext
      rw [hNext.1] at hStarted
      cases hStarted
  rcases h with h | h | ⟨h, hKind⟩
  · exact hStay h ⟨_, _, h, .beginFailed _, fun hRetry => .begin hRetry⟩
  · refine .bind (.read (Q := fun started next => started = true ∧ next = state) fun next hNext => ?_)
      fun started => .ite (fun _ => ?_) fun hStarted => ?_
    · subst hNext
      exact ⟨congrArg (fun own => own.2.1) h, rfl⟩
    · have hSettled {next : RetryState} (hNext : Owned old [.begin n true, .action n, .rollback n] true next) :
          Settled old n err next := ⟨_, _, hNext, .actionFailed _, fun hRetry => .action hRetry⟩
      refine .tryCatch ((ends_invoke (.rollback n) attempt.rollback).weaken
        (fun next hNext => hNext.2 ▸ h) (fun _ _ hNext => hSettled hNext.2)
        fun _ _ hNext => hSettled hNext.2) fun _ => .pure () fun _ hNext => hNext
    · intro clock m next hNext
      exact absurd hNext.1 hStarted
  · have hIndeterminate : classify err = .indeterminate := by
      rw [classify, hKind]
      rfl
    refine hStay h ⟨_, _, h, .commitFailed _, fun hRetry => ?_⟩
    rw [hIndeterminate] at hRetry
    cases hRetry

theorem ends_throwIfCancellationRequested {own : Nat × Bool × List Event} :
    Ends (fun state => state.own = own) throwIfCancellationRequested (fun _ state => state.own = own)
      fun _ state => state.own = own :=
  .bind (ends_isCancellationRequested fun _ h => h) fun _ => .ite (fun _ => .throw _ fun _ h => h.1) fun _ =>
    .pure () fun _ h => h.1

variable (operation : RetryOperationContext) (attempts : Nat → Attempt α)

/-- An attempt ends the call or hands on to the next one. -/
theorem ends_runAttempts (n : Nat) (old : List Event) (started : Bool) :
    Ends (Owned old [] started) (runAttempts operation attempts n)
      (fun _ => Ended operation.maximumAttempts old n) fun _ => Ended operation.maximumAttempts old n := by
  induction hLeft : (operation.maximumAttempts - n).toNat using Nat.strongRecOn
      generalizing n old started with
  | _ left ih =>
    have hLast {events : List Event} {started : Bool} {state : RetryState} (hOwned : Owned old events started state)
        (h : Last n events) : Ended operation.maximumAttempts old n state := ⟨events, started, hOwned, .last h⟩
    rw [runAttempts]
    have hCheck : Ends (Owned old [] started) throwIfCancellationRequested (fun _ => Owned old [] started)
        fun _ => Ended operation.maximumAttempts old n :=
      ends_throwIfCancellationRequested.weaken (fun _ h => h) (fun _ _ h => h) fun _ _ h => hLast h .cancelled
    refine .bind hCheck fun _ => .bind (ends_setTransactionStarted false) fun _ => ?_
    refine .tryCatch ((ends_attemptOnce operation (attempts n)).weaken (fun _ h => h) (fun _ _ h => hLast h .commit)
      fun _ _ h => h) fun err => .bind (ends_handles err) fun handled => ?_
    cases handled with
    | false =>
      refine .throw err fun state h => ?_
      obtain ⟨events, started, hOwned, hEnd⟩ := h
      exact hLast hOwned hEnd
    | true =>
      refine .bind (ends_rollbackStarted (attempts n) err) fun _ => .at fun state hSettled => ?_
      obtain ⟨events, started, hOwned, hEnd, hRetried⟩ := hSettled
      have hRecord : Ends (fun next => next = state) (record (.failed n (classify err)))
          (fun _ => Owned old (events ++ [.failed n (classify err)]) started)
          fun _ => Ended operation.maximumAttempts old n :=
        (ends_record _).weaken (fun next hNext => hNext ▸ hOwned) (fun _ _ h => h) fun _ _ h => h
      refine .bind hRecord fun _ => ?_
      split
      · exact .throw err fun _ h => hLast h hEnd
      · rename_i hMore
        have hRetry : canRetry (classify err) = true := by simpa using (not_or.mp hMore).2
        have hNext := ih _ (by omega) (n + 1) (old ++ (events ++ [.failed n (classify err)])) started rfl
        have hEnded {next : RetryState} (h : Ended operation.maximumAttempts
            (old ++ (events ++ [.failed n (classify err)])) (n + 1) next) : Ended operation.maximumAttempts old n next := by
          obtain ⟨rest, last, hLater, hRest⟩ := h
          refine ⟨_, last, ?_, .retry (by omega) (hRetried hRetry) hRest⟩
          rw [Owned, ← List.append_assoc]
          exact hLater
        refine hNext.weaken (fun next h => ?_) (fun _ _ h => hEnded h) fun _ _ h => hEnded h
        rw [Owned, List.append_nil]
        exact h

/-- The effect of a call on the state of the executor. -/
structure Executed (maximumAttempts : Int) (before after : RetryState) : Prop where
  depth : after.executionDepth = before.executionDepth
  safe : ∃ events, after.events = before.events ++ events ∧ Safe maximumAttempts events

theorem Executed.refl (maximumAttempts : Int) (state : RetryState) : Executed maximumAttempts state state :=
  ⟨rfl, [], (List.append_nil _).symm, safe_nil maximumAttempts⟩

theorem ends_executeAsync (before : RetryState) :
    Ends (fun state => state = before) (executeAsync operation attempts)
      (fun _ => Executed operation.maximumAttempts before) fun _ => Executed operation.maximumAttempts before := by
  have hRefuse (err : Thrown) : Ends (fun state => state = before) (throwThe Thrown err : Retry α)
      (fun _ => Executed operation.maximumAttempts before) fun _ => Executed operation.maximumAttempts before :=
    .throw err fun state h => h ▸ .refl _ _
  refine .ite (fun _ => hRefuse _) fun _ => .ite (fun _ => hRefuse _) fun _ => .ite (fun _ => hRefuse _) fun hMaximum => ?_
  refine .bind (.read (Q := fun depth state => state = before ∧ depth = before.executionDepth) fun state h =>
    ⟨h, h ▸ rfl⟩) fun depth => .ite (fun _ => (hRefuse _).weaken (fun _ h => h.1) (fun _ _ h => h) fun _ _ h => h)
      fun hOuter => .at fun state hState => ?_
  obtain ⟨rfl, rfl⟩ := hState
  have hDepth : state.executionDepth = 0 := not_not.mp hOuter
  have hEnter {E : Thrown → RetryState → Prop} : Ends (fun next => next = state)
      (changeDepth fun depth => depth + 1) (fun _ => Owned state.events [] state.transactionStarted) E := by
    refine .modify fun next hNext => ?_
    subst hNext
    simp [Owned, RetryState.own, hDepth]
  have hLeave {E : Thrown → RetryState → Prop} : Ends (Ended operation.maximumAttempts state.events 1)
      (changeDepth fun depth => depth - 1) (fun _ => Executed operation.maximumAttempts state) E := by
    refine .modify fun next hNext => ?_
    obtain ⟨events, started, hOwned, hAttempted⟩ := hNext
    simp only [Owned, RetryState.own, Prod.mk.injEq] at hOwned
    obtain ⟨hOne, -, hEvents⟩ := hOwned
    refine ⟨?_, events, hEvents, hAttempted.safe (by omega)⟩
    dsimp only
    rw [hOne, hDepth]
  refine .bind hEnter fun _ => .bind (.tryCatch (ends_runAttempts operation attempts 1 _ _) fun err =>
    .bind hLeave fun _ => .throw err fun _ h => h) fun result => .bind hLeave fun _ => .pure result fun _ h => h

end Runs

end CommandConsole.Retry
