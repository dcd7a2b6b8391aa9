import CommandConsole.Recovery.RequestTurns

/-! # Which requests are committed

The controller asks for an approval only where the policy wants one and does not look at
the status of the other requests. A request is committed once, and in a status that allows
it, as long as no commit is begun on a request that is over or in the hands of the committer. -/
namespace CommandConsole.Recovery
open Library
open Execution (trimmed evaluateRecoveryPolicy)
set_option autoImplicit false

/-- The recorded events allow a commit: the request is approved, or previewed under a policy that needs no approval. -/
def Invocation.Lawful (invocation : Invocation) : Prop :=
  ∃ request, requestOf invocation.history = some request ∧
    (request.status = some .approved ∨ request.status = some .previewed ∧
      ∃ policy, request.policy = some policy ∧ policy.allowed = true ∧ policy.requiresApproval = false)

def CommitsLawfully (system : RecoverySystem) : Prop :=
  (∀ invocation ∈ system.invoked, invocation.Lawful) ∧
    (system.invoked.map Invocation.recoveryRequestId).Nodup

/-- A commit is begun neither on a request that is over (one that needs an approval is refused then, and one
without a preview too) nor while an earlier commit of the request has no recorded result. -/
def CommitsInOrder (turn : RecoveryTurn) (system : RecoverySystem) : Prop :=
  FreshId turn system ∧
    match turn with
    | .commitRecovery recoveryRequestId _ false =>
      match getRecoveryRequest system.log recoveryRequestId with
      | none => True
      | some request =>
        if (history system.log (trimmed recoveryRequestId)).any RecoveryEvent.ends then
          request.requiresApproval = true ∨ request.preview = none
        else ∀ pending ∈ system.commits, pending.recoveryRequestId ≠ trimmed recoveryRequestId
    | _ => True

instance (turn : RecoveryTurn) (system : RecoverySystem) : Decidable (CommitsInOrder turn system) := by
  unfold CommitsInOrder
  have : Decidable (match turn with
    | .commitRecovery recoveryRequestId _ false =>
      match getRecoveryRequest system.log recoveryRequestId with
      | none => True
      | some request =>
        if (history system.log (trimmed recoveryRequestId)).any RecoveryEvent.ends then
          request.requiresApproval = true ∨ request.preview = none
        else ∀ pending ∈ system.commits, pending.recoveryRequestId ≠ trimmed recoveryRequestId
    | _ => True) := by
    split
    · split
      · infer_instance
      · split <;> infer_instance
    · infer_instance
  infer_instance

section Invariant

structure Orderly (system : RecoverySystem) : Prop where
  sound : LogSound system.log
  pending : ∀ pending ∈ system.commits, history system.log pending.recoveryRequestId ≠ []
  answered : ∀ invocation ∈ system.invoked,
    (∃ pending ∈ system.commits, pending.recoveryRequestId = invocation.recoveryRequestId) ∨
      Ended (history system.log invocation.recoveryRequestId)
  lawful : CommitsLawfully system

theorem orderly_initial : Orderly RecoverySystem.initial where
  sound := logSound_nil
  pending := by simp [RecoverySystem.initial]
  answered := by simp [RecoverySystem.initial]
  lawful := ⟨by simp [RecoverySystem.initial], List.nodup_nil⟩

variable {system : RecoverySystem}

/-- A turn that begins no writing call and returns none. -/
theorem Orderly.quiet (hOrderly : Orderly system) {next : RecoverySystem} (hSound : LogSound next.log)
    (hLog : ∃ later, next.log = system.log ++ later) (hCommits : next.commits = system.commits)
    (hInvoked : next.invoked = system.invoked) : Orderly next := by
  obtain ⟨later, hLog⟩ := hLog
  refine ⟨hSound, ?_, ?_, ?_⟩
  · rw [hCommits, hLog]
    exact fun pending hIn => history_mono later (hOrderly.pending pending hIn)
  · rw [hCommits, hLog, hInvoked]
    intro invocation hIn
    refine (hOrderly.answered invocation hIn).imp_right fun hEnded => ?_
    rw [history_append]
    exact hEnded.append _
  · rw [CommitsLawfully, hInvoked]
    exact hOrderly.lawful

/-- A commit that is begun in order is lawful, and is the first of its request. -/
theorem invoked_lawful (hOrderly : Orderly system) {recoveryRequestId requestedBy : String} {request : RecoveryRequest}
    (hRequest : getRecoveryRequest system.log recoveryRequestId = some request)
    (hApproval : request.requiresApproval = true → request.status = some .approved) (hPreview : request.preview ≠ none)
    (hOrder : CommitsInOrder (.commitRecovery recoveryRequestId requestedBy false) system) :
    Invocation.Lawful ⟨request.recoveryRequestId, history system.log request.recoveryRequestId⟩ ∧
      request.recoveryRequestId ∉ system.invoked.map Invocation.recoveryRequestId := by
  obtain ⟨hId, hSome, hReplay⟩ := read_whole hOrderly.sound hRequest hPreview
  have hFormed := hOrderly.sound.history_formed (trimmed recoveryRequestId)
  have hOrdered := hOrderly.sound.ordered (trimmed recoveryRequestId)
  rw [← hId] at hSome hReplay hFormed hOrdered
  have hOpen : ¬Ended (history system.log request.recoveryRequestId) := by
    intro hEnded
    have hBranch := hOrder.2
    simp only [hRequest, ← hId, (ended_iff_any _).mp hEnded, if_true] at hBranch
    rcases hBranch with hNeeded | hNone
    · have hOver := terminal_of_ended hFormed hEnded hReplay
      rw [hApproval hNeeded] at hOver
      cases hOver
    · exact hPreview hNone
  refine ⟨⟨request, requestOf_eq_some.mpr ⟨hSome, hReplay⟩, ?_⟩, ?_⟩
  · obtain ⟨policy, hPolicy⟩ := decided_of_previewed hFormed hOrdered hReplay hPreview
    cases hNeeded : policy.requiresApproval with
    | true => exact Or.inl (hApproval (by simp [RecoveryRequest.requiresApproval, hPolicy, hNeeded]))
    | false =>
      obtain ⟨hAllowed, hStatus | ⟨-, hOther⟩ | hOver⟩ := (ruled_of_replay hFormed hReplay).ruled policy hPolicy
      · rw [policyStatus_allowed hAllowed, hNeeded] at hStatus
        exact Or.inr ⟨hStatus, policy, hPolicy, hAllowed, hNeeded⟩
      · rw [hNeeded] at hOther
        cases hOther
      · rw [not_terminal_of_open hFormed hOpen hReplay] at hOver
        cases hOver
  · rw [List.mem_map]
    rintro ⟨invocation, hIn, hSame⟩
    rcases hOrderly.answered invocation hIn with ⟨pending, hPending, hPendingId⟩ | hEnded
    · have hBranch := hOrder.2
      have hGoes : (history system.log request.recoveryRequestId).any RecoveryEvent.ends = false := by
        rw [← Bool.not_eq_true, ← ended_iff_any]
        exact hOpen
      simp only [hRequest, ← hId, hGoes, Bool.false_eq_true, if_false] at hBranch
      exact hBranch pending hPending (hPendingId.trans hSame)
    · rw [hSame] at hEnded
      exact hOpen hEnded

theorem orderly_take {turn : RecoveryTurn} (hOrderly : Orderly system) (hOrder : CommitsInOrder turn system) :
    Orderly (system.take turn) := by
  have hSound := logSound_take hOrderly.sound hOrder.1 hOrderly.pending
  have hEffect := take_effect turn system
  generalize system.take turn = next at hEffect hSound ⊢
  cases hEffect with
  | idle h =>
    subst h
    exact hOrderly
  | began _ _ _ _ _ _ h =>
    subst h
    exact hOrderly.quiet hSound ⟨[], (List.append_nil _).symm⟩ rfl rfl
  | dropped _ h =>
    subst h
    exact hOrderly.quiet hSound ⟨[], (List.append_nil _).symm⟩ rfl rfl
  | created _ _ _ _ _ _ _ h =>
    subst h
    exact hOrderly.quiet hSound ⟨_, rfl⟩ rfl rfl
  | previewed _ _ _ _ _ h =>
    subst h
    exact hOrderly.quiet hSound ⟨_, rfl⟩ rfl rfl
  | approved _ _ _ _ _ h =>
    subst h
    exact hOrderly.quiet hSound ⟨_, rfl⟩ rfl rfl
  | attempted _ _ _ _ h =>
    subst h
    exact hOrderly.quiet hSound ⟨_, rfl⟩ rfl rfl
  | cancelled _ _ _ _ h =>
    subst h
    exact hOrderly.quiet hSound ⟨_, rfl⟩ rfl rfl
  | other h =>
    subst h
    exact hOrderly.quiet hSound ⟨_, rfl⟩ rfl rfl
  | invoked recoveryRequestId requestedBy request pending hTurn hRequest hApproval hPreview hPending h =>
    subst h hTurn
    obtain ⟨hLawful, hFirst⟩ := invoked_lawful hOrderly hRequest hApproval hPreview hOrder
    obtain ⟨hId, hSome, -⟩ := read_whole hOrderly.sound hRequest hPreview
    refine ⟨hSound, ?_, ?_, ?_, ?_⟩
    · intro other hIn
      rcases List.mem_append.mp hIn with hOld | hNew
      · exact history_mono _ (hOrderly.pending other hOld)
      · obtain rfl := List.mem_singleton.mp hNew
        rw [hPending.1, hId]
        exact history_mono _ hSome
    · intro invocation hIn
      rcases List.mem_append.mp hIn with hOld | hNew
      · rcases hOrderly.answered invocation hOld with ⟨other, hOther, hSame⟩ | hEnded
        · exact Or.inl ⟨other, List.mem_append_left _ hOther, hSame⟩
        · refine Or.inr ?_
          rw [RecoverySystem.record, history_append]
          exact hEnded.append _
      · obtain rfl := List.mem_singleton.mp hNew
        exact Or.inl ⟨pending, List.mem_append_right _ (List.mem_singleton_self _), hPending.1⟩
    · intro invocation hIn
      rcases List.mem_append.mp hIn with hOld | hNew
      · exact hOrderly.lawful.1 invocation hOld
      · obtain rfl := List.mem_singleton.mp hNew
        exact hLawful
    · rw [RecoverySystem.record, List.map_append, List.map_singleton, List.nodup_append]
      refine ⟨hOrderly.lawful.2, List.nodup_singleton _, ?_⟩
      rintro left hLeft right hRight rfl
      rw [List.mem_singleton.mp hRight] at hLeft
      exact hFirst hLeft
  | returned index pending result hTurn hPending h =>
    subst h
    refine ⟨hSound, ?_, ?_, hOrderly.lawful⟩
    · intro other hIn
      exact history_mono _ (hOrderly.pending other (List.mem_of_mem_eraseIdx hIn))
    · intro invocation hIn
      rw [RecoverySystem.record, history_append]
      rcases hOrderly.answered invocation hIn with ⟨other, hOther, hSame⟩ | hEnded
      · obtain ⟨i, hAt⟩ := List.mem_iff_getElem?.mp hOther
        by_cases hHere : i = index
        · subst hHere
          obtain rfl := Option.some.inj (hPending.symm.trans hAt)
          refine Or.inr ⟨recordCommitResult pending.recoveryRequestId pending.executionId pending.requestedBy result,
            List.mem_append_right _ ?_, recordCommitResult_ends _ _ _ result⟩
          rw [hSame, history_events_self (by simp [RecoveryEvent.requestId, recordCommitResult])]
          exact List.mem_singleton_self _
        · exact Or.inl ⟨other, slot_eraseIdx hAt hHere, hSame⟩
      · exact Or.inr (hEnded.append _)

/-- Requests are committed lawfully and once in every run whose commits are begun in order. -/
theorem recovery_commits_lawfully {system : RecoverySystem}
    (hRun : Reaches (fun turn s => s.take turn) CommitsInOrder RecoverySystem.initial system) :
    CommitsLawfully system :=
  (hRun.invariant orderly_initial fun _ _ hOrderly hOrder => orderly_take hOrderly hOrder).lawful

end Invariant

section Runs

def quietToken : Execution.StaleToken := ⟨some "paused", none, none, none, "checkpoint", "steps", "containment"⟩

/-- A plan without candidates, which needs no approval. -/
def quietPlan (executionId : String) : PlanRecord where
  executionId
  planId := "plan"
  recoveryMode := "resume"
  reading := ⟨"plan", executionId, some 0, [], []⟩
  staleToken := quietToken
  nextStepId := none

/-- A plan with a step of unknown effects, which needs one. -/
def heavyPlan (executionId : String) : PlanRecord where
  executionId
  planId := "plan"
  recoveryMode := "resume"
  reading := ⟨"plan", executionId, some 0, [⟨"step", 1, none, false, none, ["unknown"]⟩], []⟩
  staleToken := quietToken
  nextStepId := none

def randomText : RandomText where
  text := "k3x9"
  digits c hMem := by
    have hAll : "k3x9".toList.all (fun c => c.isDigit || c.isLower) = true := by decide +kernel
    exact Bool.or_eq_true_iff.mp (List.all_eq_true.mp hAll c hMem)

def openedWith (plan : PlanRecord) : List RecoveryTurn :=
  [.requestRecovery plan.executionId "resume" "operator", .planBuilt 0 (.ok plan) 7 randomText,
    .previewRecovery "recovery_7_k3x9"]

abbrev after (turns : List RecoveryTurn) : RecoverySystem :=
  runAll (fun turn s => RecoverySystem.take turn s) RecoverySystem.initial turns

/-- An approved request is committed. -/
theorem approved_commit_lawful :
    (after (openedWith (heavyPlan "execution") ++ [.approveRecovery "recovery_7_k3x9" "lead",
      .commitRecovery "recovery_7_k3x9" "operator" false, .committed 0 .ok,
      .commitRecovery "recovery_7_k3x9" "operator" false])).invoked.length = 1 ∧
    CommitsLawfully (after (openedWith (heavyPlan "execution") ++ [.approveRecovery "recovery_7_k3x9" "lead",
      .commitRecovery "recovery_7_k3x9" "operator" false, .committed 0 .ok,
      .commitRecovery "recovery_7_k3x9" "operator" false])) :=
  ⟨by decide +kernel, recovery_commits_lawfully (GuardedAll.reaches (by decide +kernel))⟩

/-- A request that needs no approval is committed after it was cancelled, and twice at once. -/
theorem cancelled_and_overlapping_commits :
    ¬CommitsLawfully (after (openedWith (quietPlan "execution") ++ [.cancelRecovery "recovery_7_k3x9",
      .commitRecovery "recovery_7_k3x9" "operator" false])) ∧
    ¬CommitsLawfully (after (openedWith (quietPlan "execution") ++ [
      .commitRecovery "recovery_7_k3x9" "operator" false, .commitRecovery "recovery_7_k3x9" "operator" false])) := by
  refine ⟨fun hLawful => ?_, fun hLawful => ?_⟩
  · have hInvoked : ∃ invocation, (after (openedWith (quietPlan "execution") ++ [.cancelRecovery "recovery_7_k3x9",
        .commitRecovery "recovery_7_k3x9" "operator" false])).invoked = [invocation] :=
      List.length_eq_one_iff.mp (by decide +kernel)
    have hStatus : (after (openedWith (quietPlan "execution") ++ [.cancelRecovery "recovery_7_k3x9",
        .commitRecovery "recovery_7_k3x9" "operator" false])).invoked.map
          (fun invocation => (requestOf invocation.history).bind RecoveryRequest.status) = [some .cancelled] := by
      decide +kernel
    obtain ⟨invocation, hOnly⟩ := hInvoked
    obtain ⟨request, hRequest, hApproved | ⟨hPreviewed, -⟩⟩ :=
      hLawful.1 invocation (hOnly ▸ List.mem_singleton_self invocation)
    · rw [hOnly, List.map_singleton, hRequest, Option.bind_some, hApproved] at hStatus
      cases hStatus
    · rw [hOnly, List.map_singleton, hRequest, Option.bind_some, hPreviewed] at hStatus
      cases hStatus
  · have hTwice : ¬((after (openedWith (quietPlan "execution") ++ [
        .commitRecovery "recovery_7_k3x9" "operator" false,
        .commitRecovery "recovery_7_k3x9" "operator" false])).invoked.map Invocation.recoveryRequestId).Nodup := by
      decide +kernel
    exact hTwice hLawful.2

end Runs

end CommandConsole.Recovery
