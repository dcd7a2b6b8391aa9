import CommandConsole.Execution.RecoveryWrites

/-! # What a recovery commit is based on

A commit that succeeds was checked: its token is that of the state the first section
loaded. What it writes comes from the snapshot loaded there or from the state in
which its transaction starts. -/
namespace CommandConsole.Execution
open Library
set_option autoImplicit false

section Runs

variable {digests : Digests} {rules : Rules} {request : CommitRequest}

/-- The token of the store is the one of the plan. -/
def TokenAt (digests : Digests) (request : CommitRequest) (store : RecoveryStore) : Prop :=
  ∃ token, storedToken digests store request.planId request.executionId = some token ∧
    request.plan.staleToken = .token token

def LoadedFrom (digests : Digests) (request : CommitRequest) (current : CurrentState) (store : RecoveryStore) : Prop :=
  loadCurrentState store request.planId request.executionId = .ok current ∧
    request.plan.staleToken = .token (createRecoveryPlanHash digests current)

theorem LoadedFrom.token {current : CurrentState} {store : RecoveryStore}
    (h : LoadedFrom digests request current store) : TokenAt digests request store :=
  ⟨_, by rw [storedToken, h.1]; rfl, h.2⟩

/-- The store stays, or has one ledger row more. -/
def Audited (before after : RecoveryStore) : Prop :=
  after = before ∨ ∃ row, after = { before with db := before.db.log row }

/-- The section is the preflight. -/
def Validates (rules : Rules) (request : CommitRequest) (part : Section CommitPhase RecoveryStore) : Prop :=
  ∃ current clock, part.phase = .checked current ∧
    part.after = (preflightSection rules request current clock part.before).2

/-- The sections of a refused commit: none writes but the preflight, and the last one at most an event. -/
def RefusedQuietly (rules : Rules) (request : CommitRequest) (sections : List (Section CommitPhase RecoveryStore)) :
    Prop :=
  ∃ earlier last, sections = earlier ++ [last] ∧ Audited last.before last.after ∧
    ∀ part ∈ earlier, part.after = part.before ∨ Validates rules request part

/-- The sections of a commit that succeeds. -/
structure CommittedFrom (digests : Digests) (rules : Rules) (request : CommitRequest)
    (sections : List (Section CommitPhase RecoveryStore)) (checked started after : RecoveryStore)
    (current : CurrentState) : Prop where
  sections : ∃ validation, sections =
    [⟨.requested, checked, checked⟩, validation, ⟨.preflighted current .eligible, started, after⟩] ∧
      Validates rules request validation
  loaded : LoadedFrom digests request current checked
  derived : DerivedStatuses request current.snapshot started.db after.db

/-- What the phase says about the sections so far. -/
def Trail (digests : Digests) (rules : Rules) (request : CommitRequest) (phase : CommitPhase)
    (sections : List (Section CommitPhase RecoveryStore)) : Prop :=
  match phase with
  | .requested => sections = []
  | .checked current =>
    ∃ checked, sections = [⟨.requested, checked, checked⟩] ∧ LoadedFrom digests request current checked
  | .preflighted current _ =>
    ∃ checked validation, sections = [⟨.requested, checked, checked⟩, validation] ∧
      LoadedFrom digests request current checked ∧ Validates rules request validation
  | .refused _ => RefusedQuietly rules request sections
  | .previewed => True
  | .committed _ => ∃ checked started after current,
      CommittedFrom digests rules request sections checked started after current

theorem refuseWith_audited (eventType : EventType) (failure : Failure) (env : Env) (store : RecoveryStore) :
    Audited store (refuseWith request eventType failure env store).2 := by
  rw [refuseWith, appendLedgerEvent]
  split
  · exact .inl rfl
  · exact .inr ⟨_, rfl⟩

theorem RefusedQuietly.last {earlier : List (Section CommitPhase RecoveryStore)} {phase : CommitPhase}
    {before after : RecoveryStore} (hLast : Audited before after)
    (hEarlier : ∀ part ∈ earlier, part.after = part.before ∨ Validates rules request part) :
    RefusedQuietly rules request (earlier ++ [⟨phase, before, after⟩]) :=
  ⟨earlier, ⟨phase, before, after⟩, rfl, hLast, hEarlier⟩

/-- The first section finds the token of the state it loads, or refuses. -/
theorem checkRecoveryPlan_trail (env : Env) (store : RecoveryStore) :
    Trail digests rules request (checkRecoveryPlan digests request env store).1
      [⟨.requested, store, (checkRecoveryPlan digests request env store).2⟩] := by
  have hQuiet {after : RecoveryStore} (h : Audited store after) :
      RefusedQuietly rules request [⟨.requested, store, after⟩] :=
    ⟨[], _, rfl, h, fun part hPart => absurd hPart List.not_mem_nil⟩
  rw [checkRecoveryPlan]
  split
  · trivial
  · split
    · exact hQuiet (.inl rfl)
    · split
      · exact hQuiet (.inl rfl)
      · cases hLoad : loadCurrentState store request.planId request.executionId with
        | error err => exact hQuiet (.inl rfl)
        | ok current =>
          dsimp only
          split
          · rename_i hToken
            exact ⟨store, rfl, hLoad, hToken⟩
          · exact hQuiet (refuseWith_audited _ _ env store)

/-- The last section refuses with at most an event, or commits after an eligible preflight. -/
theorem decideCommit_cases (current : CurrentState) (preflight : Preflight) (env : Env) (store : RecoveryStore) :
    (∃ failure, (decideCommit request current preflight env store).1 = .refused failure ∧
      Audited store (decideCommit request current preflight env store).2) ∨
    ∃ receipt, (decideCommit request current preflight env store).1 = .committed receipt ∧ preflight = .eligible ∧
      DerivedStatuses request current.snapshot store.db (decideCommit request current preflight env store).2.db := by
  have hRefused (eventType : EventType) (failure : Failure) :
      ∃ reason, (refuseWith request eventType failure env store).1 = .refused reason ∧
        Audited store (refuseWith request eventType failure env store).2 :=
    ⟨failure, rfl, refuseWith_audited eventType failure env store⟩
  cases preflight with
  | unavailable failure => exact .inl (hRefused _ _)
  | ineligible failure => exact .inl (hRefused _ _)
  | eligible =>
    rw [decideCommit]
    split
    · exact .inl (hRefused _ _)
    · rw [commitSection]
      split
      · rename_i receipt db hWrite
        exact .inr ⟨receipt, rfl, rfl, writeRecovery_derived hWrite⟩
      · exact .inl (hRefused _ _)

theorem advanceCommit_trail (clock : Nat → Env) (phase : CommitPhase) (store : RecoveryStore)
    (sections : List (Section CommitPhase RecoveryStore)) (hOpen : phase.finished = false)
    (h : Trail digests rules request phase sections) :
    Trail digests rules request (advanceCommit digests rules request clock phase store).1
      (sections ++ [⟨phase, store, (advanceCommit digests rules request clock phase store).2⟩]) := by
  cases phase with
  | requested =>
    obtain rfl : sections = [] := h
    exact checkRecoveryPlan_trail (clock 0) store
  | checked current =>
    obtain ⟨checked, rfl, hLoaded⟩ := h
    exact ⟨checked, _, rfl, hLoaded, current, clock, rfl, rfl⟩
  | preflighted current preflight =>
    obtain ⟨checked, validation, rfl, hLoaded, hValidates⟩ := h
    rcases decideCommit_cases current preflight (clock 0) store with
      ⟨failure, hPhase, hAudited⟩ | ⟨receipt, hPhase, hEligible, hDerived⟩
    · rw [advanceCommit, hPhase]
      refine .last hAudited fun part hPart => ?_
      rcases List.mem_cons.mp hPart with rfl | hValidation
      · exact .inl rfl
      · obtain rfl := List.mem_singleton.mp hValidation
        exact .inr hValidates
    · obtain rfl := hEligible
      rw [advanceCommit, hPhase]
      exact ⟨checked, store, _, current, ⟨validation, rfl, hValidates⟩, hLoaded, hDerived⟩
  | refused failure => cases hOpen
  | previewed => cases hOpen
  | committed receipt => cases hOpen

theorem trail_of_reaches {guard : Turn (Nat → Env) RecoveryStore → CommitRun → Prop} {store : RecoveryStore}
    {run : CommitRun}
    (h : Reaches (CommitRun.step digests rules request) guard (Interleaving.start .requested store) run) :
    Trail digests rules request run.phase run.sections :=
  Interleaving.invariant h rfl advanceCommit_trail

/-- The call waits between its first section and its last one. -/
def CommitPhase.waiting : CommitPhase → Bool
  | .checked _ | .preflighted _ _ => true
  | _ => false

/-- What the waiting call has loaded. -/
def CommitPhase.loaded : CommitPhase → Option CurrentState
  | .checked current | .preflighted current _ => some current
  | _ => none

/-- No turn changes what the token is made of while the call waits. -/
def QuietTurn (digests : Digests) (rules : Rules) (request : CommitRequest) :
    Turn (Nat → Env) RecoveryStore → CommitRun → Prop :=
  Interleaving.Undisturbed (advanceCommit digests rules request) CommitPhase.finished CommitPhase.waiting
    fun store => loadCurrentState store request.planId request.executionId

theorem checked_of_advance {clock : Nat → Env} {phase : CommitPhase} {store : RecoveryStore}
    (hPhase : phase.waiting = false)
    (hNext : (advanceCommit digests rules request clock phase store).1.waiting = true) :
    ∃ current, (advanceCommit digests rules request clock phase store).1 = .checked current ∧
      loadCurrentState (advanceCommit digests rules request clock phase store).2 request.planId request.executionId =
        .ok current := by
  cases phase with
  | requested =>
    have hTrail : Trail digests rules request (checkRecoveryPlan digests request (clock 0) store).1
      [⟨.requested, store, (checkRecoveryPlan digests request (clock 0) store).2⟩] := checkRecoveryPlan_trail _ _
    rw [advanceCommit] at hNext ⊢
    generalize checkRecoveryPlan digests request (clock 0) store = outcome at hTrail hNext
    obtain ⟨next, after⟩ := outcome
    cases next with
    | checked current =>
      obtain ⟨checked, hParts, hLoaded⟩ := hTrail
      cases hParts
      exact ⟨current, rfl, hLoaded.1⟩
    | preflighted current preflight =>
      obtain ⟨checked, validation, hParts, -⟩ := hTrail
      cases hParts
    | requested => cases hNext
    | refused failure => cases hNext
    | previewed => cases hNext
    | committed receipt => cases hNext
  | checked current => cases hPhase
  | preflighted current preflight => cases hPhase
  | refused failure => cases hNext
  | previewed => cases hNext
  | committed receipt => cases hNext

/-- While nobody disturbs the call, what it has loaded is what the store holds. -/
theorem loaded_of_quiet {store : RecoveryStore} {run : CommitRun}
    (h : Reaches (CommitRun.step digests rules request) (QuietTurn digests rules request)
      (Interleaving.start .requested store) run) :
    ∀ part ∈ run.sections, part.phase.waiting = true → ∀ current, part.phase.loaded = some current →
      loadCurrentState part.before request.planId request.executionId = .ok current := by
  refine Interleaving.Undisturbed.holds
    (P := fun phase view => ∀ current, phase.loaded = some current → view = .ok current) h rfl ?_ ?_
  · intro clock phase store hPhase hNext current hCurrent
    obtain ⟨loaded, hChecked, hLoad⟩ := checked_of_advance hPhase hNext
    rw [hChecked] at hCurrent
    cases hCurrent
    exact hLoad
  · intro clock phase store hPhase hNext hHeld current hCurrent
    cases phase with
    | checked loaded => exact hHeld current hCurrent
    | preflighted loaded preflight =>
      rcases decideCommit_cases loaded preflight (clock 0) store with ⟨failure, hRefused, -⟩ | ⟨receipt, hCommitted, -⟩
      · rw [advanceCommit, hRefused] at hNext
        cases hNext
      · rw [advanceCommit, hCommitted] at hNext
        cases hNext
    | requested => cases hPhase
    | refused failure => cases hPhase
    | previewed => cases hPhase
    | committed receipt => cases hPhase

/-- Among any other writers a commit that succeeds found its token in the state its first section loaded and
writes statuses of that snapshot or of the state its transaction starts in; one that is refused writes one event
at most besides the preflight. Undisturbed, its transaction starts in a state with its token. -/
theorem recovery_commit_follows_its_check (digests : Digests) (rules : Rules) (request : CommitRequest)
    (store : RecoveryStore) (run : CommitRun) :
    (Reaches (CommitRun.step digests rules request) (fun _ _ => True) (Interleaving.start .requested store) run →
      (∀ receipt, run.phase = .committed receipt → ∃ checked started after current,
        CommittedFrom digests rules request run.sections checked started after current ∧
          TokenAt digests request checked) ∧
      ∀ failure, run.phase = .refused failure → RefusedQuietly rules request run.sections) ∧
    (Reaches (CommitRun.step digests rules request) (QuietTurn digests rules request)
        (Interleaving.start .requested store) run →
      ∀ receipt, run.phase = .committed receipt → ∃ checked started after current,
        CommittedFrom digests rules request run.sections checked started after current ∧
          LoadedFrom digests request current started ∧ TokenAt digests request started) := by
  refine ⟨fun h => ⟨fun receipt hPhase => ?_, fun failure hPhase => ?_⟩, fun h receipt hPhase => ?_⟩
  · have hTrail := trail_of_reaches h
    rw [hPhase] at hTrail
    obtain ⟨checked, started, after, current, hCommitted⟩ := hTrail
    exact ⟨checked, started, after, current, hCommitted, hCommitted.loaded.token⟩
  · have hTrail := trail_of_reaches h
    rwa [hPhase] at hTrail
  · have hTrail := trail_of_reaches h
    rw [hPhase] at hTrail
    obtain ⟨checked, started, after, current, hCommitted⟩ := hTrail
    obtain ⟨validation, hParts, -⟩ := hCommitted.sections
    have hLast : ⟨.preflighted current .eligible, started, after⟩ ∈ run.sections := by
      rw [hParts]
      exact List.mem_of_getLast? rfl
    have hLoaded : LoadedFrom digests request current started :=
      ⟨loaded_of_quiet h _ hLast rfl current rfl, hCommitted.loaded.2⟩
    exact ⟨checked, started, after, current, hCommitted, hLoaded, hLoaded.token⟩

end Runs

section Samples

def recoveredPlan : CheckpointPlan := ⟨"plan_1", [⟨"step_a", true, none, .safe, .pureRead, []⟩]⟩

def runtimeRules : Rules where
  blockedCapabilities := []
  maxConsecutiveFailures := 3
  noProgressAttemptLimit := 5
  maxExecutionAttempts := 50
  maxExecutionDurationMs := 3600000
  maxStepDurationMs := 600000
  maxConcurrentExecutions := 4

def plainDigests : Digests := ⟨fun reading => reading.status, fun _ => "steps", fun _ => "containment"⟩

/-- A running execution with one pending step. -/
def recoverableStore : RecoveryStore where
  db := (transact (startExecutionState recoveredPlan none) ⟨1000, "worker_1"⟩
    (persistCall (callWith [listedStep "pending"]) .empty)).2
  stepColumns := fun _ => ⟨0, 0, none, none⟩

/-- The request with the token of the store. -/
def requestFor (mode : String) : CommitRequest where
  plan :=
    { executionId := "exec_1"
      planId := "plan_1"
      recoveryMode := mode
      staleToken :=
        match storedToken plainDigests recoverableStore "plan_1" "exec_1" with
        | some token => .token token
        | none => .missing
      checkpointPlan := recoveredPlan
      runId := none
      steps := [⟨"step_a", 1, none, true, none, []⟩]
      nextStepId := some "step_a" }
  requestedBy := "operator"
  dryRun := false

def recoveryClock (_ : Nat) : Env := ⟨2000, "worker_2"⟩

def recoveryRun (mode : String) (turns : List (Turn (Nat → Env) RecoveryStore)) : CommitRun :=
  runAll (CommitRun.step plainDigests runtimeRules (requestFor mode)) (.start .requested recoverableStore) turns

/-- Another operator abandons the execution. -/
def abandonment : Turn (Nat → Env) RecoveryStore := .other fun store =>
  (runAll (CommitRun.step plainDigests runtimeRules (requestFor "abandon")) (.start .requested store)
    [.own recoveryClock, .own recoveryClock, .own recoveryClock]).store

def undisturbedRun : CommitRun :=
  recoveryRun "resume" [.own recoveryClock, .own recoveryClock, .own recoveryClock]

/-- The abandonment comes after the preflight of a resume. -/
def overtakenRun : CommitRun :=
  recoveryRun "resume" [.own recoveryClock, .own recoveryClock, abandonment, .own recoveryClock]

/-- The abandonment comes before the check. -/
def staleRun : CommitRun := recoveryRun "resume" [abandonment, .own recoveryClock]

theorem undisturbedRun_quiet :
    Reaches (CommitRun.step plainDigests runtimeRules (requestFor "resume"))
      (QuietTurn plainDigests runtimeRules (requestFor "resume")) (.start .requested recoverableStore) undisturbedRun := by
  refine GuardedAll.reaches ⟨nofun, fun _ _ => ?_, fun _ hNext => ?_, trivial⟩
  · have hSame : loadCurrentState
        (CommitRun.step plainDigests runtimeRules (requestFor "resume") (.own recoveryClock)
          (recoveryRun "resume" [.own recoveryClock])).store "plan_1" "exec_1" =
        loadCurrentState (recoveryRun "resume" [.own recoveryClock]).store "plan_1" "exec_1" := by decide +kernel
    exact hSame
  · exact absurd hNext (by decide +kernel)

theorem undisturbed_resume_commits :
    ∃ checked started after current,
      CommittedFrom plainDigests runtimeRules (requestFor "resume") undisturbedRun.sections checked started after current ∧
        LoadedFrom plainDigests (requestFor "resume") current started ∧
          TokenAt plainDigests (requestFor "resume") started :=
  (recovery_commit_follows_its_check plainDigests runtimeRules (requestFor "resume") recoverableStore
    undisturbedRun).2 undisturbedRun_quiet ⟨.resume, "exec_1", "plan_1", none⟩ (by decide +kernel)

/-- A resume commits over an abandonment, and a stale request leaves an event. -/
theorem overtaken_resume_commits :
    (¬∀ (digests : Digests) (rules : Rules) (request : CommitRequest) (store : RecoveryStore) (run : CommitRun),
      Reaches (CommitRun.step digests rules request) (fun _ _ => True) (.start .requested store) run →
        ∀ receipt part, run.phase = .committed receipt → run.sections.getLast? = some part →
          TokenAt digests request part.before) ∧
    ¬∀ (digests : Digests) (rules : Rules) (request : CommitRequest) (store : RecoveryStore) (run : CommitRun),
      Reaches (CommitRun.step digests rules request) (fun _ _ => True) (.start .requested store) run →
        ∀ failure, run.phase = .refused failure → ∀ part ∈ run.sections, part.after = part.before := by
  refine ⟨fun h => ?_, fun h => ?_⟩
  · obtain ⟨part, hPart⟩ : ∃ part, overtakenRun.sections.getLast? = some part :=
      Option.isSome_iff_exists.mp (by decide +kernel)
    obtain ⟨token, hStored, hGiven⟩ := h plainDigests runtimeRules (requestFor "resume") recoverableStore overtakenRun
      (reaches_runAll _ _ _) ⟨.resume, "exec_1", "plan_1", none⟩ part (by decide +kernel) hPart
    have hDiffers : (overtakenRun.sections.getLast?.bind fun part =>
        storedToken plainDigests part.before (requestFor "resume").planId (requestFor "resume").executionId).map
          GivenToken.token ≠ some (requestFor "resume").plan.staleToken := by decide +kernel
    rw [hPart, Option.bind_some, hStored, Option.map_some, hGiven] at hDiffers
    exact hDiffers rfl
  · obtain ⟨part, hPart⟩ : ∃ part, staleRun.sections.getLast? = some part :=
      Option.isSome_iff_exists.mp (by decide +kernel)
    have hSame := h plainDigests runtimeRules (requestFor "resume") recoverableStore staleRun (reaches_runAll _ _ _)
      ⟨"STALE_RECOVERY_PLAN", "Recovery plan is stale and cannot be committed."⟩ (by decide +kernel) part
      (List.mem_of_getLast? hPart)
    have hLonger : staleRun.sections.getLast?.map (fun part => part.after.db.executionLedger.length) ≠
        staleRun.sections.getLast?.map (fun part => part.before.db.executionLedger.length) := by decide +kernel
    rw [hPart, Option.map_some, Option.map_some, hSame] at hLonger
    exact hLonger rfl

end Samples

end CommandConsole.Execution
