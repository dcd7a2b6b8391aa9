import CommandConsole.Library.Run
import CommandConsole.Proposals.StateEngine
import Mathlib.Data.List.Dedup

/-! # The lifecycle of a proposal

Each call is given the state, the lineage and the ledger that the calls before have left. The
matrix lets a revoked proposal be archived; a check of its own blocks every transition of one.
-/
namespace CommandConsole.Proposals
open Library Value Audit
set_option autoImplicit false

section Requirements

/-- What the matrix, the bindings and the rules about reasons and requesters ask of a call. -/
structure ProposalStateEngineInput.Meets (input : ProposalStateEngineInput) : Prop where
  identifiers : input.stateEngineRunId ≠ [] ∧ input.evaluatedAt ≠ [] ∧ input.governancePolicyVersion ≠ [] ∧
    input.constitutionalRuleSetVersion ≠ []
  source : input.transition.sourceState = input.currentState
  matrix : input.transition.targetState ∈ PROPOSAL_TRANSITION_MATRIX input.currentState
  governance : input.transition.governanceAuthorityId ≠ [] ∧ input.transition.governanceSnapshotId ≠ [] ∧
    input.transition.governanceSnapshotId = input.proposalIntegrityResult.governanceSnapshotId ∧
      input.transition.governanceSnapshotId = input.constitutionalEnforcementResult.governanceSnapshotId
  replay : input.replayLineageId ≠ [] ∧ input.transition.replayLineageId = input.replayLineageId ∧
    input.replayAdmissible = true
  approvalGiven : input.transition.targetState ∈ [.reviewed, .approved, .denied] →
    input.transition.approvalLineageId.getD [] ≠ []
  approval : input.transition.approvalLineageId.getD [] ≠ [] →
    input.transition.approvalLineageId.getD [] = input.proposalIntegrityResult.approvalHash
  dependency : input.proposalIntegrityResult.approvalDependencyIds ≠ [] →
    input.transition.dependencyLineageId.getD [] ≠ [] ∧
      input.transition.dependencyLineageId.getD [] = input.proposalIntegrityResult.recommendationLineageHash
  audit : input.transition.auditLineageId ≠ []
  reason : ∀ pattern ∈ AMBIGUOUS_PATTERNS, includes (toLowerCase input.transition.reason) (units pattern) = false
  requester : ¬(input.transition.requestedBy = .proposalSystem ∧ input.transition.targetState = .approved)

/-- The lineage and the ledger that a call is given fit it. -/
structure ProposalStateEngineInput.Fits (input : ProposalStateEngineInput) : Prop where
  ledger : verifyImmutableLedgerChain (input.existingAuditLedger.getD []) = true
  state : ∀ lineage ∈ input.existingLineage, lineage.currentState = input.currentState
  aligned : ∀ lineage ∈ input.existingLineage, lineage.Aligned

def ProposalStateEngineInput.OwnProposal (input : ProposalStateEngineInput) : Prop :=
  ∀ lineage ∈ input.existingLineage, lineage.proposalId = input.transition.proposalId

variable (platform : Platform)

theorem errorIf_eq_nil {condition : Prop} [Decidable condition] {code : ProposalStateErrorCode} {message path : String} :
    errorIf condition code message path = [] ↔ ¬condition := by
  unfold errorIf
  split
  · rename_i hHolds
    exact ⟨fun h => absurd h (List.cons_ne_nil _ _), fun hNot => absurd hHolds hNot⟩
  · rename_i hNot
    exact ⟨fun _ => hNot, fun _ => rfl⟩

theorem lineageIntegrity_eq_nil {proposalId : Text} {currentState : ProposalLifecycleState}
    {existing : Option ProposalLifecycleLineage} :
    validateProposalLineageIntegrity proposalId currentState existing = [] ↔ ∀ lineage ∈ existing,
      lineage.proposalId = proposalId ∧ lineage.currentState = currentState ∧ lineage.Aligned := by
  cases existing with
  | none => exact ⟨fun _ _ hLineage => absurd hLineage (Option.not_mem_none _), fun _ => rfl⟩
  | some lineage =>
    simp only [validateProposalLineageIntegrity, List.append_eq_nil_iff, errorIf_eq_nil, Decidable.not_not, ne_eq,
      Option.mem_some_iff, forall_eq', and_assoc]

theorem approvalErrors_eq_nil {transition : ProposalTransitionDeclaration} {approvalHash : Text} :
    approvalErrors transition approvalHash = [] ↔
      (transition.targetState ∈ [.reviewed, .approved, .denied] → transition.approvalLineageId.getD [] ≠ []) ∧
      (transition.approvalLineageId.getD [] ≠ [] → transition.approvalLineageId.getD [] = approvalHash) := by
  have hRequired : transition.targetState ∈ [.reviewed, .approved, .denied] ↔ transition.targetState = .reviewed ∨
      transition.targetState = .approved ∨ transition.targetState = .denied := by
    simp only [List.mem_cons, List.not_mem_nil, or_false]
  rw [hRequired]
  unfold approvalErrors
  dsimp only
  split
  · rename_i hMissing
    exact ⟨fun h => absurd h (List.cons_ne_nil _ _), fun h => absurd hMissing.2 (h.1 hMissing.1)⟩
  · rename_i hGiven
    rw [errorIf_eq_nil]
    constructor
    · exact fun hNot => ⟨fun hTarget hNone => hGiven ⟨hTarget, hNone⟩,
        fun hSome => Decidable.byContradiction fun hOther => hNot ⟨hSome, hOther⟩⟩
    · exact fun h hBad => hBad.2 (h.2 hBad.1)

/-- The checks of frozen, revoked and archived proposals forbid nothing that the matrix allows. -/
theorem stateChecks_eq_nil {current target : ProposalLifecycleState} (h : target ∈ PROPOSAL_TRANSITION_MATRIX current) :
    validateProposalFreezeState current target = [] ∧ validateProposalRevocationState current target = [] ∧
      current ≠ .archived := by
  cases current <;> cases target <;> first | exact absurd h (by decide) | decide

theorem checkErrors_eq_nil {input : ProposalStateEngineInput} (hFits : input.Fits) :
    checkErrors platform input = [] ↔ input.Meets ∧ input.OwnProposal ∧ input.currentState ≠ .revoked := by
  simp only [checkErrors, validateRootInput, buildGovernanceBindingRecord, governanceErrors,
    validateProposalReplayAdmissibility, validateProposalTransition, List.append_eq_nil_iff, errorIf_eq_nil,
    lineageIntegrity_eq_nil, approvalErrors_eq_nil, List.map_eq_nil_iff, List.filter_eq_nil_iff, Bool.not_eq_true,
    not_or, ne_eq, Decidable.not_not, and_assoc, hFits.ledger, Bool.true_eq_false, not_false_eq_true, true_and]
  constructor
  · rintro ⟨hRun, hTime, hPolicy, hRules, hSnapshot, hProposal, hEnforcement, hReplay, hLineage, hAdmissible, hExisting,
      hSource, hMatrix, hAuthority, -, -, hGiven, hApproval, hDependency, hAudit, -, -, hRevoked, -, hReason, hRequester⟩
    refine ⟨⟨⟨hRun, hTime, hPolicy, hRules⟩, hSource, ?_, ⟨hAuthority, hSnapshot, hProposal, hEnforcement⟩,
      ⟨hReplay, hLineage, Bool.not_eq_false _ ▸ hAdmissible⟩, hGiven, hApproval, ?_, hAudit, hReason, hRequester⟩,
      fun lineage hMem => (hExisting lineage hMem).1, hRevoked⟩
    · rw [Bool.not_eq_false, isProposalTransitionAllowed, decide_eq_true_eq, hSource] at hMatrix
      exact hMatrix
    · intro hSome
      rw [not_and, not_or, Decidable.not_not] at hDependency
      exact hDependency hSome
  · rintro ⟨h, hOwn, hRevoked⟩
    obtain ⟨hFreeze, hRevocation, hArchived⟩ := stateChecks_eq_nil h.matrix
    refine ⟨h.identifiers.1, h.identifiers.2.1, h.identifiers.2.2.1, h.identifiers.2.2.2, h.governance.2.1,
      h.governance.2.2.1, h.governance.2.2.2, h.replay.1, h.replay.2.1, by simp [h.replay.2.2],
      fun lineage hMem => ⟨hOwn lineage hMem, hFits.state lineage hMem, hFits.aligned lineage hMem⟩, h.source, ?_,
      h.governance.1, h.governance.2.1, ?_, h.approvalGiven, h.approval, ?_, h.audit, hFreeze, hRevocation, hRevoked,
      hArchived, h.reason, h.requester⟩
    · rw [Bool.not_eq_false, isProposalTransitionAllowed, decide_eq_true_eq, h.source]
      exact h.matrix
    · refine errorIf_eq_nil.mpr fun hBad => ?_
      rw [if_neg h.replay.1, h.replay.2.1] at hBad
      exact hBad.elim h.replay.1 fun hOther => hOther rfl
    · rintro ⟨hSome, hBad⟩
      exact hBad.elim (h.dependency hSome).1 fun hOther => hOther (h.dependency hSome).2

end Requirements

section Determinism

variable (platform : Platform)

/-- The records of a call are hashed alike before and after they are read back. -/
theorem determinism_eq_nil (transition : ProposalTransitionDeclaration) (result : ProposalTransitionResult)
    (lineage : ProposalLifecycleLineage) (governanceBinding : GovernanceBindingRecord) :
    validateProposalStateDeterminism platform transition result lineage governanceBinding = [] := by
  have hRecord : isRecord (determinismInput transition result lineage governanceBinding) = true := by
    refine isRecord_object ?_ ?_
    · simp only [List.map_cons, List.map_nil]
      decide +kernel
    · simp only [List.forall_mem_cons, transition.isRecord, result.isRecord, lineage.isRecord, governanceBinding.isRecord,
        true_and, List.not_mem_nil, false_implies, implies_true]
  refine errorIf_eq_nil.mpr fun hDrift => hDrift ?_
  rw [parse_canonical platform hRecord, Option.map_some, canonical_parsed platform hRecord]

theorem failedClosed_iff (errors : List ProposalStateError) :
    (buildProposalStateFreezeRecord platform errors).failedClosed = !errors.isEmpty := by
  cases errors with
  | nil => rfl
  | cons error rest =>
    have hMem : error.code ∈ (((error :: rest).map ProposalStateError.code).reverse.dedup).reverse := by
      rw [List.mem_reverse, List.mem_dedup, List.mem_reverse, List.map_cons]
      exact List.mem_cons_self
    exact decide_eq_true (List.ne_nil_of_mem hMem)

end Determinism

section Evaluation

variable (platform : Platform)

/-- What a call returns. -/
structure Outcome (input : ProposalStateEngineInput) (result : ProposalStateEngineResult) : Prop where
  accepted : result.transitionResult.accepted = (checkErrors platform input).isEmpty
  applied : result.transitionResult.accepted = true → result.lineage = applyProposalLineageTransition
    (initialLineage platform input) input.transition input.transition.targetState (buildGovernanceBindingRecord input).1
    (validateProposalReplayAdmissibility platform input).1.replayLineageId
    (input.transition.transitionId ++ units ":" ++ ProposalStateAuditEventType.applied.text) input.evaluatedAt
  kept : result.transitionResult.accepted = false → result.lineage = initialLineage platform input
  ledger : ∃ more, more ≠ [] ∧ result.auditLedger = input.existingAuditLedger.getD [] ++ more
  verified : verifyImmutableLedgerChain (input.existingAuditLedger.getD []) = true →
    verifyImmutableLedgerChain result.auditLedger = true

theorem evaluate_outcome (input : ProposalStateEngineInput) :
    ∃ result, evaluateProposalStateTransition platform input = some result ∧ Outcome platform input result := by
  unfold evaluateProposalStateTransition
  dsimp only
  rw [determinism_eq_nil, List.append_nil, failedClosed_iff]
  generalize hRecords : (List.map ProposalStateAuditRecord.evidence (buildAuditRecords platform input _ _)) = records
  obtain ⟨more, hMore, hLinked, hPayloads, -⟩ := appendAuditEntries platform.localeCompare platform.sha256
    (units "proposal-state-engine") records (input.existingAuditLedger.getD [])
  have hLedger : records.foldlM (appendProposalStateAuditEntry platform) (input.existingAuditLedger.getD []) =
      some (input.existingAuditLedger.getD [] ++ more) := hMore
  rw [hLedger, Option.map_some]
  have hAccepted : ((checkErrors platform input).isEmpty && !!(checkErrors platform input).isEmpty) =
      (checkErrors platform input).isEmpty := by
    rw [Bool.not_not, Bool.and_self]
  refine ⟨_, rfl, hAccepted, ?_, ?_, ⟨more, ?_, rfl⟩, ?_⟩
  · intro hYes
    have hEmpty : (checkErrors platform input).isEmpty = true := hAccepted.symm.trans hYes
    simp only [hEmpty, if_true]
  · intro hNo
    have hSome : (checkErrors platform input).isEmpty = false := hAccepted.symm.trans hNo
    simp only [hSome, Bool.false_eq_true, if_false]
  · rintro rfl
    rw [← hPayloads, List.map_nil, List.map_eq_nil_iff, buildAuditRecords, List.map_eq_nil_iff, List.zipIdx_eq_nil_iff]
      at hRecords
    exact absurd hRecords (List.cons_ne_nil _ _)
  · exact fun hGiven => verify_iff.mpr (hLinked (verify_iff.mp hGiven))

end Evaluation

section Chains

/-- What the calls so far have left, and the transitions that they accepted. -/
structure ProposalStanding where
  state : ProposalLifecycleState
  lineage : Option ProposalLifecycleLineage
  ledger : Option (List ImmutableAuditLedgerEntry)
  path : List ProposalTransitionDeclaration

def ProposalStanding.begin (state : ProposalLifecycleState) : ProposalStanding := ⟨state, none, none, []⟩

/-- The call, given what the calls before have left. -/
def ProposalStanding.input (standing : ProposalStanding) (call : ProposalStateEngineInput) : ProposalStateEngineInput :=
  { call with
    currentState := standing.state
    existingLineage := standing.lineage
    existingAuditLedger := standing.ledger }

def ProposalStanding.after (standing : ProposalStanding) (call : ProposalStateEngineInput)
    (result : ProposalStateEngineResult) : ProposalStanding where
  state := if result.transitionResult.accepted then call.transition.targetState else standing.state
  lineage := some result.lineage
  ledger := some result.auditLedger
  path := if result.transitionResult.accepted then standing.path ++ [call.transition] else standing.path

def ProposalStanding.next (platform : Platform) (call : ProposalStateEngineInput) (standing : ProposalStanding) :
    ProposalStanding :=
  ((evaluateProposalStateTransition platform (standing.input call)).map (standing.after call)).getD standing

/-- A path through the matrix. -/
def Leads : ProposalLifecycleState → List ProposalTransitionDeclaration → ProposalLifecycleState → Prop
  | first, [], last => first = last
  | first, transition :: rest, last => transition.sourceState = first ∧
    transition.targetState ∈ PROPOSAL_TRANSITION_MATRIX first ∧ Leads transition.targetState rest last

theorem leads_concat {first last : ProposalLifecycleState} {path : List ProposalTransitionDeclaration}
    {transition : ProposalTransitionDeclaration} (h : Leads first path last) (hSource : transition.sourceState = last)
    (hMatrix : transition.targetState ∈ PROPOSAL_TRANSITION_MATRIX last) :
    Leads first (path ++ [transition]) transition.targetState := by
  induction path generalizing first with
  | nil =>
    obtain rfl : first = last := h
    exact ⟨hSource, hMatrix, rfl⟩
  | cons step path ih => exact ⟨h.1, h.2.1, ih h.2.2⟩

/-- The lineage has one entry of each list for each transition of the path. -/
structure ProposalLifecycleLineage.Records (lineage : ProposalLifecycleLineage)
    (path : List ProposalTransitionDeclaration) : Prop where
  transitions : lineage.transitionIds = path.map ProposalTransitionDeclaration.transitionId
  governance : lineage.governanceSnapshotIds = path.map ProposalTransitionDeclaration.governanceSnapshotId
  replay : lineage.replayLineageIds = path.map ProposalTransitionDeclaration.replayLineageId
  audit : lineage.auditEventIds = path.map fun transition =>
    transition.transitionId ++ units ":" ++ ProposalStateAuditEventType.applied.text

/-- What the calls of a chain keep. -/
structure ProposalStanding.Sound (start : ProposalLifecycleState) (standing : ProposalStanding) : Prop where
  path : Leads start standing.path standing.state
  ledger : verifyImmutableLedgerChain (standing.ledger.getD []) = true
  fresh : standing.lineage = none → standing.path = []
  state : ∀ lineage ∈ standing.lineage, lineage.currentState = standing.state
  records : ∀ lineage ∈ standing.lineage, lineage.Records standing.path
  aligned : ∀ lineage ∈ standing.lineage, lineage.Aligned

variable (platform : Platform)

theorem ProposalStanding.Sound.fits {start : ProposalLifecycleState} {standing : ProposalStanding}
    (h : standing.Sound start) (call : ProposalStateEngineInput) : (standing.input call).Fits :=
  ⟨h.ledger, h.state, h.aligned⟩

/-- The lineage that a call builds upon. -/
theorem ProposalStanding.Sound.initial {start : ProposalLifecycleState} {standing : ProposalStanding}
    (h : standing.Sound start) (call : ProposalStateEngineInput) :
    (initialLineage platform (standing.input call)).currentState = standing.state ∧
      (initialLineage platform (standing.input call)).Records standing.path ∧
        (initialLineage platform (standing.input call)).Aligned := by
  cases hLineage : standing.lineage with
  | none =>
    have hInitial : initialLineage platform (standing.input call) = buildInitialProposalLineage platform
        call.transition.proposalId standing.state call.proposalIntegrityResult.createdAt := by
      rw [initialLineage]
      dsimp only [ProposalStanding.input]
      rw [hLineage, Option.getD_none]
    rw [hInitial, h.fresh hLineage]
    exact ⟨rfl, ⟨rfl, rfl, rfl, rfl⟩, ⟨rfl, rfl, rfl, Nat.le_refl _, Nat.le_refl _⟩⟩
  | some lineage =>
    have hInitial : initialLineage platform (standing.input call) = lineage := by
      rw [initialLineage]
      dsimp only [ProposalStanding.input]
      rw [hLineage, Option.getD_some]
    rw [hInitial]
    exact ⟨h.state lineage hLineage, h.records lineage hLineage, h.aligned lineage hLineage⟩

theorem length_toList_filter {α : Type} (p : α → Bool) (item : Option α) : (item.filter p).toList.length ≤ 1 := by
  cases item with
  | none => exact Nat.zero_le 1
  | some value =>
    rw [Option.filter_some]
    split
    · exact Nat.le_refl 1
    · exact Nat.zero_le 1

/-- An accepted transition is entered once in each list of the lineage. -/
theorem apply_records {lineage : ProposalLifecycleLineage} {path : List ProposalTransitionDeclaration}
    (transition : ProposalTransitionDeclaration) (binding : GovernanceBindingRecord) (updatedAt : Text)
    (hRecords : lineage.Records path) (hAligned : lineage.Aligned)
    (hGovernance : binding.governanceSnapshotId = transition.governanceSnapshotId) :
    let applied := applyProposalLineageTransition lineage transition transition.targetState binding
      transition.replayLineageId (transition.transitionId ++ units ":" ++ ProposalStateAuditEventType.applied.text)
      updatedAt
    applied.Records (path ++ [transition]) ∧ applied.Aligned := by
  refine ⟨⟨?_, ?_, ?_, ?_⟩, ?_⟩
  · simp only [applyProposalLineageTransition, hRecords.transitions, List.map_append, List.map_singleton]
  · simp only [applyProposalLineageTransition, hRecords.governance, hGovernance, List.map_append, List.map_singleton]
  · simp only [applyProposalLineageTransition, hRecords.replay, List.map_append, List.map_singleton]
  · simp only [applyProposalLineageTransition, hRecords.audit, List.map_append, List.map_singleton]
  · have hApproval := length_toList_filter (fun approval => decide (approval ≠ [])) transition.approvalLineageId
    have hDependency := length_toList_filter (fun dependency => decide (dependency ≠ [])) transition.dependencyLineageId
    obtain ⟨hGovernanceIds, hReplayIds, hAuditIds, hApprovalIds, hDependencyIds⟩ := hAligned
    simp only [ProposalLifecycleLineage.Aligned, applyProposalLineageTransition, List.length_append,
      List.length_singleton]
    omega

theorem ProposalStanding.Sound.step {start : ProposalLifecycleState} {standing : ProposalStanding}
    (h : standing.Sound start) (call : ProposalStateEngineInput) : (standing.next platform call).Sound start := by
  obtain ⟨result, hResult, hOutcome⟩ := evaluate_outcome platform (standing.input call)
  obtain ⟨hState, hRecords, hAligned⟩ := h.initial platform call
  rw [ProposalStanding.next, hResult, Option.map_some, Option.getD_some]
  have hVerified := hOutcome.verified h.ledger
  cases hAccepted : result.transitionResult.accepted with
  | true =>
    have hNone : checkErrors platform (standing.input call) = [] := by
      rw [hOutcome.accepted, List.isEmpty_iff] at hAccepted
      exact hAccepted
    obtain ⟨hMeets, -, -⟩ := (checkErrors_eq_nil platform (h.fits call)).mp hNone
    have hReplay : (validateProposalReplayAdmissibility platform (standing.input call)).1.replayLineageId =
        call.transition.replayLineageId := by
      dsimp only [validateProposalReplayAdmissibility]
      rw [if_neg hMeets.replay.1]
      exact hMeets.replay.2.1.symm
    have hLineage := hOutcome.applied hAccepted
    rw [hReplay] at hLineage
    obtain ⟨hRecords', hAligned'⟩ := apply_records call.transition
      (buildGovernanceBindingRecord (standing.input call)).1 call.evaluatedAt hRecords hAligned rfl
    have hAfter : standing.after call result = ⟨call.transition.targetState, some result.lineage,
        some result.auditLedger, standing.path ++ [call.transition]⟩ := by
      simp only [ProposalStanding.after, hAccepted, if_true]
    rw [hAfter]
    refine ⟨leads_concat h.path hMeets.source hMeets.matrix, hVerified, (fun hNone => nomatch hNone), ?_, ?_, ?_⟩ <;>
      rintro lineage ⟨⟩ <;> rw [hLineage]
    · rfl
    · exact hRecords'
    · exact hAligned'
  | false =>
    have hLineage := hOutcome.kept hAccepted
    have hAfter : standing.after call result = ⟨standing.state, some result.lineage, some result.auditLedger,
        standing.path⟩ := by
      simp only [ProposalStanding.after, hAccepted, Bool.false_eq_true, if_false]
    rw [hAfter]
    refine ⟨h.path, hVerified, (fun hNone => nomatch hNone), ?_, ?_, ?_⟩ <;> rintro lineage ⟨⟩ <;> rw [hLineage]
    · exact hState
    · exact hRecords
    · exact hAligned

theorem standing_sound {start : ProposalLifecycleState} {standing : ProposalStanding}
    (h : Reaches (ProposalStanding.next platform) (fun _ _ => True) (ProposalStanding.begin start) standing) :
    standing.Sound start := by
  refine h.invariant ?_ fun call standing hSound _ => hSound.step platform call
  exact ⟨rfl, rfl, fun _ => rfl, fun _ hLineage => absurd hLineage (Option.not_mem_none _),
    fun _ hLineage => absurd hLineage (Option.not_mem_none _), fun _ hLineage => absurd hLineage (Option.not_mem_none _)⟩

/-- A call of any chain is accepted exactly for what the requirements ask, unless it is the archival of
a revoked proposal or names another proposal than the lineage. The lineage follows the path of the
accepted transitions, a call that is not accepted leaves it, and the ledgers grow as chains. -/
theorem proposal_lifecycle {start : ProposalLifecycleState} {standing : ProposalStanding}
    (h : Reaches (ProposalStanding.next platform) (fun _ _ => True) (ProposalStanding.begin start) standing) :
    (Leads start standing.path standing.state ∧ ∀ lineage ∈ standing.lineage,
      lineage.currentState = standing.state ∧ lineage.Records standing.path) ∧
    ∀ call, ∃ result, evaluateProposalStateTransition platform (standing.input call) = some result ∧
      ((result.transitionResult.accepted = true ↔ (standing.input call).Meets) ↔
        ((standing.input call).Meets → standing.state ≠ .revoked ∧ (standing.input call).OwnProposal)) ∧
      (result.transitionResult.accepted = false → result.lineage = initialLineage platform (standing.input call)) ∧
      (∃ more, result.auditLedger = standing.ledger.getD [] ++ more) ∧
        verifyImmutableLedgerChain result.auditLedger = true := by
  have hSound := standing_sound platform h
  refine ⟨⟨hSound.path, fun lineage hLineage => ⟨hSound.state lineage hLineage, hSound.records lineage hLineage⟩⟩,
    fun call => ?_⟩
  obtain ⟨result, hResult, hOutcome⟩ := evaluate_outcome platform (standing.input call)
  obtain ⟨more, -, hMore⟩ := hOutcome.ledger
  refine ⟨result, hResult, ?_, hOutcome.kept, ⟨more, hMore⟩, hOutcome.verified hSound.ledger⟩
  have hAccepted : result.transitionResult.accepted = true ↔
      (standing.input call).Meets ∧ (standing.input call).OwnProposal ∧ standing.state ≠ .revoked := by
    rw [hOutcome.accepted, List.isEmpty_iff]
    exact checkErrors_eq_nil platform (hSound.fits call)
  rw [hAccepted]
  constructor
  · intro hIff hMeets
    obtain ⟨-, hOwn, hRevoked⟩ := hIff.mpr hMeets
    exact ⟨hRevoked, hOwn⟩
  · exact fun hHolds => ⟨And.left, fun hMeets => ⟨hMeets, (hHolds hMeets).2, (hHolds hMeets).1⟩⟩

theorem compareUnits_le {a b : Text} : compareUnits a b ≤ 0 ↔ a ≤ b := by
  unfold compareUnits
  split
  · rename_i hLess
    exact ⟨fun _ => hLess.le, fun _ => by decide⟩
  · split
    · rename_i hSame
      exact ⟨fun _ => hSame.le, fun _ => le_refl 0⟩
    · rename_i hNot hOther
      exact ⟨fun h => absurd h (by decide), fun h => absurd (lt_of_le_of_ne h hOther) hNot⟩

def plainPlatform : Platform where
  localeCompare := compareUnits
  nfc := id
  sha256 := id
  total a b := (le_total a b).imp compareUnits_le.mpr compareUnits_le.mpr
  transitive _ _ _ hab hbc := compareUnits_le.mpr ((compareUnits_le.mp hab).trans (compareUnits_le.mp hbc))
  nfc_nfc _ := rfl

def declared (source target : ProposalLifecycleState) : ProposalTransitionDeclaration where
  transitionId := units "transition-" ++ target.text
  proposalId := units "proposal-1"
  sourceState := source
  targetState := target
  governanceAuthorityId := units "authority-1"
  governanceSnapshotId := units "governance-snapshot-1"
  replayLineageId := units "lineage-hash-1"
  approvalLineageId := none
  dependencyLineageId := none
  auditLineageId := units "audit-1"
  requestedBy := .operator
  requestedAt := units "2026-05-20T00:00:00.000Z"
  reason := units "Operator decision."

def declaredCall (source target : ProposalLifecycleState) : ProposalStateEngineInput where
  stateEngineRunId := units "run-1"
  evaluatedAt := units "2026-05-20T00:00:00.000Z"
  governancePolicyVersion := units "policy-1"
  constitutionalRuleSetVersion := units "rules-1"
  currentState := source
  transition := declared source target
  proposalIntegrityResult := ⟨units "governance-snapshot-1", units "2026-05-19T00:00:00.000Z", [], units "approval-hash",
    units "lineage-hash"⟩
  recommendationReplayResult := ⟨units "COMPLETED", [units "lineage-hash-1"]⟩
  immutableRecommendationLedgerStatus := units "COMPLETED"
  constitutionalEnforcementResult := ⟨units "COMPLETED", units "APPROVED", units "governance-snapshot-1"⟩
  existingLineage := none
  existingAuditLedger := none

theorem declaredCall_meets {standing : ProposalStanding} {target : ProposalLifecycleState}
    (hMatrix : target ∈ PROPOSAL_TRANSITION_MATRIX standing.state) (hFree : target ∉ [.reviewed, .approved, .denied]) :
    (standing.input (declaredCall standing.state target)).Meets where
  identifiers := ⟨List.cons_ne_nil _ _, List.cons_ne_nil _ _, List.cons_ne_nil _ _, List.cons_ne_nil _ _⟩
  source := rfl
  matrix := hMatrix
  governance := ⟨List.cons_ne_nil _ _, List.cons_ne_nil _ _, rfl, rfl⟩
  replay := ⟨List.cons_ne_nil _ _, rfl, rfl⟩
  approvalGiven hTarget := absurd hTarget hFree
  approval hSome := absurd rfl hSome
  dependency hSome := absurd rfl hSome
  audit := List.cons_ne_nil _ _
  reason := by
    have hReason : ∀ pattern ∈ AMBIGUOUS_PATTERNS,
        includes (toLowerCase (units "Operator decision.")) (units pattern) = false := by decide +kernel
    exact hReason
  requester hBoth := Requester.noConfusion hBoth.1

/-- The standing of a proposal that was revoked by its first call. -/
def revokedStanding : ProposalStanding :=
  (ProposalStanding.begin .generated).next plainPlatform (declaredCall .generated .revoked)

theorem revokedStanding_reached : Reaches (ProposalStanding.next plainPlatform) (fun _ _ => True)
    (ProposalStanding.begin .generated) revokedStanding :=
  Reaches.step _ Reaches.refl trivial

theorem revokedStanding_state :
    revokedStanding.state = .revoked ∧ revokedStanding.path = [declared .generated .revoked] := by
  have hSound := standing_sound plainPlatform (@Reaches.refl _ _ (ProposalStanding.next plainPlatform) (fun _ _ => True)
    (ProposalStanding.begin .generated))
  obtain ⟨result, hResult, hOutcome⟩ := evaluate_outcome plainPlatform
    ((ProposalStanding.begin .generated).input (declaredCall .generated .revoked))
  have hAccepted : result.transitionResult.accepted = true := by
    rw [hOutcome.accepted, List.isEmpty_iff]
    refine (checkErrors_eq_nil plainPlatform (hSound.fits _)).mpr ⟨?_, ?_, ?_⟩
    · exact @declaredCall_meets (ProposalStanding.begin .generated) .revoked (by decide) (by decide)
    · exact fun _ hLineage => absurd hLineage (Option.not_mem_none _)
    · exact fun hSame => ProposalLifecycleState.noConfusion hSame
  rw [revokedStanding, ProposalStanding.next, hResult, Option.map_some, Option.getD_some, ProposalStanding.after]
  simp only [hAccepted, if_true]
  exact ⟨rfl, rfl⟩

theorem proposal_lifecycle_revoked :
    Leads .generated revokedStanding.path revokedStanding.state ∧ ∃ result,
      evaluateProposalStateTransition plainPlatform (revokedStanding.input (declaredCall .revoked .archived)) = some result ∧
        verifyImmutableLedgerChain result.auditLedger = true := by
  obtain ⟨hLineages, hCalls⟩ := proposal_lifecycle plainPlatform revokedStanding_reached
  obtain ⟨result, hResult, -, -, -, hVerified⟩ := hCalls (declaredCall .revoked .archived)
  exact ⟨hLineages.1, result, hResult, hVerified⟩

theorem archived_after_revoked {standing : ProposalStanding}
    (hFits : (standing.input (declaredCall .revoked .archived)).Fits) (hState : standing.state = .revoked) :
    (standing.input (declaredCall .revoked .archived)).Meets ∧ ∃ result,
      evaluateProposalStateTransition plainPlatform (standing.input (declaredCall .revoked .archived)) = some result ∧
        result.transitionResult.accepted = false := by
  constructor
  · have hMeets := @declaredCall_meets standing .archived (by rw [hState]; decide) (by decide)
    rw [hState] at hMeets
    exact hMeets
  · obtain ⟨result, hResult, hOutcome⟩ := evaluate_outcome plainPlatform
      (standing.input (declaredCall .revoked .archived))
    refine ⟨result, hResult, ?_⟩
    rw [hOutcome.accepted, ← Bool.not_eq_true, List.isEmpty_iff, checkErrors_eq_nil plainPlatform hFits]
    exact fun hAccepted => hAccepted.2.2 hState

/-- The archival of a revoked proposal meets every requirement and is not accepted. -/
theorem revoked_not_archived :
    Reaches (ProposalStanding.next plainPlatform) (fun _ _ => True) (ProposalStanding.begin .generated) revokedStanding ∧
      (revokedStanding.input (declaredCall .revoked .archived)).Meets ∧ ∃ result,
        evaluateProposalStateTransition plainPlatform (revokedStanding.input (declaredCall .revoked .archived)) =
          some result ∧ result.transitionResult.accepted = false :=
  ⟨revokedStanding_reached,
    archived_after_revoked ((standing_sound plainPlatform revokedStanding_reached).fits _) revokedStanding_state.1⟩

end Chains

end CommandConsole.Proposals
