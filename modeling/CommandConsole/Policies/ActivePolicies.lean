import CommandConsole.Policies.OperationalPolicies
import CommandConsole.Library.Run

/-! # What activations and rollbacks leave active

Ids that the concatenated keys tell apart, the repository's invariant, and what every call of a run
does to the active versions.
-/
namespace CommandConsole.Policies
open Library Execution
set_option autoImplicit false

inductive PolicyCall where
  | activate (request : ActivationRequest) (answers : Answers)
  | rollback (request : RollbackRequest) (answers : Answers)
  deriving DecidableEq

/-- The repository with the calls made so far. -/
structure PolicyHistory where
  repository : PolicyRepository
  calls : List PolicyCall

def noPolicies : PolicyHistory := ⟨PolicyRepository.empty, []⟩

def PolicyCall.perform (dateParse : DateParse) (call : PolicyCall) (repository : PolicyRepository) : PolicyRepository :=
  match call with
  | .activate request answers => (Policies.activate dateParse request answers repository).2
  | .rollback request answers => (Policies.rollback dateParse request answers repository).2

def policyStep (dateParse : DateParse) (call : PolicyCall) (history : PolicyHistory) : PolicyHistory :=
  ⟨call.perform dateParse history.repository, history.calls ++ [call]⟩

/-- The policy, the scope and the version that a call names. -/
def PolicyCall.names : PolicyCall → String × String × String
  | .activate request _ => (request.policyId, request.scopeKey, request.version)
  | .rollback request _ => (request.policyId, request.scopeKey, request.targetVersion)

/-- Different ids have different keys. -/
structure Distinguished (ids : String × String × String → Prop) : Prop where
  pairs : ∀ p s v q t w, ids (p, s, v) → ids (q, t, w) → pairKey p s = pairKey q t → p = q ∧ s = t
  versions : ∀ p s v q t w, ids (p, s, v) → ids (q, t, w) → versionKey p s v = versionKey q t w →
    p = q ∧ s = t ∧ v = w

theorem split_first {a b c d : List Char} (ha : ':' ∉ a) (hc : ':' ∉ c) (h : a ++ ':' :: b = c ++ ':' :: d) :
    a = c ∧ b = d := by
  induction a generalizing c with
  | nil =>
    cases c with
    | nil => exact ⟨rfl, (List.cons.inj h).2⟩
    | cons head tail => exact absurd (List.cons.inj h).1 fun hHead => hc (hHead ▸ List.mem_cons_self)
  | cons head tail ih =>
    cases c with
    | nil => exact absurd (List.cons.inj h).1 fun hHead => ha (hHead ▸ List.mem_cons_self)
    | cons head' tail' =>
      obtain ⟨rfl, hTail⟩ := List.cons.inj h
      obtain ⟨rfl, hRest⟩ := ih (fun hIn => ha (List.mem_cons_of_mem _ hIn))
        (fun hIn => hc (List.mem_cons_of_mem _ hIn)) hTail
      exact ⟨rfl, hRest⟩

theorem split_last {a b c d : List Char} (hb : ':' ∉ b) (hd : ':' ∉ d) (h : a ++ ':' :: b = c ++ ':' :: d) :
    a = c ∧ b = d := by
  have hReverse := congrArg List.reverse h
  rw [List.reverse_append, List.reverse_append, List.reverse_cons, List.reverse_cons, List.append_assoc,
    List.append_assoc] at hReverse
  obtain ⟨hRight, hLeft⟩ := split_first (by rwa [List.mem_reverse]) (by rwa [List.mem_reverse]) hReverse
  exact ⟨List.reverse_injective hLeft, List.reverse_injective hRight⟩

theorem pairKey_toList (p s : String) : (pairKey p s).toList = p.toList ++ ':' :: s.toList := by
  rw [pairKey, String.toList_append, String.toList_append, List.append_assoc]
  rfl

theorem versionKey_toList (p s v : String) :
    (versionKey p s v).toList = p.toList ++ ':' :: (s.toList ++ ':' :: v.toList) := by
  rw [versionKey, String.toList_append, String.toList_append, String.toList_append, String.toList_append,
    List.append_assoc, List.append_assoc, List.append_assoc]
  rfl

/-- No delimiter in policy ids and versions is enough; scope keys may contain it. -/
theorem distinguished_of_colon_free {ids : String × String × String → Prop}
    (h : ∀ p s v, ids (p, s, v) → ':' ∉ p.toList ∧ ':' ∉ v.toList) : Distinguished ids where
  pairs p s v q t w hLeft hRight hKey := by
    have hList := congrArg String.toList hKey
    rw [pairKey_toList, pairKey_toList] at hList
    obtain ⟨hp, hs⟩ := split_first (h p s v hLeft).1 (h q t w hRight).1 hList
    exact ⟨String.toList_inj.mp hp, String.toList_inj.mp hs⟩
  versions p s v q t w hLeft hRight hKey := by
    have hList := congrArg String.toList hKey
    rw [versionKey_toList, versionKey_toList] at hList
    obtain ⟨hp, hRest⟩ := split_first (h p s v hLeft).1 (h q t w hRight).1 hList
    obtain ⟨hs, hv⟩ := split_last (h p s v hLeft).2 (h q t w hRight).2 hRest
    exact ⟨String.toList_inj.mp hp, String.toList_inj.mp hs, String.toList_inj.mp hv⟩

/-- The call activated this very version under a proposal that approves changes of its policy. -/
def Grants (call : PolicyCall) (version : PolicyVersion) : Prop :=
  ∃ request answers proposal, call = .activate request answers ∧ answers.proposal = some proposal ∧
    approves proposal version.policyId ∧ version = newVersion request answers.now

/-- Every stored version stands under its own key, and every active one is stored. -/
structure Kept (ids : String × String × String → Prop) (history : PolicyHistory) : Prop where
  stored : ∀ key version, history.repository.versions key = some version →
    ids (version.policyId, version.scopeKey, version.version) ∧
      key = versionKey version.policyId version.scopeKey version.version
  active : ∀ key version, history.repository.activeByPolicyScope key = some version →
    key = pairKey version.policyId version.scopeKey ∧ ∃ own, history.repository.versions own = some version
  granted : ∀ key version, history.repository.versions key = some version →
    ∃ call ∈ history.calls, Grants call version

/-- The call's ids are in use, and a version that is there already is activated again only while it is
the active one. -/
def Admissible (dateParse : DateParse) (ids : String × String × String → Prop) (call : PolicyCall)
    (history : PolicyHistory) : Prop :=
  ids call.names ∧
    match call with
    | .activate request answers =>
      ∀ existing, refusal? dateParse request answers = none →
        history.repository.getByPolicyVersion request.policyId request.version request.scopeKey = some existing →
        sameActivation existing request →
        history.repository.getActive request.policyId request.scopeKey = some existing
    | .rollback _ _ => True

/-- The version with these ids is active. -/
def IsActive (repository : PolicyRepository) (policyId scopeKey version : String) : Prop :=
  ∃ active, repository.getActive policyId scopeKey = some active ∧ active.policyId = policyId ∧
    active.scopeKey = scopeKey ∧ active.version = version

/-- What a call promises about the repository before and after it. -/
structure Promised (dateParse : DateParse) (ids : String × String × String → Prop) (call : PolicyCall)
    (before after : PolicyRepository) : Prop where
  activated : ∀ request answers, call = .activate request answers →
    (activate dateParse request answers before).1.status = .activated →
    IsActive after request.policyId request.scopeKey request.version
  rolledBack : ∀ request answers, call = .rollback request answers →
    (rollback dateParse request answers before).1.status = .rolledBack →
    IsActive after request.policyId request.scopeKey request.targetVersion
  others : ∀ policyId scopeKey version, ids (policyId, scopeKey, version) →
    ¬ (policyId = call.names.1 ∧ scopeKey = call.names.2.1) →
    after.getActive policyId scopeKey = before.getActive policyId scopeKey ∧
      after.getByPolicyVersion policyId version scopeKey = before.getByPolicyVersion policyId version scopeKey

/-- Everything that an activation can do. -/
theorem activate_cases (dateParse : DateParse) (request : ActivationRequest) (answers : Answers)
    (repository : PolicyRepository) :
    ((activate dateParse request answers repository).2 = repository ∧
      ((activate dateParse request answers repository).1.status = .activated →
        refusal? dateParse request answers = none ∧ ∃ existing,
          repository.getByPolicyVersion request.policyId request.version request.scopeKey = some existing ∧
            sameActivation existing request)) ∨
    ∃ proposal, answers.proposal = some proposal ∧ approves proposal request.policyId ∧
      repository.getByPolicyVersion request.policyId request.version request.scopeKey = none ∧
      (activate dateParse request answers repository).2 =
        ⟨Function.update repository.versions (versionKey request.policyId request.scopeKey request.version)
            (some (newVersion request answers.now)),
          Function.update repository.activeByPolicyScope (pairKey request.policyId request.scopeKey)
            (some (newVersion request answers.now))⟩ := by
  rw [activate]
  cases hRefusal : refusal? dateParse request answers with
  | some reasonCode => exact .inl ⟨rfl, nofun⟩
  | none =>
    dsimp only
    cases hExisting : repository.getByPolicyVersion request.policyId request.version request.scopeKey with
    | some existing =>
      dsimp only
      split
      · rename_i hSame
        exact .inl ⟨rfl, fun _ => ⟨rfl, existing, rfl, hSame⟩⟩
      · exact .inl ⟨rfl, nofun⟩
    | none =>
      refine .inr ?_
      have hNew : repository.activate (newVersion request answers.now) = (newVersion request answers.now,
          ⟨Function.update repository.versions (versionKey request.policyId request.scopeKey request.version)
              (some (newVersion request answers.now)),
            Function.update repository.activeByPolicyScope (pairKey request.policyId request.scopeKey)
              (some (newVersion request answers.now))⟩) := by
        rw [PolicyRepository.activate]
        rw [PolicyRepository.getByPolicyVersion] at hExisting
        dsimp only [newVersion]
        rw [hExisting]
      obtain ⟨proposal, hProposal, hApproves⟩ : ∃ proposal, answers.proposal = some proposal ∧
          approves proposal request.policyId := by
        rw [refusal?] at hRefusal
        cases hProposal : answers.proposal with
        | none =>
          rw [hProposal] at hRefusal
          dsimp only at hRefusal
          split_ifs at hRefusal
        | some proposal =>
          rw [hProposal] at hRefusal
          dsimp only at hRefusal
          split_ifs at hRefusal with _ _ hApproves
          exact ⟨proposal, rfl, by simpa using hApproves⟩
      refine ⟨proposal, hProposal, hApproves, rfl, ?_⟩
      dsimp only
      rw [hNew]
      dsimp only
      split <;> rfl

/-- Everything that a rollback can do. -/
theorem rollback_cases (dateParse : DateParse) (request : RollbackRequest) (answers : Answers)
    (repository : PolicyRepository) :
    ((rollback dateParse request answers repository).2 = repository ∧
      ((rollback dateParse request answers repository).1.status = .rolledBack →
        ∃ active target, repository.getActive request.policyId request.scopeKey = some active ∧
          repository.getByPolicyVersion request.policyId request.targetVersion request.scopeKey = some target ∧
          target.version = active.version)) ∨
    ∃ target, repository.getByPolicyVersion request.policyId request.targetVersion request.scopeKey = some target ∧
      (rollback dateParse request answers repository).2 =
        { repository with
          activeByPolicyScope := Function.update repository.activeByPolicyScope
            (pairKey request.policyId request.scopeKey) (some target) } := by
  rw [rollback]
  split
  · exact .inl ⟨rfl, nofun⟩
  split
  · exact .inl ⟨rfl, nofun⟩
  split
  · exact .inl ⟨rfl, nofun⟩
  rename_i active hActive
  split
  · exact .inl ⟨rfl, nofun⟩
  rename_i target hTarget
  split
  · rename_i hSame
    exact .inl ⟨rfl, fun _ => ⟨active, target, hActive, hTarget, hSame⟩⟩
  split
  · exact .inl ⟨rfl, nofun⟩
  split
  · exact .inl ⟨rfl, nofun⟩
  refine .inr ⟨target, hTarget, ?_⟩
  rw [PolicyRepository.getByPolicyVersion] at hTarget
  rw [PolicyRepository.reactivate, hTarget]
  dsimp only [Option.map_some]
  split <;> rfl

section Runs

variable {dateParse : DateParse} {ids : String × String × String → Prop}

theorem granted_later {history : PolicyHistory} {call : PolicyCall} {version : PolicyVersion}
    (h : ∃ older ∈ history.calls, Grants older version) :
    ∃ older ∈ history.calls ++ [call], Grants older version := by
  obtain ⟨older, hOlder, hGrants⟩ := h
  exact ⟨older, List.mem_append_left _ hOlder, hGrants⟩

theorem kept_of_same {history : PolicyHistory} {call : PolicyCall} (h : Kept ids history)
    (hSame : call.perform dateParse history.repository = history.repository) :
    Kept ids (policyStep dateParse call history) := by
  obtain ⟨hStored, hActive, hGranted⟩ := h
  rw [policyStep, hSame]
  exact ⟨hStored, hActive, fun key version hVersion => granted_later (hGranted key version hVersion)⟩

/-- What one call preserves. -/
theorem kept_step {history : PolicyHistory} {call : PolicyCall} (h : Kept ids history) (hIds : Distinguished ids)
    (hCall : ids call.names) : Kept ids (policyStep dateParse call history) := by
  cases call with
  | activate request answers =>
    rcases activate_cases dateParse request answers history.repository with
      ⟨hSame, -⟩ | ⟨proposal, hProposal, hApproves, hNone, hNew⟩
    · exact kept_of_same h hSame
    · obtain ⟨hStored, hActive, hGranted⟩ := h
      have hPerform : (policyStep dateParse (.activate request answers) history).repository = _ := hNew
      refine ⟨?_, ?_, ?_⟩ <;> rw [hPerform] <;> dsimp only <;> intro key version hVersion <;>
        rw [Function.update_apply] at hVersion <;> split at hVersion
      · rename_i hKey
        obtain rfl := Option.some.inj hVersion
        exact ⟨hCall, hKey⟩
      · exact hStored key version hVersion
      · rename_i hKey
        obtain rfl := Option.some.inj hVersion
        exact ⟨hKey, _, Function.update_self _ _ _⟩
      · obtain ⟨hKey, own, hOwn⟩ := hActive key version hVersion
        refine ⟨hKey, own, ?_⟩
        rw [Function.update_of_ne, hOwn]
        rintro rfl
        cases hNone.symm.trans hOwn
      · obtain rfl := Option.some.inj hVersion
        exact ⟨_, List.mem_append_right _ List.mem_cons_self, request, answers, proposal, rfl, hProposal, hApproves, rfl⟩
      · exact granted_later (hGranted key version hVersion)
  | rollback request answers =>
    rcases rollback_cases dateParse request answers history.repository with ⟨hSame, -⟩ | ⟨target, hTarget, hNew⟩
    · exact kept_of_same h hSame
    · obtain ⟨hStored, hActive, hGranted⟩ := h
      have hPerform : (policyStep dateParse (.rollback request answers) history).repository = _ := hNew
      refine ⟨?_, ?_, ?_⟩ <;> rw [hPerform] <;> dsimp only <;> intro key version hVersion
      · exact hStored key version hVersion
      · rw [Function.update_apply] at hVersion
        split at hVersion
        · rename_i hKey
          obtain rfl := Option.some.inj hVersion
          obtain ⟨hTargetIds, hTargetKey⟩ := hStored _ _ hTarget
          obtain ⟨hp, hs, -⟩ := hIds.versions _ _ _ _ _ _ hCall hTargetIds hTargetKey
          exact ⟨by rw [hKey, hp, hs], _, hTarget⟩
        · exact hActive key version hVersion
      · exact granted_later (hGranted key version hVersion)

theorem stored_ids {history : PolicyHistory} {policyId scopeKey version : String} {stored : PolicyVersion}
    (h : Kept ids history) (hIds : Distinguished ids) (hUsed : ids (policyId, scopeKey, version))
    (hStored : history.repository.getByPolicyVersion policyId version scopeKey = some stored) :
    stored.policyId = policyId ∧ stored.scopeKey = scopeKey ∧ stored.version = version := by
  obtain ⟨hStoredIds, hKey⟩ := h.stored _ _ hStored
  obtain ⟨hp, hs, hv⟩ := hIds.versions _ _ _ _ _ _ hUsed hStoredIds hKey
  exact ⟨hp.symm, hs.symm, hv.symm⟩

theorem active_ids {history : PolicyHistory} {policyId scopeKey version : String} {active : PolicyVersion}
    (h : Kept ids history) (hIds : Distinguished ids) (hUsed : ids (policyId, scopeKey, version))
    (hActive : history.repository.getActive policyId scopeKey = some active) :
    active.policyId = policyId ∧ active.scopeKey = scopeKey := by
  obtain ⟨hKey, own, hOwn⟩ := h.active _ _ hActive
  obtain ⟨hp, hs⟩ := hIds.pairs _ _ _ _ _ _ hUsed (h.stored own active hOwn).1 hKey
  exact ⟨hp.symm, hs.symm⟩

theorem promised_activate {history : PolicyHistory} {request : ActivationRequest} {answers : Answers}
    (h : Kept ids history) (hIds : Distinguished ids)
    (hAdmissible : Admissible dateParse ids (.activate request answers) history) :
    Promised dateParse ids (.activate request answers) history.repository
      (policyStep dateParse (.activate request answers) history).repository := by
  obtain ⟨hUsed, hReplay⟩ := hAdmissible
  rcases activate_cases dateParse request answers history.repository with
    ⟨hSame, hExisting⟩ | ⟨proposal, -, -, -, hNew⟩
  · have hPerform : (policyStep dateParse (.activate request answers) history).repository = history.repository := hSame
    rw [hPerform]
    refine ⟨?_, nofun, fun _ _ _ _ _ => ⟨rfl, rfl⟩⟩
    rintro _ _ ⟨⟩ hStatus
    obtain ⟨hRefusal, existing, hStored, hMatch⟩ := hExisting hStatus
    exact ⟨existing, hReplay existing hRefusal hStored hMatch, stored_ids h hIds hUsed hStored⟩
  · have hPerform : (policyStep dateParse (.activate request answers) history).repository = _ := hNew
    rw [hPerform]
    refine ⟨?_, nofun, fun policyId scopeKey version hOther hDifferent => ⟨?_, ?_⟩⟩
    · rintro _ _ ⟨⟩ -
      exact ⟨newVersion request answers.now, Function.update_self _ _ _, rfl, rfl, rfl⟩
    · refine Function.update_of_ne (fun hKey => hDifferent ?_) _ _
      exact hIds.pairs _ _ _ _ _ _ hOther hUsed hKey
    · refine Function.update_of_ne (fun hKey => hDifferent ?_) _ _
      obtain ⟨hp, hs, -⟩ := hIds.versions _ _ _ _ _ _ hOther hUsed hKey
      exact ⟨hp, hs⟩

theorem promised_rollback {history : PolicyHistory} {request : RollbackRequest} {answers : Answers}
    (h : Kept ids history) (hIds : Distinguished ids) (hUsed : ids (PolicyCall.rollback request answers).names) :
    Promised dateParse ids (.rollback request answers) history.repository
      (policyStep dateParse (.rollback request answers) history).repository := by
  rcases rollback_cases dateParse request answers history.repository with ⟨hSame, hTarget⟩ | ⟨target, hTarget, hNew⟩
  · have hPerform : (policyStep dateParse (.rollback request answers) history).repository = history.repository := hSame
    rw [hPerform]
    refine ⟨nofun, ?_, fun _ _ _ _ _ => ⟨rfl, rfl⟩⟩
    rintro _ _ ⟨⟩ hStatus
    obtain ⟨active, target, hActive, hStored, hVersion⟩ := hTarget hStatus
    obtain ⟨hp, hs⟩ := active_ids h hIds hUsed hActive
    exact ⟨active, hActive, hp, hs, hVersion ▸ (stored_ids h hIds hUsed hStored).2.2⟩
  · have hPerform : (policyStep dateParse (.rollback request answers) history).repository = _ := hNew
    rw [hPerform]
    refine ⟨nofun, ?_, fun policyId scopeKey version hOther hDifferent => ⟨?_, rfl⟩⟩
    · rintro _ _ ⟨⟩ -
      exact ⟨target, Function.update_self _ _ _, stored_ids h hIds hUsed hTarget⟩
    · refine Function.update_of_ne (fun hKey => hDifferent ?_) _ _
      exact hIds.pairs _ _ _ _ _ _ hOther hUsed hKey

theorem kept_run {history : PolicyHistory} (hIds : Distinguished ids)
    (h : Reaches (policyStep dateParse) (Admissible dateParse ids) noPolicies history) : Kept ids history :=
  h.invariant ⟨nofun, nofun, nofun⟩ fun _ _ hKept hAdmissible => kept_step hKept hIds hAdmissible.1

end Runs

/-- In every run over ids that their keys tell apart, in which an old version is activated again only
while it is active, every call keeps its promises and every active version was activated under an
approved proposal. -/
theorem policy_calls_keep_promises {dateParse : DateParse} {ids : String × String × String → Prop}
    (hIds : Distinguished ids) {history : PolicyHistory}
    (h : Reaches (policyStep dateParse) (Admissible dateParse ids) noPolicies history) :
    (∀ policyId scopeKey active, history.repository.getActive policyId scopeKey = some active →
      ∃ call ∈ history.calls, Grants call active) ∧
    ∀ call, Admissible dateParse ids call history →
      Promised dateParse ids call history.repository (policyStep dateParse call history).repository := by
  have hKept := kept_run hIds h
  refine ⟨fun policyId scopeKey active hActive => ?_, fun call hAdmissible => ?_⟩
  · obtain ⟨-, own, hOwn⟩ := hKept.active _ _ hActive
    exact hKept.granted own active hOwn
  · cases call with
    | activate request answers => exact promised_activate hKept hIds hAdmissible
    | rollback request answers => exact promised_rollback hKept hIds hAdmissible.1

def sampleRequest (version : String) : ActivationRequest where
  proposalId := "proposal-001"
  policyId := "review-interval-policy"
  version := version
  scopeKey := "PROJECT:project-alpha"
  contentHash := "sha256:abc"
  impactAnalysis := "14 days"
  migrationPlan := "new assessments"
  rollbackPlan := "prior version"
  effectiveAt := "2026-10-01T00:00:00.000Z"
  activatorId := "activator-001"
  constitutionVersion := "1.0.0"

def sampleAnswers : Answers :=
  ⟨some ⟨"proposal-001", ["review-interval-policy"], .approvedForPolicyChange⟩, true, "2026-09-03T00:00:00.000Z", true⟩

def sampleParse : DateParse := fun text => if text = "2026-10-01T00:00:00.000Z" then some 1790812800000 else none

def sampleCall (version : String) : PolicyCall := .activate (sampleRequest version) sampleAnswers

theorem policy_calls_keep_promises_first : IsActive
    (policyStep sampleParse (sampleCall "2.0.0") noPolicies).repository
    "review-interval-policy" "PROJECT:project-alpha" "2.0.0" := by
  have hIds : Distinguished (· = ("review-interval-policy", "PROJECT:project-alpha", "2.0.0")) := by
    refine distinguished_of_colon_free fun p s v hUsed => ?_
    cases hUsed
    decide
  exact ((policy_calls_keep_promises hIds .refl).2 (sampleCall "2.0.0") ⟨rfl, nofun⟩).activated _ _ rfl
    (by decide +kernel)

/-- Versions 1.0.0 and 2.0.0 are activated, then 1.0.0 again: the last call reports it activated while
2.0.0 is active. -/
theorem replayed_activation_inactive :
    let history := runAll (policyStep sampleParse) noPolicies [sampleCall "1.0.0", sampleCall "2.0.0"]
    (activate sampleParse (sampleRequest "1.0.0") sampleAnswers history.repository).1.status = .activated ∧
      ((policyStep sampleParse (sampleCall "1.0.0") history).repository.getActive "review-interval-policy"
        "PROJECT:project-alpha").map PolicyVersion.version = some "2.0.0" := by
  decide +kernel

end CommandConsole.Policies
