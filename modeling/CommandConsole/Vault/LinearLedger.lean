import Mathlib.Data.List.Induction
import CommandConsole.Vault.Ledger

/-! # Linear vaults

A ledger is linear when every append is still right at the time when it is made: its candidate
has no canonical record yet, and what it supersedes is still current. A call checks this only
when it reads.
-/
namespace CommandConsole.Vault
open Library
set_option autoImplicit false

section Statement

def canonicalVersions (ledger : VaultLedger) : List (Version String) :=
  (canonicalRecords ledger).map fun record => ⟨record.id, record.version, record.status⟩

def decisionVersions (ledger : VaultLedger) : List (Version String) :=
  (projectDecisions ledger).map fun record => ⟨record.id, record.version, record.status.standing⟩

def requirementVersions (ledger : VaultLedger) : List (Version String) :=
  (projectRequirements ledger).map fun record => ⟨record.id, record.version, record.status.standing⟩

structure LinearVault (ledger : VaultLedger) : Prop where
  oneRecord : ∀ left ∈ canonicalRecords ledger, ∀ right ∈ canonicalRecords ledger,
    left.candidateId = right.candidateId → left.id = right.id
  canonical : Lineages (canonicalVersions ledger)
  decisions : Lineages (decisionVersions ledger)
  requirements : Lineages (requirementVersions ledger)

def IsCurrent (id : String) (versions : List (Version String)) : Prop :=
  ∃ last ∈ latest? id versions, last.standing = .current

def NewCandidate (candidateId : String) (ledger : VaultLedger) : Prop :=
  ∀ record ∈ canonicalRecords ledger, record.candidateId ≠ candidateId

def NewId (id : String) (versions : List (Version String)) : Prop := ∀ version ∈ versions, version.id ≠ id

/-- What the call has checked when it read is so when it appends. -/
def VaultAppend.Holds (ledger : VaultLedger) : VaultAppend → Prop
  | .promotion _ record _ => NewCandidate record.candidateId ledger
  | .supersession _ previous _ successor _ =>
    NewCandidate successor.candidateId ledger ∧ IsCurrent previous.id (canonicalVersions ledger)
  | .projectDecision _ supersededSnapshot _ =>
    ∀ snapshot ∈ supersededSnapshot, IsCurrent snapshot.id (decisionVersions ledger)
  | .projectRequirement _ supersededSnapshot _ =>
    ∀ snapshot ∈ supersededSnapshot, IsCurrent snapshot.id (requirementVersions ledger)

/-- The generated id is not in use. -/
def VaultAppend.Fresh (ledger : VaultLedger) : VaultAppend → Prop
  | .promotion _ record _ => NewId record.id (canonicalVersions ledger)
  | .supersession _ _ _ successor _ => NewId successor.id (canonicalVersions ledger)
  | .projectDecision record _ _ => NewId record.id (decisionVersions ledger)
  | .projectRequirement record _ _ => NewId record.id (requirementVersions ledger)

def VaultCall.Appends (call : VaultCall) (condition : VaultAppend → Prop) : Prop :=
  match call.stage with
  | .appending rows => condition rows
  | _ => True

def FreshIds (turn : VaultTurn) (crowd : Vaults) : Prop :=
  match turn with
  | .advance index _ => ∀ call ∈ crowd.calls[index]?, call.Appends (VaultAppend.Fresh crowd.store)
  | _ => True

def InTime (turn : VaultTurn) (crowd : Vaults) : Prop :=
  match turn with
  | .advance index _ => ∀ call ∈ crowd.calls[index]?,
    call.Appends fun rows => rows.Fresh crowd.store ∧ rows.Holds crowd.store
  | _ => True

section Decidable

variable (ledger : VaultLedger)

instance (id : String) (versions : List (Version String)) : Decidable (IsCurrent id versions) :=
  inferInstanceAs (Decidable (∃ last ∈ latest? id versions, _))

instance (candidateId : String) : Decidable (NewCandidate candidateId ledger) :=
  inferInstanceAs (Decidable (∀ record ∈ canonicalRecords ledger, _))

instance (id : String) (versions : List (Version String)) : Decidable (NewId id versions) :=
  inferInstanceAs (Decidable (∀ version ∈ versions, _))

instance (rows : VaultAppend) : Decidable (rows.Holds ledger) := by
  unfold VaultAppend.Holds
  split <;> infer_instance

instance (rows : VaultAppend) : Decidable (rows.Fresh ledger) := by
  unfold VaultAppend.Fresh
  split <;> infer_instance

instance (call : VaultCall) (condition : VaultAppend → Prop) [DecidablePred condition] :
    Decidable (call.Appends condition) := by
  unfold VaultCall.Appends
  split <;> infer_instance

instance (turn : VaultTurn) (crowd : Vaults) : Decidable (FreshIds turn crowd) := by
  unfold FreshIds
  split <;> infer_instance

instance (turn : VaultTurn) (crowd : Vaults) : Decidable (InTime turn crowd) := by
  unfold InTime
  split <;> infer_instance

end Decidable

end Statement

section Reading

variable {ledger final : VaultLedger}

theorem mem_latestMap {α : Type} {idOf : α → String} {rows : List α} {entry : String × α}
    (h : entry ∈ latestMap idOf rows) : entry.2 ∈ rows := by
  unfold latestMap at h
  induction rows using List.reverseRecOn with
  | nil => cases h
  | append_singleton rows row ih =>
    rw [List.foldl_append, List.foldl_cons, List.foldl_nil] at h
    rcases InsertionMap.mem_set h with rfl | hOld
    · exact List.mem_append_right _ List.mem_cons_self
    · exact List.mem_append_left _ (ih hOld)

/-- What a call has read and is about to append. -/
def VaultAppend.Known (ledger : VaultLedger) : VaultAppend → Prop
  | .promotion _ record _ => record.status = .current
  | .supersession _ previous supersededSnapshot successor _ =>
    previous ∈ canonicalRecords ledger ∧ supersededSnapshot = previous.supersededBy successor.id ∧
      successor.status = .current ∧ successor.version = previous.version + 1
  | .projectDecision record supersededSnapshot _ =>
    record.status = .current ∧ ∀ snapshot ∈ supersededSnapshot, ∃ current ∈ projectDecisions ledger,
      snapshot = current.supersededBy record.id ∧ record.version = current.version + 1
  | .projectRequirement record supersededSnapshot _ =>
    record.status = .current ∧ ∀ snapshot ∈ supersededSnapshot, ∃ current ∈ projectRequirements ledger,
      snapshot = current.supersededBy record.id ∧ record.version = current.version + 1

theorem VaultAppend.Known.later {rows : VaultAppend} (h : rows.Known ledger) (hPrefix : ledger <+: final) :
    rows.Known final := by
  obtain ⟨appended, rfl⟩ := hPrefix
  cases rows with
  | promotion => exact h
  | supersession =>
    refine ⟨?_, h.2⟩
    rw [canonicalRecords, List.filterMap_append]
    exact List.mem_append_left _ h.1
  | projectDecision =>
    refine ⟨h.1, fun snapshot hSnapshot => ?_⟩
    obtain ⟨current, hCurrent, hRest⟩ := h.2 snapshot hSnapshot
    refine ⟨current, ?_, hRest⟩
    rw [projectDecisions, List.filterMap_append]
    exact List.mem_append_left _ hCurrent
  | projectRequirement =>
    refine ⟨h.1, fun snapshot hSnapshot => ?_⟩
    obtain ⟨current, hCurrent, hRest⟩ := h.2 snapshot hSnapshot
    refine ⟨current, ?_, hRest⟩
    rw [projectRequirements, List.filterMap_append]
    exact List.mem_append_left _ hCurrent

variable {input : VaultInput} {rows : VaultAppend}

theorem promote_known {candidate : VaultCandidate} {decision : GovernanceDecision} {canonicalRecordId : String}
    (h : promote candidate decision canonicalRecordId = .ok rows) : rows.Known ledger := by
  unfold promote at h
  cases hAssert : assertApprovedDecision candidate decision with
  | error error =>
    rw [hAssert] at h
    cases h
  | ok _ =>
    rw [hAssert] at h
    cases h
    rfl

theorem supersede_known {candidate : VaultCandidate} {decision : GovernanceDecision} {currentRecord : CanonicalRecord}
    {canonicalRecordId : String} (hCurrent : currentRecord ∈ canonicalRecords ledger)
    (h : supersede candidate decision currentRecord canonicalRecordId = .ok rows) : rows.Known ledger := by
  unfold supersede at h
  cases hAssert : assertApprovedDecision candidate decision with
  | error error =>
    rw [hAssert] at h
    cases h
  | ok _ =>
    rw [hAssert] at h
    by_cases hStatus : currentRecord.status ≠ .current
    · simp [hStatus] at h
      cases h
    · by_cases hSelf : currentRecord.id = canonicalRecordId
      · simp [hStatus, hSelf] at h
        cases h
      · simp [hStatus, hSelf] at h
        cases h
        exact ⟨hCurrent, rfl, rfl, rfl⟩

theorem approve_known {candidateId rationale actor correlationId : String} {supersedesRecordId : Option String}
    (h : approve input candidateId rationale supersedesRecordId actor correlationId ledger = .ok rows) :
    rows.Known ledger := by
  dsimp only [approve] at h
  split at h
  · cases h
  · split at h
    · cases h
    · cases supersedesRecordId with
      | none => exact promote_known h
      | some recordId =>
        dsimp only at h
        split at h
        · cases h
        · next currentRecord hFind =>
          obtain ⟨entry, hEntry, rfl⟩ := List.mem_map.mp (List.mem_of_find?_eq_some hFind)
          exact supersede_known (mem_latestMap hEntry) h

theorem mem_of_latest {α : Type} {idOf : α → String} {rows : List α} {selected : Option String} {row : α}
    (h : row ∈ selected.bind fun id => InsertionMap.get id (latestMap idOf rows)) : row ∈ rows := by
  obtain ⟨id, -, hGet⟩ := Option.bind_eq_some_iff.mp h
  exact mem_latestMap (InsertionMap.mem_of_get hGet)

theorem recordDecision_known {given : ProjectDecisionInput} (h : recordDecision input given ledger = .ok rows) :
    rows.Known ledger := by
  unfold recordDecision at h
  cases hApproval : approvalFor given ledger with
  | error error =>
    rw [hApproval] at h
    cases h
  | ok found =>
    rw [hApproval] at h
    dsimp only [Bind.bind, Except.bind] at h
    split at h
    · cases h
    · split at h
      · cases h
      · cases h
        refine ⟨rfl, fun snapshot hSnapshot => ?_⟩
        obtain ⟨current, hCurrent, rfl⟩ := Option.map_eq_some_iff.mp hSnapshot
        exact ⟨current, mem_of_latest hCurrent, rfl, by rw [hCurrent]; rfl⟩

theorem recordRequirement_known {given : ProjectRequirementInput}
    (h : recordRequirement input given ledger = .ok rows) : rows.Known ledger := by
  unfold recordRequirement at h
  cases hApproval : requirementApproval given ledger with
  | error error =>
    rw [hApproval] at h
    cases h
  | ok found =>
    rw [hApproval] at h
    dsimp only [Bind.bind, Except.bind] at h
    split at h
    · cases h
    · split at h
      · cases h
      · cases h
        refine ⟨rfl, fun snapshot hSnapshot => ?_⟩
        obtain ⟨current, hCurrent, rfl⟩ := Option.map_eq_some_iff.mp hSnapshot
        exact ⟨current, mem_of_latest hCurrent, rfl, by rw [hCurrent]; rfl⟩

theorem VaultRequest.decide_known {request : VaultRequest} (h : request.decide input ledger = .ok rows) :
    rows.Known ledger := by
  cases request with
  | approve => exact approve_known h
  | recordDecision => exact recordDecision_known h
  | recordRequirement => exact recordRequirement_known h

end Reading

section Sound

structure Sound (ledger : VaultLedger) : Prop where
  oneRecord : ∀ left ∈ canonicalRecords ledger, ∀ right ∈ canonicalRecords ledger,
    left.candidateId = right.candidateId → left.id = right.id
  canonical : Linear (canonicalVersions ledger)
  decisions : Linear (decisionVersions ledger)
  requirements : Linear (requirementVersions ledger)

variable {ledger appended : VaultLedger} {rows : VaultAppend}

theorem Sound.linear (h : Sound ledger) : LinearVault ledger :=
  ⟨h.oneRecord, h.canonical.lineages, h.decisions.lineages, h.requirements.lineages⟩

theorem sound_nil : Sound [] := by
  refine ⟨?_, linear_nil, linear_nil, linear_nil⟩
  rintro left ⟨⟩

theorem canonicalVersions_append (ledger appended : VaultLedger) :
    canonicalVersions (ledger ++ appended) = canonicalVersions ledger ++ canonicalVersions appended := by
  simp [canonicalVersions, canonicalRecords]

theorem decisionVersions_append (ledger appended : VaultLedger) :
    decisionVersions (ledger ++ appended) = decisionVersions ledger ++ decisionVersions appended := by
  simp [decisionVersions, projectDecisions]

theorem requirementVersions_append (ledger appended : VaultLedger) :
    requirementVersions (ledger ++ appended) = requirementVersions ledger ++ requirementVersions appended := by
  simp [requirementVersions, projectRequirements]

/-- A sound ledger may be extended where its candidates and its versions may. -/
theorem Sound.extend (h : Sound ledger)
    (hOne : ∀ right ∈ canonicalRecords appended, ∀ left ∈ canonicalRecords (ledger ++ appended),
      left.candidateId = right.candidateId → left.id = right.id)
    (hCanonical : Extension (canonicalVersions ledger) (canonicalVersions appended))
    (hDecisions : Extension (decisionVersions ledger) (decisionVersions appended))
    (hRequirements : Extension (requirementVersions ledger) (requirementVersions appended)) :
    Sound (ledger ++ appended) := by
  constructor
  · intro left hLeft right hRight hCandidate
    rw [canonicalRecords, List.filterMap_append] at hRight hLeft
    rcases List.mem_append.mp hRight with hOld | hNew
    · rcases List.mem_append.mp hLeft with hOld' | hNew'
      · exact h.oneRecord left hOld' right hOld hCandidate
      · refine (hOne left hNew' right ?_ hCandidate.symm).symm
        rw [canonicalRecords, List.filterMap_append]
        exact hRight
    · refine hOne right hNew left ?_ hCandidate
      rw [canonicalRecords, List.filterMap_append]
      exact hLeft
  · rw [canonicalVersions_append]
    exact h.canonical.extend hCanonical
  · rw [decisionVersions_append]
    exact h.decisions.extend hDecisions
  · rw [requirementVersions_append]
    exact h.requirements.extend hRequirements

theorem superseding {versions : List (Version String)} (h : Linear versions) {old : Version String}
    (new : Version String) (hOld : old ∈ versions) (hIsCurrent : IsCurrent old.id versions)
    (hFresh : NewId new.id versions) (hCurrent : new.standing = .current) (hVersion : new.version = old.version + 1) :
    Extension versions [{ old with standing := .superseded new.id }, new] := by
  obtain ⟨last, hLast, hStanding⟩ := hIsCurrent
  have hOnly : ∀ version ∈ versions, version.id = old.id → version.standing = .current := by
    intro version hMem hId
    rw [h.current_only hLast hStanding hMem hId]
    exact hStanding
  exact .supersede old new hOld (hOnly old hOld rfl) hOnly hFresh hCurrent hVersion

theorem Sound.appendRows (h : Sound ledger) (hKnown : rows.Known ledger) (hFresh : rows.Fresh ledger)
    (hHolds : rows.Holds ledger) : Sound (ledger ++ rows.rows) := by
  cases rows with
  | promotion decision record auditEvent =>
    refine h.extend ?_ (.add ⟨record.id, record.version, record.status⟩ hFresh hKnown) .none .none
    intro right hRight left hLeft hCandidate
    obtain rfl := List.mem_singleton.mp hRight
    rw [canonicalRecords, List.filterMap_append] at hLeft
    rcases List.mem_append.mp hLeft with hOld | hNew
    · exact absurd hCandidate (hHolds left hOld)
    · rw [List.mem_singleton.mp hNew]
  | supersession decision previous supersededSnapshot successor auditEvent =>
    obtain ⟨hPrevious, rfl, hCurrent, hVersion⟩ := hKnown
    refine h.extend ?_ (superseding h.canonical ⟨successor.id, successor.version, successor.status⟩
      (List.mem_map_of_mem hPrevious) hHolds.2 hFresh hCurrent hVersion)
      .none .none
    intro right hRight left hLeft hCandidate
    have hRows : canonicalRecords (VaultAppend.supersession decision previous (previous.supersededBy successor.id)
        successor auditEvent).rows = [previous.supersededBy successor.id, successor] := rfl
    rw [canonicalRecords, List.filterMap_append] at hLeft
    have hEarlier : ∀ other ∈ canonicalRecords ledger, other.candidateId ≠ successor.candidateId := hHolds.1
    rw [hRows] at hRight
    rcases List.mem_append.mp hLeft with hOld | hNew
    · rcases List.mem_cons.mp hRight with rfl | hLast
      · exact h.oneRecord left hOld previous hPrevious hCandidate
      · obtain rfl := List.mem_singleton.mp hLast
        exact absurd hCandidate (hEarlier left hOld)
    · have hNew : left ∈ [previous.supersededBy successor.id, successor] := hNew
      rcases List.mem_cons.mp hRight with rfl | hLast
      · rcases List.mem_cons.mp hNew with rfl | hLast'
        · rfl
        · obtain rfl := List.mem_singleton.mp hLast'
          exact absurd hCandidate.symm (hEarlier previous hPrevious)
      · obtain rfl := List.mem_singleton.mp hLast
        rcases List.mem_cons.mp hNew with rfl | hLast'
        · exact absurd hCandidate (hEarlier previous hPrevious)
        · rw [List.mem_singleton.mp hLast']
  | projectDecision record supersededSnapshot auditEvent =>
    cases supersededSnapshot with
    | none =>
      refine h.extend (fun _ hMem => (nomatch hMem)) .none
        (.add ⟨record.id, record.version, record.status.standing⟩ hFresh ?_) .none
      exact congrArg RecordStatus.standing hKnown.1
    | some snapshot =>
      obtain ⟨hCurrent, hSnapshot⟩ := hKnown
      obtain ⟨current, hMem, rfl, hVersion⟩ := hSnapshot snapshot rfl
      refine h.extend (fun _ hMem => (nomatch hMem)) .none ?_ .none
      exact superseding h.decisions ⟨record.id, record.version, record.status.standing⟩
        (List.mem_map_of_mem hMem) (hHolds (current.supersededBy record.id) rfl) hFresh
        (congrArg RecordStatus.standing hCurrent) hVersion
  | projectRequirement record supersededSnapshot auditEvent =>
    cases supersededSnapshot with
    | none =>
      refine h.extend (fun _ hMem => (nomatch hMem)) .none .none
        (.add ⟨record.id, record.version, record.status.standing⟩ hFresh ?_)
      exact congrArg RecordStatus.standing hKnown.1
    | some snapshot =>
      obtain ⟨hCurrent, hSnapshot⟩ := hKnown
      obtain ⟨current, hMem, rfl, hVersion⟩ := hSnapshot snapshot rfl
      refine h.extend (fun _ hMem => (nomatch hMem)) .none .none ?_
      exact superseding h.requirements ⟨record.id, record.version, record.status.standing⟩
        (List.mem_map_of_mem hMem) (hHolds (current.supersededBy record.id) rfl) hFresh
        (congrArg RecordStatus.standing hCurrent) hVersion

end Sound

section Runs

variable {crowd : Vaults}

theorem section_sound {index : Nat} {input : VaultInput} {call : VaultCall}
    (hInTime : InTime (.advance index input) crowd) (hCall : crowd.calls[index]? = some call)
    (hSound : Sound crowd.store) (hKnown : call.Appends (VaultAppend.Known crowd.store)) :
    Sound (call.section input crowd.store).2 ∧ crowd.store <+: (call.section input crowd.store).2 ∧
      ({ call with stage := (call.section input crowd.store).1 } : VaultCall).Appends
        (VaultAppend.Known (call.section input crowd.store).2) := by
  have hTime := hInTime call hCall
  obtain ⟨request, stage⟩ := call
  cases stage with
  | received =>
    dsimp only [VaultCall.section]
    cases hDecide : request.decide input crowd.store with
    | error error => exact ⟨hSound, List.prefix_rfl, trivial⟩
    | ok rows =>
      dsimp only
      cases hRefused : rows.refused with
      | some error => exact ⟨hSound, List.prefix_rfl, trivial⟩
      | none => exact ⟨hSound, List.prefix_rfl, VaultRequest.decide_known hDecide⟩
  | appending rows => exact ⟨hSound.appendRows hKnown hTime.1 hTime.2, List.prefix_append _ _, trivial⟩
  | ended result => exact ⟨hSound, List.prefix_rfl, trivial⟩

theorem outside_sound {ledger : VaultLedger} (h : Sound ledger) (appended : OtherAppend) :
    Sound (ledger ++ [appended.row]) := by
  cases appended <;> exact h.extend (fun _ hMem => (nomatch hMem)) .none .none .none

/-- Vault lineages are linear in every run whose appends are made in time. -/
theorem vault_lineages_linear (h : Reaches (Crowd.step vaultRules) InTime (Crowd.init []) crowd) :
    LinearVault crowd.store := by
  have hInvariant := Crowd.invariant (P := Sound) (R := fun ledger later => ledger <+: later)
    (Q := fun call ledger => call.Appends (VaultAppend.Known ledger)) h sound_nil ?enter ?advance ?outside ?stable
  · exact hInvariant.1.linear
  case enter => exact fun _ _ _ => trivial
  case advance =>
    intro index input call crowd hTime hCall hSound hKnown
    exact section_sound hTime hCall hSound hKnown
  case outside => exact fun op _ _ hSound => ⟨outside_sound hSound op, List.prefix_append _ _⟩
  case stable =>
    rintro ⟨request, stage⟩ ledger later hPrefix hKnown
    cases stage with
    | appending rows => exact VaultAppend.Known.later hKnown hPrefix
    | received => trivial
    | ended result => trivial

end Runs

section Examples

def proposedCandidate (id : String) : VaultTurn :=
  .outside (.candidate ⟨⟨id, .system, "09:00", "review"⟩, .proposed⟩)

def approveCandidate (candidateId : String) (supersedesRecordId : Option String) : VaultTurn :=
  .enter (.approve candidateId "sound" supersedesRecordId "ana" "review")

def turnOf (index : Nat) (uuid : String) : VaultTurn := .advance index ⟨uuid, uuid, uuid, "10:00"⟩

def vaultAfter (turns : List VaultTurn) : Vaults := runAll (Crowd.step vaultRules) (Crowd.init []) turns

def recordsOf (crowd : Vaults) : List (String × String × Standing String) :=
  (canonicalRecords crowd.store).map fun record => (record.id, record.candidateId, record.status)

/-- A first record and a second that supersedes it. -/
def inTurn : List VaultTurn :=
  [proposedCandidate "first", proposedCandidate "second", approveCandidate "first" none, turnOf 0 "a", turnOf 0 "a",
    approveCandidate "second" (some "canonical:a"), turnOf 1 "b", turnOf 1 "b"]

theorem vault_lineages_linear_in_turn :
    recordsOf (vaultAfter inTurn) = [("canonical:a", "first", .current),
      ("canonical:a", "first", .superseded "canonical:b"), ("canonical:b", "second", .current)] ∧
    LinearVault (vaultAfter inTurn).store :=
  ⟨by decide +kernel, vault_lineages_linear (GuardedAll.reaches (by decide +kernel))⟩

/-- Two approvals of one candidate read the ledger before either appends. -/
def oneCandidate : List VaultTurn :=
  [proposedCandidate "first", approveCandidate "first" none, approveCandidate "first" none, turnOf 0 "a", turnOf 1 "b",
    turnOf 0 "a", turnOf 1 "b"]

/-- Two approvals supersede one record. -/
def twoSuccessors : List VaultTurn :=
  [proposedCandidate "first", proposedCandidate "second", proposedCandidate "third", approveCandidate "first" none,
    turnOf 0 "a", turnOf 0 "a", approveCandidate "second" (some "canonical:a"),
    approveCandidate "third" (some "canonical:a"), turnOf 1 "b", turnOf 2 "c", turnOf 1 "b", turnOf 2 "c"]

theorem vault_lineages_fork :
    recordsOf (vaultAfter oneCandidate) = [("canonical:a", "first", .current), ("canonical:b", "first", .current)] ∧
    recordsOf (vaultAfter twoSuccessors) = [("canonical:a", "first", .current),
      ("canonical:a", "first", .superseded "canonical:b"), ("canonical:b", "second", .current),
      ("canonical:a", "first", .superseded "canonical:c"), ("canonical:c", "third", .current)] ∧
    ¬ LinearVault (vaultAfter twoSuccessors).store ∧
    ¬ ∀ crowd, Reaches (Crowd.step vaultRules) FreshIds (Crowd.init []) crowd → LinearVault crowd.store := by
  refine ⟨by decide +kernel, by decide +kernel, fun h => ?_, fun h => ?_⟩
  · have hOne := h.canonical.oneSuccessor ⟨"canonical:a", 1, .superseded "canonical:b"⟩ (by decide +kernel)
      ⟨"canonical:a", 1, .superseded "canonical:c"⟩ (by decide +kernel) rfl _ _ rfl rfl
    revert hOne
    decide
  · have hRun : Reaches (Crowd.step vaultRules) FreshIds (Crowd.init []) (vaultAfter oneCandidate) :=
      GuardedAll.reaches (by decide +kernel)
    have hOne : ∀ left ∈ canonicalRecords (vaultAfter oneCandidate).store,
        ∀ right ∈ canonicalRecords (vaultAfter oneCandidate).store,
          left.candidateId = right.candidateId → left.id = right.id := (h _ hRun).oneRecord
    revert hOne
    decide +kernel

end Examples

end CommandConsole.Vault
