import CommandConsole.Governance.SemanticKeys

/-! # The history of a semantic key

An approval writes the version after the one that it was proposed against, and the unique number
of a version lets only one approval do so. Therefore histories are gapless in all runs; that only
one request of a key is pending depends on the time between a proposal's look-up and its insert.
-/
namespace CommandConsole.Governance
open Library
set_option autoImplicit false

section Statement

def versionsOf (key : String) (store : SemanticKeyStore) : List SemanticKeyVersion :=
  store.versions.rows.filter fun row => row.key = key

structure KeyHistory (key : String) (store : SemanticKeyStore) : Prop where
  numbers : (versionsOf key store).map (fun row => row.version) = List.range' 1 (versionOf (store.rules.find? key))
  latest : ∀ rule, store.rules.find? key = some rule → ∃ row ∈ versionsOf key store, row.version = rule.version ∧
    row.toSemanticKeyContent = rule.toSemanticKeyContent ∧ row.ownerId = rule.ownerId ∧
      row.status = .registered rule.status
  earlier : ∀ row ∈ versionsOf key store, row.version < versionOf (store.rules.find? key) →
    row.status = .superseded ∨ row.status = .registered .retired

def statusOf (key : String) (store : SemanticKeyStore) : Option SemanticKeyRegistryStatus :=
  (store.rules.find? key).map SemanticKeyRule.status

/-- What a key may become: a deprecated one is never active again, and a retired one stays as it is. -/
structure LifecycleKept (key : String) (before after : SemanticKeyStore) : Prop where
  deprecated : statusOf key before = some .deprecated →
    statusOf key after = some .deprecated ∨ statusOf key after = some .retired
  retired : statusOf key before = some .retired →
    after.rules.find? key = before.rules.find? key ∧ versionsOf key after = versionsOf key before

def OnePending (store : SemanticKeyStore) : Prop :=
  ∀ left ∈ store.requests.rows, ∀ right ∈ store.requests.rows, left.key = right.key →
    left.status = .pending → right.status = .pending → left = right

/-- No request of the key is pending when a proposal for it is stored. -/
def NonePending (turn : SemanticKeyTurn) (crowd : SemanticKeys) : Prop :=
  match turn with
  | .advance index _ => ∀ stage ∈ crowd.calls[index]?, match stage with
    | .creating proposal => hasPending proposal.key crowd.store = false
    | _ => True
  | _ => True

instance (turn : SemanticKeyTurn) (crowd : SemanticKeys) : Decidable (NonePending turn crowd) :=
  match turn with
  | .advance index _ => by
    unfold NonePending
    dsimp only
    have (stage : SemanticKeyStage) : Decidable (match stage with
        | .creating proposal => hasPending proposal.key crowd.store = false
        | _ => True) := by split <;> infer_instance
    infer_instance
  | .enter _ => inferInstanceAs (Decidable True)
  | .outside _ => inferInstanceAs (Decidable True)

end Statement

section Advance

variable {key : String} {store before after final : SemanticKeyStore}

theorem mem_versionsOf {row : SemanticKeyVersion} :
    row ∈ versionsOf key store ↔ row ∈ store.versions.rows ∧ row.key = key := by
  rw [versionsOf, List.mem_filter, decide_eq_true_iff]

/-- Nothing of a key changes, or its version goes up in the order of its lifecycle. -/
structure Advance (key : String) (before after : SemanticKeyStore) : Prop where
  version : versionOf (before.rules.find? key) ≤ versionOf (after.rules.find? key)
  same : versionOf (before.rules.find? key) = versionOf (after.rules.find? key) →
    after.rules.find? key = before.rules.find? key ∧ versionsOf key after = versionsOf key before
  kept : LifecycleKept key before after

theorem Advance.of_eq (hRule : after.rules.find? key = before.rules.find? key)
    (hVersions : versionsOf key after = versionsOf key before) : Advance key before after := by
  have hStatus : statusOf key after = statusOf key before := by rw [statusOf, statusOf, hRule]
  exact ⟨Nat.le_of_eq (by rw [hRule]), fun _ => ⟨hRule, hVersions⟩, fun h => .inl (hStatus.trans h), fun _ => ⟨hRule, hVersions⟩⟩

theorem Advance.trans (h : Advance key before after) (h' : Advance key after final) : Advance key before final := by
  refine ⟨Nat.le_trans h.version h'.version, fun hSame => ?_, fun hStatus => ?_, fun hStatus => ?_⟩
  · have hLe := h.version
    have hLe' := h'.version
    obtain ⟨hRule, hVersions⟩ := h.same (by omega)
    obtain ⟨hRule', hVersions'⟩ := h'.same (by omega)
    exact ⟨hRule'.trans hRule, hVersions'.trans hVersions⟩
  · rcases h.kept.deprecated hStatus with hDeprecated | hRetired
    · exact h'.kept.deprecated hDeprecated
    · refine .inr ?_
      rw [statusOf, (h'.kept.retired hRetired).1]
      exact hRetired
  · obtain ⟨hRule, hVersions⟩ := h.kept.retired hStatus
    obtain ⟨hRule', hVersions'⟩ := h'.kept.retired (by rw [statusOf, hRule]; exact hStatus)
    exact ⟨hRule'.trans hRule, hVersions'.trans hVersions⟩

def Advances (before after : SemanticKeyStore) : Prop := ∀ key, Advance key before after

instance : Std.Refl Advances := ⟨fun _ _ => .of_eq rfl rfl⟩

instance : IsTrans SemanticKeyStore Advances := ⟨fun _ _ _ h h' key => (h key).trans (h' key)⟩

/-- The statuses that an operation is proposed on. -/
def SemanticKeyOperation.AppliesTo (operation : SemanticKeyOperation) (status : Option SemanticKeyRegistryStatus) :
    Prop :=
  match operation with
  | .upsert => status = none ∨ status = some .active
  | .lifecycle .deprecate => status = some .active
  | .lifecycle .retire => status = some .deprecated

theorem SemanticKeyOperation.AppliesTo.next {operation : SemanticKeyOperation}
    {status : Option SemanticKeyRegistryStatus} (h : operation.AppliesTo status) : status ≠ some .retired ∧
      (status = some .deprecated → semanticKeyStatusForOperation operation = .retired) := by
  match operation, h with
  | .upsert, h =>
    rcases h with rfl | rfl
    · exact ⟨nofun, nofun⟩
    · exact ⟨nofun, nofun⟩
  | .lifecycle .deprecate, h =>
    obtain rfl : status = some .active := h
    exact ⟨nofun, nofun⟩
  | .lifecycle .retire, h =>
    obtain rfl : status = some .deprecated := h
    exact ⟨nofun, fun _ => rfl⟩

/-- While a key still has the version that a change was proposed against, the change applies to it. -/
def Applies (key : String) (operation : SemanticKeyOperation) (baseVersion : Nat) (store : SemanticKeyStore) : Prop :=
  baseVersion ≤ versionOf (store.rules.find? key) ∧
    (baseVersion = versionOf (store.rules.find? key) → operation.AppliesTo (statusOf key store))

theorem Applies.later {operation : SemanticKeyOperation} {baseVersion : Nat}
    (h : Applies key operation baseVersion before) (hAdvance : Advance key before after) :
    Applies key operation baseVersion after := by
  refine ⟨Nat.le_trans h.1 hAdvance.version, fun hBase => ?_⟩
  have hLe := h.1
  have hLe' := hAdvance.version
  rw [statusOf, (hAdvance.same (by omega)).1]
  exact h.2 (by omega)

end Advance

section Activation

variable {key approverId : String} {store next : SemanticKeyStore} {request : SemanticKeyChangeRequest}
  {current : Option SemanticKeyRule}

def SemanticKeyVersion.closed (row : SemanticKeyVersion) : SemanticKeyVersion :=
  if row.status = .registered .active ∨ row.status = .registered .deprecated then { row with status := .superseded }
  else row

@[simp] theorem SemanticKeyVersion.closed_version (row : SemanticKeyVersion) : row.closed.version = row.version := by
  unfold closed
  split <;> rfl

@[simp] theorem SemanticKeyVersion.closed_key (row : SemanticKeyVersion) : row.closed.key = row.key := by
  unfold closed
  split <;> rfl

theorem SemanticKeyVersion.closed_status (row : SemanticKeyVersion) :
    row.closed.status = .superseded ∨ row.closed.status = .registered .retired := by
  unfold closed
  split
  · exact .inl rfl
  · next hOpen =>
    match hStatus : row.status with
    | .superseded => exact .inl rfl
    | .registered .retired => exact .inr rfl
    | .registered .active => exact absurd (.inl hStatus) hOpen
    | .registered .deprecated => exact absurd (.inr hStatus) hOpen

theorem rows_supersedeVersions (key : String) (versions : PlainTable SemanticKeyVersion.number) :
    (supersedeVersions key versions).rows = versions.rows.map fun row =>
      if row.key = key then row.closed else row := by
  refine List.map_congr_left fun row _ => ?_
  by_cases hKey : row.key = key
  · simp only [hKey, true_and, decide_eq_true_iff, SemanticKeyVersion.closed, if_true]
  · simp only [hKey, false_and, decide_false, Bool.false_eq_true, if_false]

theorem filter_supersedeVersions (key other : String) (versions : PlainTable SemanticKeyVersion.number) :
    (supersedeVersions key versions).rows.filter (fun row => row.key = other) =
      if other = key then (versions.rows.filter fun row => row.key = other).map SemanticKeyVersion.closed
      else versions.rows.filter fun row => row.key = other := by
  have hKey : (fun row : SemanticKeyVersion => decide (row.key = other)) ∘
      (fun row => if row.key = key then row.closed else row) = fun row => decide (row.key = other) := by
    funext row
    dsimp only [Function.comp]
    split <;> simp only [SemanticKeyVersion.closed_key]
  rw [rows_supersedeVersions, List.filter_map, hKey]
  split
  · next hSame =>
    refine List.map_congr_left fun row hRow => ?_
    rw [if_pos ((of_decide_eq_true (List.mem_filter.mp hRow).2).trans hSame)]
  · next hOther =>
    refine (List.map_congr_left fun row hRow => ?_).trans (List.map_id _)
    exact if_neg fun hSame => hOther ((of_decide_eq_true (List.mem_filter.mp hRow).2).symm.trans hSame)

/-- What an approval has seen of the rule, as long as the version is still the one that it saw. -/
def Seen (key : String) (baseVersion : Nat) (current : Option SemanticKeyRule) (store : SemanticKeyStore) : Prop :=
  versionOf current = baseVersion ∧
    (baseVersion = versionOf (store.rules.find? key) → store.rules.find? key = current)

theorem Seen.later {baseVersion : Nat} {before after : SemanticKeyStore} (h : Seen key baseVersion current before)
    (hLe : baseVersion ≤ versionOf (before.rules.find? key)) (hAdvance : Advance key before after) :
    Seen key baseVersion current after := by
  refine ⟨h.1, fun hBase => ?_⟩
  have hVersion := hAdvance.version
  rw [(hAdvance.same (by omega)).1]
  exact h.2 (by omega)

theorem activate_eq_some (h : activate approverId request current store = some next) :
    ∃ versions, ((if current.isSome then supersedeVersions request.key store.versions else store.versions).insert
        request.nextVersion = some versions) ∧ next.versions = versions ∧
      next.rules = PlainTable.put store.rules request.rule ∧
      next.requests = decideRequest request.requestId approverId .approved none store.requests ∧
      (store.events.insert (request.approvedEvent approverId) = some next.events) ∧
      next.decisions = store.decisions ++ [(request.requestId, .approved)] := by
  obtain ⟨versions, hVersions, h⟩ := Option.bind_eq_some_iff.mp h
  obtain ⟨events, hEvents, h⟩ := Option.bind_eq_some_iff.mp h
  obtain rfl := Option.some.inj h
  exact ⟨versions, hVersions, rfl, rfl, rfl, hEvents, rfl⟩

/-- What a successful approval does to the rules and the versions. -/
structure Activated (request : SemanticKeyChangeRequest) (store next : SemanticKeyStore) : Prop where
  base : request.baseVersion = versionOf (store.rules.find? request.key)
  rule : next.rules.find? request.key = some request.rule
  versions : versionsOf request.key next =
    (versionsOf request.key store).map SemanticKeyVersion.closed ++ [request.nextVersion]
  others : ∀ key, key ≠ request.key →
    next.rules.find? key = store.rules.find? key ∧ versionsOf key next = versionsOf key store

theorem activated (h : activate approverId request current store = some next)
    (hHistory : KeyHistory request.key store)
    (hApplies : Applies request.key request.operation request.baseVersion store)
    (hSeen : Seen request.key request.baseVersion current store) : Activated request store next := by
  obtain ⟨versions, hInsert, hVersions, hRules, -, -, -⟩ := activate_eq_some h
  obtain ⟨hNew, -, hRows⟩ := Table.insert_eq_some hInsert
  have hNumbers : ∀ row ∈ (if current.isSome then supersedeVersions request.key store.versions
      else store.versions).rows, row.number ≠ request.nextVersion.number := (Table.find?_eq_none _ _).mp hNew
  have hFree : request.baseVersion + 1 ∉ (versionsOf request.key store).map fun row => row.version := by
    intro hMem
    obtain ⟨row, hRow, hVersion⟩ := List.mem_map.mp hMem
    obtain ⟨hRow, hKey⟩ := mem_versionsOf.mp hRow
    have hNumber : row.number = request.nextVersion.number := Prod.ext hKey hVersion
    split at hNumbers
    · refine hNumbers _ (List.mem_map_of_mem hRow) ?_
      split
      · exact hNumber
      · exact hNumber
    · exact hNumbers row hRow hNumber
  have hBase : request.baseVersion = versionOf (store.rules.find? request.key) := by
    rw [hHistory.numbers, List.mem_range'_1] at hFree
    have hLe := hApplies.1
    omega
  have hCurrent := hSeen.2 hBase
  have hOf : ∀ key, versionsOf key next = (if key = request.key then
      (versionsOf key store).map SemanticKeyVersion.closed ++ [request.nextVersion] else versionsOf key store) := by
    intro key
    rw [versionsOf, hVersions, hRows, List.filter_append]
    have hEarlier : (if current.isSome then supersedeVersions request.key store.versions else store.versions).rows.filter
        (fun row => row.key = key) = if key = request.key then (versionsOf key store).map SemanticKeyVersion.closed
          else versionsOf key store := by
      split
      · exact filter_supersedeVersions request.key key store.versions
      · next hNone =>
        split
        · next hKey =>
          have hZero : versionOf (store.rules.find? request.key) = 0 := by
            rw [hCurrent, Option.not_isSome_iff_eq_none.mp hNone]
            rfl
          have hEmpty : versionsOf request.key store = [] := by
            have hNil := hHistory.numbers
            rw [hZero] at hNil
            exact List.map_eq_nil_iff.mp hNil
          rw [← hKey] at hEmpty
          rw [hEmpty]
          exact hEmpty
        · rfl
    rw [hEarlier]
    split
    · next hKey => rw [List.filter_cons_of_pos (by simp [SemanticKeyChangeRequest.nextVersion, hKey]), List.filter_nil]
    · next hKey =>
      rw [List.filter_cons_of_neg (by simp [SemanticKeyChangeRequest.nextVersion, Ne.symm hKey]), List.filter_nil,
        List.append_nil]
  refine ⟨hBase, ?_, (hOf request.key).trans (if_pos rfl), fun key hKey => ⟨?_, (hOf key).trans (if_neg hKey)⟩⟩
  · rw [hRules, PlainTable.find?_put]
    exact if_pos rfl
  · rw [hRules, PlainTable.find?_put]
    exact if_neg hKey

theorem Activated.advances (h : Activated request store next)
    (hApplies : Applies request.key request.operation request.baseVersion store) : Advances store next := by
  intro key
  by_cases hKey : key = request.key
  · subst hKey
    have hVersion : versionOf (next.rules.find? request.key) = request.baseVersion + 1 := by rw [h.rule]; rfl
    have hBase := h.base
    obtain ⟨hRetired, hDeprecated⟩ := (hApplies.2 h.base).next
    refine ⟨by omega, fun hSame => ?_, fun hStatus => .inr ?_, fun hStatus => absurd hStatus hRetired⟩
    · omega
    · rw [statusOf, h.rule]
      exact congrArg some (hDeprecated hStatus)
  · exact .of_eq (h.others key hKey).1 (h.others key hKey).2

theorem Activated.history (h : Activated request store next) (hHistory : ∀ key, KeyHistory key store) (key : String) :
    KeyHistory key next := by
  by_cases hKey : key = request.key
  · subst hKey
    have hVersion : versionOf (next.rules.find? request.key) = request.baseVersion + 1 := by rw [h.rule]; rfl
    have hOld := hHistory request.key
    constructor
    · rw [h.versions, List.map_append, List.map_map, hVersion, List.range'_concat, h.base]
      have hSame : (fun row : SemanticKeyVersion => row.version) ∘ SemanticKeyVersion.closed = fun row => row.version :=
        funext SemanticKeyVersion.closed_version
      rw [hSame, hOld.numbers]
      simp [SemanticKeyChangeRequest.nextVersion, h.base, Nat.add_comm]
    · intro rule hRule
      obtain rfl := Option.some.inj (h.rule.symm.trans hRule)
      refine ⟨request.nextVersion, ?_, rfl, rfl, rfl, rfl⟩
      rw [h.versions]
      exact List.mem_append_right _ List.mem_cons_self
    · intro row hRow hLt
      rw [h.versions] at hRow
      rcases List.mem_append.mp hRow with hClosed | hNew
      · obtain ⟨old, -, rfl⟩ := List.mem_map.mp hClosed
        exact old.closed_status
      · obtain rfl := List.mem_singleton.mp hNew
        rw [hVersion] at hLt
        exact absurd hLt (Nat.lt_irrefl _)
  · obtain ⟨hRule, hVersions⟩ := h.others key hKey
    have hOld := hHistory key
    constructor
    · rw [hRule, hVersions]
      exact hOld.numbers
    · rw [hRule, hVersions]
      exact hOld.latest
    · rw [hRule, hVersions]
      exact hOld.earlier

end Activation

section Sound

structure Sound (store : SemanticKeyStore) : Prop where
  history : ∀ key, KeyHistory key store
  applies : ∀ request ∈ store.requests.rows, Applies request.key request.operation request.baseVersion store

def SemanticKeyStage.Known (store : SemanticKeyStore) : SemanticKeyStage → Prop
  | .looking proposal => Applies proposal.key proposal.operation proposal.baseVersion store
  | .creating proposal => Applies proposal.key proposal.operation proposal.baseVersion store
  | .comparing _ request => Applies request.key request.operation request.baseVersion store
  | .activating _ request current =>
    Applies request.key request.operation request.baseVersion store ∧
      Seen request.key request.baseVersion current store
  | _ => True

variable {store next before after : SemanticKeyStore}

theorem SemanticKeyStage.Known.later {stage : SemanticKeyStage} (h : stage.Known before)
    (hAdvances : Advances before after) : stage.Known after := by
  cases stage with
  | looking proposal => exact Applies.later h (hAdvances _)
  | creating proposal => exact Applies.later h (hAdvances _)
  | comparing approverId request => exact Applies.later h (hAdvances _)
  | activating approverId request current => exact ⟨h.1.later (hAdvances _), h.2.later h.1.1 (hAdvances _)⟩
  | received command => trivial
  | refusing approverId reason request => trivial
  | ended result => trivial

theorem proposeChange_applies {requesterId : String} {input : SemanticKeyInput} {proposal : SemanticKeyProposal}
    (h : proposeChange requesterId input store = .ok proposal) :
    Applies proposal.key proposal.operation proposal.baseVersion store := by
  dsimp only [proposeChange] at h
  split at h
  · cases h
  · split at h
    · cases h
    · split at h
      · cases h
      · next hActive =>
        cases h
        refine ⟨Nat.le_refl _, fun _ => ?_⟩
        dsimp only [SemanticKeyOperation.AppliesTo, statusOf]
        cases hRule : store.rules.find? (normalizedKey input.key) with
        | none => exact .inl rfl
        | some rule =>
          rw [hRule] at hActive
          have hStatus : rule.status = .active := by simpa using hActive
          exact .inr (congrArg some hStatus)

theorem proposeLifecycle_applies {requesterId keyInput : String} {operation : SemanticKeyLifecycleOperation}
    {proposal : SemanticKeyProposal} (h : proposeLifecycle requesterId keyInput operation store = .ok proposal) :
    Applies proposal.key proposal.operation proposal.baseVersion store := by
  unfold proposeLifecycle at h
  cases hRule : store.rules.find? (normalizedKey keyInput) with
  | none =>
    rw [hRule] at h
    cases h
  | some current =>
    rw [hRule] at h
    dsimp only at h
    split at h
    · cases h
    · next hCan =>
      cases h
      refine ⟨by rw [hRule]; exact Nat.le_refl _, fun _ => ?_⟩
      dsimp only [SemanticKeyOperation.AppliesTo, statusOf]
      rw [hRule]
      have hCan : canProposeSemanticKeyLifecycle current.status operation = true := by simpa using hCan
      match operation, hCan with
      | .deprecate, hCan => exact congrArg some (of_decide_eq_true hCan)
      | .retire, hCan => exact congrArg some (of_decide_eq_true hCan)

theorem pendingRequest_eq_some {requestId : String} {request : SemanticKeyChangeRequest}
    (h : pendingRequest requestId store = some request) :
    store.requests.find? requestId = some request ∧ request.status = .pending := by
  obtain ⟨hFind, hStatus⟩ := Option.filter_eq_some_iff.mp h
  exact ⟨hFind, of_decide_eq_true hStatus⟩

theorem readApproval_ok {approverId requestId : String} {request : SemanticKeyChangeRequest}
    (h : readApproval approverId requestId store = .ok request) :
    store.requests.find? requestId = some request ∧ request.status = .pending ∧ request.requestedById ≠ approverId := by
  unfold readApproval at h
  split at h
  · cases h
  · next found hFind =>
    split at h
    · cases h
    · next hOther =>
      cases h
      exact ⟨(pendingRequest_eq_some hFind).1, (pendingRequest_eq_some hFind).2, hOther⟩

theorem of_map_eq_ok {ε α β : Type} {f : α → β} {result : Except ε α} {value : β} (h : result.map f = .ok value) :
    ∃ found, result = .ok found ∧ f found = value := by
  cases result with
  | error error => cases h
  | ok found => exact ⟨found, rfl, Except.ok.inj h⟩

theorem readCommand_known {command : SemanticKeyCommand} {stage : SemanticKeyStage} (hSound : Sound store)
    (h : readCommand command store = .ok stage) : stage.Known store := by
  cases command with
  | propose requesterId input =>
    have h : (proposeChange requesterId input store).map SemanticKeyStage.looking = .ok stage := h
    obtain ⟨proposal, hRead, rfl⟩ := of_map_eq_ok h
    exact proposeChange_applies hRead
  | proposeLifecycle requesterId keyInput operation =>
    have h : (proposeLifecycle requesterId keyInput operation store).map SemanticKeyStage.looking = .ok stage := h
    obtain ⟨proposal, hRead, rfl⟩ := of_map_eq_ok h
    exact proposeLifecycle_applies hRead
  | approve approverId requestId =>
    have h : (readApproval approverId requestId store).map (SemanticKeyStage.comparing approverId) = .ok stage := h
    obtain ⟨request, hRead, rfl⟩ := of_map_eq_ok h
    exact hSound.applies request (Table.find?_mem (readApproval_ok hRead).1)
  | reject approverId requestId reason =>
    have h : (readRejection approverId requestId reason store).map
      (SemanticKeyStage.refusing approverId (Execution.trimmed reason)) = .ok stage := h
    obtain ⟨request, -, rfl⟩ := of_map_eq_ok h
    trivial

theorem createRequest_eq_some {requestId : String} {proposal : SemanticKeyProposal}
    (h : createRequest requestId proposal store = some next) :
    next.requests.rows = store.requests.rows ++ [proposal.request requestId] ∧
      store.requests.find? requestId = none ∧ next.rules = store.rules ∧ next.versions = store.versions ∧
        next.decisions = store.decisions := by
  obtain ⟨requests, hRequests, h⟩ := Option.bind_eq_some_iff.mp h
  obtain ⟨events, hEvents, h⟩ := Option.bind_eq_some_iff.mp h
  obtain rfl := Option.some.inj h
  obtain ⟨hNew, -, hRows⟩ := Table.insert_eq_some hRequests
  exact ⟨hRows, hNew, rfl, rfl, rfl⟩

theorem refuse_eq_some {approverId reason : String} {request : SemanticKeyChangeRequest}
    (h : refuse approverId reason request store = some next) :
    next.requests = decideRequest request.requestId approverId .rejected (some reason) store.requests ∧
      (store.events.insert (request.rejectedEvent approverId reason) = some next.events) ∧
        next.rules = store.rules ∧ next.versions = store.versions ∧
          next.decisions = store.decisions ++ [(request.requestId, .rejected)] := by
  obtain ⟨events, hEvents, h⟩ := Option.bind_eq_some_iff.mp h
  obtain rfl := Option.some.inj h
  exact ⟨rfl, hEvents, rfl, rfl, rfl⟩

theorem mem_decideRequest {requestId approverId : String} {status : RequestStatus} {reason : Option String}
    {requests : PlainTable SemanticKeyChangeRequest.requestId} {row : SemanticKeyChangeRequest}
    (h : row ∈ (decideRequest requestId approverId status reason requests).rows) :
    ∃ old ∈ requests.rows, old.requestId = row.requestId ∧ old.key = row.key ∧ old.operation = row.operation ∧
      old.baseVersion = row.baseVersion ∧ (row = old ∨ old.requestId = requestId ∧ row.status = status) := by
  obtain ⟨old, hOld, rfl⟩ := List.mem_map.mp h
  refine ⟨old, hOld, ?_⟩
  split
  · next hId => exact ⟨rfl, rfl, rfl, rfl, .inr ⟨of_decide_eq_true hId, rfl⟩⟩
  · exact ⟨rfl, rfl, rfl, rfl, .inl rfl⟩

theorem advances_of_eq (hRules : after.rules = before.rules) (hVersions : after.versions = before.versions) :
    Advances before after := by
  intro key
  exact .of_eq (by rw [hRules]) (by rw [versionsOf, versionsOf, hVersions])

theorem Sound.of_requests (h : Sound before) (hRules : after.rules = before.rules)
    (hVersions : after.versions = before.versions)
    (hRequests : ∀ request ∈ after.requests.rows, Applies request.key request.operation request.baseVersion after) :
    Sound after := by
  refine ⟨fun key => ?_, hRequests⟩
  obtain ⟨hNumbers, hLatest, hEarlier⟩ := h.history key
  have hOf : versionsOf key after = versionsOf key before := by rw [versionsOf, versionsOf, hVersions]
  constructor
  · rw [hRules, hOf]
    exact hNumbers
  · rw [hRules, hOf]
    exact hLatest
  · rw [hRules, hOf]
    exact hEarlier

theorem createRequest_sound {requestId : String} {proposal : SemanticKeyProposal} (hSound : Sound store)
    (hApplies : Applies proposal.key proposal.operation proposal.baseVersion store)
    (h : createRequest requestId proposal store = some next) : Sound next ∧ Advances store next := by
  obtain ⟨hRows, -, hRules, hVersions, -⟩ := createRequest_eq_some h
  have hAdvances := advances_of_eq hRules hVersions
  refine ⟨hSound.of_requests hRules hVersions fun request hRequest => ?_, hAdvances⟩
  rw [hRows] at hRequest
  rcases List.mem_append.mp hRequest with hOld | hNew
  · exact (hSound.applies request hOld).later (hAdvances _)
  · obtain rfl := List.mem_singleton.mp hNew
    exact hApplies.later (hAdvances _)

theorem refuse_sound {approverId reason : String} {request : SemanticKeyChangeRequest} (hSound : Sound store)
    (h : refuse approverId reason request store = some next) : Sound next ∧ Advances store next := by
  obtain ⟨hRequests, -, hRules, hVersions, -⟩ := refuse_eq_some h
  have hAdvances := advances_of_eq hRules hVersions
  refine ⟨hSound.of_requests hRules hVersions fun row hRow => ?_, hAdvances⟩
  rw [hRequests] at hRow
  obtain ⟨old, hOld, -, hKey, hOperation, hBase, -⟩ := mem_decideRequest hRow
  rw [← hKey, ← hOperation, ← hBase]
  exact (hSound.applies old hOld).later (hAdvances _)

theorem activate_sound {approverId : String} {request : SemanticKeyChangeRequest} {current : Option SemanticKeyRule}
    (hSound : Sound store) (hApplies : Applies request.key request.operation request.baseVersion store)
    (hSeen : Seen request.key request.baseVersion current store)
    (h : activate approverId request current store = some next) : Sound next ∧ Advances store next := by
  have hActivated := activated h (hSound.history request.key) hApplies hSeen
  have hAdvances := hActivated.advances hApplies
  obtain ⟨-, -, -, -, hRequests, -, -⟩ := activate_eq_some h
  refine ⟨⟨hActivated.history hSound.history, fun row hRow => ?_⟩, hAdvances⟩
  rw [hRequests] at hRow
  obtain ⟨old, hOld, -, hKey, hOperation, hBase, -⟩ := mem_decideRequest hRow
  rw [← hKey, ← hOperation, ← hBase]
  exact (hSound.applies old hOld).later (hAdvances _)

theorem committed_keeps {result : Option SemanticKeyStore} {reply : SemanticKeyReply} (hSound : Sound store)
    (h : ∀ next, result = some next → Sound next ∧ Advances store next) :
    Sound (committed result reply store).2 ∧ Advances store (committed result reply store).2 ∧
      (committed result reply store).1.Known (committed result reply store).2 := by
  cases result with
  | none => exact ⟨hSound, Std.Refl.refl store, trivial⟩
  | some next => exact ⟨(h next rfl).1, (h next rfl).2, trivial⟩

theorem advance_sound (requestId : String) {stage : SemanticKeyStage} (hSound : Sound store)
    (hKnown : stage.Known store) :
    Sound (stage.advance requestId store).2 ∧ Advances store (stage.advance requestId store).2 ∧
      (stage.advance requestId store).1.Known (stage.advance requestId store).2 := by
  have hSame : Advances store store := Std.Refl.refl store
  cases stage with
  | received command =>
    dsimp only [SemanticKeyStage.advance]
    cases hRead : readCommand command store with
    | error error => exact ⟨hSound, hSame, trivial⟩
    | ok next => exact ⟨hSound, hSame, readCommand_known hSound hRead⟩
  | looking proposal =>
    dsimp only [SemanticKeyStage.advance]
    split
    · exact ⟨hSound, hSame, trivial⟩
    · exact ⟨hSound, hSame, hKnown⟩
  | creating proposal => exact committed_keeps hSound fun next h => createRequest_sound hSound hKnown h
  | comparing approverId request =>
    dsimp only [SemanticKeyStage.advance]
    split
    · exact ⟨hSound, hSame, trivial⟩
    · next hVersion => exact ⟨hSound, hSame, hKnown, of_not_not hVersion, fun _ => rfl⟩
  | activating approverId request current =>
    exact committed_keeps hSound fun next h => activate_sound hSound hKnown.1 hKnown.2 h
  | refusing approverId reason request => exact committed_keeps hSound fun next h => refuse_sound hSound h
  | ended result => exact ⟨hSound, hSame, trivial⟩

end Sound

section Pending

variable {store next : SemanticKeyStore}

theorem OnePending.decided {requestId approverId : String} {status : RequestStatus} {reason : Option String}
    (h : OnePending store)
    (hRequests : next.requests = decideRequest requestId approverId status reason store.requests)
    (hStatus : status ≠ .pending) : OnePending next := by
  have hOld : ∀ row ∈ next.requests.rows, row.status = .pending → row ∈ store.requests.rows := by
    intro row hRow hPending
    rw [hRequests] at hRow
    obtain ⟨old, hMem, -, -, -, -, rfl | ⟨-, hDecided⟩⟩ := mem_decideRequest hRow
    · exact hMem
    · exact absurd (hDecided.symm.trans hPending) hStatus
  intro left hLeft right hRight hKey hPending hPending'
  exact h left (hOld left hLeft hPending) right (hOld right hRight hPending') hKey hPending hPending'

theorem OnePending.created {requestId : String} {proposal : SemanticKeyProposal} (h : OnePending store)
    (hNone : hasPending proposal.key store = false) (hNext : createRequest requestId proposal store = some next) :
    OnePending next := by
  obtain ⟨hRows, -⟩ := createRequest_eq_some hNext
  have hFree : ∀ row ∈ store.requests.rows, row.key = proposal.key → row.status ≠ .pending := by
    intro row hRow hKey hPending
    have hAny := List.any_eq_false.mp hNone row hRow
    simp [hKey, hPending] at hAny
  intro left hLeft right hRight hKey hPending hPending'
  rw [hRows] at hLeft hRight
  rcases List.mem_append.mp hLeft with hOld | hNew <;> rcases List.mem_append.mp hRight with hOld' | hNew'
  · exact h left hOld right hOld' hKey hPending hPending'
  · obtain rfl := List.mem_singleton.mp hNew'
    exact absurd hPending (hFree left hOld hKey)
  · obtain rfl := List.mem_singleton.mp hNew
    exact absurd hPending' (hFree right hOld' hKey.symm)
  · rw [List.mem_singleton.mp hNew, List.mem_singleton.mp hNew']

theorem OnePending.committed {result : Option SemanticKeyStore} {reply : SemanticKeyReply} (h : OnePending store)
    (hNext : ∀ next, result = some next → OnePending next) : OnePending (committed result reply store).2 := by
  cases result with
  | none => exact h
  | some next => exact hNext next rfl

theorem advance_onePending (requestId : String) {stage : SemanticKeyStage} (h : OnePending store)
    (hNone : ∀ proposal, stage = .creating proposal → hasPending proposal.key store = false) :
    OnePending (stage.advance requestId store).2 := by
  cases stage with
  | received command =>
    dsimp only [SemanticKeyStage.advance]
    split <;> exact h
  | looking proposal =>
    dsimp only [SemanticKeyStage.advance]
    split <;> exact h
  | creating proposal => exact h.committed fun next hNext => h.created (hNone proposal rfl) hNext
  | comparing approverId request =>
    dsimp only [SemanticKeyStage.advance]
    split <;> exact h
  | activating approverId request current =>
    refine h.committed fun next hNext => ?_
    obtain ⟨-, -, -, -, hRequests, -, -⟩ := activate_eq_some hNext
    exact h.decided hRequests nofun
  | refusing approverId reason request =>
    exact h.committed fun next hNext => h.decided (refuse_eq_some hNext).1 nofun
  | ended result => exact h

end Pending

section Runs

variable {rules : PlainTable SemanticKeyRule.key} {crowd later : SemanticKeys}
  {guard : SemanticKeyTurn → SemanticKeys → Prop}

theorem migrated_history (rules : PlainTable SemanticKeyRule.key) (key : String) :
    KeyHistory key (migrated rules) := by
  have hRule : (migrated rules).rules.find? key =
      (rules.find? key).map fun rule => { rule with version := 1, status := .active } := 
    Table.find?_update rules (fun _ => true) (fun rule => { rule with version := 1, status := .active })
      (fun _ => rfl) (fun _ => rfl) key
  have hVersions : versionsOf key (migrated rules) = (rules.find? key).toList.map fun rule =>
      { toSemanticKeyContent := rule.toSemanticKeyContent, key := rule.key, version := 1, ownerId := rule.ownerId,
        status := .registered .active, changeRequestId := none } := by
    rw [← Table.filter_key]
    exact List.filter_map
  cases hFind : rules.find? key with
  | none =>
    rw [hFind] at hRule hVersions
    constructor
    · rw [hRule, hVersions]
      rfl
    · intro rule hSome
      rw [hRule] at hSome
      cases hSome
    · intro row hRow
      rw [hVersions] at hRow
      cases hRow
  | some rule =>
    rw [hFind] at hRule hVersions
    constructor
    · rw [hRule, hVersions]
      rfl
    · intro last hLast
      obtain rfl := Option.some.inj (hRule.symm.trans hLast)
      rw [hVersions]
      exact ⟨_, List.mem_cons_self, rfl, rfl, rfl, rfl⟩
    · intro row hRow hLt
      rw [hVersions] at hRow
      obtain rfl := List.mem_singleton.mp hRow
      rw [hRule] at hLt
      exact absurd hLt (Nat.lt_irrefl _)

theorem migrated_sound (rules : PlainTable SemanticKeyRule.key) : Sound (migrated rules) := by
  refine ⟨migrated_history rules, ?_⟩
  rintro request ⟨⟩

theorem run_sound (h : Reaches (Crowd.step semanticKeyRules) guard (Crowd.init (migrated rules)) crowd) :
    Sound crowd.store ∧ ∀ stage ∈ crowd.calls, stage.Known crowd.store := by
  refine Crowd.invariant (P := Sound) (Q := fun stage store => stage.Known store) (R := Advances) h
    (migrated_sound rules) (fun _ _ _ => trivial) ?_ (fun op => nomatch op) fun _ _ _ hAdvances hKnown =>
      hKnown.later hAdvances
  intro index requestId stage crowd _ _ hSound hKnown
  exact advance_sound requestId hSound hKnown

theorem run_advances (h : Reaches (Crowd.step semanticKeyRules) guard (Crowd.init (migrated rules)) crowd)
    (hLater : Reaches (Crowd.step semanticKeyRules) guard crowd later) : Advances crowd.store later.store := by
  refine Crowd.relates_later (R := Advances) h hLater ?_ fun op => nomatch op
  intro index requestId stage u hRun _ hCall
  obtain ⟨hSound, hKnown⟩ := run_sound hRun
  exact (advance_sound requestId hSound (hKnown stage (List.mem_of_getElem? hCall))).2.1

theorem run_onePending (h : Reaches (Crowd.step semanticKeyRules) NonePending (Crowd.init (migrated rules)) crowd) :
    OnePending crowd.store := by
  have hInvariant := Crowd.invariant (P := OnePending) (Q := fun _ _ => True) (R := fun _ _ => True) h ?start
    (fun _ _ _ => trivial) ?advance (fun op => nomatch op) fun _ _ _ _ _ => trivial
  · exact hInvariant.1
  case start => rintro left ⟨⟩
  case advance =>
    intro index requestId stage crowd hNone hCall hOne _
    refine ⟨advance_onePending requestId hOne fun proposal hStage => ?_, trivial, trivial⟩
    subst hStage
    exact hNone _ hCall

/-- In every run, whatever its turns. -/
theorem histories_kept (h : Reaches (Crowd.step semanticKeyRules) guard (Crowd.init (migrated rules)) crowd)
    (hLater : Reaches (Crowd.step semanticKeyRules) guard crowd later) (key : String) :
    KeyHistory key later.store ∧ LifecycleKept key crowd.store later.store :=
  ⟨(run_sound (h.trans hLater)).1.history key, (run_advances h hLater key).kept⟩

/-- In the runs in which no request of a key is pending when a proposal for it is stored. -/
theorem semantic_key_history
    (h : Reaches (Crowd.step semanticKeyRules) NonePending (Crowd.init (migrated rules)) crowd)
    (hLater : Reaches (Crowd.step semanticKeyRules) NonePending crowd later) :
    (∀ key, KeyHistory key later.store ∧ LifecycleKept key crowd.store later.store) ∧ OnePending later.store :=
  ⟨histories_kept h hLater, run_onePending (h.trans hLater)⟩

end Runs

section Examples

def textKey (key : String) : SemanticKeyInput := ⟨key, "the region", [.project], .text, []⟩

def keysAfter (turns : List SemanticKeyTurn) : SemanticKeys :=
  runAll (Crowd.step semanticKeyRules) (Crowd.init (migrated .empty)) turns

def turnsOf (index : Nat) (ids : List String) : List SemanticKeyTurn := ids.map fun id => .advance index id

/-- A key is proposed and approved, then deprecated. -/
def deprecatedKey : List SemanticKeyTurn :=
  [.enter (.propose "ana" (textKey "deploy.region"))] ++ turnsOf 0 ["", "", "r1"] ++
    [.enter (.approve "bob" "r1")] ++ turnsOf 1 ["", "", ""] ++
    [.enter (.proposeLifecycle "ana" "Deploy.Region" .deprecate)] ++ turnsOf 2 ["", "", "r2"] ++
    [.enter (.approve "bob" "r2")] ++ turnsOf 3 ["", "", ""]

theorem semantic_key_history_deprecated :
    (versionsOf "deploy.region" (keysAfter deprecatedKey).store).map (fun row => (row.version, row.status)) =
        [(1, .superseded), (2, .registered .deprecated)] ∧
      (∀ key, KeyHistory key (keysAfter deprecatedKey).store ∧
        LifecycleKept key (keysAfter deprecatedKey).store (keysAfter deprecatedKey).store) ∧
      OnePending (keysAfter deprecatedKey).store :=
  ⟨by decide +kernel, semantic_key_history (GuardedAll.reaches (by decide +kernel)) .refl⟩

/-- Two proposals look for a pending request before either is stored. -/
def twoProposals : List SemanticKeyTurn :=
  [.enter (.propose "ana" (textKey "deploy.region")), .enter (.propose "bob" (textKey "deploy.region"))] ++
    turnsOf 0 ["", ""] ++ turnsOf 1 ["", "", "r2"] ++ turnsOf 0 ["r1"]

theorem two_requests_pending :
    (keysAfter twoProposals).store.requests.rows.map (fun row => (row.requestId, row.key, row.status)) =
        [("r2", "deploy.region", .pending), ("r1", "deploy.region", .pending)] ∧
      ¬ ∀ crowd later, Reaches (Crowd.step semanticKeyRules) (fun _ _ => True) (Crowd.init (migrated .empty)) crowd →
        Reaches (Crowd.step semanticKeyRules) (fun _ _ => True) crowd later →
          (∀ key, KeyHistory key later.store ∧ LifecycleKept key crowd.store later.store) ∧
            OnePending later.store := by
  have hRows : (keysAfter twoProposals).store.requests.rows.map (fun row => (row.requestId, row.key, row.status)) =
      [("r2", "deploy.region", .pending), ("r1", "deploy.region", .pending)] := by decide +kernel
  refine ⟨hRows, fun h => ?_⟩
  have hOne : OnePending (keysAfter twoProposals).store :=
    (h _ _ (reaches_runAll (Crowd.step semanticKeyRules) (Crowd.init (migrated .empty)) twoProposals) .refl).2
  have hPending : ∀ id, (id, "deploy.region", RequestStatus.pending) ∈
      (keysAfter twoProposals).store.requests.rows.map (fun row => (row.requestId, row.key, row.status)) → ∃ row ∈ (keysAfter twoProposals).store.requests.rows,
        row.requestId = id ∧ row.key = "deploy.region" ∧ row.status = .pending := by
    intro id hMem
    obtain ⟨row, hRow, hEq⟩ := List.mem_map.mp hMem
    obtain ⟨hId, hRest⟩ := Prod.mk.inj hEq
    obtain ⟨hKey, hStatus⟩ := Prod.mk.inj hRest
    exact ⟨row, hRow, hId, hKey, hStatus⟩
  obtain ⟨left, hLeft, hId, hKey, hStatus⟩ := hPending "r1" (by rw [hRows]; decide)
  obtain ⟨right, hRight, hId', hKey', hStatus'⟩ := hPending "r2" (by rw [hRows]; decide)
  have hSame := hOne left hLeft right hRight (hKey.trans hKey'.symm) hStatus hStatus'
  rw [hSame, hId'] at hId
  revert hId
  decide

end Examples

end CommandConsole.Governance
