import CommandConsole.Sam.Bridge

/-! # Idempotency of the bridge

An admitted call leaves its own result under its own key, nobody else touches a pending or a
completed record, a repeated call gets the completed result, and tenants keep to their own
records. The exits that refuse a call or block one name no tenant, and those of the queue
and of an exception store nothing, so this holds of the runs that keep away from them.
-/
namespace CommandConsole.Sam
open Library
set_option autoImplicit false

variable (hashSamProposal : SamHashInput → String)

section Statement

def SamStoredIdempotencyResult.live (record : SamStoredIdempotencyResult) : Bool :=
  record.status = .pending || record.status = .completed

def SamCall.result? (call : SamCall) : Option SamBridgeResult :=
  match call.stage with
  | .ended result => some result
  | _ => none

def SamCall.input (call : SamCall) : SamIdempotencyInput := call.request.input hashSamProposal

/-- A call that was admitted and returns in this step has its result stored under its tenant and key. -/
def Settles (before after : Bridge) : Prop :=
  ∀ (index : Nat) (call call' : SamCall) (result : SamBridgeResult), before.calls[index]? = some call →
    call.result? = none → after.calls[index]? = some call' → call'.admitted = true → call'.result? = some result →
      ∃ record, after.store.records.byKey (call'.input hashSamProposal).keySlot = some record ∧
        record.status ≠ .pending ∧ record.result = some result

/-- A pending or completed record, and that of its attempt, is changed only by the call admitted for its key. -/
def KeepsLive (turn : SamTurn) (before after : Bridge) : Prop :=
  ∀ slot record, before.store.records.byKey slot = some record → record.live = true →
    (after.store.records.byKey slot ≠ some record ∨
      after.store.records.byAttempt record.attemptSlot ≠ before.store.records.byAttempt record.attemptSlot) →
    ∃ index input call, turn = .advance index input ∧ before.calls[index]? = some call ∧ call.admitted = true ∧
      (call.input hashSamProposal).keySlot = slot

/-- A call looks up records of its own tenant only, and only such records appear or change. -/
def KeepsTenants (turn : SamTurn) (before after : Bridge) : Prop :=
  ∀ index input call, turn = .advance index input → before.calls[index]? = some call →
    (∀ record, before.store.records.byKey (call.input hashSamProposal).keySlot = some record ∨
        before.store.records.byAttempt (call.input hashSamProposal).attemptSlot = some record →
      record.tenantId = call.request.proposal.tenantId) ∧
    ∀ table ∈ [SamIdempotencyStore.byKey, SamIdempotencyStore.byAttempt], ∀ slot record,
      (table before.store.records slot = some record → record.tenantId ≠ call.request.proposal.tenantId →
        table after.store.records slot = some record) ∧
      (table after.store.records slot = some record → table before.store.records slot ≠ some record →
        record.tenantId = call.request.proposal.tenantId)

/-- The call is made for the tenant, attempt, key and proposal of the record. -/
def SamCall.Repeats (call : SamCall) (record : SamStoredIdempotencyResult) : Prop :=
  (call.input hashSamProposal).tenantId = record.tenantId ∧ (call.input hashSamProposal).attemptId = record.attemptId ∧
    (call.input hashSamProposal).idempotencyKey = record.idempotencyKey ∧
    (call.input hashSamProposal).proposalHash = record.proposalHash

/-- A call that is made after a record was completed and repeats it returns the record's result, and
it does return. -/
def Replays (before later : Bridge) : Prop :=
  ∀ slot record, before.store.records.byKey slot = some record → record.status = .completed →
    ∀ index call, before.calls.length ≤ index → later.calls[index]? = some call → call.request.enabled = true →
      call.Repeats hashSamProposal record →
        (∀ result, call.result? = some result → record.result = some result) ∧
        ∀ inputs : List SamTurnInput, inputs.length = 5 →
          ∃ call', (runAll (bridgeStep hashSamProposal) later (inputs.map (.advance index))).calls[index]? = some call' ∧
            call'.result?.isSome ∧ call'.result? = record.result

end Statement

section Condition

/-- The two calls share a slot of one of the maps only if they are of one tenant. -/
def Separate (left right : SamIdempotencyInput) : Prop :=
  (left.keySlot = right.keySlot → left.tenantId = right.tenantId) ∧
    (left.attemptSlot = right.attemptSlot → left.tenantId = right.tenantId)

instance (left right : SamIdempotencyInput) : Decidable (Separate left right) :=
  inferInstanceAs (Decidable (_ ∧ _))

/-- The slot holds a pending or a completed record. -/
def SamIdempotencyStore.liveAt (store : SamIdempotencyStore) (slot : String) : Bool :=
  (store.byKey slot).any SamStoredIdempotencyResult.live

/-- The queue takes the call, its dry run does not throw, and it is not blocked or refused, unless it has
no tenant and a refusal overwrites no pending or completed record. -/
def SamCall.Careful (input : SamTurnInput) (call : SamCall) (state : SamBridgeState) : Prop :=
  match call.stage with
  | .received => input.queueRejects = false
  | .dryRunning _ _ _ => input.dryRun.isOk = true
  | .resuming (.stopped _) _ _ => call.request.proposal.tenantId = none
  | .resuming (.refused _ _) _ _ =>
    call.request.proposal.tenantId = none ∧
      state.records.liveAt (call.input hashSamProposal).keySlot = false ∧
      ∀ record ∈ state.records.byAttempt (call.input hashSamProposal).attemptSlot,
        state.records.liveAt record.keySlot = false
  | _ => True

def Careful (turn : SamTurn) (crowd : Bridge) : Prop :=
  match turn with
  | .enter request =>
    ∀ call ∈ crowd.calls, Separate (call.input hashSamProposal) (request.input hashSamProposal)
  | .advance index input => ∀ call ∈ crowd.calls[index]?, call.Careful hashSamProposal input crowd.store
  | .outside _ => True

instance (input : SamTurnInput) (call : SamCall) (state : SamBridgeState) :
    Decidable (call.Careful hashSamProposal input state) := by
  unfold SamCall.Careful
  split <;> infer_instance

instance (turn : SamTurn) (crowd : Bridge) : Decidable (Careful hashSamProposal turn crowd) := by
  unfold Careful
  split <;> infer_instance

end Condition

section Effects

/-- An audit of a call that was admitted. -/
def SamPoint.attempt : SamPoint → Bool
  | .duplicateReturned _ | .replayReturned _ | .refused _ _ => false
  | _ => true

def SamCall.Consistent (call : SamCall) : Prop :=
  match call.stage with
  | .received => call.admitted = false
  | .auditing point _ _ | .resuming point _ _ => call.admitted = point.attempt
  | .preflighting _ | .dryRunning _ _ _ => call.admitted = true
  | .ended _ => True

/-- Neither the key nor the hash is the empty text, which the bridge takes for a missing one. -/
def SamIdempotencyInput.Named (input : SamIdempotencyInput) : Prop :=
  input.idempotencyKey ≠ "" ∧ input.proposalHash ≠ ""

/-- Admitted and not yet over. -/
def SamCall.open (call : SamCall) : Bool := call.admitted && call.result?.isNone

/-- The record that a result of the call is stored as. -/
def storedRecord (request : SamRequest) (result : SamBridgeResult) (status : SamRecordStatus) (replayable : Bool) :
    SamStoredIdempotencyResult where
  tenantId := result.tenantId
  workspaceId := result.workspaceId
  executionId := result.executionId
  attemptId := request.proposal.attemptId
  idempotencyKey := (request.input hashSamProposal).idempotencyKey
  actionType := result.dryRun.actionType
  proposalHash := proposalHash hashSamProposal request.proposal
  result := some result
  status := status
  replayable := replayable

/-- What a careful section of a call does to the call and to the records. -/
inductive SamEffect (call : SamCall) (store : SamIdempotencyStore) : SamCall → SamIdempotencyStore → Prop where
  | quiet (call' : SamCall) (hRequest : call'.request = call.request)
      (hOpen : call'.admitted = true → call'.result? = call.result? ∧ call.admitted = true) :
      SamEffect call store call' store
  | admits (call' : SamCall) (hRequest : call'.request = call.request) (hOver : call'.result? = none)
      (hFree : store.liveAt (call.input hashSamProposal).keySlot = false)
      (hAttempt : ∀ record ∈ store.byAttempt (call.input hashSamProposal).attemptSlot,
        record.idempotencyKey = (call.input hashSamProposal).idempotencyKey)
      (hNamed : (call.input hashSamProposal).Named) :
      SamEffect call store call'
        (storeSamIdempotencyResult (pendingRecord (call.input hashSamProposal)) store)
  | settles (call' : SamCall) (result : SamBridgeResult) (status : SamRecordStatus) (replayable : Bool)
      (hRequest : call'.request = call.request) (hOver : call'.result? = some result) (hOpen : call.open = true)
      (hStatus : status ≠ .pending) (hTenant : result.tenantId = call.request.proposal.tenantId) :
      SamEffect call store call'
        (storeSamIdempotencyResult (storedRecord hashSamProposal call.request result status replayable) store)
  | refuses (call' : SamCall) (result : SamBridgeResult) (hRequest : call'.request = call.request)
      (hNot : call'.admitted = false) (hTenant : result.tenantId = call.request.proposal.tenantId)
      (hFree : store.liveAt (call.input hashSamProposal).keySlot = false)
      (hAttempt : ∀ record ∈ store.byAttempt (call.input hashSamProposal).attemptSlot,
        store.liveAt record.keySlot = false) :
      SamEffect call store call'
        (storeSamIdempotencyResult (storedRecord hashSamProposal call.request result .blocked false) store)

end Effects

section Advance

theorem SamEffect.request_eq {hashSamProposal : SamHashInput → String} {call call' : SamCall}
    {store records : SamIdempotencyStore} (h : SamEffect hashSamProposal call store call' records) :
    call'.request = call.request := by
  cases h with
  | quiet hRequest _ => exact hRequest
  | admits hRequest => exact hRequest
  | settles result status replayable hRequest => exact hRequest
  | refuses result hRequest => exact hRequest

variable {hashSamProposal : SamHashInput → String} {call : SamCall} {state : SamBridgeState} {input : SamTurnInput}

theorem live_false_of_dedup {input : SamIdempotencyInput} {store : SamIdempotencyStore} {reason : Option String}
    (h : evaluateSamDeduplication input store = .newAttempt reason) :
    store.liveAt input.keySlot = false ∧
      ∀ record ∈ store.byAttempt input.attemptSlot, record.idempotencyKey = input.idempotencyKey := by
  unfold evaluateSamDeduplication at h
  split at h
  · cases h
  · rename_i hAttempt
    refine ⟨?_, fun record hRecord => ?_⟩
    · unfold SamIdempotencyStore.liveAt
      split at h
      · rename_i hNone
        rw [hNone]
        rfl
      · rename_i existing hSome
        rw [hSome, Option.any_some]
        by_contra hLive
        have hStatus : existing.live = true := by simpa using hLive
        simp only [SamStoredIdempotencyResult.live, Bool.or_eq_true, decide_eq_true_eq] at hStatus
        have hSafety : evaluateSamRetrySafety existing input ≠ .safeReplay := by
          unfold evaluateSamRetrySafety
          rcases hStatus with hStatus | hStatus <;> rw [hStatus] <;> split_ifs <;> nofun
        split at h
        · cases h
        · rename_i hSafe
          exact hSafety hSafe
        · cases h
        · cases h
        · cases h
    · rw [Option.mem_def] at hRecord
      rw [hRecord, Option.any_some] at hAttempt
      by_contra hNe
      exact hAttempt (decide_eq_true hNe)

theorem ensure_newAttempt {input : SamIdempotencyInput} {store records : SamIdempotencyStore} {reason : Option String}
    (h : ensureIdempotentExecution input store = (.newAttempt reason, records)) :
    input.Named ∧ evaluateSamDeduplication input store = .newAttempt reason ∧
      records = storeSamIdempotencyResult (pendingRecord input) store := by
  unfold ensureIdempotentExecution at h
  split at h
  · cases (Prod.mk.inj h).1
  · rename_i hNamed
    split at h
    · rename_i hDecision
      obtain ⟨hReason, hRecords⟩ := Prod.mk.inj h
      refine ⟨⟨fun hEmpty => hNamed ?_, fun hEmpty => hNamed ?_⟩, hDecision.trans hReason, hRecords.symm⟩
      · exact .inr (.inr (.inl hEmpty))
      · exact .inr (.inr (.inr hEmpty))
    · rename_i hOther
      exact (hOther reason (Prod.mk.inj h).1).elim

theorem finalize_eq {request : SamRequest} {result : SamBridgeResult} {status : SamRecordStatus} {replayable : Bool}
    {store : SamIdempotencyStore} (hAttempt : result.attemptId = some request.proposal.attemptId)
    (hKey : result.idempotencyKey = some (request.input hashSamProposal).idempotencyKey) :
    finalizeStoredResult hashSamProposal request result status replayable store =
      if (request.input hashSamProposal).idempotencyKey = "" then store
      else storeSamIdempotencyResult (storedRecord hashSamProposal request result status replayable) store := by
  unfold finalizeStoredResult
  rw [hAttempt, hKey]
  dsimp only
  by_cases hEmpty : (request.input hashSamProposal).idempotencyKey = ""
  · rw [if_pos (.inr hEmpty), if_pos hEmpty]
  · rw [if_neg (not_or.mpr ⟨request.proposal.attemptNamed, hEmpty⟩), if_neg hEmpty]
    rfl

/-- A stage that is neither the first nor the last. -/
def SamCallStage.midway (stage : SamCallStage) (attempt : Bool) : Prop :=
  match stage with
  | .auditing point _ _ | .resuming point _ _ => point.attempt = attempt
  | .preflighting _ | .dryRunning _ _ _ => attempt = true
  | _ => False

theorem midway_startAudit {request : SamRequest} {point : SamPoint} {errors : List SamError} :
    (startAudit hashSamProposal request input state point errors).midway point.attempt := by
  unfold startAudit
  split <;> exact rfl

theorem midway_afterPreflight {request : SamRequest} {preflight : SamPreflightResult} {errors : List SamError} :
    (afterPreflight hashSamProposal request input state preflight errors).midway true := by
  unfold afterPreflight stop
  split
  · exact midway_startAudit
  · split
    · exact midway_startAudit
    · exact midway_startAudit

theorem midway_afterApproval {request : SamRequest} {preflight : SamPreflightResult} {approval : SamApprovalResult}
    {errors : List SamError} :
    (afterApproval hashSamProposal request input state preflight approval errors).midway true := by
  unfold afterApproval stop
  split
  · exact midway_startAudit
  · exact rfl

theorem result?_midway {request : SamRequest} {admitted attempt : Bool} {stage : SamCallStage}
    (h : stage.midway attempt) : SamCall.result? ⟨request, admitted, stage⟩ = none := by
  cases stage with
  | ended => cases h
  | _ => rfl

theorem consistent_midway {request : SamRequest} {admitted : Bool} {stage : SamCallStage}
    (h : stage.midway admitted) : SamCall.Consistent ⟨request, admitted, stage⟩ := by
  cases stage with
  | received => cases h
  | ended => trivial
  | auditing => exact Eq.symm h
  | resuming => exact Eq.symm h
  | preflighting => exact h
  | dryRunning => exact h

/-- What a careful section does, and that the call keeps to the way it was admitted. -/
def Explained (hashSamProposal : SamHashInput → String) (call : SamCall) (state : SamBridgeState)
    (next : SamCall × SamBridgeState) : Prop :=
  SamEffect hashSamProposal call state.records next.1 next.2.records ∧ next.1.Consistent

theorem explained_midway {request : SamRequest} {admitted : Bool} {stage next : SamCallStage}
    (audited : List String) (hStage : stage.midway admitted) (hNext : next.midway admitted) :
    Explained hashSamProposal ⟨request, admitted, stage⟩ state
      (⟨request, admitted, next⟩, { state with audited }) := by
  refine ⟨.quiet _ rfl fun hAdmitted => ?_, consistent_midway hNext⟩
  exact ⟨(result?_midway hNext).trans (result?_midway hStage).symm, hAdmitted⟩

theorem explained_refused {call' : SamCall} {next : SamBridgeState} (hRequest : call'.request = call.request)
    (hNot : call'.admitted = false) (hRecords : next.records = state.records) (hConsistent : call'.Consistent) :
    Explained hashSamProposal call state (call', next) := by
  refine ⟨?_, hConsistent⟩
  dsimp only
  rw [hRecords]
  exact .quiet _ hRequest fun hAdmitted => absurd (hNot.symm.trans hAdmitted) Bool.false_ne_true

theorem decide_explained (hStage : call.stage = .received) (hCareful : call.Careful hashSamProposal input state) :
    Explained hashSamProposal call state (call.advance hashSamProposal input state) := by
  unfold SamCall.Careful at hCareful
  rw [hStage] at hCareful
  unfold SamCall.advance
  rw [hStage]
  dsimp only [decide]
  split
  · exact explained_refused rfl rfl rfl trivial
  · split
    · rename_i reason records hEnsure
      obtain ⟨hNamed, hDecision, rfl⟩ := ensure_newAttempt hEnsure
      obtain ⟨hFree, hAttempt⟩ := live_false_of_dedup hDecision
      have hMidway : (enterQueue hashSamProposal call.request input state).midway true := by
        rw [enterQueue, if_neg (by rw [hCareful]; nofun)]
        exact midway_startAudit
      exact ⟨.admits _ rfl (result?_midway hMidway) hFree hAttempt hNamed, consistent_midway hMidway⟩
    · exact explained_refused rfl rfl rfl (consistent_midway midway_startAudit)
    · exact explained_refused rfl rfl rfl (consistent_midway midway_startAudit)
    · exact explained_refused rfl rfl rfl (consistent_midway midway_startAudit)
    · exact explained_refused rfl rfl rfl (consistent_midway midway_startAudit)
    · exact explained_refused rfl rfl rfl (consistent_midway midway_startAudit)

theorem settles_explained {request : SamRequest} {stage : SamCallStage} {result : SamBridgeResult}
    {status : SamRecordStatus} {replayable : Bool} (hStage : stage.midway true)
    (hKey : (request.input hashSamProposal).idempotencyKey ≠ "")
    (hAttemptId : result.attemptId = some request.proposal.attemptId)
    (hResultKey : result.idempotencyKey = some (request.input hashSamProposal).idempotencyKey)
    (hStatus : status ≠ .pending) (hTenant : result.tenantId = request.proposal.tenantId) :
    Explained hashSamProposal ⟨request, true, stage⟩ state
      (⟨request, true, (finish hashSamProposal request state result status replayable).1⟩,
        (finish hashSamProposal request state result status replayable).2) := by
  refine ⟨?_, trivial⟩
  dsimp only [finish]
  rw [finalize_eq hAttemptId hResultKey, if_neg hKey]
  refine .settles _ result status replayable rfl rfl ?_ hStatus hTenant
  rw [SamCall.open, result?_midway hStage]
  rfl

theorem resume_explained {request : SamRequest} {admitted : Bool} {point : SamPoint} {errors : List SamError}
    {audit : SamAuditResult} (hPoint : admitted = point.attempt)
    (hKey : admitted = true → (request.input hashSamProposal).idempotencyKey ≠ "")
    (hCareful : SamCall.Careful hashSamProposal input ⟨request, admitted, .resuming point errors audit⟩ state) :
    Explained hashSamProposal ⟨request, admitted, .resuming point errors audit⟩ state
      (SamCall.advance hashSamProposal input ⟨request, admitted, .resuming point errors audit⟩ state) := by
  subst hPoint
  unfold SamCall.Careful at hCareful
  dsimp only [SamCall.advance]
  cases point with
  | duplicateReturned result => exact explained_midway state.audited rfl midway_startAudit
  | replayReturned result => exact explained_refused rfl rfl rfl trivial
  | refused conflict reason =>
    refine ⟨?_, trivial⟩
    dsimp only [resume, finish]
    rw [finalize_eq rfl rfl]
    split
    · exact .quiet _ rfl fun hAdmitted => absurd hAdmitted Bool.false_ne_true
    · exact .refuses _ _ rfl rfl hCareful.1.symm hCareful.2.1 hCareful.2.2
  | accepted => exact explained_midway state.audited rfl midway_startAudit
  | created => exact explained_midway state.audited rfl rfl
  | preflighted preflight => exact explained_midway state.audited rfl midway_afterPreflight
  | stopped outcome => exact settles_explained rfl (hKey rfl) rfl rfl nofun hCareful.symm
  | decided preflight approval => exact explained_midway state.audited rfl midway_afterApproval
  | generated preflight approval dryRun => exact explained_midway state.audited rfl midway_startAudit
  | completed preflight approval dryRun => exact settles_explained rfl (hKey rfl) rfl rfl nofun rfl

theorem advance_explained (hConsistent : call.Consistent)
    (hKey : call.open = true → (call.input hashSamProposal).idempotencyKey ≠ "")
    (hCareful : call.Careful hashSamProposal input state) :
    Explained hashSamProposal call state (call.advance hashSamProposal input state) := by
  obtain ⟨request, admitted, stage⟩ := call
  cases stage with
  | received => exact decide_explained rfl hCareful
  | auditing point errors audit =>
    have hPoint : admitted = point.attempt := hConsistent
    subst hPoint
    dsimp only [SamCall.advance, rememberAudit]
    split
    · exact explained_midway _ rfl rfl
    · exact explained_midway state.audited rfl rfl
  | resuming point errors audit =>
    refine resume_explained hConsistent (fun hAdmitted => hKey ?_) hCareful
    rw [SamCall.open, hAdmitted]
    rfl
  | preflighting errors =>
    have hAdmitted : admitted = true := hConsistent
    subst hAdmitted
    exact explained_midway state.audited rfl midway_startAudit
  | dryRunning preflight approval errors =>
    have hAdmitted : admitted = true := hConsistent
    subst hAdmitted
    unfold SamCall.Careful at hCareful
    dsimp only [SamCall.advance] at hCareful ⊢
    split
    · rename_i message hThrows
      rw [hThrows] at hCareful
      cases hCareful
    · exact explained_midway state.audited rfl midway_startAudit
  | ended result => exact ⟨.quiet _ rfl fun hAdmitted => ⟨rfl, hAdmitted⟩, trivial⟩

end Advance

section Soundness

variable {hashSamProposal}

/-- The record carries the tenant, the attempt and the key of the call. -/
def SamCall.Made (hashSamProposal : SamHashInput → String) (call : SamCall) (record : SamStoredIdempotencyResult) :
    Prop :=
  (call.input hashSamProposal).tenantId = record.tenantId ∧
    (call.input hashSamProposal).attemptId = record.attemptId ∧
    (call.input hashSamProposal).idempotencyKey = record.idempotencyKey

theorem SamCall.Made.keySlot {call : SamCall} {record : SamStoredIdempotencyResult}
    (h : call.Made hashSamProposal record) : (call.input hashSamProposal).keySlot = record.keySlot := by
  rw [SamIdempotencyInput.keySlot, SamIdempotencyInput.keySlot, h.1, h.2.2]

theorem SamCall.Made.attemptSlot {call : SamCall} {record : SamStoredIdempotencyResult}
    (h : call.Made hashSamProposal record) : (call.input hashSamProposal).attemptSlot = record.attemptSlot := by
  rw [SamIdempotencyInput.attemptSlot, SamIdempotencyInput.attemptSlot, h.1, h.2.1]

/-- Every record is in its slot and was made by a call, a live one is under its attempt too, and the calls
that are under way hold the pending records of different keys. -/
structure Sound (hashSamProposal : SamHashInput → String) (crowd : Bridge) : Prop where
  placed : ∀ slot record, crowd.store.records.byKey slot = some record →
    slot = record.keySlot ∧ (∃ call ∈ crowd.calls, call.Made hashSamProposal record) ∧
      (record.status = .completed → record.result.isSome ∧ record.Named) ∧
      (record.live = true → crowd.store.records.byAttempt record.attemptSlot = some record)
  attempts : ∀ slot record, crowd.store.records.byAttempt slot = some record →
    slot = record.attemptSlot ∧ ∃ call ∈ crowd.calls, call.Made hashSamProposal record
  holding : ∀ call ∈ crowd.calls, call.open = true →
    crowd.store.records.byKey (call.input hashSamProposal).keySlot =
        some (pendingRecord (call.input hashSamProposal)) ∧
      (call.input hashSamProposal).Named
  exclusive : ∀ (i j : Nat) (left right : SamCall), i ≠ j → crowd.calls[i]? = some left →
    crowd.calls[j]? = some right → left.open = true → right.open = true →
      (left.input hashSamProposal).keySlot ≠ (right.input hashSamProposal).keySlot
  separate : ∀ left ∈ crowd.calls, ∀ right ∈ crowd.calls,
    Separate (left.input hashSamProposal) (right.input hashSamProposal)
  consistent : ∀ call ∈ crowd.calls, call.Consistent

/-- The call may write the record: no other call holds its key, no other live record is under its attempt,
and a live record in its place is the pending one of the call. -/
structure MayWrite (hashSamProposal : SamHashInput → String) (crowd : Bridge) (index : Nat) (call : SamCall)
    (record : SamStoredIdempotencyResult) : Prop where
  made : call.Made hashSamProposal record
  lone : ∀ slot old, crowd.store.records.byKey slot = some old → old.live = true →
    old.attemptSlot = record.attemptSlot → slot = record.keySlot
  others : ∀ (i : Nat) (other : SamCall), i ≠ index → crowd.calls[i]? = some other → other.open = true →
    (other.input hashSamProposal).keySlot ≠ record.keySlot
  result : record.status = .completed → record.result.isSome ∧ record.Named
  pending : ∀ old, crowd.store.records.byKey record.keySlot = some old → old.live = true →
    call.admitted = true ∧ old.status ≠ .completed

variable {crowd : Bridge} {index : Nat} {call call' : SamCall} {records : SamIdempotencyStore}

theorem liveAt_eq_false {store : SamIdempotencyStore} {slot : String} (h : store.liveAt slot = false)
    {record : SamStoredIdempotencyResult} (hRecord : store.byKey slot = some record) : record.live = false := by
  rwa [SamIdempotencyStore.liveAt, hRecord, Option.any_some] at h

theorem Sound.others_of_free (h : Sound hashSamProposal crowd) {slot : String}
    (hFree : crowd.store.records.liveAt slot = false) (other : SamCall) (hMem : other ∈ crowd.calls)
    (hOpen : other.open = true) : (other.input hashSamProposal).keySlot ≠ slot := by
  rintro rfl
  cases liveAt_eq_false hFree (h.holding other hMem hOpen).1

/-- Records of one attempt slot are of one tenant. -/
theorem Sound.tenant_of_attemptSlot (h : Sound hashSamProposal crowd) (hCall : call ∈ crowd.calls)
    {record : SamStoredIdempotencyResult} (hMade : ∃ maker ∈ crowd.calls, maker.Made hashSamProposal record)
    (hSlot : record.attemptSlot = (call.input hashSamProposal).attemptSlot) :
    record.tenantId = (call.input hashSamProposal).tenantId := by
  obtain ⟨maker, hMaker, hMade⟩ := hMade
  exact hMade.1.symm.trans ((h.separate maker hMaker call hCall).2 (hMade.attemptSlot.trans hSlot))

theorem Sound.tenant_of_keySlot (h : Sound hashSamProposal crowd) (hCall : call ∈ crowd.calls)
    {record : SamStoredIdempotencyResult} (hMade : ∃ maker ∈ crowd.calls, maker.Made hashSamProposal record)
    (hSlot : record.keySlot = (call.input hashSamProposal).keySlot) :
    record.tenantId = (call.input hashSamProposal).tenantId := by
  obtain ⟨maker, hMaker, hMade⟩ := hMade
  exact hMade.1.symm.trans ((h.separate maker hMaker call hCall).1 (hMade.keySlot.trans hSlot))

theorem Sound.may_admit (h : Sound hashSamProposal crowd) (hCall : crowd.calls[index]? = some call)
    (hFree : crowd.store.records.liveAt (call.input hashSamProposal).keySlot = false)
    (hAttempt : ∀ record ∈ crowd.store.records.byAttempt (call.input hashSamProposal).attemptSlot,
      record.idempotencyKey = (call.input hashSamProposal).idempotencyKey) :
    MayWrite hashSamProposal crowd index call (pendingRecord (call.input hashSamProposal)) where
  made := ⟨rfl, rfl, rfl⟩
  lone slot old hOld hLive hSlot := by
    have hMem := List.mem_of_getElem? hCall
    obtain ⟨hPlace, hMade, -, hUnder⟩ := h.placed slot old hOld
    have hTenant := h.tenant_of_attemptSlot hMem hMade hSlot
    have hKey := hAttempt old (hSlot ▸ hUnder hLive)
    rw [hPlace, SamIdempotencyInput.keySlot, hKey, hTenant]
    rfl
  others i other _ hOther hOpen := h.others_of_free hFree other (List.mem_of_getElem? hOther) hOpen
  result := nofun
  pending old hOld hLive := by
    rw [liveAt_eq_false hFree hOld] at hLive
    cases hLive

theorem Sound.may_refuse (h : Sound hashSamProposal crowd) {record : SamStoredIdempotencyResult}
    (hMade : call.Made hashSamProposal record) (hStatus : record.status = .blocked)
    (hFree : crowd.store.records.liveAt (call.input hashSamProposal).keySlot = false)
    (hAttempt : ∀ old ∈ crowd.store.records.byAttempt (call.input hashSamProposal).attemptSlot,
      crowd.store.records.liveAt old.keySlot = false) :
    MayWrite hashSamProposal crowd index call record where
  made := hMade
  lone slot old hOld hLive hSlot := by
    obtain ⟨hPlace, -, -, hUnder⟩ := h.placed slot old hOld
    have hNot := hAttempt old (hMade.attemptSlot ▸ hSlot ▸ hUnder hLive)
    rw [liveAt_eq_false hNot (hPlace ▸ hOld)] at hLive
    cases hLive
  others i other _ hOther hOpen := by
    rw [← hMade.keySlot]
    exact h.others_of_free hFree other (List.mem_of_getElem? hOther) hOpen
  result hCompleted := by
    rw [hStatus] at hCompleted
    cases hCompleted
  pending old hOld hLive := by
    rw [liveAt_eq_false hFree (hMade.keySlot ▸ hOld)] at hLive
    cases hLive

theorem Sound.may_settle (h : Sound hashSamProposal crowd) (hCall : crowd.calls[index]? = some call)
    {record : SamStoredIdempotencyResult} (hMade : call.Made hashSamProposal record) (hOpen : call.open = true)
    (hResult : record.result.isSome ∧ record.proposalHash = (call.input hashSamProposal).proposalHash) :
    MayWrite hashSamProposal crowd index call record where
  made := hMade
  lone slot old hOld hLive hSlot := by
    obtain ⟨hHeld, -⟩ := h.holding call (List.mem_of_getElem? hCall) hOpen
    have hUnder := (h.placed _ _ hHeld).2.2.2 rfl
    obtain ⟨hPlace, -, -, hUnder'⟩ := h.placed slot old hOld
    have hSame := hUnder' hLive
    rw [hSlot, ← hMade.attemptSlot] at hSame
    have hEq : old = pendingRecord (call.input hashSamProposal) := Option.some.inj (hSame.symm.trans hUnder)
    rw [hPlace, hEq]
    exact hMade.keySlot
  others i other hNe hOther hOther' := by
    rw [← hMade.keySlot]
    exact h.exclusive i index other call hNe hOther hCall hOther' hOpen
  result _ := by
    obtain ⟨-, hKey, hHash⟩ := h.holding call (List.mem_of_getElem? hCall) hOpen
    exact ⟨hResult.1, hMade.2.2 ▸ hKey, hResult.2 ▸ hHash⟩
  pending old hOld _ := by
    obtain ⟨hHeld, -⟩ := h.holding call (List.mem_of_getElem? hCall) hOpen
    rw [hMade.keySlot, hOld] at hHeld
    obtain rfl := Option.some.inj hHeld
    exact ⟨(Bool.and_eq_true_iff.mp hOpen).1, nofun⟩

theorem mem_of_mem_calls_set {calls : List SamCall} {other : SamCall} (hMem : other ∈ calls.set index call') :
    other = call' ∨ other ∈ calls := (List.mem_or_eq_of_mem_set hMem).symm

theorem input_congr (hRequest : call'.request = call.request) :
    call'.input hashSamProposal = call.input hashSamProposal := by
  rw [SamCall.input, SamCall.input, hRequest]

/-- A call of the list has a counterpart with the same request in the list after a section. -/
theorem exists_made_set (hCall : crowd.calls[index]? = some call) (hRequest : call'.request = call.request)
    {record : SamStoredIdempotencyResult} (h : ∃ maker ∈ crowd.calls, maker.Made hashSamProposal record) :
    ∃ maker ∈ crowd.calls.set index call', maker.Made hashSamProposal record := by
  obtain ⟨maker, hMaker, hMade⟩ := h
  obtain ⟨i, hi⟩ := List.mem_iff_getElem?.mp hMaker
  by_cases hEq : i = index
  · subst hEq
    obtain rfl := Option.some.inj (hi.symm.trans hCall)
    refine ⟨call', List.mem_of_getElem? (Crowd.getElem?_set_self' hCall call'), ?_⟩
    rwa [SamCall.Made, input_congr hRequest]
  · refine ⟨maker, List.mem_of_getElem? (i := i) ?_, hMade⟩
    rwa [List.getElem?_set_ne (Ne.symm hEq)]

theorem separate_set (h : Sound hashSamProposal crowd) (hCall : crowd.calls[index]? = some call)
    (hRequest : call'.request = call.request) :
    ∀ left ∈ crowd.calls.set index call', ∀ right ∈ crowd.calls.set index call',
      Separate (left.input hashSamProposal) (right.input hashSamProposal) := by
  have hOld : ∀ other ∈ crowd.calls.set index call', ∃ old ∈ crowd.calls,
      other.input hashSamProposal = old.input hashSamProposal := by
    intro other hMem
    rcases mem_of_mem_calls_set hMem with rfl | hMem
    · exact ⟨call, List.mem_of_getElem? hCall, input_congr hRequest⟩
    · exact ⟨other, hMem, rfl⟩
  intro left hLeft right hRight
  obtain ⟨left', hLeft', hEq⟩ := hOld left hLeft
  obtain ⟨right', hRight', hEq'⟩ := hOld right hRight
  rw [hEq, hEq']
  exact h.separate left' hLeft' right' hRight'

theorem exclusive_set (h : Sound hashSamProposal crowd)
    (hOthers : call'.open = true → ∀ (i : Nat) (other : SamCall), i ≠ index → crowd.calls[i]? = some other →
      other.open = true → (other.input hashSamProposal).keySlot ≠ (call'.input hashSamProposal).keySlot)
    (i j : Nat) (left right : SamCall) (hNe : i ≠ j) (hLeft : (crowd.calls.set index call')[i]? = some left)
    (hRight : (crowd.calls.set index call')[j]? = some right) (hOpen : left.open = true) (hOpen' : right.open = true) :
    (left.input hashSamProposal).keySlot ≠ (right.input hashSamProposal).keySlot := by
  rw [List.getElem?_set] at hLeft hRight
  split at hLeft
  · rename_i hi
    split at hLeft
    · obtain rfl := Option.some.inj hLeft
      rw [if_neg (hi.trans_ne hNe)] at hRight
      exact (hOthers hOpen j right (fun hj => hNe (hi.symm.trans hj.symm)) hRight hOpen').symm
    · cases hLeft
  · rename_i hi
    split at hRight
    · rename_i hj
      split at hRight
      · obtain rfl := Option.some.inj hRight
        exact hOthers hOpen' i left (Ne.symm hi) hLeft hOpen
      · cases hRight
    · exact h.exclusive i j left right hNe hLeft hRight hOpen hOpen'

theorem consistent_set (h : Sound hashSamProposal crowd) (hConsistent : call'.Consistent) :
    ∀ other ∈ crowd.calls.set index call', other.Consistent := by
  intro other hMem
  rcases mem_of_mem_calls_set hMem with rfl | hMem
  · exact hConsistent
  · exact h.consistent other hMem

/-- A section that leaves the records alone. -/
theorem Sound.quiet (h : Sound hashSamProposal crowd) (hCall : crowd.calls[index]? = some call)
    (hRequest : call'.request = call.request) (hOpen : call'.open = true → call.open = true)
    (hConsistent : call'.Consistent) {next : SamBridgeState} (hRecords : next.records = crowd.store.records) :
    Sound hashSamProposal ⟨next, crowd.calls.set index call'⟩ where
  placed slot record hRecord := by
    rw [hRecords] at hRecord
    obtain ⟨hPlace, hMade, hResult, hUnder⟩ := h.placed slot record hRecord
    refine ⟨hPlace, exists_made_set hCall hRequest hMade, hResult, ?_⟩
    rw [hRecords]
    exact hUnder
  attempts slot record hRecord := by
    rw [hRecords] at hRecord
    obtain ⟨hPlace, hMade⟩ := h.attempts slot record hRecord
    exact ⟨hPlace, exists_made_set hCall hRequest hMade⟩
  holding other hMem hOther := by
    rw [hRecords]
    rcases mem_of_mem_calls_set hMem with rfl | hMem
    · rw [input_congr hRequest]
      exact h.holding call (List.mem_of_getElem? hCall) (hOpen hOther)
    · exact h.holding other hMem hOther
  exclusive := by
    refine exclusive_set h fun hOpen' i other hNe hOther hOther' => ?_
    rw [input_congr hRequest]
    exact h.exclusive i index other call hNe hOther hCall hOther' (hOpen hOpen')
  separate := separate_set h hCall hRequest
  consistent := consistent_set h hConsistent

/-- A section that writes a record. -/
theorem Sound.write (h : Sound hashSamProposal crowd) (hCall : crowd.calls[index]? = some call)
    (hRequest : call'.request = call.request) (hConsistent : call'.Consistent) {record : SamStoredIdempotencyResult}
    (hWrite : MayWrite hashSamProposal crowd index call record)
    (hOpen : call'.open = true → record = pendingRecord (call.input hashSamProposal) ∧
      (call.input hashSamProposal).Named)
    {next : SamBridgeState} (hRecords : next.records = storeSamIdempotencyResult record crowd.store.records) :
    Sound hashSamProposal ⟨next, crowd.calls.set index call'⟩ where
  placed slot stored hStored := by
    rw [hRecords, byKey_store] at hStored
    rw [hRecords]
    split at hStored
    · rename_i hSlot
      obtain rfl := Option.some.inj hStored
      refine ⟨hSlot, exists_made_set hCall hRequest ⟨call, List.mem_of_getElem? hCall, hWrite.made⟩, hWrite.result, ?_⟩
      rw [byAttempt_store, if_pos rfl]
      exact fun _ => rfl
    · rename_i hSlot
      obtain ⟨hPlace, hMade, hResult, hUnder⟩ := h.placed slot stored hStored
      refine ⟨hPlace, exists_made_set hCall hRequest hMade, hResult, fun hLive => ?_⟩
      rw [byAttempt_store, if_neg, hUnder hLive]
      exact fun hSame => hSlot (hWrite.lone slot stored hStored hLive hSame)
  attempts slot stored hStored := by
    rw [hRecords, byAttempt_store] at hStored
    split at hStored
    · rename_i hSlot
      obtain rfl := Option.some.inj hStored
      exact ⟨hSlot, exists_made_set hCall hRequest ⟨call, List.mem_of_getElem? hCall, hWrite.made⟩⟩
    · obtain ⟨hPlace, hMade⟩ := h.attempts slot stored hStored
      exact ⟨hPlace, exists_made_set hCall hRequest hMade⟩
  holding other hMem hOther := by
    obtain ⟨i, hi⟩ := List.mem_iff_getElem?.mp hMem
    rw [hRecords, byKey_store]
    by_cases hEq : i = index
    · subst hEq
      rw [Crowd.getElem?_set_self' hCall] at hi
      obtain rfl := Option.some.inj hi
      obtain ⟨hPending, hKey⟩ := hOpen hOther
      rw [input_congr hRequest, if_pos hWrite.made.keySlot, hPending]
      exact ⟨rfl, hKey⟩
    · rw [List.getElem?_set_ne (Ne.symm hEq)] at hi
      rw [if_neg (hWrite.others i other hEq hi hOther)]
      exact h.holding other (List.mem_of_getElem? hi) hOther
  exclusive := by
    refine exclusive_set h fun _ i other hNe hOther hOther' => ?_
    rw [input_congr hRequest, hWrite.made.keySlot]
    exact hWrite.others i other hNe hOther hOther'
  separate := separate_set h hCall hRequest
  consistent := consistent_set h hConsistent

/-- A careful section either leaves the records alone or writes one that the call may write. -/
theorem Sound.advance (h : Sound hashSamProposal crowd) (hCall : crowd.calls[index]? = some call)
    {next : SamCall × SamBridgeState} (hNext : Explained hashSamProposal call crowd.store next) :
    Sound hashSamProposal ⟨next.2, crowd.calls.set index next.1⟩ ∧
      (next.2.records = crowd.store.records ∨
        ∃ record, next.2.records = storeSamIdempotencyResult record crowd.store.records ∧
          MayWrite hashSamProposal crowd index call record) := by
  obtain ⟨call', state⟩ := next
  obtain ⟨hEffect, hConsistent⟩ := hNext
  dsimp only at hEffect hConsistent ⊢
  generalize hRecords : state.records = records at hEffect
  cases hEffect with
  | quiet hRequest hOpen =>
    refine ⟨h.quiet hCall hRequest (fun hOpen' => ?_) hConsistent hRecords, .inl rfl⟩
    obtain ⟨hAdmitted, hOver⟩ := Bool.and_eq_true_iff.mp hOpen'
    obtain ⟨hResult, hAdmitted'⟩ := hOpen hAdmitted
    rw [SamCall.open, hAdmitted', ← hResult, hOver]
    rfl
  | admits hRequest hOver hFree hAttempt hNamed =>
    have hWrite := h.may_admit hCall hFree hAttempt
    exact ⟨h.write hCall hRequest hConsistent hWrite (fun _ => ⟨rfl, hNamed⟩) hRecords, .inr ⟨_, rfl, hWrite⟩⟩
  | settles result status replayable hRequest hOver hOpen hStatus hTenant =>
    have hMade : call.Made hashSamProposal (storedRecord hashSamProposal call.request result status replayable) :=
      ⟨hTenant.symm, rfl, rfl⟩
    have hWrite := h.may_settle hCall hMade hOpen ⟨rfl, rfl⟩
    refine ⟨h.write hCall hRequest hConsistent hWrite (fun hOpen' => ?_) hRecords, .inr ⟨_, rfl, hWrite⟩⟩
    rw [SamCall.open, hOver, Option.isNone_some, Bool.and_false] at hOpen'
    cases hOpen'
  | refuses result hRequest hNot hTenant hFree hAttempt =>
    have hMade : call.Made hashSamProposal (storedRecord hashSamProposal call.request result .blocked false) :=
      ⟨hTenant.symm, rfl, rfl⟩
    have hWrite : MayWrite hashSamProposal crowd index call _ := h.may_refuse hMade rfl hFree hAttempt
    refine ⟨h.write hCall hRequest hConsistent hWrite (fun hOpen' => ?_) hRecords, .inr ⟨_, rfl, hWrite⟩⟩
    rw [SamCall.open, hNot, Bool.false_and] at hOpen'
    cases hOpen'

end Soundness

section Runs

variable {hashSamProposal}
variable {crowd later : Bridge} {index : Nat} {input : SamTurnInput} {call : SamCall} {request : SamRequest}

theorem bridgeStep_advance (hCall : crowd.calls[index]? = some call) :
    bridgeStep hashSamProposal (.advance index input) crowd =
      ⟨(call.advance hashSamProposal input crowd.store).2,
        crowd.calls.set index (call.advance hashSamProposal input crowd.store).1⟩ := Crowd.step_advance hCall

theorem Sound.explained (h : Sound hashSamProposal crowd) (hCall : crowd.calls[index]? = some call)
    (hCareful : Careful hashSamProposal (.advance index input) crowd) :
    Explained hashSamProposal call crowd.store (call.advance hashSamProposal input crowd.store) := by
  have hMem := List.mem_of_getElem? hCall
  exact advance_explained (h.consistent call hMem) (fun hOpen => (h.holding call hMem hOpen).2.1)
    (hCareful call hCall)

theorem Sound.enter (h : Sound hashSamProposal crowd) (hCareful : Careful hashSamProposal (.enter request) crowd) :
    Sound hashSamProposal (bridgeStep hashSamProposal (.enter request) crowd) := by
  have hMem : ∀ other, other ∈ crowd.calls ++ [⟨request, false, .received⟩] ↔
      other ∈ crowd.calls ∨ other = ⟨request, false, .received⟩ := by
    intro other
    rw [List.mem_append, List.mem_singleton]
  have hMade : ∀ record, (∃ maker ∈ crowd.calls, maker.Made hashSamProposal record) →
      ∃ maker ∈ crowd.calls ++ [⟨request, false, .received⟩], maker.Made hashSamProposal record := by
    rintro record ⟨maker, hMaker, hMade⟩
    exact ⟨maker, (hMem maker).mpr (.inl hMaker), hMade⟩
  have hGet : ∀ (i : Nat) (other : SamCall), (crowd.calls ++ [⟨request, false, .received⟩])[i]? = some other →
      other.open = true → crowd.calls[i]? = some other := by
    intro i other hOther hOpen
    rw [List.getElem?_append] at hOther
    split at hOther
    · exact hOther
    · rw [List.mem_singleton.mp (List.mem_of_getElem? hOther)] at hOpen
      cases hOpen
  refine ⟨?_, ?_, ?_, ?_, ?_, ?_⟩
  · intro slot record hRecord
    obtain ⟨hPlace, hMaker, hRest⟩ := h.placed slot record hRecord
    exact ⟨hPlace, hMade record hMaker, hRest⟩
  · intro slot record hRecord
    obtain ⟨hPlace, hMaker⟩ := h.attempts slot record hRecord
    exact ⟨hPlace, hMade record hMaker⟩
  · intro other hOther hOpen
    rcases (hMem other).mp hOther with hOld | rfl
    · exact h.holding other hOld hOpen
    · cases hOpen
  · intro i j left right hNe hLeft hRight hOpen hOpen'
    exact h.exclusive i j left right hNe (hGet i left hLeft hOpen) (hGet j right hRight hOpen') hOpen hOpen'
  · have hNew : ∀ old ∈ crowd.calls, Separate (old.input hashSamProposal) (request.input hashSamProposal) := hCareful
    intro left hLeft right hRight
    rcases (hMem left).mp hLeft with hLeft | rfl
    · rcases (hMem right).mp hRight with hRight | rfl
      · exact h.separate left hLeft right hRight
      · exact hNew left hLeft
    · rcases (hMem right).mp hRight with hRight | rfl
      · obtain ⟨hKey, hAttempt⟩ := hNew right hRight
        exact ⟨fun hSame => (hKey hSame.symm).symm, fun hSame => (hAttempt hSame.symm).symm⟩
      · exact ⟨fun _ => rfl, fun _ => rfl⟩
  · intro other hOther
    rcases (hMem other).mp hOther with hOld | rfl
    · exact h.consistent other hOld
    · exact rfl

theorem Sound.step (h : Sound hashSamProposal crowd) {turn : SamTurn} (hCareful : Careful hashSamProposal turn crowd) :
    Sound hashSamProposal (bridgeStep hashSamProposal turn crowd) := by
  cases turn with
  | enter request => exact h.enter hCareful
  | outside op => cases op
  | advance index input =>
    cases hCall : crowd.calls[index]? with
    | none =>
      rw [bridgeStep, Crowd.step, hCall]
      exact h
    | some call =>
      rw [bridgeStep_advance hCall]
      exact (h.advance hCall (h.explained hCall hCareful)).1

theorem sound_init : Sound hashSamProposal (Crowd.init .empty) where
  placed _ _ hRecord := nomatch hRecord
  attempts _ _ hRecord := nomatch hRecord
  holding _ hMem := nomatch hMem
  exclusive _ _ _ _ _ hLeft := nomatch hLeft
  separate _ hMem := nomatch hMem
  consistent _ hMem := nomatch hMem

theorem bridge_sound
    (h : Reaches (bridgeStep hashSamProposal) (Careful hashSamProposal) (Crowd.init .empty) crowd) :
    Sound hashSamProposal crowd :=
  h.invariant sound_init fun _ _ hSound hCareful => hSound.step hCareful

/-- The records after a careful turn: those before it, or one more that the advancing call may write. -/
theorem Sound.turn_cases (h : Sound hashSamProposal crowd) {turn : SamTurn}
    (hCareful : Careful hashSamProposal turn crowd) :
    (bridgeStep hashSamProposal turn crowd).store.records = crowd.store.records ∨
      ∃ index input call record, turn = .advance index input ∧ crowd.calls[index]? = some call ∧
        (bridgeStep hashSamProposal turn crowd).store.records =
          storeSamIdempotencyResult record crowd.store.records ∧
        MayWrite hashSamProposal crowd index call record := by
  cases turn with
  | enter request => exact .inl rfl
  | outside op => cases op
  | advance index input =>
    cases hCall : crowd.calls[index]? with
    | none =>
      rw [bridgeStep, Crowd.step, hCall]
      exact .inl rfl
    | some call =>
      rw [bridgeStep_advance hCall]
      refine (h.advance hCall (h.explained hCall hCareful)).2.imp_right ?_
      rintro ⟨record, hRecords, hWrite⟩
      exact ⟨index, input, call, record, rfl, hCall, hRecords, hWrite⟩

theorem Sound.settles (h : Sound hashSamProposal crowd) {turn : SamTurn}
    (hCareful : Careful hashSamProposal turn crowd) :
    Settles hashSamProposal crowd (bridgeStep hashSamProposal turn crowd) := by
  intro i call call' result hBefore hNone hAfter hAdmitted hOver
  cases turn with
  | enter request =>
    have hGet : (crowd.calls ++ [⟨request, false, .received⟩])[i]? = some call' := hAfter
    rw [List.getElem?_append_left (List.getElem?_eq_some_iff.mp hBefore).1, hBefore] at hGet
    obtain rfl := Option.some.inj hGet
    rw [hNone] at hOver
    cases hOver
  | outside op => cases op
  | advance index input =>
    cases hCall : crowd.calls[index]? with
    | none =>
      rw [bridgeStep, Crowd.step, hCall] at hAfter
      obtain rfl := Option.some.inj (hBefore.symm.trans hAfter)
      rw [hNone] at hOver
      cases hOver
    | some advancing =>
      have hEffect := (h.explained hCall hCareful).1
      rw [bridgeStep_advance hCall] at hAfter ⊢
      dsimp only at hAfter ⊢
      by_cases hIndex : i = index
      · subst hIndex
        obtain rfl := Option.some.inj (hBefore.symm.trans hCall)
        rw [Crowd.getElem?_set_self' hCall] at hAfter
        obtain rfl := Option.some.inj hAfter
        generalize (call.advance hashSamProposal input crowd.store).1 = call' at hEffect hAdmitted hOver ⊢
        generalize (call.advance hashSamProposal input crowd.store).2.records = records at hEffect ⊢
        cases hEffect with
        | quiet hRequest hOpen =>
          rw [(hOpen hAdmitted).1, hNone] at hOver
          cases hOver
        | admits hRequest hNever =>
          rw [hNever] at hOver
          cases hOver
        | settles result' status replayable hRequest hOver' hOpen hStatus hTenant =>
          obtain rfl := Option.some.inj (hOver'.symm.trans hOver)
          have hSlot : (call'.input hashSamProposal).keySlot =
              (storedRecord hashSamProposal call.request result' status replayable).keySlot := by
            rw [input_congr hRequest]
            exact congrArg (scopedKey (call.input hashSamProposal).idempotencyKey) hTenant.symm
          refine ⟨storedRecord hashSamProposal call.request result' status replayable, ?_, hStatus, rfl⟩
          rw [byKey_store, if_pos hSlot]
        | refuses result' hRequest hNot =>
          rw [hNot] at hAdmitted
          cases hAdmitted
      · rw [List.getElem?_set_ne (Ne.symm hIndex), hBefore] at hAfter
        obtain rfl := Option.some.inj hAfter
        rw [hNone] at hOver
        cases hOver

theorem Sound.keepsLive (h : Sound hashSamProposal crowd) {turn : SamTurn}
    (hCareful : Careful hashSamProposal turn crowd) :
    KeepsLive hashSamProposal turn crowd (bridgeStep hashSamProposal turn crowd) := by
  intro slot record hRecord hLive hChanged
  rcases h.turn_cases hCareful with hSame | ⟨index, input, call, written, hTurn, hCall, hRecords, hWrite⟩
  · rw [hSame] at hChanged
    exact absurd hChanged (not_or.mpr ⟨fun hNe => hNe hRecord, fun hNe => hNe rfl⟩)
  · have hSlot : slot = written.keySlot := by
      rw [hRecords, byKey_store, byAttempt_store] at hChanged
      by_contra hNe
      rw [if_neg hNe] at hChanged
      rcases hChanged with hNe' | hNe'
      · exact hNe' hRecord
      · split at hNe'
        · rename_i hSame
          exact hNe (hWrite.lone slot record hRecord hLive hSame)
        · exact hNe' rfl
    refine ⟨index, input, call, hTurn, hCall, (hWrite.pending record (hSlot ▸ hRecord) hLive).1, ?_⟩
    rw [hSlot, hWrite.made.keySlot]

theorem Sound.keepsTenants (h : Sound hashSamProposal crowd) {turn : SamTurn}
    (hCareful : Careful hashSamProposal turn crowd) :
    KeepsTenants hashSamProposal turn crowd (bridgeStep hashSamProposal turn crowd) := by
  rintro index input call rfl hCall
  have hMem := List.mem_of_getElem? hCall
  refine ⟨?_, ?_⟩
  · rintro record (hRecord | hRecord)
    · obtain ⟨hPlace, hMade, -⟩ := h.placed _ record hRecord
      exact h.tenant_of_keySlot hMem hMade hPlace.symm
    · obtain ⟨hPlace, hMade⟩ := h.attempts _ record hRecord
      exact h.tenant_of_attemptSlot hMem hMade hPlace.symm
  · rcases h.turn_cases hCareful with hSame | ⟨i, input', call', written, hTurn, hCall', hRecords, hWrite⟩
    · intro table _ slot record
      rw [hSame]
      exact ⟨fun hRecord _ => hRecord, fun hRecord hNot => absurd hRecord hNot⟩
    · obtain ⟨rfl, rfl⟩ : index = i ∧ input = input' := by
        injection hTurn with hIndex hInput
        exact ⟨hIndex, hInput⟩
      obtain rfl := Option.some.inj (hCall.symm.trans hCall')
      have hTenant : written.tenantId = call.request.proposal.tenantId := hWrite.made.1.symm
      intro table hTable slot record
      rw [hRecords]
      rcases List.mem_cons.mp hTable with rfl | hTable
      · rw [byKey_store]
        split
        · rename_i hSlot
          refine ⟨fun hRecord hOther => ?_, fun hRecord _ => ?_⟩
          · obtain ⟨hPlace, hMade, -⟩ := h.placed slot record hRecord
            have hSame : record.keySlot = (call.input hashSamProposal).keySlot := by
              rw [← hPlace, hSlot, hWrite.made.keySlot]
            exact absurd (h.tenant_of_keySlot hMem hMade hSame) hOther
          · exact Option.some.inj hRecord ▸ hTenant
        · exact ⟨fun hRecord _ => hRecord, fun hRecord hNot => absurd hRecord hNot⟩
      · rw [List.mem_singleton.mp hTable, byAttempt_store]
        split
        · rename_i hSlot
          refine ⟨fun hRecord hOther => ?_, fun hRecord _ => ?_⟩
          · obtain ⟨hPlace, hMade⟩ := h.attempts slot record hRecord
            have hSame : record.attemptSlot = (call.input hashSamProposal).attemptSlot := by
              rw [← hPlace, hSlot, hWrite.made.attemptSlot]
            exact absurd (h.tenant_of_attemptSlot hMem hMade hSame) hOther
          · exact Option.some.inj hRecord ▸ hTenant
        · exact ⟨fun hRecord _ => hRecord, fun hRecord hNot => absurd hRecord hNot⟩

/-- A completed record stays where it is. -/
theorem Sound.completed_kept (h : Sound hashSamProposal crowd) {turn : SamTurn}
    (hCareful : Careful hashSamProposal turn crowd) {slot : String} {record : SamStoredIdempotencyResult}
    (hRecord : crowd.store.records.byKey slot = some record) (hCompleted : record.status = .completed) :
    (bridgeStep hashSamProposal turn crowd).store.records.byKey slot = some record := by
  rcases h.turn_cases hCareful with hSame | ⟨index, input, call, written, -, -, hRecords, hWrite⟩
  · rw [hSame, hRecord]
  · rw [hRecords, byKey_store, if_neg, hRecord]
    rintro rfl
    have hLive : record.live = true := by
      rw [SamStoredIdempotencyResult.live, hCompleted]
      rfl
    exact (hWrite.pending record hRecord hLive).2 hCompleted

end Runs

section Replaying

variable {hashSamProposal}
variable {crowd later : Bridge} {index : Nat} {input : SamTurnInput} {call : SamCall} {request : SamRequest}
  {record : SamStoredIdempotencyResult} {result : SamBridgeResult}

/-- The call returns the result after that many turns of its own. -/
inductive ReplaysIn (result : SamBridgeResult) : Nat → SamCallStage → Prop where
  | received : ReplaysIn result 5 .received
  | duplicate (errors : List SamError) (audit : SamAuditResult) :
      ReplaysIn result 4 (.auditing (.duplicateReturned result) errors audit)
  | remembered (errors : List SamError) (audit : SamAuditResult) :
      ReplaysIn result 3 (.resuming (.duplicateReturned result) errors audit)
  | replay (errors : List SamError) (audit : SamAuditResult) :
      ReplaysIn result 2 (.auditing (.replayReturned result) errors audit)
  | resumed (errors : List SamError) (audit : SamAuditResult) :
      ReplaysIn result 1 (.resuming (.replayReturned result) errors audit)
  | ended : ReplaysIn result 0 (.ended result)

theorem startAudit_cases (hashSamProposal : SamHashInput → String) (request : SamRequest) (input : SamTurnInput)
    (state : SamBridgeState) (point : SamPoint) (errors : List SamError) :
    ∃ audit, startAudit hashSamProposal request input state point errors = .auditing point errors audit := by
  unfold startAudit
  split
  · exact ⟨_, rfl⟩
  · exact ⟨_, rfl⟩

/-- The store has the completed record with its result, under its key and its attempt. -/
structure Completed (store : SamIdempotencyStore) (record : SamStoredIdempotencyResult) (result : SamBridgeResult) :
    Prop where
  status : record.status = .completed
  result : record.result = some result
  named : record.Named
  key : store.byKey record.keySlot = some record
  attempt : store.byAttempt record.attemptSlot = some record

theorem decide_replays {state : SamBridgeState} (hCompleted : Completed state.records record result)
    (hEnabled : request.enabled = true)
    (hRepeats : SamCall.Repeats hashSamProposal ⟨request, false, .received⟩ record) :
    decide hashSamProposal request input state =
      (false, startAudit hashSamProposal request input state (.duplicateReturned result) [], state) := by
  obtain ⟨hTenant, hAttempt, hKey, hHash⟩ := hRepeats
  dsimp only [SamCall.input] at hTenant hAttempt hKey hHash
  have hKeySlot : (request.input hashSamProposal).keySlot = record.keySlot := by
    rw [SamIdempotencyInput.keySlot, SamIdempotencyInput.keySlot, hTenant, hKey]
  have hAttemptSlot : (request.input hashSamProposal).attemptSlot = record.attemptSlot := by
    rw [SamIdempotencyInput.attemptSlot, SamIdempotencyInput.attemptSlot, hTenant, hAttempt]
  have hSafety : evaluateSamRetrySafety record (request.input hashSamProposal) = .duplicateReturn := by
    unfold evaluateSamRetrySafety
    rw [if_neg (fun h => h.2 hKey.symm), if_neg (not_not.mpr hHash.symm), hCompleted.status]
  have hDecision : evaluateSamDeduplication (request.input hashSamProposal) state.records =
      .duplicateReturned (some result) "SAME_KEY_SAME_RESULT" := by
    unfold evaluateSamDeduplication
    rw [hAttemptSlot, hCompleted.attempt, Option.any_some, if_neg, hKeySlot, hCompleted.key]
    · dsimp only
      rw [hSafety, hCompleted.result]
    · simp only [hKey, ne_eq, not_true_eq_false, decide_false, Bool.false_eq_true, not_false_eq_true]
  have hEnsure : ensureIdempotentExecution (request.input hashSamProposal) state.records =
      (.duplicateReturned (some result) "SAME_KEY_SAME_RESULT", state.records) := by
    unfold ensureIdempotentExecution
    rw [if_neg, hDecision]
    rintro (hEmpty | hEmpty | hEmpty | hEmpty)
    · exact request.proposal.executionNamed hEmpty
    · exact request.proposal.attemptNamed hEmpty
    · exact hCompleted.named.1 (hKey.symm.trans hEmpty)
    · exact hCompleted.named.2 (hHash.symm.trans hEmpty)
  unfold decide
  rw [if_neg (not_not.mpr hEnabled), hEnsure]

theorem replays_advance {state : SamBridgeState} {turns : Nat} (hCompleted : Completed state.records record result)
    (hEnabled : call.request.enabled = true) (hRepeats : call.Repeats hashSamProposal record)
    (h : ReplaysIn result turns call.stage) :
    (call.advance hashSamProposal input state).1.request = call.request ∧
      (call.advance hashSamProposal input state).2.records = state.records ∧
      ReplaysIn result (turns - 1) (call.advance hashSamProposal input state).1.stage := by
  obtain ⟨request, admitted, stage⟩ := call
  cases h with
  | received =>
    dsimp only [SamCall.advance]
    rw [decide_replays hCompleted hEnabled hRepeats]
    obtain ⟨audit, hAudit⟩ := startAudit_cases hashSamProposal request input state (.duplicateReturned result) []
    rw [hAudit]
    exact ⟨rfl, rfl, .duplicate _ _⟩
  | duplicate errors audit =>
    refine ⟨rfl, ?_, .remembered _ _⟩
    dsimp only [SamCall.advance, rememberAudit]
    split <;> rfl
  | remembered errors audit =>
    dsimp only [SamCall.advance, resume]
    obtain ⟨audit', hAudit⟩ := startAudit_cases hashSamProposal request input state (.replayReturned result) errors
    rw [hAudit]
    exact ⟨rfl, rfl, .replay _ _⟩
  | replay errors audit =>
    refine ⟨rfl, ?_, .resumed _ _⟩
    dsimp only [SamCall.advance, rememberAudit]
    split <;> rfl
  | resumed errors audit => exact ⟨rfl, rfl, .ended⟩
  | ended => exact ⟨rfl, rfl, .ended⟩

/-- Alone, the call returns the result in the turns that it has left. -/
theorem replays_alone {turns : Nat} (inputs : List SamTurnInput) (hCall : crowd.calls[index]? = some call)
    (hCompleted : Completed crowd.store.records record result) (hEnabled : call.request.enabled = true)
    (hRepeats : call.Repeats hashSamProposal record) (h : ReplaysIn result turns call.stage) :
    ∃ call', (runAll (bridgeStep hashSamProposal) crowd (inputs.map (.advance index))).calls[index]? = some call' ∧
      ReplaysIn result (turns - inputs.length) call'.stage := by
  induction inputs generalizing crowd call turns with
  | nil => exact ⟨call, hCall, h⟩
  | cons input inputs ih =>
    obtain ⟨hRequest, hRecords, hNext⟩ := replays_advance hCompleted hEnabled hRepeats h
    have hCall' : (bridgeStep hashSamProposal (.advance index input) crowd).calls[index]? =
        some (call.advance hashSamProposal input crowd.store).1 := by
      rw [bridgeStep_advance hCall]
      exact Crowd.getElem?_set_self' hCall _
    have hCompleted' : Completed (bridgeStep hashSamProposal (.advance index input) crowd).store.records record
        result := by
      rw [bridgeStep_advance hCall]
      exact hRecords ▸ hCompleted
    obtain ⟨call', hFinal, hEnd⟩ := ih hCall' hCompleted' (hRequest ▸ hEnabled)
      (by rwa [SamCall.Repeats, input_congr hRequest]) hNext
    refine ⟨call', hFinal, ?_⟩
    rwa [Nat.sub_sub, Nat.add_comm] at hEnd

/-- The calls made after the record was completed that repeat it are all on their way to its result. -/
theorem replays_run (h : Reaches (bridgeStep hashSamProposal) (Careful hashSamProposal) (Crowd.init .empty) crowd)
    (hLater : Reaches (bridgeStep hashSamProposal) (Careful hashSamProposal) crowd later)
    (hCompleted : Completed crowd.store.records record result) :
    Completed later.store.records record result ∧ crowd.calls.length ≤ later.calls.length ∧
      ∀ index call, crowd.calls.length ≤ index → later.calls[index]? = some call → call.request.enabled = true →
        call.Repeats hashSamProposal record → ∃ turns ≤ 5, ReplaysIn result turns call.stage := by
  induction hLater with
  | refl =>
    refine ⟨hCompleted, Nat.le_refl _, fun index call hIndex hCall => ?_⟩
    rw [List.getElem?_eq_none hIndex] at hCall
    cases hCall
  | step turn hRun hCareful ih =>
    rename_i middle
    obtain ⟨hDone, hLength, hCalls⟩ := ih
    have hSound := bridge_sound (h.trans hRun)
    have hDone' : Completed (bridgeStep hashSamProposal turn middle).store.records record result := by
      have hKey := hSound.completed_kept hCareful hDone.key hDone.status
      have hLive : record.live = true := by
        rw [SamStoredIdempotencyResult.live, hDone.status]
        rfl
      exact ⟨hDone.status, hDone.result, hDone.named, hKey, ((hSound.step hCareful).placed _ _ hKey).2.2.2 hLive⟩
    refine ⟨hDone', ?_⟩
    cases turn with
    | outside op => cases op
    | enter request =>
      have hEntered : (bridgeStep hashSamProposal (.enter request) middle).calls =
          middle.calls ++ [⟨request, false, .received⟩] := rfl
      rw [hEntered]
      refine ⟨?_, fun index call hIndex hCall hEnabled hRepeats => ?_⟩
      · rw [List.length_append]
        omega
      · rw [List.getElem?_append] at hCall
        split at hCall
        · exact hCalls index call hIndex hCall hEnabled hRepeats
        · rw [List.mem_singleton.mp (List.mem_of_getElem? hCall)]
          exact ⟨5, Nat.le_refl 5, .received⟩
    | advance advancing input =>
      cases hAdvancing : middle.calls[advancing]? with
      | none =>
        rw [bridgeStep, Crowd.step, hAdvancing]
        exact ⟨hLength, hCalls⟩
      | some old =>
        rw [bridgeStep_advance hAdvancing]
        refine ⟨?_, fun index call hIndex hCall hEnabled hRepeats => ?_⟩
        · rwa [List.length_set]
        · rw [List.getElem?_set] at hCall
          split at hCall
          · rename_i hSame
            subst hSame
            split at hCall
            · obtain rfl := Option.some.inj hCall
              have hRequest := (hSound.explained hAdvancing hCareful).1.request_eq
              rw [hRequest] at hEnabled
              rw [SamCall.Repeats, input_congr hRequest] at hRepeats
              obtain ⟨turns, hTurns, hReplays⟩ := hCalls advancing old hIndex hAdvancing hEnabled hRepeats
              exact ⟨turns - 1, by omega, (replays_advance hDone hEnabled hRepeats hReplays).2.2⟩
            · cases hCall
          · exact hCalls index call hIndex hCall hEnabled hRepeats

theorem bridge_replays
    (h : Reaches (bridgeStep hashSamProposal) (Careful hashSamProposal) (Crowd.init .empty) crowd)
    (hLater : Reaches (bridgeStep hashSamProposal) (Careful hashSamProposal) crowd later) :
    Replays hashSamProposal crowd later := by
  intro slot record hRecord hStatus index call hIndex hCall hEnabled hRepeats
  obtain ⟨hPlace, -, hResult, hUnder⟩ := (bridge_sound h).placed slot record hRecord
  obtain ⟨hSome, hNamed⟩ := hResult hStatus
  obtain ⟨result, hResult⟩ := Option.isSome_iff_exists.mp hSome
  have hLive : record.live = true := by
    rw [SamStoredIdempotencyResult.live, hStatus]
    rfl
  have hCompleted : Completed crowd.store.records record result :=
    ⟨hStatus, hResult, hNamed, hPlace ▸ hRecord, hUnder hLive⟩
  obtain ⟨hDone, -, hCalls⟩ := replays_run h hLater hCompleted
  obtain ⟨turns, hTurns, hReplays⟩ := hCalls index call hIndex hCall hEnabled hRepeats
  refine ⟨fun returned hOver => ?_, fun inputs hLength => ?_⟩
  · rw [SamCall.result?] at hOver
    generalize call.stage = stage at hReplays hOver
    cases hReplays with
    | ended => exact Option.some.inj hOver ▸ hResult
    | _ => cases hOver
  · obtain ⟨call', hFinal, hEnd⟩ := replays_alone inputs hCall hDone hEnabled hRepeats hReplays
    rw [Nat.sub_eq_zero_of_le (hLength ▸ hTurns)] at hEnd
    have hOver : call'.result? = some result := by
      rw [SamCall.result?]
      generalize call'.stage = stage at hEnd
      cases hEnd
      rfl
    exact ⟨call', hFinal, by rw [hOver]; rfl, hOver.trans hResult.symm⟩

end Replaying

/-- In the runs that are careful at every turn, whatever calls overlap. -/
theorem bridge_idempotent {crowd : Bridge}
    (h : Reaches (bridgeStep hashSamProposal) (Careful hashSamProposal) (Crowd.init .empty) crowd) :
    (∀ turn, Careful hashSamProposal turn crowd →
      Settles hashSamProposal crowd (bridgeStep hashSamProposal turn crowd) ∧
        KeepsLive hashSamProposal turn crowd (bridgeStep hashSamProposal turn crowd) ∧
        KeepsTenants hashSamProposal turn crowd (bridgeStep hashSamProposal turn crowd)) ∧
      ∀ later, Reaches (bridgeStep hashSamProposal) (Careful hashSamProposal) crowd later →
        Replays hashSamProposal crowd later := by
  have hSound := bridge_sound h
  refine ⟨fun turn hCareful => ?_, fun later hLater => bridge_replays h hLater⟩
  exact ⟨hSound.settles hCareful, hSound.keepsLive hCareful, hSound.keepsTenants hCareful⟩

section Examples

def statusText : SamApprovalStatus → String
  | .required => "required"
  | .granted => "granted"
  | .denied => "denied"
  | .notApplicable => "not_applicable"

/-- A hash that tells the proposals and keys below apart. -/
def sampleHash : SamHashInput → String
  | .proposal tenantId _ executionId _ _ reason _ _ _ => "proposal/" ++ tenantId ++ "/" ++ executionId ++ "/" ++ reason
  | .key _ _ _ _ proposalHash status approvedBy => proposalHash ++ "/" ++ statusText status ++ "/" ++ approvedBy

def sampleProposal (tenantContext : Option TenantContext) (attemptId : String) (attemptNamed : attemptId ≠ "") :
    SamProposal :=
  ⟨"proposal-1", "execution-1", attemptId, .recoverExecution, .ai, "preview", .high, ⟨[0x31], by decide⟩, [],
    tenantContext, by decide, attemptNamed, by decide⟩

def acme : TenantContext := ⟨"acme", "acme", by decide⟩

def sampleRequest (tenantContext : Option TenantContext) (attemptId : String) (attemptNamed : attemptId ≠ "")
    (status : SamApprovalStatus) : SamRequest :=
  ⟨sampleProposal tenantContext attemptId attemptNamed, some ⟨status, some "operator-1", none⟩, true, true⟩

def sampleInput : SamTurnInput where
  audit := ⟨true, true, some "audit-1", false, none⟩
  queueRejects := false
  preflight := ⟨true, false, none, ⟨true, true, true, true, true, false⟩, ⟨none, none, none, none⟩⟩
  dryRun := .ok ⟨true, .recoverExecution, "would invoke governed recovery", ["would verify gates"], []⟩

def granted : SamRequest := sampleRequest (some acme) "attempt-1" (by decide) .granted

def unapproved (tenantContext : Option TenantContext) : SamRequest :=
  sampleRequest tenantContext "attempt-1" (by decide) .required

def turnsOf (index turns : Nat) : List SamTurn := List.replicate turns (.advance index sampleInput)

def playTurns (turns : List SamTurn) : Bridge := runAll (bridgeStep sampleHash) (Crowd.init .empty) turns

def almostCompleted : Bridge := playTurns (.enter granted :: turnsOf 0 14)

theorem bridge_idempotent_completed :
    Settles sampleHash almostCompleted (bridgeStep sampleHash (.advance 0 sampleInput) almostCompleted) ∧
      Replays sampleHash almostCompleted
        (runAll (bridgeStep sampleHash) almostCompleted (turnsOf 0 1 ++ .enter granted :: turnsOf 1 5)) := by
  have hReached : GuardedAll (bridgeStep sampleHash) (Careful sampleHash) (Crowd.init .empty)
      (.enter granted :: turnsOf 0 14) := by decide +kernel
  have hLater : GuardedAll (bridgeStep sampleHash) (Careful sampleHash) almostCompleted
      (turnsOf 0 1 ++ .enter granted :: turnsOf 1 5) := by decide +kernel
  have hIdempotent := bridge_idempotent sampleHash hReached.reaches
  exact ⟨(hIdempotent.1 _ (by decide +kernel)).1, hIdempotent.2 _ hLater.reaches⟩

def statusAt (bridge : Bridge) (request : SamRequest) : Option SamRecordStatus :=
  (bridge.store.records.byKey (request.input sampleHash).keySlot).map SamStoredIdempotencyResult.status

/-- A tenant's call that lacks its approval. -/
def almostBlocked : Bridge := playTurns (.enter (unapproved (some acme)) :: turnsOf 0 11)

def blockedBridge : Bridge := bridgeStep sampleHash (.advance 0 sampleInput) almostBlocked

def queueRejected : Bridge :=
  playTurns [.enter granted, .advance 0 { sampleInput with queueRejects := true }]

def dryRunThrew : Bridge :=
  playTurns (.enter granted :: turnsOf 0 10 ++ [.advance 0 { sampleInput with dryRun := .error "dry run failed" }])

/-- A second attempt of the same proposal, made while the first is under way. -/
def overlapped : Bridge :=
  playTurns (.enter (sampleRequest none "attempt-1" (by decide) .granted) :: turnsOf 0 1 ++
    .enter (sampleRequest none "attempt-2" (by decide) .granted) :: turnsOf 1 3)

theorem bridge_not_idempotent :
    (statusAt blockedBridge (unapproved (some acme)) = some .pending ∧
      (blockedBridge.store.records.byKey (scopedKey ((unapproved (some acme)).input sampleHash).idempotencyKey none)).map
        SamStoredIdempotencyResult.status = some .blocked) ∧
    statusAt queueRejected granted = some .pending ∧ statusAt dryRunThrew granted = some .pending ∧
    (statusAt overlapped (sampleRequest none "attempt-1" (by decide) .granted) = some .blocked ∧
      (overlapped.calls[0]?.map SamCall.open) = some true) ∧
    ¬ ∀ crowd, Reaches (bridgeStep sampleHash) (fun _ _ => True) (Crowd.init .empty) crowd →
      ∀ turn, Settles sampleHash crowd (bridgeStep sampleHash turn crowd) ∧
        KeepsLive sampleHash turn crowd (bridgeStep sampleHash turn crowd) ∧
        KeepsTenants sampleHash turn crowd (bridgeStep sampleHash turn crowd) := by
  refine ⟨by decide +kernel, by decide +kernel, by decide +kernel, by decide +kernel, fun h => ?_⟩
  have hSettles : Settles sampleHash almostBlocked blockedBridge :=
    (h almostBlocked (reaches_runAll _ _ _) (.advance 0 sampleInput)).1
  have hBefore : almostBlocked.calls[0]?.map SamCall.result? = some none := by decide +kernel
  obtain ⟨call, hCall, hNone⟩ := Option.map_eq_some_iff.mp hBefore
  have hAfter : blockedBridge.calls[0]?.map (fun call => (call.admitted, call.result?.isSome,
      (blockedBridge.store.records.byKey (call.input sampleHash).keySlot).map SamStoredIdempotencyResult.status)) =
      some (true, true, some .pending) := by decide +kernel
  obtain ⟨call', hCall', hOver⟩ := Option.map_eq_some_iff.mp hAfter
  simp only [Prod.mk.injEq] at hOver
  obtain ⟨hAdmitted, hSome, hPending⟩ := hOver
  obtain ⟨result, hResult⟩ := Option.isSome_iff_exists.mp hSome
  obtain ⟨record, hRecord, hStatus, -⟩ := hSettles 0 call call' result hCall hNone hCall' hAdmitted hResult
  rw [hRecord] at hPending
  exact hStatus (Option.some.inj hPending)

end Examples

end CommandConsole.Sam
