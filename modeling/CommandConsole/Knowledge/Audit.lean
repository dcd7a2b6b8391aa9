import CommandConsole.Knowledge.Lifecycle

/-! # Knowledge changes and their audit events

Calls that come one after the other. The repository is written before the audit
ledger, so a write that throws after it took effect, or an audit append that throws,
leaves a change behind that the call reports as failed and that no event accounts for.
-/
namespace CommandConsole.Knowledge
open Library KnowledgeRepository KnowledgeWorld
set_option autoImplicit false

section Statement

/-- What an audit event accounts for. -/
inductive AuditSubject where
  | admitted (knowledgeId candidateId : String)
  | superseded (supersessionId priorKnowledgeId replacementKnowledgeId : String)
  | exceptionRegistered (exceptionId baseKnowledgeId exceptionKnowledgeId : String)
  | retired (knowledgeId : String) (state : RetiredState)
  deriving DecidableEq

def KnowledgeAuditEvent.subject : KnowledgeAuditEvent → AuditSubject
  | admitted _ knowledgeId candidateId _ _ _ _ _ => .admitted knowledgeId candidateId
  | superseded _ supersessionId prior replacement _ _ _ _ => .superseded supersessionId prior replacement
  | exceptionRegistered _ exceptionId base exception _ _ _ _ => .exceptionRegistered exceptionId base exception
  | lifecycleChanged _ knowledgeId state _ _ _ _ _ => .retired knowledgeId state

def KnowledgeWorld.Audits (world : KnowledgeWorld) (subject : AuditSubject) : Prop :=
  ∃ event ∈ world.auditEvents, event.subject = subject

/-- Every change that the repository shows has its audit event. -/
structure Audited (world : KnowledgeWorld) : Prop where
  admitted : ∀ id record, world.repository.recordsById id = some record →
    world.Audits (.admitted record.knowledgeId record.candidateId)
  superseded : ∀ id relationship, world.repository.supersessionsByReplacementId id = some relationship →
    world.Audits (.superseded relationship.supersessionId relationship.priorKnowledgeId
      relationship.replacementKnowledgeId)
  excepted : ∀ id relationship, world.repository.exceptionsByKnowledgeId id = some relationship →
    world.Audits (.exceptionRegistered relationship.exceptionId relationship.baseKnowledgeId
      relationship.exceptionKnowledgeId)
  retired : ∀ id record (state : RetiredState), world.repository.recordsById id = some record →
    record.lifecycleState = state.state → world.Audits (.retired record.knowledgeId state)

def KnowledgeResult.persistenceFailed : KnowledgeResult → Prop
  | admission result => result.status = .persistenceFailed
  | supersession result => result.status = .persistenceFailed
  | exception result => result.status = .persistenceFailed
  | retirement result => result.status = .persistenceFailed

def Command.isAppend : Command → Prop
  | append _ => True
  | _ => False

/-- A command that throws has changed nothing in the repository, and it is no audit append. -/
def Accountable (i : Nat) (fault : Fault) (command : Command) (world : KnowledgeWorld) : Prop :=
  ∀ later, perform i fault command world = some (none, later) →
    later.repository = world.repository ∧ ¬ command.isAppend

/-- A call that nobody overlaps, under a name, with what fails while it runs. -/
structure LoneCall where
  name : Nat
  call : KnowledgeCall
  faults : Nat → Command → Fault

def LoneCall.run (ids : KnowledgeIds) (op : LoneCall) (world : KnowledgeWorld) :
    Option (Option KnowledgeResult × KnowledgeWorld) :=
  (serve ids op.call).play perform op.name op.faults 0 world

def LoneCall.step (ids : KnowledgeIds) (op : LoneCall) (world : KnowledgeWorld) : KnowledgeWorld :=
  match op.run ids world with
  | some (_, later) => later
  | none => world

def LoneCall.IsAccountable (ids : KnowledgeIds) (op : LoneCall) (world : KnowledgeWorld) : Prop :=
  (serve ids op.call).Within perform op.name Accountable op.faults 0 world

end Statement

section Books

theorem KnowledgeWorld.Audits.record {world : KnowledgeWorld} {subject : AuditSubject} (h : world.Audits subject)
    (event : KnowledgeAuditEvent) : (world.record event).Audits subject := by
  obtain ⟨other, hMem, hSubject⟩ := h
  exact ⟨other, List.mem_append_left _ hMem, hSubject⟩

theorem KnowledgeWorld.audits_record (world : KnowledgeWorld) (event : KnowledgeAuditEvent) :
    (world.record event).Audits event.subject :=
  ⟨event, List.mem_append_right _ (List.mem_singleton_self _), rfl⟩

/-- Between calls nothing is in flight, and the books are kept. -/
structure Kept (ids : KnowledgeIds) (world : KnowledgeWorld) : Prop where
  keyed : Keyed ids world.repository
  audited : Audited world

/-- A write with the event that accounts for it. -/
def booked (world : KnowledgeWorld) (repository : KnowledgeRepository) (event : KnowledgeAuditEvent) :
    KnowledgeWorld := ({ world with repository } : KnowledgeWorld).record event

variable {ids : KnowledgeIds} {world : KnowledgeWorld}

/-- A record takes its place, with a supersession or without, and the event accounts for what is new. -/
theorem Kept.setRecord (h : Kept ids world) {record : DurableKnowledgeRecord} {event : KnowledgeAuditEvent}
    {supersessions : String → Option KnowledgeSupersession}
    (hName : record.knowledgeId = ids.createKnowledgeId record.candidateId)
    (hAdmitted : world.Audits (.admitted record.knowledgeId record.candidateId) ∨
      event.subject = .admitted record.knowledgeId record.candidateId)
    (hRetired : ∀ state : RetiredState, record.lifecycleState = state.state →
      event.subject = .retired record.knowledgeId state)
    (hSup : ∀ id relationship, supersessions id = some relationship →
      world.repository.supersessionsByReplacementId id = some relationship ∨
        event.subject = .superseded relationship.supersessionId relationship.priorKnowledgeId
          relationship.replacementKnowledgeId) :
    Kept ids (booked world
      { world.repository.setRecord record with supersessionsByReplacementId := supersessions } event) where
  keyed := ⟨(h.keyed.setRecord record hName).byId, (h.keyed.setRecord record hName).byCandidate,
    (h.keyed.setRecord record hName).named⟩
  audited :=
    { admitted := fun id other hOther => by
        change (world.repository.setRecord record).recordsById id = some other at hOther
        rw [setRecord_recordsById] at hOther
        split at hOther
        · cases hOther
          rcases hAdmitted with hOld | hNew
          · exact hOld.record event
          · exact hNew ▸ audits_record _ event
        · exact (h.audited.admitted id other hOther).record event
      superseded := fun id relationship hOther => by
        rcases hSup id relationship hOther with hOld | hNew
        · exact (h.audited.superseded id relationship hOld).record event
        · exact hNew ▸ audits_record _ event
      excepted := fun id relationship hOther => (h.audited.excepted id relationship hOther).record event
      retired := fun id other state hOther hState => by
        change (world.repository.setRecord record).recordsById id = some other at hOther
        rw [setRecord_recordsById] at hOther
        split at hOther
        · cases hOther
          exact hRetired state hState ▸ audits_record _ event
        · exact (h.audited.retired id other state hOther hState).record event }

theorem Kept.create (h : Kept ids world) {record : DurableKnowledgeRecord} {event : KnowledgeAuditEvent}
    (hName : record.knowledgeId = ids.createKnowledgeId record.candidateId) (hActive : record.lifecycleState = .active)
    (hEvent : event.subject = .admitted record.knowledgeId record.candidateId) :
    Kept ids (booked world (world.repository.setRecord record) event) := by
  refine h.setRecord hName (.inr hEvent) (fun state hState => ?_) fun _ _ hOld => .inl hOld
  rw [hActive] at hState
  cases state <;> cases hState

theorem Kept.transition (h : Kept ids world) {id : String} {prior : DurableKnowledgeRecord} {state : RetiredState}
    {event : KnowledgeAuditEvent} (hPrior : world.repository.recordsById id = some prior)
    (hEvent : event.subject = .retired prior.knowledgeId state) :
    Kept ids (booked world (world.repository.setRecord { prior with lifecycleState := state.state }) event) := by
  refine h.setRecord (h.keyed.named id prior hPrior) (.inl (h.audited.admitted id prior hPrior)) (fun other hState => ?_)
    fun _ _ hOld => .inl hOld
  have hSame : state = other := by cases state <;> cases other <;> first | rfl | cases hState
  exact hSame ▸ hEvent

theorem Kept.supersede (h : Kept ids world) {id replacement : String} {prior : DurableKnowledgeRecord}
    {relationship : KnowledgeSupersession} {event : KnowledgeAuditEvent}
    (hPrior : world.repository.recordsById id = some prior)
    (hEvent : event.subject = .superseded relationship.supersessionId relationship.priorKnowledgeId
      relationship.replacementKnowledgeId) :
    Kept ids (booked world
      { world.repository.setRecord { prior with lifecycleState := .superseded } with
        supersessionsByReplacementId := Function.update world.repository.supersessionsByReplacementId replacement
          (some relationship) } event) := by
  refine h.setRecord (h.keyed.named id prior hPrior) (.inl (h.audited.admitted id prior hPrior)) (fun state hState => ?_)
    fun other relationship' hOther => ?_
  · cases state <;> cases hState
  · rw [Function.update_apply] at hOther
    split at hOther
    · cases hOther
      exact .inr hEvent
    · exact .inl hOther

theorem Kept.register (h : Kept ids world) {base exception : String} {relationship : KnowledgeException}
    {event : KnowledgeAuditEvent} {others : List KnowledgeException}
    (hEvent : event.subject = .exceptionRegistered relationship.exceptionId relationship.baseKnowledgeId
      relationship.exceptionKnowledgeId) :
    Kept ids (booked world
      { world.repository with
        exceptionsByKnowledgeId := Function.update world.repository.exceptionsByKnowledgeId exception (some relationship)
        exceptionsByBaseKnowledgeId := Function.update world.repository.exceptionsByBaseKnowledgeId base others }
      event) where
  keyed := ⟨h.keyed.byId, h.keyed.byCandidate, h.keyed.named⟩
  audited :=
    { admitted := fun id record hRecord => (h.audited.admitted id record hRecord).record event
      superseded := fun id relationship hOther => (h.audited.superseded id relationship hOther).record event
      excepted := fun id relationship' hOther => by
        change Function.update _ _ _ _ = _ at hOther
        rw [Function.update_apply] at hOther
        split at hOther
        · cases hOther
          exact hEvent ▸ audits_record _ event
        · exact (h.audited.excepted id relationship' hOther).record event
      retired := fun id record state hRecord hState => (h.audited.retired id record state hRecord hState).record event }

end Books

section Calls

/-- The call of that name runs alone, and it never has to wait. -/
def auditProtocol (name : Nat) : Protocol Command Command.Answer Fault KnowledgeWorld where
  perform := perform
  MayWait _ _ := False
  Allowed := Accountable
  Inv _ := True
  Rely i world later := i = name → world = later
  rely_refl _ _ _ := rfl
  rely_trans _ _ _ _ h h' hName := (h hName).trans (h' hName)

/-- The books are kept, and an outcome that is no success comes with an unchanged repository. -/
structure Booked {α : Type} (ids : KnowledgeIds) (before : KnowledgeWorld) (failed : α → Prop) (outcome : Option α)
    (after : KnowledgeWorld) : Prop where
  kept : Kept ids after
  inFlight : after.inFlight = before.inFlight
  unchanged : (∀ a ∈ outcome, failed a) → after.repository = before.repository

variable {ids : KnowledgeIds} {name : Nat} {world : KnowledgeWorld} {α : Type} {failed : α → Prop}

theorem fair_alone (world later : KnowledgeWorld) : Script.Fair (auditProtocol name) name world later :=
  ⟨trivial, fun _ hNe hName => absurd hName hNe⟩

theorem Kept.same (h : Kept ids world) (outcome : Option α) : Booked ids world failed outcome world :=
  ⟨h, rfl, fun _ => rfl⟩

theorem books_return (h : Kept ids world) (a : α) :
    (pure a : Action α).Safe (auditProtocol name) name (Booked ids world failed) world :=
  fun _ hEq _ => hEq rfl ▸ h.same (some a)

theorem books_read (h : Kept ids world) {command : Command} {f : command.Answer → Action α}
    (value : KnowledgeWorld → command.Answer)
    (hPerform : ∀ fault world, perform name fault command world = reading fault (value world) world)
    (hNext : (f (value world)).Safe (auditProtocol name) name (Booked ids world failed) world) :
    (Script.ask command >>= f).Safe (auditProtocol name) name (Booked ids world failed) world := by
  refine Script.Safe.ask fun later hEq _ fault _ => ?_
  obtain rfl := hEq rfl
  have hRead : (auditProtocol name).perform name fault command world = _ := hPerform fault world
  rw [hRead]
  cases fault with
  | works => exact ⟨fair_alone _ _, hNext⟩
  | fails => exact ⟨fair_alone _ _, fun _ hEq _ => hEq rfl ▸ h.same none⟩
  | failsAfter => exact ⟨fair_alone _ _, fun _ hEq _ => hEq rfl ▸ h.same none⟩

/-- The write of a service and the event that accounts for it. -/
theorem books_change (h : Kept ids world) {failure : α} {command : Command}
    {event : command.Answer → KnowledgeAuditEvent} {result : command.Answer → KnowledgeAuditEvent → α}
    (written : KnowledgeWorld → Except String (command.Answer × KnowledgeRepository))
    (hPerform : ∀ fault world, perform name fault command world = writing fault (written world) world)
    (hDone : ∀ answer event, ¬ failed (result answer event))
    (hOk : ∀ answer repository, written world = .ok (answer, repository) →
      Kept ids (booked world repository (event answer))) :
    (failedUnless failure do
      let answer ← Script.ask command
      let auditEvent ← Script.ask (Command.append (event answer))
      pure (result answer auditEvent)).Safe (auditProtocol name) name (Booked ids world failed) world := by
  have hBody : (do
      let answer ← Script.ask command
      let auditEvent ← Script.ask (Command.append (event answer))
      pure (result answer auditEvent) : Action α).Safe (auditProtocol name) name
        (fun outcome later => Booked ids world failed (some (outcome.getD failure)) later) world := by
    refine Script.Safe.ask fun later hEq _ fault hAccountable => ?_
    obtain rfl := hEq rfl
    have hWrite : (auditProtocol name).perform name fault command world = _ := hPerform fault world
    have hSame : ∀ later, perform name fault command world = some (none, later) → later.repository = world.repository :=
      fun later hThrows => (hAccountable later hThrows).1
    rw [hPerform] at hSame
    rw [hWrite]
    cases hWritten : written world with
    | error _ => cases fault <;> exact ⟨fair_alone _ _, fun _ hEq _ => hEq rfl ▸ h.same _⟩
    | ok pair =>
      obtain ⟨answer, repository⟩ := pair
      rw [hWritten] at hSame
      cases fault with
      | fails => exact ⟨fair_alone _ _, fun _ hEq _ => hEq rfl ▸ h.same _⟩
      | failsAfter =>
        -- the condition says that this write took no effect
        obtain rfl : repository = world.repository := hSame _ rfl
        exact ⟨fair_alone _ _, fun _ hEq _ => hEq rfl ▸ h.same _⟩
      | works =>
        refine ⟨fair_alone _ _, Script.Safe.ask fun later hEq _ fault hAccountable => ?_⟩
        obtain rfl := hEq rfl
        cases fault with
        | works =>
          refine ⟨fair_alone _ _, fun _ hEq _ => hEq rfl ▸ ⟨hOk answer repository hWritten, rfl, fun hFailed => ?_⟩⟩
          exact absurd (hFailed _ rfl) (hDone answer _)
        | fails => exact absurd trivial (hAccountable _ rfl).2
        | failsAfter => exact absurd trivial (hAccountable _ rfl).2
  refine Script.Safe.bind
    (M := fun outcome later => ∃ a, outcome = some a ∧ Booked ids world failed (some (a.getD failure)) later)
    (Script.Safe.attempt (hBody.mono fun outcome _ _ hBooked => ⟨outcome, rfl, hBooked⟩)) trivial ?_ ?_
  · intro outcome later _ hMid
    obtain ⟨a, hSome, hBooked⟩ := hMid later (fun _ => rfl) trivial
    cases hSome
    exact fun _ hEq _ => hEq rfl ▸ hBooked
  · rintro _ _ ⟨_, hSome, _⟩
    cases hSome

variable {now : String}

theorem books_admitOnce (h : Kept ids world) {request : KnowledgeAdmissionRequest} :
    (admitOnce ids now request).Safe (auditProtocol name) name
      (Booked ids world fun result => result.status = .persistenceFailed) world := by
  unfold admitOnce
  split
  · exact books_return h _
  refine books_read h (fun world => world.repository.recordsByCandidateId _) (fun _ _ => rfl) ?_
  split
  · exact books_return h _
  rename_i hNone
  refine books_change h (fun world => .ok (world.repository.create _)) (fun _ _ => rfl) (fun _ _ h => by cases h) ?_
  intro persisted repository hOk
  rcases create_cases world.repository (admittedRecord ids now request ‹_›) with ⟨_, hOld, _⟩ | ⟨_, hCreate⟩
  · have hBoth := Eq.trans (Eq.symm hNone) hOld
    cases hBoth
  · rw [hCreate] at hOk
    cases hOk
    exact h.create rfl rfl rfl

theorem books_transitionOnce (h : Kept ids world) {request : KnowledgeRetirementRequest} :
    (transitionOnce ids now request).Safe (auditProtocol name) name
      (Booked ids world fun result => result.status = .persistenceFailed) world := by
  unfold transitionOnce
  refine books_read h (fun world => world.repository.recordsById _) (fun _ _ => rfl) ?_
  split
  · exact books_return h _
  rename_i record hRecord
  have hId := (h.keyed.byId _ record hRecord).1
  refine .ite (fun _ => books_return h _) fun _ => .ite (fun _ => books_return h _) fun _ =>
    .ite (fun _ => books_return h _) fun _ => .ite (fun _ => books_return h _) fun _ => ?_
  refine books_change h (fun world => world.repository.transitionLifecycle _ _) (fun _ _ => rfl)
    (fun _ _ h => by cases h) ?_
  intro transition repository hOk
  obtain ⟨prior, hPrior, _, _, rfl⟩ := transitionLifecycle_eq_ok hOk
  rw [hId, hRecord] at hPrior
  cases hPrior
  exact h.transition hRecord rfl

theorem books_supersedeOnce (h : Kept ids world) {request : KnowledgeSupersessionRequest} :
    (supersedeOnce ids now request).Safe (auditProtocol name) name
      (Booked ids world fun result => result.status = .persistenceFailed) world := by
  unfold supersedeOnce
  refine books_read h (fun world => world.repository.recordsById _) (fun _ _ => rfl) ?_
  split
  · exact books_return h _
  rename_i prior hPrior
  have hPriorId := (h.keyed.byId _ prior hPrior).1
  refine books_read h (fun world => world.repository.recordsById _) (fun _ _ => rfl) ?_
  split
  · exact books_return h _
  rename_i replacement hReplacement
  have hReplacementId := (h.keyed.byId _ replacement hReplacement).1
  refine books_read h (fun world => world.repository.supersessionsByReplacementId _) (fun _ _ => rfl) ?_
  split
  · exact .ite (fun _ => books_return h _) fun _ => books_return h _
  rename_i hNone
  split
  · exact books_return h _
  refine books_change h (fun world => world.repository.supersede _ _ _) (fun _ _ => rfl) (fun _ _ h => by cases h) ?_
  intro transition repository hOk
  rcases supersede_eq_ok hOk with ⟨hOld, _⟩ | ⟨priorRecord, replacementRecord, _, hPrior', _, hReplacement', _, rfl, rfl⟩
  · rw [hReplacementId, show world.repository.supersessionsByReplacementId _ = none from hNone] at hOld
    cases hOld
  · rw [hPriorId, hPrior] at hPrior'
    rw [hReplacementId, hReplacement] at hReplacement'
    cases hPrior'
    cases hReplacement'
    exact h.supersede hPrior rfl

theorem books_registerOnce (h : Kept ids world) {request : KnowledgeExceptionRegistrationRequest} :
    (registerOnce ids now request).Safe (auditProtocol name) name
      (Booked ids world fun result => result.status = .persistenceFailed) world := by
  unfold registerOnce
  refine books_read h (fun world => world.repository.recordsById _) (fun _ _ => rfl) ?_
  split
  · exact books_return h _
  rename_i base hBase
  have hBaseId := (h.keyed.byId _ base hBase).1
  refine books_read h (fun world => world.repository.recordsById _) (fun _ _ => rfl) ?_
  split
  · exact books_return h _
  rename_i exception hException
  have hExceptionId := (h.keyed.byId _ exception hException).1
  refine books_read h (fun world => world.repository.exceptionsByKnowledgeId _) (fun _ _ => rfl) ?_
  split
  · exact .ite (fun _ => books_return h _) fun _ => books_return h _
  rename_i hNone
  split
  · exact books_return h _
  refine books_change h (fun world => world.repository.registerException _ _ _) (fun _ _ => rfl)
    (fun _ _ h => by cases h) ?_
  intro registration repository hOk
  rcases registerException_eq_ok hOk with ⟨hOld, _⟩ | ⟨_, _, hBase', hException', rfl⟩
  · rw [hExceptionId, show world.repository.exceptionsByKnowledgeId _ = none from hNone] at hOld
    cases hOld
  · rw [hBaseId, hBase] at hBase'
    rw [hExceptionId, hException] at hException'
    refine h.register ?_
    rw [exceptionRegisteredEvent, KnowledgeAuditEvent.subject, ← Option.some.inj hBase', ← Option.some.inj hException']
    rfl

theorem books_map {β : Type} {failed : β → Prop} {f : α → β} {x : Action α}
    (h : x.Safe (auditProtocol name) name (Booked ids world fun a => failed (f a)) world) :
    (f <$> x).Safe (auditProtocol name) name (Booked ids world failed) world := by
  refine Script.Safe.map (h.mono fun outcome later _ hBooked => ?_) trivial
  refine ⟨hBooked.kept, hBooked.inFlight, fun hFailed => hBooked.unchanged fun a hMem => ?_⟩
  exact hFailed (f a) (Option.map_eq_some_iff.mpr ⟨a, hMem, rfl⟩)

theorem books_operationOf (h : Kept ids world) (call : KnowledgeCall) :
    (operationOf ids call).Safe (auditProtocol name) name (Booked ids world KnowledgeResult.persistenceFailed)
      world := by
  obtain ⟨request, now⟩ := call
  cases request with
  | admission request => exact books_map (books_admitOnce h)
  | supersede request => exact books_map (books_supersedeOnce h)
  | register request => exact books_map (books_registerOnce h)
  | transition request => exact books_map (books_transitionOnce h)

end Calls

section Runs

/-- Between two calls: nothing is in flight and the books are kept. -/
structure Settled (ids : KnowledgeIds) (world : KnowledgeWorld) : Prop extends Kept ids world where
  idle : ∀ flight, world.inFlight flight = none

variable {ids : KnowledgeIds} {name : Nat} {world : KnowledgeWorld}

theorem books_serve (h : Settled ids world) (call : KnowledgeCall) :
    (serve ids call).Safe (auditProtocol name) name
      (fun outcome later => Settled ids later ∧
        ((∀ result ∈ outcome, result.persistenceFailed) → later.repository = world.repository)) world := by
  unfold serve
  refine Script.Safe.ask fun start hEq _ fault _ => ?_
  obtain rfl := hEq rfl
  have hEnter : (auditProtocol name).perform name fault (.enter call.request) world =
      some (some (.started world.operations.length), world.start name call.request) := by
    change perform name fault (.enter call.request) world = _
    rw [perform, h.idle]
  rw [hEnter]
  have hKept : Kept ids (world.start name call.request) := ⟨h.keyed, ⟨h.audited.admitted, h.audited.superseded,
    h.audited.excepted, h.audited.retired⟩⟩
  refine ⟨fair_alone _ _, Script.Safe.bind
    (M := fun outcome later => ∃ result, outcome = some result ∧
      Booked ids (world.start name call.request) KnowledgeResult.persistenceFailed result later)
    (Script.Safe.attempt ((books_operationOf hKept call).mono fun outcome _ _ hBooked => ⟨outcome, rfl, hBooked⟩))
    trivial ?_ ?_⟩
  · intro outcome later _ hMid
    obtain ⟨result, hSome, hBooked⟩ := hMid later (fun _ => rfl) trivial
    cases hSome
    refine Script.Safe.ask fun settling hEq _ _ _ => ?_
    obtain rfl := hEq rfl
    refine ⟨fair_alone _ _, Script.Safe.ask fun leaving hEq _ _ _ => ?_⟩
    obtain rfl := hEq rfl
    refine ⟨fair_alone _ _, Script.Safe.ofOption fun last hEq _ => ?_⟩
    obtain rfl := hEq rfl
    refine ⟨⟨⟨hBooked.kept.keyed, ⟨hBooked.kept.audited.admitted, hBooked.kept.audited.superseded,
      hBooked.kept.audited.excepted, hBooked.kept.audited.retired⟩⟩, fun flight => ?_⟩, hBooked.unchanged⟩
    change Function.update later.inFlight call.request.flight none flight = none
    rw [hBooked.inFlight, Function.update_apply]
    split
    · rfl
    · rename_i hOther
      exact (Function.update_of_ne hOther ..).trans (h.idle flight)
  · rintro _ _ ⟨_, hSome, _⟩
    cases hSome

theorem settled_empty (ids : KnowledgeIds) : Settled ids .empty where
  keyed := (sound_empty ids).toKeyed
  audited :=
    { admitted := fun _ _ h => by cases h
      superseded := fun _ _ h => by cases h
      excepted := fun _ _ h => by cases h
      retired := fun _ _ _ h => by cases h }
  idle _ := rfl

/-- What one accountable call does. -/
theorem LoneCall.run_settled (h : Settled ids world) (op : LoneCall) (hOp : op.IsAccountable ids world) :
    ∃ outcome later, op.run ids world = some (outcome, later) ∧ Settled ids later ∧
      ((∀ result ∈ outcome, result.persistenceFailed) → later.repository = world.repository) := by
  have hSafe : (serve ids op.call).Safe (auditProtocol op.name) op.name _ world := books_serve h op.call
  obtain ⟨outcome, later, hRun, _, hPost⟩ := hSafe.play trivial (fun _ _ h => h) hOp
  exact ⟨outcome, later, hRun, hPost⟩

/-- After calls whose writes and appends do not fail behind their backs, every change has its event, and every
further such call ends, without a change if it reports that persistence failed. -/
theorem knowledge_changes_audited {ids : KnowledgeIds} {world : KnowledgeWorld}
    (h : Reaches (LoneCall.step ids) (LoneCall.IsAccountable ids) .empty world) :
    Audited world ∧ ∀ op : LoneCall, op.IsAccountable ids world →
      ∃ outcome later, op.run ids world = some (outcome, later) ∧ Audited later ∧
        ((∀ result ∈ outcome, result.persistenceFailed) → later.repository = world.repository) := by
  have hSettled : Settled ids world := by
    refine h.invariant (settled_empty ids) fun op world hSettled hOp => ?_
    obtain ⟨outcome, later, hRun, hLater, _⟩ := op.run_settled hSettled hOp
    rw [LoneCall.step, hRun]
    exact hLater
  refine ⟨hSettled.audited, fun op hOp => ?_⟩
  obtain ⟨outcome, later, hRun, hLater, hSame⟩ := op.run_settled hSettled hOp
  exact ⟨outcome, later, hRun, hLater.audited, hSame⟩

theorem accountable_of_clean {i : Nat} {fault : Fault} {command : Command} (world : KnowledgeWorld)
    (h : fault = .works ∨ fault = .fails ∧ ¬ command.isAppend) : Accountable i fault command world := by
  intro later hThrows
  have hRead : ∀ {α : Type} (value : α), reading fault value world = some (none, later) →
      later.repository = world.repository := by
    intro _ _ hEq
    rcases h with rfl | ⟨rfl, _⟩ <;> cases hEq
    rfl
  have hWrite : ∀ {α : Type} (written : Except String (α × KnowledgeRepository)),
      writing fault written world = some (none, later) → later.repository = world.repository := by
    intro _ written hEq
    rcases h with rfl | ⟨rfl, _⟩ <;> cases written <;> cases hEq <;> rfl
  cases command with
  | append event =>
    rcases h with rfl | ⟨_, hNot⟩
    · cases hThrows
    · exact absurd trivial hNot
  | enter request =>
    simp only [perform] at hThrows
    split at hThrows <;> cases hThrows
  | join operation =>
    rcases perform_join i fault operation world with hNone | ⟨_, _, _, _, hSome⟩
    · rw [hNone] at hThrows
      cases hThrows
    · rw [hSome] at hThrows
      cases hThrows
  | settle operation outcome => cases hThrows
  | leave flight => cases hThrows
  | getById id => exact ⟨hRead _ hThrows, fun hNot => hNot⟩
  | findByCandidateId id => exact ⟨hRead _ hThrows, fun hNot => hNot⟩
  | findSupersessionByReplacementId id => exact ⟨hRead _ hThrows, fun hNot => hNot⟩
  | findExceptionByKnowledgeId id => exact ⟨hRead _ hThrows, fun hNot => hNot⟩
  | create record => exact ⟨hWrite _ hThrows, fun hNot => hNot⟩
  | supersede prior replacement relationship => exact ⟨hWrite _ hThrows, fun hNot => hNot⟩
  | registerException base exception relationship => exact ⟨hWrite _ hThrows, fun hNot => hNot⟩
  | transitionLifecycle id state => exact ⟨hWrite _ hThrows, fun hNot => hNot⟩

def npmAdmission : KnowledgeCall := admissionOf "npm" .fact (conflictWith "npm" "none" .unrelated)

def cleanAdmission : LoneCall where
  name := 0
  call := npmAdmission
  faults _ _ := .works

/-- The repository refuses the write. -/
def refusedAdmission : LoneCall where
  name := 1
  call := admissionOf "yarn" .fact (conflictWith "yarn" "none" .unrelated)
  faults _ command :=
    match command with
    | .create _ => .fails
    | _ => .works

def afterRefusal : KnowledgeWorld :=
  refusedAdmission.step .default (cleanAdmission.step .default .empty)

theorem knowledge_changes_audited_after_refusal :
    Audited afterRefusal ∧ ∀ op : LoneCall, op.IsAccountable .default afterRefusal →
      ∃ outcome later, op.run .default afterRefusal = some (outcome, later) ∧ Audited later ∧
        ((∀ result ∈ outcome, result.persistenceFailed) → later.repository = afterRefusal.repository) := by
  have hClean : cleanAdmission.IsAccountable .default .empty :=
    Script.within_of_allowed (fun _ _ world => accountable_of_clean world (.inl rfl)) _ _ _
  have hRefused : refusedAdmission.IsAccountable .default (cleanAdmission.step .default .empty) := by
    refine Script.within_of_allowed (fun _ command world => accountable_of_clean world ?_) _ _ _
    cases command with
    | create record => exact .inr ⟨rfl, fun hNot => hNot⟩
    | _ => exact .inl rfl
  exact knowledge_changes_audited (.step _ (.step _ .refl hClean) hRefused)

/-- The ledger refuses the event of the admission. -/
def unauditedAdmission : LoneCall where
  name := 0
  call := npmAdmission
  faults _ command :=
    match command with
    | .append _ => .fails
    | _ => .works

def afterUnaudited : KnowledgeWorld := unauditedAdmission.step .default .empty

/-- The failed admission leaves its record, and the replay reports success for it without any event. -/
theorem unaudited_admission_replayed :
    (unauditedAdmission.run .default .empty).map Prod.fst = some (some (.admission admissionFailed)) ∧
      afterUnaudited.repository ≠ KnowledgeWorld.empty.repository ∧ ¬ Audited afterUnaudited ∧
      ∃ result, (cleanAdmission.run .default afterUnaudited).map Prod.fst = some (some (.admission result)) ∧
        result.status = .admitted ∧ result.reasonCode = .idempotentReplay ∧
        ¬ Audited (cleanAdmission.step .default afterUnaudited) := by
  have hRecord : (afterUnaudited.repository.recordsById "knowledge:npm").isSome = true := by decide +kernel
  have hRecord' : ((cleanAdmission.step .default afterUnaudited).repository.recordsById "knowledge:npm").isSome = true := by
    decide +kernel
  have hNoEvents : afterUnaudited.auditEvents = [] := by decide +kernel
  have hNoEvents' : (cleanAdmission.step .default afterUnaudited).auditEvents = [] := by decide +kernel
  have hNot : ∀ world : KnowledgeWorld, (world.repository.recordsById "knowledge:npm").isSome = true →
      world.auditEvents = [] → ¬ Audited world := by
    intro world hSome hNone hAudited
    obtain ⟨record, hRecord⟩ := Option.isSome_iff_exists.mp hSome
    obtain ⟨event, hMem, _⟩ := hAudited.admitted _ record hRecord
    rw [hNone] at hMem
    cases hMem
  refine ⟨by decide +kernel, fun hSame => ?_, hNot _ hRecord hNoEvents,
    { status := .admitted, reasonCode := .idempotentReplay,
      knowledgeRecord := afterUnaudited.repository.recordsById "knowledge:npm", idempotentReplay := true },
    by decide +kernel, rfl, rfl, hNot _ hRecord' hNoEvents'⟩
  rw [hSame] at hRecord
  cases hRecord

end Runs

end CommandConsole.Knowledge
