import Mathlib.Order.WellFounded
import CommandConsole.Knowledge.RepositoryLaws

/-! # Knowledge lifecycle over overlapping calls

While an operation is in flight under its key, only its own call adds a relationship
under that key. So a call that found none gets back the relationship that it made,
and a call that joins an operation about the same two records gets the right one.
-/
namespace CommandConsole.Knowledge
open Library Relation KnowledgeRepository KnowledgeWorld
set_option autoImplicit false

section Statement

/-- The two records that a request wants to relate. -/
def KnowledgeRequest.related : KnowledgeRequest → Option (String × String)
  | .supersede request => some (request.priorKnowledgeId, request.replacementKnowledgeId)
  | .register request => some (request.baseKnowledgeId, request.exceptionKnowledgeId)
  | _ => none

/-- A result SUPERSEDED or REGISTERED comes with a relationship between the two records of the request. -/
def Answers : KnowledgeRequest → KnowledgeResult → Prop
  | .supersede request, .supersession result => result.status = .superseded →
      ∃ relationship, result.relationship = some relationship ∧
        relationship.priorKnowledgeId = request.priorKnowledgeId ∧
        relationship.replacementKnowledgeId = request.replacementKnowledgeId
  | .register request, .exception result => result.status = .registered →
      ∃ relationship, result.relationship = some relationship ∧
        relationship.baseKnowledgeId = request.baseKnowledgeId ∧
        relationship.exceptionKnowledgeId = request.exceptionKnowledgeId
  | .admission _, .admission _ => True
  | .transition _, .retirement _ => True
  | _, _ => False

def KnowledgeRequest.ofTwoRecords : KnowledgeRequest → Prop
  | .supersede request => request.priorKnowledgeId ≠ request.replacementKnowledgeId
  | _ => True

instance (request : KnowledgeRequest) : Decidable request.ofTwoRecords := by
  unfold KnowledgeRequest.ofTwoRecords
  split <;> infer_instance

/-- The operation in flight under the key of the request, if there is one, is about the same two records. -/
def SharesOnlyItsOwn (request : KnowledgeRequest) (world : KnowledgeWorld) : Prop :=
  ∀ operation ∈ world.inFlight request.flight, ∀ promise ∈ world.operations[operation]?,
    promise.request.related = request.related

instance (request : KnowledgeRequest) (world : KnowledgeWorld) : Decidable (SharesOnlyItsOwn request world) := by
  unfold SharesOnlyItsOwn
  infer_instance

def Orderly (_ : Nat) (_ : Fault) (command : Command) (world : KnowledgeWorld) : Prop :=
  match command with
  | .enter request => request.ofTwoRecords ∧ SharesOnlyItsOwn request world
  | _ => True

instance (i : Nat) (fault : Fault) (command : Command) (world : KnowledgeWorld) :
    Decidable (Orderly i fault command world) := by
  unfold Orderly
  split <;> infer_instance

end Statement

section Protocol

namespace KnowledgeWorld

/-- Call `i` runs the operation that is in flight under the key. -/
def Owns (world : KnowledgeWorld) (i : Nat) (flight : Flight) (operation : Nat) : Prop :=
  world.inFlight flight = some operation ∧ ∃ promise : Operation, world.operations[operation]? = some promise ∧ promise.owner = i

theorem Owns.unique {world : KnowledgeWorld} {i j : Nat} {flight : Flight} {operation operation' : Nat}
    (h : world.Owns i flight operation) (h' : world.Owns j flight operation') : i = j := by
  obtain ⟨hFlight, promise, hPromise, rfl⟩ := h
  obtain ⟨hFlight', promise', hPromise', rfl⟩ := h'
  obtain rfl := Option.some.inj (hFlight.symm.trans hFlight')
  rw [Option.some.inj (hPromise.symm.trans hPromise')]

/-- Promises keep their call and request, and their outcome once they have one. -/
def Grows (operations later : List Operation) : Prop :=
  ∀ (operation : Nat) (promise : Operation), operations[operation]? = some promise →
    ∃ promise' : Operation, later[operation]? = some promise' ∧ promise'.owner = promise.owner ∧
      promise'.request = promise.request ∧ ∀ outcome, promise.outcome = some outcome → promise'.outcome = some outcome

theorem Grows.refl (operations : List Operation) : Grows operations operations :=
  fun _ promise hPromise => ⟨promise, hPromise, rfl, rfl, fun _ h => h⟩

theorem Grows.trans {operations later last : List Operation} (h : Grows operations later) (h' : Grows later last) :
    Grows operations last := by
  intro operation promise hPromise
  obtain ⟨promise', hPromise', hOwner, hRequest, hOutcome⟩ := h operation promise hPromise
  obtain ⟨promise'', hPromise'', hOwner', hRequest', hOutcome'⟩ := h' operation promise' hPromise'
  exact ⟨promise'', hPromise'', hOwner'.trans hOwner, hRequest'.trans hRequest,
    fun outcome h => hOutcome' outcome (hOutcome outcome h)⟩

theorem Grows.append (operations : List Operation) (promise : Operation) : Grows operations (operations ++ [promise]) :=
  fun _ promise' hPromise => ⟨promise', by rw [List.getElem?_append_left (List.getElem?_eq_some_iff.mp hPromise).1,
    hPromise], rfl, rfl, fun _ h => h⟩

theorem Grows.settle (operations : List Operation) (operation : Nat) (outcome : Option KnowledgeResult) :
    Grows operations (operations.modify operation fun promise => promise.settle outcome) := by
  intro other promise hPromise
  rw [List.getElem?_modify, hPromise]
  by_cases hSame : operation = other
  · refine ⟨promise.settle outcome, by simp [hSame], rfl, rfl, fun outcome' h => ?_⟩
    rw [Operation.settle, h]
    rfl
  · exact ⟨promise, by simp [hSame], rfl, rfl, fun _ h => h⟩

end KnowledgeWorld

/-- What call `i` relies on: the relationships under the keys that it runs are its own. -/
structure LeavesAlone (i : Nat) (world later : KnowledgeWorld) : Prop where
  promises : Grows world.operations later.operations
  flights : ∀ flight operation, world.Owns i flight operation → later.inFlight flight = some operation
  supersessions : ∀ id operation, world.Owns i (.supersession id) operation →
    later.repository.supersessionsByReplacementId id = world.repository.supersessionsByReplacementId id
  exceptions : ∀ id operation, world.Owns i (.exception id) operation →
    later.repository.exceptionsByKnowledgeId id = world.repository.exceptionsByKnowledgeId id
  ages : Ages world.repository later.repository

theorem LeavesAlone.refl (i : Nat) (world : KnowledgeWorld) : LeavesAlone i world world :=
  ⟨Grows.refl _, fun _ _ h => h.1, fun _ _ _ => rfl, fun _ _ _ => rfl, Ages.refl _⟩

theorem LeavesAlone.owns {i : Nat} {world later : KnowledgeWorld} (h : LeavesAlone i world later) {flight : Flight}
    {operation : Nat} (hOwns : world.Owns i flight operation) : later.Owns i flight operation := by
  refine ⟨h.flights flight operation hOwns, ?_⟩
  obtain ⟨_, promise, hPromise, hOwner⟩ := hOwns
  obtain ⟨promise', hPromise', hOwner', _⟩ := h.promises operation promise hPromise
  exact ⟨promise', hPromise', hOwner'.trans hOwner⟩

theorem LeavesAlone.trans {i : Nat} {world later last : KnowledgeWorld} (h : LeavesAlone i world later)
    (h' : LeavesAlone i later last) : LeavesAlone i world last where
  promises := h.promises.trans h'.promises
  flights flight operation hOwns := h'.flights flight operation (h.owns hOwns)
  supersessions id operation hOwns :=
    (h'.supersessions id operation (h.owns hOwns)).trans (h.supersessions id operation hOwns)
  exceptions id operation hOwns := (h'.exceptions id operation (h.owns hOwns)).trans (h.exceptions id operation hOwns)
  ages := h.ages.trans h'.ages

structure Coherent (ids : KnowledgeIds) (world : KnowledgeWorld) : Prop where
  repository : Sound ids world.repository
  flying : ∀ flight operation, world.inFlight flight = some operation →
    ∃ promise : Operation, world.operations[operation]? = some promise ∧ promise.request.flight = flight
  settled : ∀ promise ∈ world.operations, ∀ result, promise.outcome = some (some result) →
    Answers promise.request result

def lifecycleProtocol (ids : KnowledgeIds) : Protocol Command Command.Answer Fault KnowledgeWorld where
  perform := perform
  MayWait _ _ := True
  Allowed := Orderly
  Inv := Coherent ids
  Rely := LeavesAlone
  rely_refl := LeavesAlone.refl
  rely_trans _ _ _ _ := LeavesAlone.trans

end Protocol

section Rules

/-- Call `i` runs the operation for the request. -/
structure Runs (world : KnowledgeWorld) (i operation : Nat) (request : KnowledgeRequest) : Prop where
  flight : world.inFlight request.flight = some operation
  promise : ∃ promise : Operation, world.operations[operation]? = some promise ∧ promise.owner = i ∧
    promise.request = request

/-- The call still runs its operation, and what it returns is as `Q` says. -/
def Returns {α : Type} (i operation : Nat) (request : KnowledgeRequest) (Q : α → Prop) (outcome : Option α)
    (world : KnowledgeWorld) : Prop :=
  Runs world i operation request ∧ ∀ a ∈ outcome, Q a

variable {ids : KnowledgeIds} {i operation : Nat} {request : KnowledgeRequest} {world later : KnowledgeWorld}
  {α : Type} {Q : α → Prop}

theorem Runs.owns (h : Runs world i operation request) : world.Owns i request.flight operation := by
  obtain ⟨promise, hPromise, hOwner, _⟩ := h.promise
  exact ⟨h.flight, promise, hPromise, hOwner⟩

theorem Runs.stable (h : Runs world i operation request) (hLater : LeavesAlone i world later) :
    Runs later i operation request := by
  refine ⟨hLater.flights _ _ h.owns, ?_⟩
  obtain ⟨promise, hPromise, hOwner, hRequest⟩ := h.promise
  obtain ⟨promise', hPromise', hOwner', hRequest', _⟩ := hLater.promises _ _ hPromise
  exact ⟨promise', hPromise', hOwner'.trans hOwner, hRequest'.trans hRequest⟩

theorem Runs.write (h : Runs world i operation request) (repository : KnowledgeRepository) :
    Runs { world with repository } i operation request := ⟨h.flight, h.promise⟩

theorem fair_write (hInv : Coherent ids world) {repository : KnowledgeRepository} {supersession exception : String → Prop}
    (hKeeps : Keeps ids world.repository repository supersession exception)
    (hSup : ∀ id, supersession id → ∃ operation, world.Owns i (.supersession id) operation)
    (hExc : ∀ id, exception id → ∃ operation, world.Owns i (.exception id) operation) :
    Script.Fair (lifecycleProtocol ids) i world { world with repository } := by
  refine ⟨⟨hKeeps.sound, hInv.flying, hInv.settled⟩, fun j hNe => ?_⟩
  refine ⟨Grows.refl _, fun _ _ h => h.1, fun id operation hOwns => ?_, fun id operation hOwns => ?_, hKeeps.ages⟩
  · rcases hKeeps.supersessions id with hMine | hSame
    · obtain ⟨_, hMine⟩ := hSup id hMine
      exact absurd (hOwns.unique hMine) hNe
    · exact hSame
  · rcases hKeeps.exceptions id with hMine | hSame
    · obtain ⟨_, hMine⟩ := hExc id hMine
      exact absurd (hOwns.unique hMine) hNe
    · exact hSame

theorem fair_record (hInv : Coherent ids world) (event : KnowledgeAuditEvent) :
    Script.Fair (lifecycleProtocol ids) i world (world.record event) :=
  ⟨⟨hInv.repository, hInv.flying, hInv.settled⟩,
    fun _ _ => ⟨Grows.refl _, fun _ _ h => h.1, fun _ _ _ => rfl, fun _ _ _ => rfl, Ages.refl _⟩⟩

theorem safe_return (hRuns : Runs world i operation request) {a : α} (hQ : Q a) :
    (pure a : Action α).Safe (lifecycleProtocol ids) i (Returns i operation request Q) world :=
  fun _ hLater _ => ⟨hRuns.stable hLater, fun b hMem => by cases hMem; exact hQ⟩

theorem returns_none (hRuns : Runs world i operation request) : Returns i operation request Q none world :=
  ⟨hRuns, fun _ hMem => by cases hMem⟩

/-- A command that reads the repository. -/
theorem safe_read (hRuns : Runs world i operation request) {command : Command} {f : command.Answer → Action α}
    (value : KnowledgeWorld → command.Answer)
    (hPerform : ∀ fault world, perform i fault command world = reading fault (value world) world)
    (hNext : ∀ later, Coherent ids later → Runs later i operation request →
      (f (value later)).Safe (lifecycleProtocol ids) i (Returns i operation request Q) later) :
    (Script.ask command >>= f).Safe (lifecycleProtocol ids) i (Returns i operation request Q) world := by
  refine Script.Safe.ask fun later hLater hInv fault _ => ?_
  have hRuns' := hRuns.stable hLater
  have hSame : Script.Fair (lifecycleProtocol ids) i later later := ⟨hInv, fun j _ => LeavesAlone.refl j later⟩
  have hEq : (lifecycleProtocol ids).perform i fault command later = _ := hPerform fault later
  rw [hEq]
  cases fault with
  | works => exact ⟨hSame, hNext later hInv hRuns'⟩
  | fails => exact ⟨hSame, fun _ hLast _ => returns_none (hRuns'.stable hLast)⟩
  | failsAfter => exact ⟨hSame, fun _ hLast _ => returns_none (hRuns'.stable hLast)⟩

/-- A command that writes the repository, with or without saying so. -/
theorem safe_write (hRuns : Runs world i operation request) {command : Command} {f : command.Answer → Action α}
    (written : KnowledgeWorld → Except String (command.Answer × KnowledgeRepository))
    (hPerform : ∀ fault world, perform i fault command world = writing fault (written world) world)
    (hNext : ∀ later answer repository, LeavesAlone i world later → Coherent ids later →
      Runs later i operation request → written later = .ok (answer, repository) →
      Script.Fair (lifecycleProtocol ids) i later { later with repository } ∧
      (f answer).Safe (lifecycleProtocol ids) i (Returns i operation request Q) { later with repository }) :
    (Script.ask command >>= f).Safe (lifecycleProtocol ids) i (Returns i operation request Q) world := by
  refine Script.Safe.ask fun later hLater hInv fault _ => ?_
  have hRuns' := hRuns.stable hLater
  have hSame : Script.Fair (lifecycleProtocol ids) i later later := ⟨hInv, fun j _ => LeavesAlone.refl j later⟩
  have hEq : (lifecycleProtocol ids).perform i fault command later = _ := hPerform fault later
  rw [hEq]
  cases hWritten : written later with
  | error _ =>
    cases fault <;> exact ⟨hSame, fun _ hLast _ => returns_none (hRuns'.stable hLast)⟩
  | ok result =>
    obtain ⟨answer, repository⟩ := result
    obtain ⟨hFair, hSafe⟩ := hNext later answer repository hLater hInv hRuns' hWritten
    have hRuns'' := hRuns'.write repository
    cases fault with
    | works => exact ⟨hFair, hSafe⟩
    | fails => exact ⟨hSame, fun _ hLast _ => returns_none (hRuns'.stable hLast)⟩
    | failsAfter => exact ⟨hFair, fun _ hLast _ => returns_none (hRuns''.stable hLast)⟩

theorem safe_append (hRuns : Runs world i operation request) {event : KnowledgeAuditEvent}
    {f : KnowledgeAuditEvent → Action α}
    (hNext : ∀ later, Runs later i operation request →
      (f event).Safe (lifecycleProtocol ids) i (Returns i operation request Q) later) :
    (Script.ask (Command.append event) >>= f).Safe (lifecycleProtocol ids) i (Returns i operation request Q) world := by
  refine Script.Safe.ask fun later hLater hInv fault _ => ?_
  have hRuns' := hRuns.stable hLater
  have hRuns'' : Runs (later.record event) i operation request := ⟨hRuns'.flight, hRuns'.promise⟩
  have hEq : (lifecycleProtocol ids).perform i fault (.append event) later = appending fault event later := rfl
  rw [hEq]
  cases fault with
  | works => exact ⟨fair_record hInv event, hNext _ hRuns''⟩
  | fails =>
    exact ⟨⟨hInv, fun j _ => LeavesAlone.refl j later⟩, fun _ hLast _ => returns_none (hRuns'.stable hLast)⟩
  | failsAfter => exact ⟨fair_record hInv event, fun _ hLast _ => returns_none (hRuns''.stable hLast)⟩

theorem safe_failedUnless (hInv : Coherent ids world) {failed : α} (hFailed : Q failed) {body : Action α}
    (h : body.Safe (lifecycleProtocol ids) i (Returns i operation request Q) world) :
    (failedUnless failed body).Safe (lifecycleProtocol ids) i (Returns i operation request Q) world := by
  refine Script.Safe.bind
    (M := fun outcome world => ∃ result, outcome = some result ∧ Returns i operation request Q result world)
    (Script.Safe.attempt (h.mono fun outcome _ _ hReturns => ⟨outcome, rfl, hReturns⟩)) hInv ?_ ?_
  · intro outcome later hInv' hMid later' hLater' hInv''
    obtain ⟨result, hSome, hRuns, hQ⟩ := hMid later' hLater' hInv''
    cases hSome
    refine ⟨hRuns, fun a hMem => ?_⟩
    cases hMem
    cases outcome with
    | none => exact hFailed
    | some b => exact hQ b rfl
  · rintro later _ ⟨_, hSome, _⟩
    cases hSome

end Rules

section Operations

variable {ids : KnowledgeIds} {i operation : Nat} {world : KnowledgeWorld} {now : String}

theorem safe_admitOnce {request : KnowledgeAdmissionRequest} {asked : KnowledgeRequest} (hRuns : Runs world i operation asked) :
    (admitOnce ids now request).Safe (lifecycleProtocol ids) i (Returns i operation asked fun _ => True) world := by
  unfold admitOnce
  split
  · exact safe_return hRuns trivial
  · refine safe_read hRuns (fun world => world.repository.recordsByCandidateId _) (fun _ _ => rfl)
      fun later hInv hRuns => ?_
    split
    · exact safe_return hRuns trivial
    · refine safe_failedUnless hInv trivial (safe_write hRuns (fun world => .ok (world.repository.create _))
        (fun _ _ => rfl) fun last persisted repository _ hInv hRuns hOk => ?_)
      obtain rfl : (last.repository.create _).2 = repository := congrArg Prod.snd (Except.ok.inj hOk)
      exact ⟨fair_write hInv (hInv.repository.create rfl) (fun _ hNot => hNot.elim) (fun _ hNot => hNot.elim),
        safe_append (hRuns.write _) fun _ hRuns => safe_return hRuns trivial⟩

theorem safe_transitionOnce {request : KnowledgeRetirementRequest} {asked : KnowledgeRequest}
    (hRuns : Runs world i operation asked) :
    (transitionOnce ids now request).Safe (lifecycleProtocol ids) i (Returns i operation asked fun _ => True)
      world := by
  unfold transitionOnce
  refine safe_read hRuns (fun world => world.repository.recordsById _) (fun _ _ => rfl) fun later hInv hRuns => ?_
  split
  · exact safe_return hRuns trivial
  · refine .ite (fun _ => safe_return hRuns trivial) fun _ => .ite (fun _ => safe_return hRuns trivial) fun _ =>
      .ite (fun _ => safe_return hRuns trivial) fun _ => .ite (fun _ => safe_return hRuns trivial) fun _ => ?_
    refine safe_failedUnless hInv trivial (safe_write hRuns (fun world => world.repository.transitionLifecycle _ _)
      (fun _ _ => rfl) fun last transition repository _ hInv hRuns hOk => ?_)
    exact ⟨fair_write hInv (hInv.repository.transitionLifecycle hOk) (fun _ hNot => hNot.elim)
        (fun _ hNot => hNot.elim),
      safe_append (hRuns.write repository) fun _ hRuns => safe_return hRuns trivial⟩

/-- A result that is not SUPERSEDED needs no relationship. -/
theorem answers_rejected {request : KnowledgeSupersessionRequest} (reasonCode : KnowledgeSupersessionReasonCode) :
    Answers (.supersede request) (.supersession (supersessionRejected reasonCode)) := fun h => by cases h

theorem safe_supersedeOnce {request : KnowledgeSupersessionRequest}
    (hTwo : request.priorKnowledgeId ≠ request.replacementKnowledgeId)
    (hRuns : Runs world i operation (.supersede request)) :
    (supersedeOnce ids now request).Safe (lifecycleProtocol ids) i
      (Returns i operation (.supersede request) fun result => Answers (.supersede request) (.supersession result))
      world := by
  unfold supersedeOnce
  refine safe_read hRuns (fun world => world.repository.recordsById _) (fun _ _ => rfl) fun first hInv hRuns => ?_
  split
  · exact safe_return hRuns (answers_rejected _)
  rename_i prior hPrior
  have hPriorId := (hInv.repository.byId _ prior hPrior).1
  refine safe_read hRuns (fun world => world.repository.recordsById _) (fun _ _ => rfl) fun second hInv hRuns => ?_
  split
  · exact safe_return hRuns (answers_rejected _)
  rename_i replacement hReplacement
  have hReplacementId := (hInv.repository.byId _ replacement hReplacement).1
  refine safe_read hRuns (fun world => world.repository.supersessionsByReplacementId _) (fun _ _ => rfl)
    fun third hInv hRuns => ?_
  split
  · rename_i existing hExisting
    refine .ite (fun _ => safe_return hRuns (answers_rejected _)) fun hSame => safe_return hRuns fun _ => ?_
    exact ⟨existing, rfl, Classical.not_not.mp hSame, hInv.repository.filed _ existing hExisting⟩
  rename_i hNone
  split
  · exact safe_return hRuns (answers_rejected _)
  refine safe_failedUnless hInv (fun h => by cases h) (safe_write hRuns
    (fun world => world.repository.supersede _ _ _) (fun _ _ => rfl)
    fun fourth transition repository hLater hInv hRuns' hOk => ?_)
  have hNe : prior.knowledgeId ≠ replacement.knowledgeId := by rwa [hPriorId, hReplacementId]
  have hKeeps : Keeps ids fourth.repository repository (· = replacement.knowledgeId) (fun _ => False) := by
    refine Sound.supersede hInv.repository ?_ ?_ hNe hOk
    · rfl
    · rfl
  -- nobody else has added a relationship under the key since the call found none
  have hStill : fourth.repository.supersessionsByReplacementId replacement.knowledgeId = none := by
    rw [hReplacementId, hLater.supersessions _ operation hRuns.owns, hNone]
  have hMade : transition.relationship = supersessionOf ids now request prior replacement := by
    rcases supersede_eq_ok hOk with ⟨hOld, _⟩ | ⟨_, _, _, _, _, _, _, rfl, _⟩
    · rw [hStill] at hOld
      cases hOld
    · rfl
  refine ⟨fair_write hInv hKeeps (fun id hSame => ⟨operation, ?_⟩) (fun _ hNot => hNot.elim),
    safe_append (hRuns'.write repository) fun _ hRuns => safe_return hRuns fun _ => ?_⟩
  · rw [hSame, hReplacementId]
    exact hRuns'.owns
  · exact ⟨_, rfl, hMade ▸ hPriorId, hMade ▸ hReplacementId⟩

theorem answers_exceptionRejected {request : KnowledgeExceptionRegistrationRequest}
    (reasonCode : KnowledgeExceptionReasonCode) :
    Answers (.register request) (.exception (exceptionRejected reasonCode)) := fun h => by cases h

theorem safe_registerOnce {request : KnowledgeExceptionRegistrationRequest}
    (hRuns : Runs world i operation (.register request)) :
    (registerOnce ids now request).Safe (lifecycleProtocol ids) i
      (Returns i operation (.register request) fun result => Answers (.register request) (.exception result))
      world := by
  unfold registerOnce
  refine safe_read hRuns (fun world => world.repository.recordsById _) (fun _ _ => rfl) fun first hInv hRuns => ?_
  split
  · exact safe_return hRuns (answers_exceptionRejected _)
  rename_i base hBase
  have hBaseId := (hInv.repository.byId _ base hBase).1
  refine safe_read hRuns (fun world => world.repository.recordsById _) (fun _ _ => rfl) fun second hInv hRuns => ?_
  split
  · exact safe_return hRuns (answers_exceptionRejected _)
  rename_i exception hException
  have hExceptionId := (hInv.repository.byId _ exception hException).1
  refine safe_read hRuns (fun world => world.repository.exceptionsByKnowledgeId _) (fun _ _ => rfl)
    fun third hInv hRuns => ?_
  split
  · rename_i existing hExisting
    refine .ite (fun _ => safe_return hRuns (answers_exceptionRejected _)) fun hSame => safe_return hRuns fun _ => ?_
    exact ⟨existing, rfl, Classical.not_not.mp hSame, hInv.repository.filedException _ existing hExisting⟩
  rename_i hNone
  split
  · exact safe_return hRuns (answers_exceptionRejected _)
  refine safe_failedUnless hInv (fun h => by cases h) (safe_write hRuns
    (fun world => world.repository.registerException _ _ _) (fun _ _ => rfl)
    fun fourth registration repository hLater hInv hRuns' hOk => ?_)
  have hStill : fourth.repository.exceptionsByKnowledgeId exception.knowledgeId = none := by
    rw [hExceptionId, hLater.exceptions _ operation hRuns.owns, hNone]
  have hMade : registration.relationship = exceptionOf ids now request base exception := by
    rcases registerException_eq_ok hOk with ⟨hOld, _⟩ | ⟨_, hNew, _⟩
    · rw [hStill] at hOld
      cases hOld
    · exact hNew
  have hKeeps : Keeps ids fourth.repository repository (fun _ => False) (· = exception.knowledgeId) := by
    refine Sound.registerException hInv.repository ?_ hOk
    rfl
  refine ⟨fair_write hInv hKeeps (fun _ hNot => hNot.elim) (fun id hSame => ⟨operation, ?_⟩),
    safe_append (hRuns'.write repository) fun _ hRuns => safe_return hRuns fun _ => ?_⟩
  · rw [hSame, hExceptionId]
    exact hRuns'.owns
  · exact ⟨_, rfl, hMade ▸ hBaseId, hMade ▸ hExceptionId⟩

theorem safe_map {α β : Type} {request : KnowledgeRequest} {Q : α → Prop} {P : β → Prop} {f : α → β} {x : Action α}
    (hInv : Coherent ids world)
    (h : x.Safe (lifecycleProtocol ids) i (Returns i operation request Q) world) (hQ : ∀ a, Q a → P (f a)) :
    (f <$> x).Safe (lifecycleProtocol ids) i (Returns i operation request P) world := by
  refine Script.Safe.map (h.mono ?_) hInv
  rintro outcome later _ ⟨hRuns, hAll⟩
  refine ⟨hRuns, fun b hMem => ?_⟩
  obtain ⟨a, hSome, rfl⟩ := Option.map_eq_some_iff.mp hMem
  exact hQ a (hAll a hSome)

theorem safe_operationOf {call : KnowledgeCall} (hInv : Coherent ids world) (hTwo : call.request.ofTwoRecords)
    (hRuns : Runs world i operation call.request) :
    (operationOf ids call).Safe (lifecycleProtocol ids) i
      (Returns i operation call.request (Answers call.request)) world := by
  obtain ⟨request, now⟩ := call
  cases request with
  | admission request => exact safe_map hInv (safe_admitOnce hRuns) fun _ _ => trivial
  | supersede request => exact safe_map hInv (safe_supersedeOnce hTwo hRuns) fun _ h => h
  | register request => exact safe_map hInv (safe_registerOnce hRuns) fun _ h => h
  | transition request => exact safe_map hInv (safe_transitionOnce hRuns) fun _ _ => trivial

end Operations

section Sharing

variable {ids : KnowledgeIds} {i operation : Nat} {request : KnowledgeRequest} {world : KnowledgeWorld}

theorem Answers.of_related {request' : KnowledgeRequest} {result : KnowledgeResult}
    (h : Answers request' result) (hFlight : request'.flight = request.flight)
    (hRelated : request'.related = request.related) : Answers request result := by
  cases request' with
  | admission _ =>
    cases request with
    | admission _ => cases result <;> exact h
    | _ => cases hFlight
  | transition _ =>
    cases request with
    | transition _ => cases result <;> exact h
    | _ => cases hFlight
  | supersede asked =>
    cases request with
    | supersede _ =>
      obtain ⟨hPrior, hReplacement⟩ := Prod.mk.inj (Option.some.inj hRelated)
      cases result with
      | supersession _ =>
        rw [Answers, ← hPrior, ← hReplacement]
        exact h
      | _ => exact h
    | _ => cases hFlight
  | register asked =>
    cases request with
    | register _ =>
      obtain ⟨hBase, hException⟩ := Prod.mk.inj (Option.some.inj hRelated)
      cases result with
      | exception _ =>
        rw [Answers, ← hBase, ← hException]
        exact h
      | _ => exact h
    | _ => cases hFlight

theorem fair_start (hInv : Coherent ids world) (hFree : world.inFlight request.flight = none) :
    Script.Fair (lifecycleProtocol ids) i world (world.start i request) := by
  have hGrows := Grows.append world.operations ⟨i, request, none⟩
  refine ⟨⟨hInv.repository, fun flight operation hFlight => ?_, fun promise hMem result hResult => ?_⟩,
    fun j _ => ⟨hGrows, fun flight operation hOwns => ?_, fun _ _ _ => rfl, fun _ _ _ => rfl, Ages.refl _⟩⟩
  · dsimp only [start] at hFlight
    rw [Function.update_apply] at hFlight
    split at hFlight
    · rename_i hSame
      cases hFlight
      exact ⟨⟨i, request, none⟩, List.getElem?_concat_length, hSame.symm⟩
    · obtain ⟨promise, hPromise, hKey⟩ := hInv.flying flight operation hFlight
      obtain ⟨promise', hPromise', _, hRequest, _⟩ := hGrows operation promise hPromise
      exact ⟨promise', hPromise', hRequest ▸ hKey⟩
  · rcases List.mem_append.mp hMem with hOld | hNew
    · exact hInv.settled promise hOld result hResult
    · obtain rfl := List.mem_singleton.mp hNew
      cases hResult
  · have hOld := hOwns.1
    refine (Function.update_of_ne ?_ ..).trans hOld
    rintro rfl
    rw [hFree] at hOld
    cases hOld

theorem runs_start (world : KnowledgeWorld) (i : Nat) (request : KnowledgeRequest) :
    Runs (world.start i request) i world.operations.length request :=
  ⟨Function.update_self .., ⟨i, request, none⟩, List.getElem?_concat_length, rfl, rfl⟩

theorem fair_settle (hInv : Coherent ids world) (hRuns : Runs world i operation request)
    {outcome : Option KnowledgeResult} (hAnswers : ∀ result ∈ outcome, Answers request result) :
    Script.Fair (lifecycleProtocol ids) i world (world.settle operation outcome) := by
  have hGrows := Grows.settle world.operations operation outcome
  refine ⟨⟨hInv.repository, fun flight other hFlight => ?_, fun promise hMem result hResult => ?_⟩,
    fun j _ => ⟨hGrows, fun _ _ h => h.1, fun _ _ _ => rfl, fun _ _ _ => rfl, Ages.refl _⟩⟩
  · obtain ⟨promise, hPromise, hKey⟩ := hInv.flying flight other hFlight
    obtain ⟨promise', hPromise', _, hRequest, _⟩ := hGrows other promise hPromise
    exact ⟨promise', hPromise', hRequest ▸ hKey⟩
  · obtain ⟨other, hOther⟩ := List.mem_iff_getElem?.mp hMem
    rw [settle, List.getElem?_modify] at hOther
    obtain ⟨old, hOld, hEq⟩ := Option.map_eq_some_iff.mp hOther
    have hSettled := hInv.settled old (List.mem_of_getElem? hOld)
    split at hEq
    · rename_i hSame
      subst hSame
      obtain ⟨mine, hMine, _, hRequest⟩ := hRuns.promise
      obtain rfl := Option.some.inj (hOld.symm.trans hMine)
      rw [← hEq] at hResult ⊢
      cases hOutcome : old.outcome with
      | some settled =>
        rw [Operation.settle, hOutcome] at hResult
        exact hSettled result (hOutcome.trans hResult)
      | none =>
        rw [Operation.settle, hOutcome] at hResult
        exact hRequest.symm ▸ hAnswers result (Option.some.inj hResult)
    · obtain rfl : old = promise := hEq
      exact hSettled result hResult

theorem Runs.settle (h : Runs world i operation request) (outcome : Option KnowledgeResult) :
    Runs (world.settle operation outcome) i operation request := by
  obtain ⟨promise, hPromise, hOwner, hRequest⟩ := h.promise
  obtain ⟨promise', hPromise', hOwner', hRequest', _⟩ :=
    Grows.settle world.operations operation outcome operation promise hPromise
  exact ⟨h.flight, promise', hPromise', hOwner'.trans hOwner, hRequest'.trans hRequest⟩

theorem fair_leave (hInv : Coherent ids world) (hRuns : Runs world i operation request) :
    Script.Fair (lifecycleProtocol ids) i world (world.leave request.flight) := by
  refine ⟨⟨hInv.repository, fun flight other hFlight => ?_, hInv.settled⟩,
    fun j hNe => ⟨Grows.refl _, fun flight other hOwns => ?_, fun _ _ _ => rfl, fun _ _ _ => rfl, Ages.refl _⟩⟩
  · dsimp only [leave] at hFlight
    rw [Function.update_apply] at hFlight
    split at hFlight
    · cases hFlight
    · exact hInv.flying flight other hFlight
  · refine (Function.update_of_ne ?_ ..).trans hOwns.1
    rintro rfl
    exact hNe (hOwns.unique hRuns.owns)

theorem perform_join (i : Nat) (fault : Fault) (operation : Nat) (world : KnowledgeWorld) :
    perform i fault (.join operation) world = none ∨
    ∃ (promise : Operation) (outcome : Option KnowledgeResult), world.operations[operation]? = some promise ∧
      promise.outcome = some outcome ∧ perform i fault (.join operation) world = some (some outcome, world) := by
  simp only [perform]
  split
  · rename_i owner request outcome hPromise
    exact .inr ⟨_, outcome, hPromise, rfl, rfl⟩
  · exact .inl rfl

theorem safe_serve (ids : KnowledgeIds) (i : Nat) (call : KnowledgeCall) (world : KnowledgeWorld) :
    (serve ids call).Safe (lifecycleProtocol ids) i (fun outcome _ => ∀ result ∈ outcome, Answers call.request result)
      world := by
  unfold serve
  refine Script.Safe.ask fun later _ hInv fault hOrderly => ?_
  obtain ⟨hTwo, hShares⟩ : call.request.ofTwoRecords ∧ SharesOnlyItsOwn call.request later := hOrderly
  cases hFlight : later.inFlight call.request.flight with
  | some operation =>
    have hEnter : (lifecycleProtocol ids).perform i fault (.enter call.request) later =
        some (some (.joined operation), later) := by
      change perform i fault (.enter call.request) later = _
      rw [perform, hFlight]
    rw [hEnter]
    refine ⟨⟨hInv, fun j _ => LeavesAlone.refl j later⟩, Script.Safe.ask fun last hLast hInv' fault' _ => ?_⟩
    obtain ⟨promise, hPromise, hKey⟩ := hInv.flying _ operation hFlight
    have hRelated := hShares operation hFlight promise hPromise
    rcases perform_join i fault' operation last with hJoin | ⟨settled, outcome, hSettled, hOutcome, hJoin⟩
    · rw [show (lifecycleProtocol ids).perform i fault' (.join operation) last = _ from hJoin]
      trivial
    · rw [show (lifecycleProtocol ids).perform i fault' (.join operation) last = _ from hJoin]
      refine ⟨⟨hInv', fun j _ => LeavesAlone.refl j last⟩, Script.Safe.ofOption fun _ _ _ result hMem => ?_⟩
      obtain ⟨promise', hPromise', _, hRequest, _⟩ := hLast.promises operation promise hPromise
      obtain rfl := Option.some.inj (hSettled.symm.trans hPromise')
      obtain rfl : outcome = some result := hMem
      exact (hInv'.settled settled (List.mem_of_getElem? hSettled) result hOutcome).of_related
        (hRequest ▸ hKey) (hRequest ▸ hRelated)
  | none =>
    have hEnter : (lifecycleProtocol ids).perform i fault (.enter call.request) later =
        some (some (.started later.operations.length), later.start i call.request) := by
      change perform i fault (.enter call.request) later = _
      rw [perform, hFlight]
    rw [hEnter]
    have hFair := fair_start (i := i) hInv hFlight
    refine ⟨hFair, Script.Safe.bind
      (M := fun outcome world => ∃ result, outcome = some result ∧
        Returns i later.operations.length call.request (Answers call.request) result world)
      (Script.Safe.attempt ((safe_operationOf hFair.1 hTwo (runs_start later i call.request)).mono
        fun outcome _ _ hReturns => ⟨outcome, rfl, hReturns⟩)) hFair.1 ?_ ?_⟩
    · intro outcome next hInv hMid
      have hHere : Runs next i later.operations.length call.request ∧
          ∀ result ∈ outcome, Answers call.request result := by
        obtain ⟨result, hSome, hReturns⟩ := hMid next (LeavesAlone.refl i next) hInv
        cases hSome
        exact hReturns
      refine Script.Safe.ask fun settling hLater hInv _ _ => ?_
      have hRuns := hHere.1.stable hLater
      refine ⟨fair_settle hInv hRuns hHere.2, Script.Safe.ask fun leaving hLater hInv _ _ => ?_⟩
      have hRuns := (hRuns.settle outcome).stable hLater
      exact ⟨fair_leave hInv hRuns, Script.Safe.ofOption fun _ _ _ => hHere.2⟩
    · rintro _ _ ⟨_, hSome, _⟩
      cases hSome

end Sharing

section Runs

abbrev KnowledgeScene := Scene KnowledgeCall Command Command.Answer KnowledgeResult KnowledgeWorld

def knowledgeStep (ids : KnowledgeIds) (turn : SceneTurn KnowledgeCall Fault) (scene : KnowledgeScene) :
    KnowledgeScene := Scene.step perform (serve ids) turn scene

/-- Every supersession is about two records, and a call joins only an operation about its own two records. -/
def OrderlyTurn (turn : SceneTurn KnowledgeCall Fault) (scene : KnowledgeScene) : Prop := scene.Allows Orderly turn

instance (turn : SceneTurn KnowledgeCall Fault) (scene : KnowledgeScene) : Decidable (OrderlyTurn turn scene) :=
  inferInstanceAs (Decidable (scene.Allows Orderly turn))

structure LifecycleHolds (repository : KnowledgeRepository) : Prop where
  priorOnce : ∀ replacement replacement' prior, repository.Supersedes replacement prior →
    repository.Supersedes replacement' prior → replacement = replacement'
  priorSuperseded : ∀ replacement prior, repository.Supersedes replacement prior →
    repository.HasState prior .superseded
  priorsEnd : WellFounded fun prior replacement => repository.Supersedes replacement prior
  replacementsEnd : WellFounded fun replacement prior => repository.Supersedes replacement prior
  noReturn : ∀ id, ¬ TransGen repository.Supersedes id id
  sameById : ∀ id record, repository.recordsById id = some record →
    record.knowledgeId = id ∧ repository.recordsByCandidateId record.candidateId = some record
  sameByCandidate : ∀ candidateId record, repository.recordsByCandidateId candidateId = some record →
    record.candidateId = candidateId ∧ repository.recordsById record.knowledgeId = some record

theorem KnowledgeRepository.Sound.holds {ids : KnowledgeIds} {repository : KnowledgeRepository}
    (h : Sound ids repository) : LifecycleHolds repository where
  priorOnce := h.once
  priorSuperseded := h.superseded
  priorsEnd := h.priorsEnd
  replacementsEnd := h.replacementsEnd
  noReturn id hCycle := h.replacementsEnd.transGen.irrefl.irrefl id hCycle
  sameById := h.byId
  sameByCandidate := h.byCandidate

theorem coherent_empty (ids : KnowledgeIds) : Coherent ids .empty where
  repository := sound_empty ids
  flying _ _ h := by cases h
  settled _ h := by cases h

instance : Std.Refl fun world later : KnowledgeWorld => Ages world.repository later.repository :=
  ⟨fun _ => Ages.refl _⟩

instance : IsTrans KnowledgeWorld fun world later => Ages world.repository later.repository :=
  ⟨fun _ _ _ h h' => h.trans h'⟩

/-- Over every run of overlapping calls, with any failures, the lifecycle holds, records that left ACTIVE stay
as they are, and a finished call that returned a relationship returned the one it was asked about. -/
theorem knowledge_lifecycle {ids : KnowledgeIds} {scene later : KnowledgeScene}
    (h : Reaches (knowledgeStep ids) OrderlyTurn (Scene.init .empty) scene)
    (hLater : Reaches (knowledgeStep ids) OrderlyTurn scene later) :
    LifecycleHolds scene.store.repository ∧
      (∀ id record, scene.store.repository.recordsById id = some record → record.lifecycleState ≠ .active →
        later.store.repository.HasState id record.lifecycleState) ∧
      ∀ call ∈ scene.calls, ∀ result, call.outcome? = some (some result) → Answers call.request.request result := by
  have hEnter := fun i call world (_ : Coherent ids world) => safe_serve ids i call world
  obtain ⟨hInv, hSafe⟩ := Scene.invariant (lifecycleProtocol ids) h (coherent_empty ids) hEnter
  refine ⟨hInv.repository.holds, fun id record hRecord hLeft => ?_, fun call hMem result hResult => ?_⟩
  · have hAges := Scene.relates (lifecycleProtocol ids)
      (G := fun world later => Ages world.repository later.repository) h hLater (coherent_empty ids) hEnter
      (fun i _ _ hFair => (hFair.2 (i + 1) (by omega)).ages)
    obtain ⟨record', hRecord', hState⟩ := hAges id record hRecord
    exact ⟨record', hRecord', hState hLeft⟩
  · obtain ⟨i, hCall⟩ := List.mem_iff_getElem?.mp hMem
    have hDone := hSafe i call hCall
    rw [Call.outcome?] at hResult
    split at hResult
    · rename_i hRest
      rw [hRest] at hDone
      cases hResult
      exact hDone.result hInv result rfl
    · cases hResult
    · cases hResult

def operatorProvenance : ClassificationProvenance where
  observationId := "observation-1"
  sourceId := "message-1"
  sourceType := .operatorStatement
  originatingActorId := "operator-1"
  observedAt := "2026-07-01T12:00:00.000Z"
  correlationId := none

def conflictWith (candidateId existingKnowledgeId : String) (relationship : ConflictRelationship) :
    ConflictDetectionResult where
  candidateId := candidateId
  existingKnowledgeId := existingKnowledgeId
  relationship := relationship
  correctionTargetKnowledgeId := some existingKnowledgeId
  exceptionTargetKnowledgeId := none
  authorityEffect := "UNCHANGED"

def admissionOf (candidateId : String) (classification : KnowledgeClassification)
    (conflictDetection : ConflictDetectionResult) : KnowledgeCall where
  now := "2026-07-01T12:03:00.000Z"
  request := .admission
    { candidate := ⟨candidateId, "Use pnpm.", classification, operatorProvenance⟩
      classification := ⟨some classification, operatorProvenance, "EXPLICIT", "UNCHANGED", false⟩
      scopeResolution := ⟨some ⟨.project, some "project-1"⟩, .resolved, operatorProvenance, "EXPLICIT_SCOPE", "UNCHANGED"⟩
      conflictDetection
      validation := ⟨candidateId, .valid, operatorProvenance, "UNCHANGED", false⟩
      decision := ⟨candidateId, .accept, .acceptedForAdmission, true, "policy-1", "constitution-1",
        operatorProvenance, "UNCHANGED", false⟩ }

def correctionOf (priorKnowledgeId replacementCandidateId : String) : KnowledgeCall where
  now := "2026-07-02T12:00:00.000Z"
  request := .supersede
    { priorKnowledgeId
      replacementKnowledgeId := "knowledge:" ++ replacementCandidateId
      reason := "Corrected by the operator."
      conflictDetection := conflictWith replacementCandidateId priorKnowledgeId .corrects }

/-- Two facts and a correction, each admitted by a call of its own. -/
def threeAdmissions : List (SceneTurn KnowledgeCall Fault) :=
  .enter (admissionOf "npm" .fact (conflictWith "npm" "none" .unrelated)) :: List.replicate 6 (.advance 0 .works) ++
  .enter (admissionOf "yarn" .fact (conflictWith "yarn" "none" .unrelated)) :: List.replicate 6 (.advance 1 .works) ++
  .enter (admissionOf "pnpm" .correction (conflictWith "pnpm" "knowledge:npm" .corrects)) ::
    List.replicate 6 (.advance 2 .works)

def ownCorrection : List (SceneTurn KnowledgeCall Fault) :=
  threeAdmissions ++ .enter (correctionOf "knowledge:pnpm" "pnpm") :: List.replicate 8 (.advance 3 .works)

/-- The second call comes while the first is in flight under the same replacement. -/
def sharedCorrection : List (SceneTurn KnowledgeCall Fault) :=
  threeAdmissions ++ .enter (correctionOf "knowledge:npm" "pnpm") :: .advance 3 .works ::
    .enter (correctionOf "knowledge:yarn" "pnpm") :: .advance 4 .works :: List.replicate 7 (.advance 3 .works) ++
    [.advance 4 .works]

def afterKnowledgeTurns (turns : List (SceneTurn KnowledgeCall Fault)) : KnowledgeScene :=
  runAll (knowledgeStep .default) (Scene.init .empty) turns

def sharedResult : KnowledgeSupersessionResult :=
  match (afterKnowledgeTurns sharedCorrection).calls[4]?.bind fun call => call.outcome? with
  | some (some (KnowledgeResult.supersession result)) => result
  | _ => supersessionFailed

/-- A record supersedes itself, and a call about one record gets the relationship of another. -/
theorem lifecycle_broken :
    (∃ scene, Reaches (knowledgeStep .default) (fun _ _ => True) (Scene.init .empty) scene ∧
      ∃ id, scene.store.repository.Supersedes id id) ∧
    ∃ scene, Reaches (knowledgeStep .default) (fun _ _ => True) (Scene.init .empty) scene ∧
      ∃ call ∈ scene.calls, ∃ result, call.outcome? = some (some result) ∧
        ¬ Answers call.request.request result := by
  refine ⟨⟨_, reaches_runAll _ _ ownCorrection, "knowledge:pnpm", ?_⟩,
    ⟨_, reaches_runAll _ _ sharedCorrection, ?_⟩⟩
  · have hOwn : ((afterKnowledgeTurns ownCorrection).store.repository.supersessionsByReplacementId
        "knowledge:pnpm").map (fun relationship => relationship.priorKnowledgeId) = some "knowledge:pnpm" := by
      decide +kernel
    exact Option.map_eq_some_iff.mp hOwn
  · have hCall : ((afterKnowledgeTurns sharedCorrection).calls[4]?.map fun call => (call.request, call.outcome?)) =
        some (correctionOf "knowledge:yarn" "pnpm", some (some (.supersession sharedResult))) := by
      decide +kernel
    have hResult : sharedResult.status = .superseded ∧
        (sharedResult.relationship.map fun relationship => relationship.priorKnowledgeId) = some "knowledge:npm" := by
      decide +kernel
    obtain ⟨call, hMem, hEq⟩ := Option.map_eq_some_iff.mp hCall
    obtain ⟨hRequest, hOutcome⟩ := Prod.mk.inj hEq
    refine ⟨call, List.mem_of_getElem? hMem, _, hOutcome, fun hAnswers => ?_⟩
    rw [hRequest] at hAnswers
    obtain ⟨relationship, hSome, hPrior, _⟩ := hAnswers hResult.1
    have hOther := hResult.2
    rw [hSome, Option.map_some, hPrior] at hOther
    exact absurd hOther (by decide)

def settledCorrection : List (SceneTurn KnowledgeCall Fault) :=
  threeAdmissions ++ .enter (correctionOf "knowledge:npm" "pnpm") :: List.replicate 8 (.advance 3 .works)

def repeatedCorrection : List (SceneTurn KnowledgeCall Fault) :=
  .enter (correctionOf "knowledge:npm" "pnpm") :: List.replicate 8 (.advance 4 .works)

theorem knowledge_lifecycle_correction :
    LifecycleHolds (afterKnowledgeTurns settledCorrection).store.repository ∧
      (∀ id record, (afterKnowledgeTurns settledCorrection).store.repository.recordsById id = some record →
        record.lifecycleState ≠ .active →
        (runAll (knowledgeStep .default) (afterKnowledgeTurns settledCorrection)
          repeatedCorrection).store.repository.HasState id record.lifecycleState) ∧
      ∀ call ∈ (afterKnowledgeTurns settledCorrection).calls, ∀ result, call.outcome? = some (some result) →
        Answers call.request.request result := by
  have hRun : GuardedAll (knowledgeStep .default) OrderlyTurn (Scene.init .empty) settledCorrection := by
    decide +kernel
  have hLater : GuardedAll (knowledgeStep .default) OrderlyTurn (afterKnowledgeTurns settledCorrection)
      repeatedCorrection := by
    decide +kernel
  exact knowledge_lifecycle hRun.reaches hLater.reaches

end Runs

end CommandConsole.Knowledge
