import CommandConsole.Library.Script
import CommandConsole.Knowledge.Records

/-! # Knowledge repository and the commands of its services

The repository maps, the audit ledger, and the maps of operations in flight by which
a service lets equal calls share one operation. A service reaches them one awaited
command at a time, and a command can fail before or after it takes effect.
-/
namespace CommandConsole.Knowledge
open Library
set_option autoImplicit false

structure KnowledgeRepository where
  recordsById : String → Option DurableKnowledgeRecord
  recordsByCandidateId : String → Option DurableKnowledgeRecord
  supersessionsByReplacementId : String → Option KnowledgeSupersession
  exceptionsByKnowledgeId : String → Option KnowledgeException
  exceptionsByBaseKnowledgeId : String → List KnowledgeException

structure SupersessionTransition where
  priorRecord : DurableKnowledgeRecord
  replacementRecord : DurableKnowledgeRecord
  relationship : KnowledgeSupersession

structure ExceptionRegistration where
  baseRecord : DurableKnowledgeRecord
  exceptionRecord : DurableKnowledgeRecord
  relationship : KnowledgeException

structure LifecycleTransition where
  priorRecord : DurableKnowledgeRecord
  updatedRecord : DurableKnowledgeRecord

namespace KnowledgeRepository

def empty : KnowledgeRepository := ⟨fun _ => none, fun _ => none, fun _ => none, fun _ => none, fun _ => []⟩

def setRecord (repository : KnowledgeRepository) (record : DurableKnowledgeRecord) : KnowledgeRepository :=
  { repository with
    recordsById := Function.update repository.recordsById record.knowledgeId (some record)
    recordsByCandidateId := Function.update repository.recordsByCandidateId record.candidateId (some record) }

def create (repository : KnowledgeRepository) (record : DurableKnowledgeRecord) :
    DurableKnowledgeRecord × KnowledgeRepository :=
  match repository.recordsByCandidateId record.candidateId with
  | some existing => (existing, repository)
  | none => (record, repository.setRecord record)

def supersede (repository : KnowledgeRepository) (priorKnowledgeId replacementKnowledgeId : String)
    (relationship : KnowledgeSupersession) : Except String (SupersessionTransition × KnowledgeRepository) :=
  match repository.supersessionsByReplacementId replacementKnowledgeId with
  | some existing =>
    match repository.recordsById existing.priorKnowledgeId,
        repository.recordsById existing.replacementKnowledgeId with
    | some prior, some replacement => .ok (⟨prior, replacement, existing⟩, repository)
    | _, _ => .error "supersession record is inconsistent"
  | none =>
    match repository.recordsById priorKnowledgeId, repository.recordsById replacementKnowledgeId with
    | some prior, some replacement =>
      if prior.lifecycleState = .active ∧ replacement.lifecycleState = .active then
        let supersededPrior := { prior with lifecycleState := .superseded }
        .ok (⟨supersededPrior, replacement, relationship⟩,
          { repository.setRecord supersededPrior with
            supersessionsByReplacementId :=
              Function.update repository.supersessionsByReplacementId replacementKnowledgeId (some relationship) })
      else .error "supersession requires active records"
    | _, _ => .error "supersession knowledge record is missing"

def registerException (repository : KnowledgeRepository) (baseKnowledgeId exceptionKnowledgeId : String)
    (relationship : KnowledgeException) : Except String (ExceptionRegistration × KnowledgeRepository) :=
  match repository.exceptionsByKnowledgeId exceptionKnowledgeId with
  | some existing =>
    match repository.recordsById existing.baseKnowledgeId,
        repository.recordsById existing.exceptionKnowledgeId with
    | some base, some exception => .ok (⟨base, exception, existing⟩, repository)
    | _, _ => .error "exception registration is inconsistent"
  | none =>
    match repository.recordsById baseKnowledgeId, repository.recordsById exceptionKnowledgeId with
    | some base, some exception =>
      if base.lifecycleState = .active ∧ exception.lifecycleState = .active then
        .ok (⟨base, exception, relationship⟩,
          { repository with
            exceptionsByKnowledgeId :=
              Function.update repository.exceptionsByKnowledgeId exceptionKnowledgeId (some relationship)
            exceptionsByBaseKnowledgeId :=
              Function.update repository.exceptionsByBaseKnowledgeId baseKnowledgeId
                (repository.exceptionsByBaseKnowledgeId baseKnowledgeId ++ [relationship]) })
      else .error "exception registration requires active records"
    | _, _ => .error "exception knowledge record is missing"

def transitionLifecycle (repository : KnowledgeRepository) (knowledgeId : String) (newLifecycleState : RetiredState) :
    Except String (LifecycleTransition × KnowledgeRepository) :=
  match repository.recordsById knowledgeId with
  | none => .error "knowledge record is missing"
  | some prior =>
    if prior.lifecycleState = .active then
      let updatedRecord := { prior with lifecycleState := newLifecycleState.state }
      .ok (⟨prior, updatedRecord⟩, repository.setRecord updatedRecord)
    else .error "lifecycle transition requires active knowledge"

end KnowledgeRepository

section World

inductive KnowledgeRequest where
  | admission (request : KnowledgeAdmissionRequest)
  | supersede (request : KnowledgeSupersessionRequest)
  | register (request : KnowledgeExceptionRegistrationRequest)
  | transition (request : KnowledgeRetirementRequest)
  deriving DecidableEq

inductive KnowledgeResult where
  | admission (result : KnowledgeAdmissionResult)
  | supersession (result : KnowledgeSupersessionResult)
  | exception (result : KnowledgeExceptionResult)
  | retirement (result : KnowledgeRetirementResult)
  deriving DecidableEq

/-- A key of one of the four maps of operations in flight. -/
inductive Flight where
  | admission (candidateId : String)
  | supersession (replacementKnowledgeId : String)
  | exception (exceptionKnowledgeId : String)
  | transition (key : String)
  deriving DecidableEq

def KnowledgeRequest.flight : KnowledgeRequest → Flight
  | admission request => .admission request.candidate.candidateId
  | supersede request => .supersession request.replacementKnowledgeId
  | register request => .exception request.exceptionKnowledgeId
  | transition request => .transition (request.knowledgeId ++ ":" ++ request.targetLifecycleState.text)

/-- The promise of an operation, with the call that began it and its request. The outcome is none for
a promise that is rejected. -/
structure Operation where
  owner : Nat
  request : KnowledgeRequest
  outcome : Option (Option KnowledgeResult)
  deriving DecidableEq

/-- A promise settles once. -/
def Operation.settle (operation : Operation) (outcome : Option KnowledgeResult) : Operation :=
  { operation with outcome := some (operation.outcome.getD outcome) }

structure KnowledgeWorld where
  repository : KnowledgeRepository
  auditEvents : List KnowledgeAuditEvent
  inFlight : Flight → Option Nat
  operations : List Operation

namespace KnowledgeWorld

def empty : KnowledgeWorld := ⟨.empty, [], fun _ => none, []⟩

def start (world : KnowledgeWorld) (i : Nat) (request : KnowledgeRequest) : KnowledgeWorld :=
  { world with
    inFlight := Function.update world.inFlight request.flight (some world.operations.length)
    operations := world.operations ++ [⟨i, request, none⟩] }

def settle (world : KnowledgeWorld) (operation : Nat) (outcome : Option KnowledgeResult) : KnowledgeWorld :=
  { world with operations := world.operations.modify operation fun promise => promise.settle outcome }

def leave (world : KnowledgeWorld) (flight : Flight) : KnowledgeWorld :=
  { world with inFlight := Function.update world.inFlight flight none }

def record (world : KnowledgeWorld) (event : KnowledgeAuditEvent) : KnowledgeWorld :=
  { world with auditEvents := world.auditEvents ++ [event] }

end KnowledgeWorld

end World

section Commands

inductive Fault where
  | works
  | fails
  | failsAfter
  deriving DecidableEq

inductive Command where
  | enter (request : KnowledgeRequest)
  | join (operation : Nat)
  | settle (operation : Nat) (outcome : Option KnowledgeResult)
  | leave (flight : Flight)
  | getById (knowledgeId : String)
  | findByCandidateId (candidateId : String)
  | findSupersessionByReplacementId (replacementKnowledgeId : String)
  | findExceptionByKnowledgeId (exceptionKnowledgeId : String)
  | create (record : DurableKnowledgeRecord)
  | supersede (priorKnowledgeId replacementKnowledgeId : String) (relationship : KnowledgeSupersession)
  | registerException (baseKnowledgeId exceptionKnowledgeId : String) (relationship : KnowledgeException)
  | transitionLifecycle (knowledgeId : String) (newLifecycleState : RetiredState)
  | append (event : KnowledgeAuditEvent)
  deriving DecidableEq

/-- A call finds an operation in flight under its key, or starts one. -/
inductive Entry where
  | joined (operation : Nat)
  | started (operation : Nat)
  deriving DecidableEq

abbrev Command.Answer : Command → Type
  | enter _ => Entry
  | join _ => Option KnowledgeResult
  | settle _ _ | leave _ => Unit
  | getById _ | findByCandidateId _ => Option DurableKnowledgeRecord
  | findSupersessionByReplacementId _ => Option KnowledgeSupersession
  | findExceptionByKnowledgeId _ => Option KnowledgeException
  | create _ => DurableKnowledgeRecord
  | supersede _ _ _ => SupersessionTransition
  | registerException _ _ _ => ExceptionRegistration
  | transitionLifecycle _ _ => LifecycleTransition
  | append _ => KnowledgeAuditEvent

variable {α : Type}

def reading (fault : Fault) (value : α) (world : KnowledgeWorld) : Option (Option α × KnowledgeWorld) :=
  match fault with
  | .works => some (some value, world)
  | _ => some (none, world)

/-- A write of the repository, which may throw by itself. -/
def writing (fault : Fault) (written : Except String (α × KnowledgeRepository)) (world : KnowledgeWorld) :
    Option (Option α × KnowledgeWorld) :=
  match fault, written with
  | .fails, _ | _, .error _ => some (none, world)
  | .works, .ok (value, repository) => some (some value, { world with repository })
  | .failsAfter, .ok (_, repository) => some (none, { world with repository })

def appending (fault : Fault) (event : KnowledgeAuditEvent) (world : KnowledgeWorld) :
    Option (Option KnowledgeAuditEvent × KnowledgeWorld) :=
  match fault with
  | .works => some (some event, world.record event)
  | .fails => some (none, world)
  | .failsAfter => some (none, world.record event)

/-- The command of call `i`. A call waits for an operation that has not settled. -/
def perform (i : Nat) (fault : Fault) (command : Command) (world : KnowledgeWorld) :
    Option (Option command.Answer × KnowledgeWorld) :=
  match command with
  | .enter request =>
    match world.inFlight request.flight with
    | some operation => some (some (.joined operation), world)
    | none => some (some (.started world.operations.length), world.start i request)
  | .join operation =>
    match world.operations[operation]? with
    | some ⟨_, _, some outcome⟩ => some (some outcome, world)
    | _ => none
  | .settle operation outcome => some (some (), world.settle operation outcome)
  | .leave flight => some (some (), world.leave flight)
  | .getById id => reading fault (world.repository.recordsById id) world
  | .findByCandidateId id => reading fault (world.repository.recordsByCandidateId id) world
  | .findSupersessionByReplacementId id =>
    reading fault (world.repository.supersessionsByReplacementId id) world
  | .findExceptionByKnowledgeId id => reading fault (world.repository.exceptionsByKnowledgeId id) world
  | .create record => writing fault (.ok (world.repository.create record)) world
  | .supersede prior replacement relationship =>
    writing fault (world.repository.supersede prior replacement relationship) world
  | .registerException base exception relationship =>
    writing fault (world.repository.registerException base exception relationship) world
  | .transitionLifecycle id state => writing fault (world.repository.transitionLifecycle id state) world
  | .append event => appending fault event world

end Commands

end CommandConsole.Knowledge
