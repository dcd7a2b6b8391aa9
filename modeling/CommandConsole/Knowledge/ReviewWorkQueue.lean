import CommandConsole.Knowledge.Records
import CommandConsole.Library.InsertionMap
import CommandConsole.Library.Script

/-! # The queue of review work

An enqueue looks for an open work item of its record before it creates one, and a completion looks at the
item before it closes it. The id of an item is made of the record and the date at which its review is due.
-/
namespace CommandConsole.Knowledge
open Library
set_option autoImplicit false

section WorkItems

inductive FreshnessStatus where
  | current
  | reviewDue
  | overdue
  | noReviewPolicy
  | invalidPolicy
  deriving DecidableEq

inductive FreshnessReasonCode where
  | reviewWindowOpen
  | reviewDueByPolicy
  | reviewOverdueByPolicy
  | noMatchingReviewPolicy
  | reviewPolicyInvalid
  deriving DecidableEq

inductive RecommendedAction where
  | nothing
  | revalidate
  | reviewForQuarantine
  deriving DecidableEq

structure KnowledgeFreshnessAssessment where
  knowledgeId : String
  status : FreshnessStatus
  reasonCode : FreshnessReasonCode
  basisTimestamp : Option String := none
  reviewDueAt : Option String := none
  selectedPolicyId : Option String := none
  selectedPolicyVersion : Option String := none
  latestReviewId : Option String := none
  recommendedAction : RecommendedAction
  deriving DecidableEq

inductive WorkItemState where
  | queued
  | inReview
  | completed
  | cancelled
  deriving DecidableEq

inductive WorkItemPriority where
  | normal
  | high
  deriving DecidableEq

structure KnowledgeReviewWorkItem where
  workItemId : String
  knowledgeId : String
  state : WorkItemState
  priority : WorkItemPriority
  freshness : KnowledgeFreshnessAssessment
  createdAt : String
  completedAt : Option String := none
  completedReviewId : Option String := none
  policyVersion : String
  constitutionVersion : String
  deriving DecidableEq

def KnowledgeReviewWorkItem.isOpen (item : KnowledgeReviewWorkItem) : Bool :=
  item.state = .queued ∨ item.state = .inReview

def KnowledgeReviewWorkItem.isOpenFor (knowledgeId : String) (item : KnowledgeReviewWorkItem) : Bool :=
  item.knowledgeId = knowledgeId ∧ item.isOpen

structure KnowledgeReview where
  reviewId : String
  knowledgeId : String
  deriving DecidableEq

inductive WorkItemEventType where
  | queued
  | completed
  deriving DecidableEq

structure WorkItemAuditEvent where
  eventId : String
  eventType : WorkItemEventType
  workItemId : String
  knowledgeId : String
  occurredAt : String
  policyVersion : String
  constitutionVersion : String
  provenance : ClassificationProvenance
  deriving DecidableEq

inductive WorkStatus where
  | queued
  | completed
  | rejected
  | persistenceFailed
  deriving DecidableEq

inductive WorkReasonCode where
  | reviewWorkQueued
  | reviewWorkCompleted
  | idempotentReplay
  | knowledgeNotFound
  | knowledgeNotActive
  | freshnessIneligible
  | freshnessMismatch
  | workItemNotFound
  | reviewNotFound
  | reviewTargetMismatch
  | workItemNotOpen
  | persistenceFailed
  deriving DecidableEq

inductive WorkEffect where
  | created
  | updated
  | unchanged
  deriving DecidableEq

structure WorkResult where
  status : WorkStatus
  reasonCode : WorkReasonCode
  workItem : Option KnowledgeReviewWorkItem
  created : Bool
  idempotentReplay : Bool
  persistenceEffect : WorkEffect
  deriving DecidableEq

def rejectedWork (reasonCode : WorkReasonCode) : WorkResult := ⟨.rejected, reasonCode, none, false, false, .unchanged⟩

def failedWork : WorkResult := ⟨.persistenceFailed, .persistenceFailed, none, false, false, .unchanged⟩

/-- The answer to a request for what is so already. -/
def replayedWork (status : WorkStatus) (item : KnowledgeReviewWorkItem) : WorkResult :=
  ⟨status, .idempotentReplay, some item, false, true, .unchanged⟩

inductive WorkRequest where
  | enqueue (knowledgeId : String) (freshness : KnowledgeFreshnessAssessment)
  | complete (workItemId reviewId : String)
  deriving DecidableEq

end WorkItems

section Queue

abbrev WorkItems := List (String × KnowledgeReviewWorkItem)

def WorkItems.findOpenByKnowledgeId (items : WorkItems) (knowledgeId : String) : Option KnowledgeReviewWorkItem :=
  (items.map Prod.snd).find? (KnowledgeReviewWorkItem.isOpenFor knowledgeId)

def WorkItems.open (items : WorkItems) (knowledgeId : String) : List KnowledgeReviewWorkItem :=
  (items.map Prod.snd).filter (KnowledgeReviewWorkItem.isOpenFor knowledgeId)

/-- A result as its caller takes it, with the work items of that moment. -/
structure WorkAnswer where
  caller : Nat
  request : WorkRequest
  result : WorkResult
  items : WorkItems
  deriving DecidableEq

/-- The work items and the audit events, the enqueues that have found or created an item of a record and are
still to be answered, and the answers so far. -/
structure WorkQueue where
  itemsById : WorkItems
  events : List WorkItemAuditEvent
  unanswered : List (Nat × String)
  answers : List WorkAnswer
  deriving DecidableEq

def WorkQueue.empty : WorkQueue := ⟨[], [], [], []⟩

def WorkQueue.item? (queue : WorkQueue) (workItemId : String) : Option KnowledgeReviewWorkItem :=
  InsertionMap.get workItemId queue.itemsById

def WorkQueue.setItem (queue : WorkQueue) (item : KnowledgeReviewWorkItem) : WorkQueue :=
  { queue with itemsById := InsertionMap.set item.workItemId item queue.itemsById }

def WorkQueue.expect (queue : WorkQueue) (index : Nat) (knowledgeId : String) : WorkQueue :=
  { queue with unanswered := queue.unanswered ++ [(index, knowledgeId)] }

def WorkQueue.withdraw (queue : WorkQueue) (index : Nat) : WorkQueue :=
  { queue with unanswered := queue.unanswered.filter fun call => call.1 ≠ index }

inductive WorkCommand where
  | getKnowledge (knowledgeId : String)
  | findReview (reviewId : String)
  | getItem (workItemId : String)
  | findOpen (knowledgeId : String)
  | now
  | create (item : KnowledgeReviewWorkItem)
  | complete (workItemId : String) (review : KnowledgeReview) (completedAt : String)
  | append (event : WorkItemAuditEvent)
  | answer (request : WorkRequest) (result : WorkResult)

abbrev WorkReply : WorkCommand → Type
  | .getKnowledge _ => Option DurableKnowledgeRecord
  | .findReview _ => Option KnowledgeReview
  | .getItem _ => Option KnowledgeReviewWorkItem
  | .findOpen _ => Option KnowledgeReviewWorkItem
  | .now => String
  | .create _ => KnowledgeReviewWorkItem
  | .complete _ _ _ => KnowledgeReviewWorkItem
  | .append _ => Unit
  | .answer _ _ => Unit

/-- What the other repositories and the clock answer. They keep records and reviews under their ids. -/
structure WorkWorld where
  fails : Bool := false
  knowledge : Option DurableKnowledgeRecord := none
  review : Option KnowledgeReview := none
  now : String := ""

def WorkWorld.reply {α : Type} (world : WorkWorld) (value : α) : Option α := if world.fails then none else some value

def performWork (index : Nat) (world : WorkWorld) :
    (command : WorkCommand) → WorkQueue → Option (Option (WorkReply command) × WorkQueue)
  | .getKnowledge knowledgeId, queue =>
    some (world.reply (world.knowledge.map fun record => { record with knowledgeId := knowledgeId }), queue)
  | .findReview reviewId, queue =>
    some (world.reply (world.review.map fun review => { review with reviewId := reviewId }), queue)
  | .getItem workItemId, queue => some (some (queue.item? workItemId), queue)
  | .findOpen knowledgeId, queue =>
    match queue.itemsById.findOpenByKnowledgeId knowledgeId with
    | some item => some (some (some item), queue.expect index knowledgeId)
    | none => some (some none, queue)
  | .now, queue => some (some world.now, queue)
  | .create item, queue =>
    match queue.item? item.workItemId with
    | some existing => some (some existing, queue.expect index item.knowledgeId)
    | none => some (some item, (queue.setItem item).expect index item.knowledgeId)
  | .complete workItemId review completedAt, queue =>
    match queue.item? workItemId with
    | none => some (none, queue)
    | some existing =>
      if existing.state = .completed then some (some existing, queue)
      else if existing.isOpen then
        let completed := { existing with
          state := .completed, completedAt := some completedAt, completedReviewId := some review.reviewId }
        some (some completed, { queue with itemsById := InsertionMap.set workItemId completed queue.itemsById })
      else some (none, queue)
  | .append event, queue =>
    if world.fails then some (none, queue.withdraw index)
    else some (some (), { queue with events := queue.events ++ [event] })
  | .answer request result, queue =>
    some (some (), { queue.withdraw index with answers := queue.answers ++ [⟨index, request, result, queue.itemsById⟩] })

end Queue

section Service

abbrev WorkScript := Script WorkCommand WorkReply

abbrev askQueue (command : WorkCommand) : WorkScript (WorkReply command) := Script.ask command

def newWorkItem (knowledge : DurableKnowledgeRecord) (freshness : KnowledgeFreshnessAssessment) (now : String) :
    KnowledgeReviewWorkItem where
  workItemId := "review-work:" ++ knowledge.knowledgeId ++ ":" ++ freshness.reviewDueAt.getD now
  knowledgeId := knowledge.knowledgeId
  state := .queued
  priority := if freshness.status = .overdue then .high else .normal
  freshness := freshness
  createdAt := now
  policyVersion := knowledge.policyVersion
  constitutionVersion := knowledge.constitutionVersion

def WorkItemEventType.text : WorkItemEventType → String
  | queued => "queued"
  | completed => "completed"

def workItemEvent (eventType : WorkItemEventType) (item : KnowledgeReviewWorkItem) (knowledge : DurableKnowledgeRecord)
    (now : String) : WorkItemAuditEvent where
  eventId := "audit:review-work-" ++ eventType.text ++ ":" ++ item.workItemId
  eventType := eventType
  workItemId := item.workItemId
  knowledgeId := item.knowledgeId
  occurredAt := now
  policyVersion := item.policyVersion
  constitutionVersion := item.constitutionVersion
  provenance := knowledge.provenance

def createWork (knowledge : DurableKnowledgeRecord) (freshness : KnowledgeFreshnessAssessment) : WorkScript WorkResult := do
  let now ← askQueue .now
  let outcome ← Script.attempt do
    let created ← askQueue (.create (newWorkItem knowledge freshness now))
    askQueue (.append (workItemEvent .queued created knowledge now))
    pure created
  match outcome with
  | some created => pure ⟨.queued, .reviewWorkQueued, some created, true, false, .created⟩
  | none => pure failedWork

def enqueue (knowledgeId : String) (freshness : KnowledgeFreshnessAssessment) : WorkScript WorkResult := do
  let knowledge ← askQueue (.getKnowledge knowledgeId)
  match knowledge with
  | none => pure (rejectedWork .knowledgeNotFound)
  | some knowledge =>
    if knowledge.lifecycleState ≠ .active then pure (rejectedWork .knowledgeNotActive)
    else if freshness.knowledgeId ≠ knowledge.knowledgeId then pure (rejectedWork .freshnessMismatch)
    else if freshness.status ≠ .reviewDue ∧ freshness.status ≠ .overdue then pure (rejectedWork .freshnessIneligible)
    else do
      let existing ← askQueue (.findOpen knowledge.knowledgeId)
      match existing with
      | some existing => pure (replayedWork .queued existing)
      | none => createWork knowledge freshness

def completeWork (item : KnowledgeReviewWorkItem) (review : KnowledgeReview) (knowledge : DurableKnowledgeRecord) :
    WorkScript WorkResult := do
  let now ← askQueue .now
  let outcome ← Script.attempt do
    let completed ← askQueue (.complete item.workItemId review now)
    askQueue (.append (workItemEvent .completed completed knowledge now))
    pure completed
  match outcome with
  | some completed => pure ⟨.completed, .reviewWorkCompleted, some completed, true, false, .updated⟩
  | none => pure failedWork

def complete (workItemId reviewId : String) : WorkScript WorkResult := do
  let item ← askQueue (.getItem workItemId)
  match item with
  | none => pure (rejectedWork .workItemNotFound)
  | some item =>
    let review ← askQueue (.findReview reviewId)
    match review with
    | none => pure (rejectedWork .reviewNotFound)
    | some review =>
      if review.knowledgeId ≠ item.knowledgeId then pure (rejectedWork .reviewTargetMismatch)
      else if item.state = .completed then pure (replayedWork .completed item)
      else if ¬ item.isOpen then pure (rejectedWork .workItemNotOpen)
      else do
        let knowledge ← askQueue (.getKnowledge item.knowledgeId)
        match knowledge with
        | none => pure (rejectedWork .knowledgeNotFound)
        | some knowledge => completeWork item review knowledge

def WorkRequest.run : WorkRequest → WorkScript WorkResult
  | enqueue knowledgeId freshness => Knowledge.enqueue knowledgeId freshness
  | complete workItemId reviewId => Knowledge.complete workItemId reviewId

/-- The caller takes the result at a turn of its own. -/
def WorkRequest.script (request : WorkRequest) : WorkScript WorkResult := do
  let result ← request.run
  askQueue (.answer request result)
  pure result

end Service

end CommandConsole.Knowledge
