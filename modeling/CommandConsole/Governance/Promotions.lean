import CommandConsole.Governance.SemanticKeys

/-! # Knowledge promotions

A promotion copies an entry into the parent scope. An approval reads the promotion, checks its
provenance, and then inserts the entry, updates the promotion if it is still pending and records
one event, all in one transaction. A rejection is one guarded update.
-/
namespace CommandConsole.Governance
open Library
open Execution (trimmed)
set_option autoImplicit false

section Records

structure KnowledgeEntry where
  id : String
  scopeId : String
  title : String
  content : String
  semanticKey : String
  semanticValue : String
  inheritable : Bool
  sourceKnowledgeId : Option String
  sourceScopeId : Option String
  createdById : String
  deriving DecidableEq

structure KnowledgePromotion where
  id : String
  sourceKnowledgeId : String
  targetScopeId : String
  promotedKnowledgeId : Option String
  provenanceRecordId : Option String
  status : RequestStatus
  requestedById : String
  approvedById : Option String
  rejectionReason : Option String
  deriving DecidableEq

/-- The ledger event PROMOTION_APPROVED, whose id is made of the id of the promotion. -/
structure PromotionEvent where
  promotionId : String
  knowledgeId : String
  promotedKnowledgeId : String
  reason : String
  authorizedBy : String
  provenanceRecordId : String
  deriving DecidableEq

/-- The tables of one workspace. What has taken effect is kept beside them, in order. -/
structure PromotionStore where
  entries : PlainTable KnowledgeEntry.id
  promotions : PlainTable KnowledgePromotion.id
  events : PlainTable PromotionEvent.promotionId
  decisions : List (String × RequestStatus)

def PromotionStore.empty : PromotionStore := ⟨.empty, .empty, .empty, []⟩

end Records

section Decisions

/-- What the provenance ledger and the conflict services answer. -/
structure ProvenanceAnswers where
  durableStatement : Option String
  persistenceFailed : Bool
  blockingConflictIds : Option (List String)
  trusted : Bool
  deriving DecidableEq

def pendingPromotion (promotionId : String) (store : PromotionStore) :
    Except ScopeError (KnowledgePromotion × KnowledgeEntry) :=
  match (store.promotions.find? promotionId).filter fun promotion => promotion.status = .pending with
  | none => .error (.thrown "Pending promotion was not found.")
  | some promotion =>
    match store.entries.find? promotion.sourceKnowledgeId with
    | none => .error (.thrown "Pending promotion was not found.")
    | some source => .ok (promotion, source)

/-- The checks of `approveKnowledgePromotion` after its read; they give the provenance record. -/
def checkProvenance (answers : ProvenanceAnswers) (promotionId : String) (source : KnowledgeEntry)
    (store : PromotionStore) : Except ScopeError String :=
  match (store.promotions.find? promotionId).bind KnowledgePromotion.provenanceRecordId with
  | none => .error (.thrown "Promotion has no durable Noesis provenance record.")
  | some provenanceRecordId =>
    if provenanceRecordId = "" then .error (.thrown "Promotion has no durable Noesis provenance record.")
    else if answers.durableStatement ≠ some source.content then
      .error (.thrown "Promotion provenance does not match the source knowledge.")
    else if answers.persistenceFailed then
      .error (.thrown "Promotion conflict analysis could not be recorded safely.")
    else match answers.blockingConflictIds with
      | some ids =>
        .error (.thrown ("Promotion is blocked by unresolved Noesis conflicts: " ++ ", ".intercalate ids ++ "."))
      | none =>
        if answers.trusted then .ok provenanceRecordId
        else .error (.thrown "Promotion provenance is incomplete or untrusted.")

def promotedEntry (promotedId approverId : String) (promotion : KnowledgePromotion) (source : KnowledgeEntry) :
    KnowledgeEntry :=
  { source with
    id := promotedId
    scopeId := promotion.targetScopeId
    sourceKnowledgeId := some (source.sourceKnowledgeId.getD source.id)
    sourceScopeId := some (source.sourceScopeId.getD source.scopeId)
    createdById := approverId }

def promotionEvent (promotedId approverId provenanceRecordId : String) (promotion : KnowledgePromotion)
    (source : KnowledgeEntry) : PromotionEvent where
  promotionId := promotion.id
  knowledgeId := source.id
  promotedKnowledgeId := promotedId
  reason := "KNOWLEDGE_PROMOTED_TO_SCOPE:" ++ promotion.targetScopeId
  authorizedBy := approverId
  provenanceRecordId

/-- An update of a promotion WHERE it is pending. -/
def updatePending (promotionId : String) (change : KnowledgePromotion → KnowledgePromotion)
    (hKey : ∀ promotion, (change promotion).id = promotion.id) (promotions : PlainTable KnowledgePromotion.id) :
    PlainTable KnowledgePromotion.id :=
  promotions.update (fun promotion => promotion.id = promotionId ∧ promotion.status = .pending) change hKey
    fun _ => rfl

def KnowledgePromotion.approvedAs (promotedId approverId : String) (promotion : KnowledgePromotion) :
    KnowledgePromotion :=
  { promotion with
    status := .approved
    approvedById := some approverId
    promotedKnowledgeId := some promotedId }

def KnowledgePromotion.rejectedFor (rejectionReason approverId : String) (promotion : KnowledgePromotion) :
    KnowledgePromotion :=
  { promotion with
    status := .rejected
    approvedById := some approverId
    rejectionReason := some rejectionReason }

/-- The transaction of an approval, none where a key of its rows is taken. Nothing looks at the
number of promotions that its update has changed. -/
def promote (promotedId approverId provenanceRecordId : String) (promotion : KnowledgePromotion)
    (source : KnowledgeEntry) (store : PromotionStore) : Option PromotionStore := do
  let entries ← store.entries.insert (promotedEntry promotedId approverId promotion source)
  let events ← store.events.insert (promotionEvent promotedId approverId provenanceRecordId promotion source)
  return { entries
           promotions := updatePending promotion.id (KnowledgePromotion.approvedAs promotedId approverId)
             (fun _ => rfl) store.promotions
           events
           decisions := store.decisions ++ [(promotion.id, .approved)] }

/-- The update of a rejection, which takes effect where the promotion is still pending. -/
def rejectPending (approverId rejectionReason promotionId : String) (store : PromotionStore) : PromotionStore :=
  { store with
    promotions := updatePending promotionId (KnowledgePromotion.rejectedFor rejectionReason approverId)
      (fun _ => rfl) store.promotions
    decisions := store.decisions ++
      if (store.promotions.find? promotionId).any fun promotion => promotion.status = .pending then
        [(promotionId, .rejected)]
      else [] }

end Decisions

section Turns

inductive PromotionCommand where
  | approve (approverId promotionId : String)
  | reject (approverId promotionId reason : String)
  deriving DecidableEq

structure PromotionInput where
  promotedId : String
  answers : ProvenanceAnswers
  deriving DecidableEq

inductive PromotionReply where
  | knowledge (entry : KnowledgeEntry)
  | rejected
  deriving DecidableEq

inductive PromotionStage where
  | received (command : PromotionCommand)
  | checking (approverId : String) (promotion : KnowledgePromotion) (source : KnowledgeEntry)
  | promoting (approverId provenanceRecordId : String) (promotion : KnowledgePromotion) (source : KnowledgeEntry)
  | rejecting (approverId rejectionReason promotionId : String)
  | ended (result : Except ScopeError PromotionReply)

def PromotionStage.advance (input : PromotionInput) (stage : PromotionStage) (store : PromotionStore) :
    PromotionStage × PromotionStore :=
  match stage with
  | .received (.approve approverId promotionId) =>
    match pendingPromotion promotionId store with
    | .error error => (.ended (.error error), store)
    | .ok (promotion, source) => (.checking approverId promotion source, store)
  | .received (.reject approverId promotionId reason) =>
    match pendingPromotion promotionId store with
    | .error error => (.ended (.error error), store)
    | .ok _ =>
      if trimmed reason = "" then (.ended (.error (.thrown "A rejection reason is required.")), store)
      else (.rejecting approverId (trimmed reason) promotionId, store)
  | .checking approverId promotion source =>
    match checkProvenance input.answers promotion.id source store with
    | .error error => (.ended (.error error), store)
    | .ok provenanceRecordId => (.promoting approverId provenanceRecordId promotion source, store)
  | .promoting approverId provenanceRecordId promotion source =>
    match promote input.promotedId approverId provenanceRecordId promotion source store with
    | none => (.ended (.error .uniqueConstraint), store)
    | some next => (.ended (.ok (.knowledge (promotedEntry input.promotedId approverId promotion source))), next)
  | .rejecting approverId rejectionReason promotionId =>
    (.ended (.ok .rejected), rejectPending approverId rejectionReason promotionId store)
  | .ended result => (.ended result, store)

/-- What other operations insert: requests for promotions, and entries. -/
inductive PromotionInsert where
  | promotion (id sourceKnowledgeId targetScopeId provenanceRecordId requestedById : String)
  | entry (added : KnowledgeEntry)
  deriving DecidableEq

def PromotionInsert.apply (inserted : PromotionInsert) (store : PromotionStore) : PromotionStore :=
  match inserted with
  | .promotion id sourceKnowledgeId targetScopeId provenanceRecordId requestedById =>
    { store with
      promotions := (store.promotions.insert
        { id
          sourceKnowledgeId
          targetScopeId
          promotedKnowledgeId := none
          provenanceRecordId := some provenanceRecordId
          status := .pending
          requestedById
          approvedById := none
          rejectionReason := none }).getD store.promotions }
  | .entry added => { store with entries := (store.entries.insert added).getD store.entries }

def promotionRules : CrowdRules PromotionCommand PromotionStage PromotionInput PromotionInsert PromotionStore where
  start := .received
  advance := PromotionStage.advance
  outside := PromotionInsert.apply

abbrev PromotionTurn := CrowdTurn PromotionCommand PromotionInput PromotionInsert

abbrev Promotions := Crowd PromotionStage PromotionStore

end Turns

end CommandConsole.Governance
