import CommandConsole.Governance.Conflicts
import CommandConsole.Governance.Promotions
import Mathlib.Data.List.MinMax

/-! # Admission of knowledge

A submission reads the scopes and the entries, then the rule of its semantic key, and then one
ledger event for each entry under that key. What the gate allows becomes an entry, the rest a
review. An approval reads its review, looks in its transaction for the entry it may supersede
and commits the entry of the submission.
-/
namespace CommandConsole.Governance
open Library
open Execution (trimmed truthy)
set_option autoImplicit false

section Records

structure KnowledgeScope where
  id : String
  kind : ScopeKind
  parentId : Option String
  deriving DecidableEq

/-- Only keys that `proposeSemanticKeyChange` accepts have a rule. -/
structure RegisteredRule extends SemanticKeyRule where
  wellFormed : isSemanticKey key = true
  deriving DecidableEq

structure AdmittedEntry extends KnowledgeEntry where
  overrideOfId : Option String
  supersededAt : Option Nat
  supersededById : Option String
  deriving DecidableEq

structure KnowledgeSubmission where
  knowledgeId : String
  scopeId : String
  title : String
  content : String
  semanticKey : String
  semanticValue : String
  conflictingKnowledgeId : Option String
  inheritable : Bool
  overrideOfId : Option String
  actorId : String
  deriving DecidableEq

/-- The action of an approval. -/
inductive KnowledgeResolution where
  | coexist
  | supersede
  deriving DecidableEq

/-- The column `resolutionAction`. -/
inductive ReviewResolution where
  | approved (resolution : KnowledgeResolution)
  | reject
  deriving DecidableEq

structure AuthorityReview where
  reviewId : String
  authorityRecord : AuthorityRecord
  knowledgeSubmission : Option KnowledgeSubmission
  reasonCode : String
  status : RequestStatus
  resolvedAt : Option Nat
  resolvedBy : Option String
  rejectionReason : Option String
  resolutionAction : Option ReviewResolution
  deriving DecidableEq

inductive AdmissionEventId where
  | assigned (authorityId : AuthorityId)
  | challenged (reviewId : String)
  | conflict (reviewId : String)
  | superseded (reviewId : String)
  | approved (reviewId : String)
  | rejected (reviewId : String)
  deriving DecidableEq

inductive AdmissionEventType where
  | authorityAssigned
  | authorityChallenged
  | conflictDetected
  | knowledgeSuperseded
  | authorityConfirmed
  | conflictResolved
  deriving DecidableEq

structure AdmissionEvent where
  eventId : AdmissionEventId
  eventType : AdmissionEventType
  authorityId : AuthorityId
  relatedAuthorityId : Option AuthorityId
  reason : String
  authorityRecord : Option AuthorityRecord
  authorizedBy : Option String
  occurredAt : Nat
  deriving DecidableEq

structure KnowledgeRequest where
  actorId : String
  scopeId : String
  title : String
  content : String
  semanticKey : Option String
  semanticValue : Option String
  inheritable : Bool
  overrideOfId : Option String
  deriving DecidableEq

/-- What a submission has made of its request before it looks for conflicts. -/
structure KnowledgeDraft where
  knowledgeId : String
  request : KnowledgeRequest
  scopeKind : ScopeKind
  semanticKey : String
  semanticValue : String
  authority : AuthorityRecord
  deriving DecidableEq

/-- The tables of one workspace. The drafts are kept beside them: no id is drawn twice. -/
structure AdmissionStore where
  scopes : PlainTable KnowledgeScope.id
  rules : PlainTable fun rule : RegisteredRule => rule.key
  entries : PlainTable fun entry : AdmittedEntry => entry.id
  reviews : PlainTable AuthorityReview.reviewId
  ledger : PlainTable AdmissionEvent.eventId
  drafts : PlainTable KnowledgeDraft.knowledgeId

def AdmissionStore.empty : AdmissionStore := ⟨.empty, .empty, .empty, .empty, .empty, .empty⟩

inductive AdmissionError where
  | thrown (message : String)
  | uniqueConstraint
  | foreignKeyConstraint
  deriving DecidableEq

structure AdmissionInput where
  knowledgeId : String
  reviewId : String
  now : Nat
  deriving DecidableEq

abbrev AdmissionTx := Tx AdmissionInput AdmissionError AdmissionStore

end Records

section Governance

variable (platform : Platform)

/-- `/^[a-z][a-z0-9._:-]*$/i`. -/
def isIdentifierValue (value : String) : Bool :=
  match value.toList.map Char.toLower with
  | [] => false
  | first :: rest => isLetter first && rest.all fun c => isLetterOrDigit c || c ∈ ['.', '_', ':', '-']

/-- What is left of the text after `\d+`, in every way that it matches. -/
def afterDigits : List Char → List (List Char)
  | [] => []
  | c :: rest => if '0' ≤ c ∧ c ≤ '9' then rest :: afterDigits rest else []

/-- The same for `\.\d+`. -/
def afterNumber : List Char → List (List Char)
  | '.' :: rest => afterDigits rest
  | _ => []

/-- `([-.+][0-9a-z.-]+)?$`. -/
def isVersionSuffix : List Char → Bool
  | [] => true
  | c :: rest => c ∈ ['-', '.', '+'] && rest ≠ [] && rest.all fun c => isLetterOrDigit c || c ∈ ['.', '-']

/-- `/^v?\d+(\.\d+){1,3}([-.+][0-9a-z.-]+)?$/i`. -/
def isVersionValue (value : String) : Bool :=
  let text := value.toList.map Char.toLower
  let major := afterDigits (if text.head? = some 'v' then text.tail else text)
  let minor := major.flatMap afterNumber
  let patch := minor.flatMap afterNumber
  (minor ++ patch ++ patch.flatMap afterNumber).any isVersionSuffix

def semanticValueIsValid (value : String) (kind : SemanticValueKind) (allowedValues : List String) : Bool :=
  match kind with
  | .identifier => isIdentifierValue value
  | .boolean => value.toList.map Char.toLower ∈ ["true".toList, "false".toList]
  | .url => platform.isHttpUrl value
  | .version => isVersionValue value
  | .enum => allowedValues.any fun item => platform.normalize item = value
  | .text => true

/-- The reason why a key and a value need a review, if there is one. -/
def validateSemanticKeyGovernance (scopeKind : ScopeKind) (key value : String) (store : AdmissionStore) :
    Option String :=
  match store.rules.find? key with
  | none => some "SEMANTIC_KEY_UNREGISTERED"
  | some rule => match rule.status with
    | .deprecated => some "SEMANTIC_KEY_DEPRECATED"
    | .retired => some "SEMANTIC_KEY_RETIRED"
    | .active =>
      if scopeKind ∉ rule.allowedScopeKinds then some "SEMANTIC_KEY_SCOPE_NOT_ALLOWED"
      else if !semanticValueIsValid platform value rule.valueKind rule.allowedValues then
        some "SEMANTIC_VALUE_INVALID"
      else none

end Governance

section Submission

variable (platform : Platform)

def scopeType : ScopeKind → KnowledgeScopeType
  | .global => .global
  | .program => .domain
  | .project => .project
  | .component => .component
  | .task => .task
  | .session => .session

def authorityScope (scope : KnowledgeScope) (scopes : PlainTable KnowledgeScope.id) : KnowledgeScopeReference where
  type := scopeType scope.kind
  id := some scope.id
  parentScope := ((truthy scope.parentId).bind scopes.find?).map fun parent => ⟨scopeType parent.kind, some parent.id⟩

def authoritySource (knowledgeId : String) (request : KnowledgeRequest) : AuthoritySourceDescriptor where
  sourceClass := .human
  sourceIdentity := "user:" ++ request.actorId
  sourceReference := "manual-knowledge:" ++ knowledgeId
  approval := none
  referenceDesignated := false
  externallyVerified := false
  agentKnowledgeKind := none

def draftAuthority (knowledgeId : String) (now : Nat) (request : KnowledgeRequest) (scope : KnowledgeScopeReference) :
    AuthorityRecord where
  authorityId := ⟨knowledgeId⟩
  authorityType := .humanDecision
  authoritySource := (authoritySource knowledgeId request).sourceReference
  sourceIdentity := (authoritySource knowledgeId request).sourceIdentity
  scope
  establishedAt := now
  effectiveFrom := now
  effectiveUntil := none
  supersedes := []
  approvedBy := none
  approvalRecord := none
  delegatedFrom := none
  provenance := ⟨knowledgeId, (authoritySource knowledgeId request).sourceReference, request.actorId⟩

/-- The first part of `createKnowledge`: what is read is the scopes and the entries. -/
def draftKnowledge (input : AdmissionInput) (request : KnowledgeRequest) (store : AdmissionStore) :
    Except AdmissionError KnowledgeDraft :=
  match store.scopes.find? request.scopeId with
  | none => .error (.thrown "Scope not found.")
  | some scope =>
    if (truthy request.overrideOfId).any fun id => (store.entries.find? id).isNone then
      .error (.thrown "Knowledge to override was not found.")
    else .ok
      { knowledgeId := input.knowledgeId
        request
        scopeKind := scope.kind
        semanticKey := platform.normalize ((truthy request.semanticKey).getD request.title)
        semanticValue := platform.normalize ((truthy request.semanticValue).getD request.content)
        authority := draftAuthority input.knowledgeId input.now request (authorityScope scope store.scopes) }

def KnowledgeDraft.candidate (draft : KnowledgeDraft) : KnowledgeComparisonSubject where
  knowledgeId := draft.authority.provenance.observationId
  content := draft.request.content
  classification := .projectDecision
  scope := draft.authority.scope
  semanticKey := some draft.semanticKey
  value := some draft.semanticValue
  qualifiers := []
  supersedesKnowledgeIds := []
  exceptionToKnowledgeIds := []

def AdmittedEntry.subject (record : AdmittedEntry) (authority : AuthorityRecord) : KnowledgeComparisonSubject where
  knowledgeId := record.id
  content := record.content
  classification := .projectDecision
  scope := authority.scope
  semanticKey := some record.semanticKey
  value := some record.semanticValue
  qualifiers := []
  supersedesKnowledgeIds := []
  exceptionToKnowledgeIds := []

/-- `findFirst` of an authority's events, the latest first. -/
def latestEvent (authorityId : AuthorityId) (store : AdmissionStore) : Option AdmissionEvent :=
  (store.ledger.rows.filter fun event => event.authorityId = authorityId).argmax AdmissionEvent.occurredAt

def storedAuthority (value : Option AuthorityRecord) : Option AuthorityRecord :=
  value.filter fun authority => (validateAuthorityRecord authority).isOk

/-- One round of the loop in `detectKnowledgeConflict`: the conflict that ends it. -/
def compareRecord (draft : KnowledgeDraft) (record : AdmittedEntry) (store : AdmissionStore) :
    Option (AuthorityConflictResult × AuthorityId) :=
  if record.semanticKey ≠ draft.semanticKey then none
  else match storedAuthority ((latestEvent ⟨record.id⟩ store).bind AdmissionEvent.authorityRecord) with
    | none => if record.semanticValue ≠ draft.semanticValue then some (reviewConflict, ⟨record.id⟩) else none
    | some existingAuthority =>
      let knowledgeConflict :=
        detectConflictConservatively platform draft.candidate (record.subject existingAuthority)
      let precedence := evaluatePrecedence existingAuthority draft.authority .coexist
      let conflict := detectAuthorityConflict existingAuthority draft.authority knowledgeConflict precedence
      if conflict.outcome.passes then none else some (conflict, existingAuthority.authorityId)

structure DetectedConflict where
  semanticGovernanceReason : Option String
  conflict : AuthorityConflictResult
  relatedAuthorityId : Option AuthorityId
  deriving DecidableEq

def KnowledgeDraft.gate (draft : KnowledgeDraft) (conflict : AuthorityConflictResult) : AuthorityGateResult :=
  evaluateGate (resolveAuthority .projectDecision (authoritySource draft.knowledgeId draft.request)) draft.authority
    (evaluateBoundary draft.authority draft.authority.scope) conflict false

def reviewReason (draft : KnowledgeDraft) (detected : DetectedConflict) : String :=
  let gate := draft.gate detected.conflict
  detected.semanticGovernanceReason.getD
    (if gate.reasonCode = "UNRESOLVED_CONFLICT" then detected.conflict.reasonCode else gate.reasonCode)

end Submission

section Transactions

def insertEntry (entry : AdmittedEntry) : AdmissionTx Unit :=
  Tx.write fun store =>
    if entry.overrideOfId.any fun id => (store.entries.find? id).isNone then .error .foreignKeyConstraint
    else match store.entries.insert entry with
      | none => .error .uniqueConstraint
      | some entries => .ok { store with entries }

def insertReview (review : AuthorityReview) : AdmissionTx Unit :=
  Tx.write fun store => match store.reviews.insert review with
    | none => .error .uniqueConstraint
    | some reviews => .ok { store with reviews }

def recordEvent (event : AdmissionEvent) : AdmissionTx Unit :=
  Tx.write fun store => match store.ledger.insert event with
    | none => .error .uniqueConstraint
    | some ledger => .ok { store with ledger }

def draftedEntry (draft : KnowledgeDraft) : AdmittedEntry where
  id := draft.knowledgeId
  scopeId := draft.request.scopeId
  title := trimmed draft.request.title
  content := trimmed draft.request.content
  semanticKey := draft.semanticKey
  semanticValue := draft.semanticValue
  inheritable := draft.request.inheritable
  sourceKnowledgeId := none
  sourceScopeId := none
  createdById := draft.request.actorId
  overrideOfId := draft.request.overrideOfId
  supersededAt := none
  supersededById := none

def assignedEvent (draft : KnowledgeDraft) : AdmissionEvent where
  eventId := .assigned draft.authority.authorityId
  eventType := .authorityAssigned
  authorityId := draft.authority.authorityId
  relatedAuthorityId := none
  reason := "HUMAN_DECISION_ADMITTED"
  authorityRecord := some draft.authority
  authorizedBy := none
  occurredAt := draft.authority.establishedAt

def admitDraft (draft : KnowledgeDraft) : AdmissionTx Unit := do
  insertEntry (draftedEntry draft)
  recordEvent (assignedEvent draft)

def openReview (reviewId reasonCode : String) (draft : KnowledgeDraft) (detected : DetectedConflict) :
    AuthorityReview where
  reviewId
  authorityRecord := draft.authority
  knowledgeSubmission := some
    { knowledgeId := draft.knowledgeId
      scopeId := draft.request.scopeId
      title := trimmed draft.request.title
      content := trimmed draft.request.content
      semanticKey := draft.semanticKey
      semanticValue := draft.semanticValue
      conflictingKnowledgeId := detected.relatedAuthorityId.map AuthorityId.knowledgeId
      inheritable := draft.request.inheritable
      overrideOfId := draft.request.overrideOfId
      actorId := draft.request.actorId }
  reasonCode
  status := .pending
  resolvedAt := none
  resolvedBy := none
  rejectionReason := none
  resolutionAction := none

def challengeEvent (eventId : AdmissionEventId) (eventType : AdmissionEventType) (reason : String)
    (draft : KnowledgeDraft) (detected : DetectedConflict) : AdmissionEvent where
  eventId
  eventType
  authorityId := draft.authority.authorityId
  relatedAuthorityId := detected.relatedAuthorityId
  reason
  authorityRecord := some draft.authority
  authorizedBy := none
  occurredAt := draft.authority.establishedAt

def challenge (draft : KnowledgeDraft) (detected : DetectedConflict) : AdmissionTx Unit := do
  let input ← Tx.ask
  let reason := reviewReason draft detected
  insertReview (openReview input.reviewId reason draft detected)
  recordEvent (challengeEvent (.challenged input.reviewId) .authorityChallenged reason draft detected)
  if detected.semanticGovernanceReason = none ∧ detected.conflict.outcome.passes = false then
    recordEvent (challengeEvent (.conflict input.reviewId) .conflictDetected detected.conflict.reasonCode draft
      detected)
  else pure ()

def isPending (reviewId : String) (store : AdmissionStore) : Bool :=
  (store.reviews.find? reviewId).any fun review => review.status = .pending

/-- An update of a review WHERE it is pending, which throws unless it changes one. -/
def claimReview (reviewId : String) (change : AuthorityReview → AuthorityReview)
    (hKey : ∀ review, (change review).reviewId = review.reviewId) : AdmissionTx Unit :=
  Tx.write fun store =>
    if isPending reviewId store then
      .ok { store with
        reviews := store.reviews.update (fun review => review.reviewId = reviewId ∧ review.status = .pending) change
          hKey fun _ => rfl }
    else .error (.thrown "Authority review has already been resolved.")

def claimed (reviewId : String) (change : AuthorityReview → AuthorityReview)
    (hKey : ∀ review, (change review).reviewId = review.reviewId) (reviews : PlainTable AuthorityReview.reviewId) :
    PlainTable AuthorityReview.reviewId :=
  reviews.update (fun review => review.reviewId = reviewId ∧ review.status = .pending) change hKey fun _ => rfl

def AuthorityReview.approvedBy (approverId : String) (resolution : Option KnowledgeResolution) (now : Nat)
    (review : AuthorityReview) : AuthorityReview :=
  { review with
    status := .approved
    resolvedAt := some now
    resolvedBy := some approverId
    resolutionAction := some (.approved (resolution.getD .coexist)) }

def AuthorityReview.rejectedBy (approverId rejectionReason : String) (now : Nat) (review : AuthorityReview) :
    AuthorityReview :=
  { review with
    status := .rejected
    resolvedAt := some now
    resolvedBy := some approverId
    rejectionReason := some rejectionReason
    resolutionAction := some .reject }

def reviewedEntry (resolution : Option KnowledgeResolution) (submission : KnowledgeSubmission) : AdmittedEntry where
  id := submission.knowledgeId
  scopeId := submission.scopeId
  title := submission.title
  content := submission.content
  semanticKey := submission.semanticKey
  semanticValue := submission.semanticValue
  inheritable := submission.inheritable
  sourceKnowledgeId := none
  sourceScopeId := none
  createdById := submission.actorId
  overrideOfId := if resolution = some .supersede then submission.conflictingKnowledgeId else none
  supersededAt := none
  supersededById := none

def AdmittedEntry.supersededBy (knowledgeId : String) (now : Nat) (entry : AdmittedEntry) : AdmittedEntry :=
  { entry with
    supersededAt := some now
    supersededById := some knowledgeId }

def supersedeEntry (id knowledgeId : String) (now : Nat) : AdmissionTx Unit :=
  Tx.modify fun store =>
    { store with
      entries := store.entries.update (fun entry => entry.id = id) (AdmittedEntry.supersededBy knowledgeId now)
        (fun _ => rfl) fun _ => rfl }

def resolutionText : Option KnowledgeResolution → String
  | some .supersede => "SUPERSEDE"
  | _ => "COEXIST"

def reviewEvent (eventId : AdmissionEventId) (eventType : AdmissionEventType) (reason approverId : String) (now : Nat)
    (relatedAuthorityId : Option AuthorityId) (review : AuthorityReview) : AdmissionEvent where
  eventId
  eventType
  authorityId := review.authorityRecord.authorityId
  relatedAuthorityId
  reason
  authorityRecord := some review.authorityRecord
  authorizedBy := some approverId
  occurredAt := now

def supersedeConflicting (approverId : String) (now : Nat) (resolution : Option KnowledgeResolution)
    (review : AuthorityReview) (submission : KnowledgeSubmission) : AdmissionTx Unit :=
  let conflictingId := submission.conflictingKnowledgeId.getD ""
  if resolution = some .supersede then do
    supersedeEntry conflictingId submission.knowledgeId now
    recordEvent (reviewEvent (.superseded review.reviewId) .knowledgeSuperseded "HUMAN_REVIEW_SUPERSESSION"
      approverId now (some ⟨conflictingId⟩) review)
  else pure ()

/-- The transaction of `approveAuthorityReview` without its look-up of the conflicting entry. -/
def resolveReview (approverId : String) (resolution : Option KnowledgeResolution) (review : AuthorityReview)
    (submission : KnowledgeSubmission) : AdmissionTx Unit := do
  let input ← Tx.ask
  claimReview review.reviewId (AuthorityReview.approvedBy approverId resolution input.now) fun _ => rfl
  insertEntry (reviewedEntry resolution submission)
  supersedeConflicting approverId input.now resolution review submission
  recordEvent (reviewEvent (.approved review.reviewId) .authorityConfirmed
    ("HUMAN_REVIEW_APPROVED:" ++ resolutionText resolution ++ ":" ++ review.reasonCode) approverId input.now none
    review)

/-- The transaction of `rejectAuthorityReview`. -/
def rejectReview (approverId rejectionReason : String) (review : AuthorityReview) : AdmissionTx Unit := do
  let input ← Tx.ask
  claimReview review.reviewId (AuthorityReview.rejectedBy approverId rejectionReason input.now) fun _ => rfl
  recordEvent (reviewEvent (.rejected review.reviewId) .conflictResolved
    ("HUMAN_REVIEW_REJECTED:" ++ rejectionReason) approverId input.now none review)

end Transactions

section Reviews

def pendingAuthorityReview (reviewId : String) (store : AdmissionStore) :
    Except AdmissionError (AuthorityReview × KnowledgeSubmission) :=
  match (store.reviews.find? reviewId).filter fun review => review.status = .pending with
  | none => .error (.thrown "Pending authority review was not found.")
  | some review => match review.knowledgeSubmission with
    | none => .error (.thrown "This review cannot be resolved because its submitted knowledge is unavailable.")
    | some submission => match validateAuthorityRecord review.authorityRecord with
      | .error message => .error (.thrown message)
      | .ok () =>
        if review.authorityRecord.authorityId ≠ ⟨submission.knowledgeId⟩ ∨
            review.authorityRecord.scope.id ≠ some submission.scopeId ∨
            review.authorityRecord.provenance.originatingActorId ≠ submission.actorId then
          .error (.thrown "Authority review integrity check failed.")
        else .ok (review, submission)

/-- The checks of `approveAuthorityReview` before its transaction. -/
def checkResolution (resolution : Option KnowledgeResolution) (submission : KnowledgeSubmission) :
    Except AdmissionError Unit :=
  if (truthy submission.conflictingKnowledgeId).isSome ∧ resolution = none then
    .error (.thrown "Choose whether the conflicting knowledge should coexist or be superseded.")
  else if truthy submission.conflictingKnowledgeId = none ∧ resolution = some .supersede then
    .error (.thrown "Only a conflicting review can supersede established knowledge.")
  else .ok ()

/-- The statements of the transaction that claim the review and find the conflicting entry. -/
def findConflicting (resolution : Option KnowledgeResolution) (reviewId : String) (submission : KnowledgeSubmission)
    (store : AdmissionStore) : Except AdmissionError Unit :=
  if !isPending reviewId store then .error (.thrown "Authority review has already been resolved.")
  else if resolution = some .supersede ∧
      ((store.entries.find? (submission.conflictingKnowledgeId.getD "")).filter fun entry =>
        entry.supersededAt = none) = none then
    .error (.thrown "The conflicting knowledge is no longer available to supersede.")
  else .ok ()

end Reviews

section Turns

variable (platform : Platform)

inductive AdmissionCommand where
  | create (request : KnowledgeRequest)
  | approve (approverId reviewId : String) (resolution : Option KnowledgeResolution)
  | reject (approverId reviewId reason : String)
  deriving DecidableEq

inductive AdmissionReply where
  | knowledge (id : String)
  | review (reviewId reasonCode : String)
  | rejected
  deriving DecidableEq

inductive AdmissionStage where
  | received (command : AdmissionCommand)
  | governing (draft : KnowledgeDraft) (records : List AdmittedEntry)
  | comparing (draft : KnowledgeDraft) (records remaining : List AdmittedEntry)
  | admitting (draft : KnowledgeDraft) (records : List AdmittedEntry)
  | challenging (draft : KnowledgeDraft) (detected : DetectedConflict)
  | claiming (approverId : String) (resolution : Option KnowledgeResolution) (review : AuthorityReview)
      (submission : KnowledgeSubmission)
  | resolving (approverId : String) (resolution : Option KnowledgeResolution) (review : AuthorityReview)
      (submission : KnowledgeSubmission)
  | rejecting (approverId rejectionReason : String) (review : AuthorityReview)
  | ended (result : Except AdmissionError AdmissionReply)

/-- What follows the conflict detection: the gate allows the submission or it needs a review. -/
def decideAdmission (draft : KnowledgeDraft) (records : List AdmittedEntry) (detected : DetectedConflict) :
    AdmissionStage :=
  if (draft.gate detected.conflict).decision = .allow then .admitting draft records else .challenging draft detected

/-- What follows the look-up of the rule. -/
def governSubmission (draft : KnowledgeDraft) (records : List AdmittedEntry) (store : AdmissionStore) :
    AdmissionStage :=
  match validateSemanticKeyGovernance platform draft.scopeKind draft.semanticKey draft.semanticValue store with
  | some reason => decideAdmission draft records ⟨some reason, reviewConflict, none⟩
  | none => match truthy draft.request.overrideOfId with
    | some id => decideAdmission draft records ⟨none, reviewConflict, some ⟨id⟩⟩
    | none => .comparing draft records records

def finish {α : Type} (reply : AdmissionReply) (transaction : AdmissionTx α) (input : AdmissionInput)
    (store : AdmissionStore) : AdmissionStage × AdmissionStore :=
  match Tx.commit transaction input store with
  | (.error error, next) => (.ended (.error error), next)
  | (.ok _, next) => (.ended (.ok reply), next)

/-- One section of a call. A submission waits until it draws an id that is new. -/
def AdmissionStage.advance (input : AdmissionInput) (stage : AdmissionStage) (store : AdmissionStore) :
    AdmissionStage × AdmissionStore :=
  match stage with
  | .received (.create request) =>
    if input.knowledgeId = "" ∨ (store.drafts.find? input.knowledgeId).isSome then
      (.received (.create request), store)
    else match draftKnowledge platform input request store with
      | .error error => (.ended (.error error), store)
      | .ok draft => (.governing draft store.entries.rows, { store with drafts := PlainTable.put store.drafts draft })
  | .received (.approve approverId reviewId resolution) =>
    match pendingAuthorityReview reviewId store with
    | .error error => (.ended (.error error), store)
    | .ok (review, submission) => match checkResolution resolution submission with
      | .error error => (.ended (.error error), store)
      | .ok () => (.claiming approverId resolution review submission, store)
  | .received (.reject approverId reviewId reason) =>
    match pendingAuthorityReview reviewId store with
    | .error error => (.ended (.error error), store)
    | .ok (review, _) =>
      if trimmed reason = "" then (.ended (.error (.thrown "A rejection reason is required.")), store)
      else (.rejecting approverId (trimmed reason) review, store)
  | .governing draft records => (governSubmission platform draft records store, store)
  | .comparing draft records [] => (decideAdmission draft records ⟨none, noConflict, none⟩, store)
  | .comparing draft records (record :: remaining) =>
    match compareRecord platform draft record store with
    | none => (.comparing draft records remaining, store)
    | some (conflict, relatedAuthorityId) =>
      (decideAdmission draft records ⟨none, conflict, some relatedAuthorityId⟩, store)
  | .admitting draft _ => finish (.knowledge draft.knowledgeId) (admitDraft draft) input store
  | .challenging draft detected =>
    finish (.review input.reviewId (reviewReason draft detected)) (challenge draft detected) input store
  | .claiming approverId resolution review submission =>
    match findConflicting resolution review.reviewId submission store with
    | .error error => (.ended (.error error), store)
    | .ok () => (.resolving approverId resolution review submission, store)
  | .resolving approverId resolution review submission =>
    finish (.knowledge submission.knowledgeId) (resolveReview approverId resolution review submission) input store
  | .rejecting approverId rejectionReason review =>
    finish .rejected (rejectReview approverId rejectionReason review) input store
  | .ended result => (.ended result, store)

/-- What other operations write: scopes, and the rules of semantic keys. -/
inductive AdmissionSetup where
  | scope (added : KnowledgeScope)
  | rule (changed : RegisteredRule)

def AdmissionSetup.apply (setup : AdmissionSetup) (store : AdmissionStore) : AdmissionStore :=
  match setup with
  | .scope added => { store with scopes := (store.scopes.insert added).getD store.scopes }
  | .rule changed => { store with rules := PlainTable.put store.rules changed }

def admissionRules : CrowdRules AdmissionCommand AdmissionStage AdmissionInput AdmissionSetup AdmissionStore where
  start := .received
  advance := AdmissionStage.advance platform
  outside := AdmissionSetup.apply

abbrev AdmissionTurn := CrowdTurn AdmissionCommand AdmissionInput AdmissionSetup

abbrev Admissions := Crowd AdmissionStage AdmissionStore

end Turns

end CommandConsole.Governance
