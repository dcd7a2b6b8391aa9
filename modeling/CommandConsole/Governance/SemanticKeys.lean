import CommandConsole.Execution.Text
import CommandConsole.Library.Crowd

/-! # The registry of semantic keys

A key has a rule and a history of versions. A change is proposed against the version that the
proposer saw, and an approval by somebody else makes it the next version. Proposals read the
rule and look for a pending request before their transaction; approvals read the request before
theirs and the rule in it.
-/
namespace CommandConsole.Governance
open Library
open Execution (trimmed lowerChar)
set_option autoImplicit false

section Records

inductive ScopeKind where
  | global
  | program
  | project
  | component
  | task
  | session
  deriving DecidableEq

inductive SemanticValueKind where
  | text
  | identifier
  | boolean
  | url
  | version
  | enum
  deriving DecidableEq

inductive SemanticKeyRegistryStatus where
  | active
  | deprecated
  | retired
  deriving DecidableEq

def SemanticKeyRegistryStatus.text : SemanticKeyRegistryStatus → String
  | .active => "ACTIVE"
  | .deprecated => "DEPRECATED"
  | .retired => "RETIRED"

/-- A version has the status of its rule until the next version supersedes it. -/
inductive SemanticKeyVersionStatus where
  | registered (status : SemanticKeyRegistryStatus)
  | superseded
  deriving DecidableEq

inductive SemanticKeyLifecycleOperation where
  | deprecate
  | retire
  deriving DecidableEq

def SemanticKeyLifecycleOperation.text : SemanticKeyLifecycleOperation → String
  | .deprecate => "DEPRECATE"
  | .retire => "RETIRE"

inductive SemanticKeyOperation where
  | upsert
  | lifecycle (operation : SemanticKeyLifecycleOperation)
  deriving DecidableEq

inductive RequestStatus where
  | pending
  | approved
  | rejected
  deriving DecidableEq

structure SemanticKeyContent where
  description : String
  allowedScopeKinds : List ScopeKind
  valueKind : SemanticValueKind
  allowedValues : List String
  deriving DecidableEq

structure SemanticKeyRule extends SemanticKeyContent where
  key : String
  ownerId : String
  version : Nat
  status : SemanticKeyRegistryStatus
  deriving DecidableEq

structure SemanticKeyVersion extends SemanticKeyContent where
  key : String
  version : Nat
  ownerId : String
  status : SemanticKeyVersionStatus
  changeRequestId : Option String
  deriving DecidableEq

def SemanticKeyVersion.number (row : SemanticKeyVersion) : String × Nat := (row.key, row.version)

structure SemanticKeyChangeRequest extends SemanticKeyContent where
  requestId : String
  key : String
  operation : SemanticKeyOperation
  baseVersion : Nat
  requestedById : String
  status : RequestStatus
  approvedById : Option String
  rejectionReason : Option String
  deriving DecidableEq

inductive SemanticKeyEventId where
  | proposed (requestId : String)
  | lifecycleProposed (requestId : String)
  | approved (requestId : String)
  | rejected (requestId : String)
  deriving DecidableEq

inductive AuthorityLedgerEventType where
  | authorityChallenged
  | authorityConfirmed
  | authorityRevoked
  deriving DecidableEq

structure SemanticKeyEvent where
  eventId : SemanticKeyEventId
  eventType : AuthorityLedgerEventType
  key : String
  reason : String
  authorizedBy : String
  deriving DecidableEq

/-- The tables of one workspace. What has taken effect is kept beside them, in order. -/
structure SemanticKeyStore where
  rules : PlainTable SemanticKeyRule.key
  versions : PlainTable SemanticKeyVersion.number
  requests : PlainTable SemanticKeyChangeRequest.requestId
  events : PlainTable SemanticKeyEvent.eventId
  decisions : List (String × RequestStatus)

inductive ScopeError where
  | thrown (message : String)
  | uniqueConstraint
  deriving DecidableEq

end Records

section Lifecycle

def canProposeSemanticKeyLifecycle (currentStatus : SemanticKeyRegistryStatus)
    (operation : SemanticKeyLifecycleOperation) : Bool :=
  match operation with
  | .deprecate => currentStatus = .active
  | .retire => currentStatus = .deprecated

def semanticKeyStatusForOperation : SemanticKeyOperation → SemanticKeyRegistryStatus
  | .upsert => .active
  | .lifecycle .deprecate => .deprecated
  | .lifecycle .retire => .retired

end Lifecycle

section Proposals

structure SemanticKeyInput where
  key : String
  description : String
  allowedScopeKinds : List ScopeKind
  valueKind : SemanticValueKind
  allowedValues : List String
  deriving DecidableEq

/-- What a proposal is going to create. -/
structure SemanticKeyProposal extends SemanticKeyContent where
  key : String
  operation : SemanticKeyOperation
  baseVersion : Nat
  requestedById : String
  deriving DecidableEq

/-- `text.trim().toLocaleLowerCase()`. -/
def normalizedKey (text : String) : String := .ofList ((trimmed text).toList.map lowerChar)

def isLetter (c : Char) : Bool := 'a' ≤ c ∧ c ≤ 'z'

def isLetterOrDigit (c : Char) : Bool := isLetter c ∨ '0' ≤ c ∧ c ≤ '9'

/-- `/^[a-z][a-z0-9]*(\.[a-z0-9][a-z0-9-]*)*$/`. -/
def isSemanticKey (key : String) : Bool :=
  match key.toList.splitOn '.' with
  | (letter :: letters) :: segments =>
    isLetter letter && letters.all isLetterOrDigit && segments.all fun segment => match segment with
      | [] => false
      | first :: rest => isLetterOrDigit first && rest.all fun c => isLetterOrDigit c || c = '-'
  | _ => false

def versionOf (current : Option SemanticKeyRule) : Nat := current.elim 0 SemanticKeyRule.version

/-- `proposeSemanticKeyChange`, as far as the look-up of the rule. -/
def proposeChange (requesterId : String) (input : SemanticKeyInput) (store : SemanticKeyStore) :
    Except ScopeError SemanticKeyProposal :=
  let key := normalizedKey input.key
  let allowedValues := (input.allowedValues.map trimmed).filter fun value => value ≠ ""
  let current := store.rules.find? key
  if ¬isSemanticKey key then .error (.thrown "Semantic keys use dot-separated lowercase identifiers.")
  else if input.valueKind = .enum ∧ allowedValues = [] then
    .error (.thrown "Enum semantic keys require at least one allowed value.")
  else if current.any fun rule => rule.status ≠ .active then
    .error (.thrown "Inactive semantic keys cannot be changed.")
  else
    .ok { description := trimmed input.description
          allowedScopeKinds := input.allowedScopeKinds
          valueKind := input.valueKind
          allowedValues
          key
          operation := .upsert
          baseVersion := versionOf current
          requestedById := requesterId }

/-- `proposeSemanticKeyLifecycle`, as far as the look-up of the rule. -/
def proposeLifecycle (requesterId keyInput : String) (operation : SemanticKeyLifecycleOperation)
    (store : SemanticKeyStore) : Except ScopeError SemanticKeyProposal :=
  match store.rules.find? (normalizedKey keyInput) with
  | none => .error (.thrown "Semantic key was not found.")
  | some current =>
    if ¬canProposeSemanticKeyLifecycle current.status operation then
      .error (.thrown (match operation with
        | .deprecate => "Only an active semantic key can be deprecated."
        | .retire => "Only a deprecated semantic key can be retired."))
    else
      .ok { toSemanticKeyContent := current.toSemanticKeyContent
            key := normalizedKey keyInput
            operation := .lifecycle operation
            baseVersion := current.version
            requestedById := requesterId }

def hasPending (key : String) (store : SemanticKeyStore) : Bool :=
  store.requests.rows.any fun request => request.key = key ∧ request.status = .pending

def SemanticKeyProposal.request (proposal : SemanticKeyProposal) (requestId : String) :
    SemanticKeyChangeRequest where
  toSemanticKeyContent := proposal.toSemanticKeyContent
  requestId
  key := proposal.key
  operation := proposal.operation
  baseVersion := proposal.baseVersion
  requestedById := proposal.requestedById
  status := .pending
  approvedById := none
  rejectionReason := none

def SemanticKeyProposal.event (proposal : SemanticKeyProposal) (requestId : String) : SemanticKeyEvent where
  eventId := match proposal.operation with
    | .upsert => .proposed requestId
    | .lifecycle _ => .lifecycleProposed requestId
  eventType := .authorityChallenged
  key := proposal.key
  reason := (match proposal.operation with
    | .upsert => "SEMANTIC_KEY_CHANGE_PROPOSED:v"
    | .lifecycle operation => "SEMANTIC_KEY_" ++ operation.text ++ "_PROPOSED:v") ++ toString (proposal.baseVersion + 1)
  authorizedBy := proposal.requestedById

/-- The transaction of a proposal, none where a key of its rows is taken. -/
def createRequest (requestId : String) (proposal : SemanticKeyProposal) (store : SemanticKeyStore) :
    Option SemanticKeyStore := do
  let requests ← store.requests.insert (proposal.request requestId)
  let events ← store.events.insert (proposal.event requestId)
  return { store with requests, events }

end Proposals

section Decisions

def pendingRequest (requestId : String) (store : SemanticKeyStore) : Option SemanticKeyChangeRequest :=
  (store.requests.find? requestId).filter fun request => request.status = .pending

def requestNotFound : ScopeError := .thrown "Pending semantic key change was not found."

/-- `approveSemanticKeyChange` before its transaction. -/
def readApproval (approverId requestId : String) (store : SemanticKeyStore) :
    Except ScopeError SemanticKeyChangeRequest :=
  match pendingRequest requestId store with
  | none => .error requestNotFound
  | some request =>
    if request.requestedById = approverId then
      .error (.thrown "A different approver must activate this semantic key change.")
    else .ok request

/-- `rejectSemanticKeyChange` before its transaction. -/
def readRejection (approverId requestId reason : String) (store : SemanticKeyStore) :
    Except ScopeError SemanticKeyChangeRequest :=
  match pendingRequest requestId store with
  | none => .error requestNotFound
  | some request =>
    if request.requestedById = approverId then
      .error (.thrown "A different approver must reject this semantic key change.")
    else if trimmed reason = "" then .error (.thrown "A rejection reason is required.")
    else .ok request

def SemanticKeyChangeRequest.rule (request : SemanticKeyChangeRequest) : SemanticKeyRule where
  toSemanticKeyContent := request.toSemanticKeyContent
  key := request.key
  ownerId := request.requestedById
  version := request.baseVersion + 1
  status := semanticKeyStatusForOperation request.operation

def SemanticKeyChangeRequest.nextVersion (request : SemanticKeyChangeRequest) : SemanticKeyVersion where
  toSemanticKeyContent := request.toSemanticKeyContent
  key := request.key
  version := request.baseVersion + 1
  ownerId := request.requestedById
  status := .registered (semanticKeyStatusForOperation request.operation)
  changeRequestId := some request.requestId

def SemanticKeyChangeRequest.approvedEvent (request : SemanticKeyChangeRequest) (approverId : String) :
    SemanticKeyEvent where
  eventId := .approved request.requestId
  eventType := if semanticKeyStatusForOperation request.operation = .active then .authorityConfirmed
    else .authorityRevoked
  key := request.key
  reason := "SEMANTIC_KEY_" ++ (semanticKeyStatusForOperation request.operation).text ++ ":v" ++
    toString (request.baseVersion + 1)
  authorizedBy := approverId

def SemanticKeyChangeRequest.rejectedEvent (request : SemanticKeyChangeRequest) (approverId reason : String) :
    SemanticKeyEvent where
  eventId := .rejected request.requestId
  eventType := .authorityRevoked
  key := request.key
  reason := "SEMANTIC_KEY_CHANGE_REJECTED:" ++ reason
  authorizedBy := approverId

def SemanticKeyChangeRequest.decidedAs (approverId : String) (status : RequestStatus)
    (rejectionReason : Option String) (request : SemanticKeyChangeRequest) : SemanticKeyChangeRequest :=
  { request with
    status
    approvedById := some approverId
    rejectionReason := rejectionReason <|> request.rejectionReason }

/-- The update of a request, which does not look at its status. -/
def decideRequest (requestId approverId : String) (status : RequestStatus) (rejectionReason : Option String)
    (requests : PlainTable SemanticKeyChangeRequest.requestId) : PlainTable SemanticKeyChangeRequest.requestId :=
  requests.update (fun request => request.requestId = requestId)
    (SemanticKeyChangeRequest.decidedAs approverId status rejectionReason)

/-- `updateMany` of the versions of a key that are ACTIVE or DEPRECATED. -/
def supersedeVersions (key : String) (versions : PlainTable SemanticKeyVersion.number) :
    PlainTable SemanticKeyVersion.number :=
  versions.update
    (fun row => row.key = key ∧ (row.status = .registered .active ∨ row.status = .registered .deprecated))
    fun row => { row with status := .superseded }

/-- What an approval writes, none where a key of its rows is taken. -/
def activate (approverId : String) (request : SemanticKeyChangeRequest) (current : Option SemanticKeyRule)
    (store : SemanticKeyStore) : Option SemanticKeyStore := do
  let earlier := if current.isSome then supersedeVersions request.key store.versions else store.versions
  let versions ← earlier.insert request.nextVersion
  let events ← store.events.insert (request.approvedEvent approverId)
  return { rules := PlainTable.put store.rules request.rule
           versions
           requests := decideRequest request.requestId approverId .approved none store.requests
           events
           decisions := store.decisions ++ [(request.requestId, .approved)] }

/-- What a rejection writes, none where its event is there already. -/
def refuse (approverId reason : String) (request : SemanticKeyChangeRequest) (store : SemanticKeyStore) :
    Option SemanticKeyStore := do
  let events ← store.events.insert (request.rejectedEvent approverId reason)
  return { store with
           requests := decideRequest request.requestId approverId .rejected (some reason) store.requests
           events
           decisions := store.decisions ++ [(request.requestId, .rejected)] }

end Decisions

section Turns

inductive SemanticKeyCommand where
  | propose (requesterId : String) (input : SemanticKeyInput)
  | proposeLifecycle (requesterId keyInput : String) (operation : SemanticKeyLifecycleOperation)
  | approve (approverId requestId : String)
  | reject (approverId requestId reason : String)
  deriving DecidableEq

inductive SemanticKeyReply where
  | request (row : SemanticKeyChangeRequest)
  | rule (row : SemanticKeyRule)
  | rejected
  deriving DecidableEq

inductive SemanticKeyStage where
  | received (command : SemanticKeyCommand)
  | looking (proposal : SemanticKeyProposal)
  | creating (proposal : SemanticKeyProposal)
  | comparing (approverId : String) (request : SemanticKeyChangeRequest)
  | activating (approverId : String) (request : SemanticKeyChangeRequest) (current : Option SemanticKeyRule)
  | refusing (approverId reason : String) (request : SemanticKeyChangeRequest)
  | ended (result : Except ScopeError SemanticKeyReply)

def failed (error : ScopeError) : SemanticKeyStage := .ended (.error error)

/-- A transaction that fails leaves the store as it was. -/
def committed (result : Option SemanticKeyStore) (reply : SemanticKeyReply) (store : SemanticKeyStore) :
    SemanticKeyStage × SemanticKeyStore :=
  match result with
  | none => (failed .uniqueConstraint, store)
  | some next => (.ended (.ok reply), next)

def readCommand (command : SemanticKeyCommand) (store : SemanticKeyStore) : Except ScopeError SemanticKeyStage :=
  match command with
  | .propose requesterId input => (proposeChange requesterId input store).map SemanticKeyStage.looking
  | .proposeLifecycle requesterId keyInput operation =>
    (Governance.proposeLifecycle requesterId keyInput operation store).map SemanticKeyStage.looking
  | .approve approverId requestId =>
    (readApproval approverId requestId store).map (SemanticKeyStage.comparing approverId)
  | .reject approverId requestId reason =>
    (readRejection approverId requestId reason store).map (SemanticKeyStage.refusing approverId (trimmed reason))

/-- The next statement or transaction of a call; a new request gets the given id. -/
def SemanticKeyStage.advance (requestId : String) (stage : SemanticKeyStage) (store : SemanticKeyStore) :
    SemanticKeyStage × SemanticKeyStore :=
  match stage with
  | .received command =>
    match readCommand command store with
    | .error error => (failed error, store)
    | .ok next => (next, store)
  | .looking proposal =>
    if hasPending proposal.key store then
      (failed (.thrown "A change request for this semantic key is already pending."), store)
    else (.creating proposal, store)
  | .creating proposal =>
    committed (createRequest requestId proposal store) (.request (proposal.request requestId)) store
  | .comparing approverId request =>
    let current := store.rules.find? request.key
    if versionOf current ≠ request.baseVersion then
      (failed (.thrown "Semantic key changed since this request was proposed."), store)
    else (.activating approverId request current, store)
  | .activating approverId request current =>
    committed (activate approverId request current store) (.rule request.rule) store
  | .refusing approverId reason request => committed (refuse approverId reason request store) .rejected store
  | .ended result => (.ended result, store)

def semanticKeyRules : CrowdRules SemanticKeyCommand SemanticKeyStage String Empty SemanticKeyStore where
  start := .received
  advance := SemanticKeyStage.advance
  outside op := nomatch op

abbrev SemanticKeyTurn := CrowdTurn SemanticKeyCommand String Empty

abbrev SemanticKeys := Crowd SemanticKeyStage SemanticKeyStore

/-- The rules that a migration found, each with its first version. -/
def migrated (rules : PlainTable SemanticKeyRule.key) : SemanticKeyStore where
  rules := rules.update (fun _ => true) fun rule => { rule with version := 1, status := .active }
  versions :=
    { rows := rules.rows.map fun rule =>
        { toSemanticKeyContent := rule.toSemanticKeyContent
          key := rule.key
          version := 1
          ownerId := rule.ownerId
          status := .registered .active
          changeRequestId := none }
      unique := by
        rw [List.pairwise_map]
        exact rules.unique.imp fun h => ⟨fun hNumber => h.1 (Prod.mk.inj hNumber).1, h.2⟩ }
  requests := .empty
  events := .empty
  decisions := []

end Turns

end CommandConsole.Governance
