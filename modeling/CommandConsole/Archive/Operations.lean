import CommandConsole.Execution.Text
import CommandConsole.Library.Crowd

/-! # Versions, supersessions and restores of archived knowledge

A supersession changes the statuses of two items and adds a pair of relationships in one
transaction. Nothing looks at the relationships that are there. The audit is written by its own
statements, also the one that a version writes while its transaction is open.
-/
namespace CommandConsole.Archive
open Library
open Execution (trimmed)
set_option autoImplicit false

section Records

inductive KnowledgeStatus where
  | readyForReview
  | approved
  | archived
  | superseded
  | other (text : String)
  deriving DecidableEq

structure ArchiveItem where
  id : String
  title : String
  content : String
  contentType : String
  sourceId : String
  status : KnowledgeStatus
  currentVersion : Nat
  deriving DecidableEq

inductive RelationshipType where
  | supersedes
  | supersededBy
  deriving DecidableEq

/-- The relationships of this service; their confidence is 1 and they are approved. -/
structure Relationship where
  sourceItemId : String
  targetItemId : String
  relationshipType : RelationshipType
  evidence : String
  proposedBy : String
  deriving DecidableEq

inductive AuditOperation where
  | sourceRegistered
  | knowledgeSuperseded
  | provenanceRecorded
  | knowledgeRestored
  deriving DecidableEq

structure AuditEvent where
  operation : AuditOperation
  actor : String
  resourceId : String
  outputReference : String
  deriving DecidableEq

structure ArchiveStore where
  items : PlainTable ArchiveItem.id
  relationships : List Relationship
  audit : List AuditEvent

inductive ArchiveError where
  | thrown (message : String)
  | invalid
  | database
  deriving DecidableEq

end Records

section Operations

def requireArchivePermission (subject : String) : Except ArchiveError Unit :=
  if trimmed subject = "" then .error .invalid
  else if trimmed subject = "nuru.governance.v1" then .ok ()
  else if "nuru.".toList.isPrefixOf (trimmed subject).toList then
    .error (.thrown
      "Permission denied: Agents cannot make durable, destructive, or administrative mutations.")
  else .error (.thrown "Permission denied: Unknown subject; permissions fail closed.")

/-- What the schema leaves of the input of a version. -/
structure ArchiveItemInput where
  title : String
  content : String
  contentType : String
  sourceId : String
  deriving DecidableEq

/-- An update of the row with the id, which fails where there is none. -/
def changeStatus (id : String) (status : KnowledgeStatus) (items : PlainTable ArchiveItem.id) :
    Option (PlainTable ArchiveItem.id) :=
  if (items.find? id).isSome then some (items.update (fun item => item.id = id) fun item => { item with status })
  else none

def supersessionPair (newId oldId evidence actor : String) : List Relationship :=
  [⟨newId, oldId, .supersedes, evidence, actor⟩, ⟨oldId, newId, .supersededBy, evidence, actor⟩]

def versionItem (newId : String) (input : ArchiveItemInput) (previous : ArchiveItem) : ArchiveItem where
  id := newId
  title := input.title
  content := input.content
  contentType := input.contentType
  sourceId := input.sourceId
  status := .archived
  currentVersion := previous.currentVersion + 1

/-- The statements of a version in its transaction, none where one of them fails. -/
def createVersion (newId : String) (input : ArchiveItemInput) (previous : ArchiveItem) (actor : String)
    (store : ArchiveStore) : Option ArchiveStore := do
  let created ← store.items.insert (versionItem newId input previous)
  let items ← changeStatus previous.id .superseded created
  return { store with
           items
           relationships := store.relationships ++
             supersessionPair newId previous.id "Explicit archive version operation." actor }

/-- The transaction of `activateSupersession`. -/
def activate (currentItemId successorItemId actor : String) (store : ArchiveStore) : Option ArchiveStore := do
  let closed ← changeStatus currentItemId .superseded store.items
  let items ← changeStatus successorItemId .archived closed
  return { store with
           items
           relationships := store.relationships ++
             supersessionPair successorItemId currentItemId "Approved supersession review." actor }

def restoreItem (id : String) (store : ArchiveStore) : Option ArchiveStore := do
  let items ← changeStatus id .archived store.items
  return { store with items }

def archiveStatuses : List KnowledgeStatus := [.approved, .archived, .superseded]

end Operations

section Turns

inductive ArchiveRequest where
  | version (previousId : String) (input : Option ArchiveItemInput) (actor : String)
  | activateSupersession (currentItemId successorItemId actor : String)
  | restore (id actor : String)
  deriving DecidableEq

inductive ArchiveReply where
  | missing
  | item (id : String)
  | activated (currentItemId successorItemId : String)
  deriving DecidableEq

/-- A statement that fails: the first write of the turn, the audit inside it, or the commit. -/
inductive Fault where
  | write
  | audit
  | commit
  deriving DecidableEq

structure ArchiveInput where
  newId : String
  fault : Option Fault
  deriving DecidableEq

inductive ArchiveStage where
  | received (request : ArchiveRequest)
  | registering (previous : ArchiveItem) (input : ArchiveItemInput) (actor : String)
  | creating (previous : ArchiveItem) (input : ArchiveItemInput) (actor : String)
  | activating (currentItemId successorItemId actor : String)
  | restoring (id actor : String)
  | auditing (event : AuditEvent) (reply : ArchiveReply)
  | ended (result : Except ArchiveError ArchiveReply)
  deriving DecidableEq

def failed (error : ArchiveError) : ArchiveStage := .ended (.error error)

/-- The calls as far as their look-ups. -/
def readRequest (request : ArchiveRequest) (store : ArchiveStore) : ArchiveStage :=
  match request with
  | .version previousId input actor =>
    match requireArchivePermission actor, input with
    | .error error, _ => failed error
    | .ok _, none => failed .invalid
    | .ok _, some input =>
      match store.items.find? previousId with
      | none => .ended (.ok .missing)
      | some previous => .registering previous input actor
  | .activateSupersession currentItemId successorItemId actor =>
    match requireArchivePermission actor with
    | .error error => failed error
    | .ok _ =>
      if currentItemId = successorItemId then failed (.thrown "A knowledge item cannot supersede itself.")
      else if (store.items.find? currentItemId).isNone ∨ (store.items.find? successorItemId).isNone then
        failed (.thrown "Both current and successor knowledge items must exist.")
      else .activating currentItemId successorItemId actor
  | .restore id actor =>
    match requireArchivePermission actor with
    | .error error => failed error
    | .ok _ =>
      match store.items.find? id with
      | none => .ended (.ok .missing)
      | some item => if item.status ∈ archiveStatuses then .restoring id actor else .ended (.ok .missing)

def ArchiveStore.log (event : AuditEvent) (store : ArchiveStore) : ArchiveStore :=
  { store with audit := store.audit ++ [event] }

/-- The next statement or transaction of a call. -/
def ArchiveStage.advance (input : ArchiveInput) (stage : ArchiveStage) (store : ArchiveStore) :
    ArchiveStage × ArchiveStore :=
  match stage with
  | .received request => (readRequest request store, store)
  | .registering previous item actor =>
    if input.fault.isSome then (failed .database, store)
    else (.creating previous item actor, store.log ⟨.sourceRegistered, actor, item.sourceId, item.sourceId⟩)
  | .creating previous item actor =>
    let event : AuditEvent := ⟨.knowledgeSuperseded, actor, previous.id, input.newId⟩
    match createVersion input.newId item previous actor store, input.fault with
    | some next, none =>
      (.auditing ⟨.provenanceRecorded, "nuru.archive.v1", input.newId, input.newId⟩ (.item input.newId), next.log event)
    -- the audit does not go through the transaction, so it stays when the commit fails
    | some _, some .commit => (failed .database, store.log event)
    | _, _ => (failed .database, store)
  | .activating currentItemId successorItemId actor =>
    match activate currentItemId successorItemId actor store, input.fault with
    | some next, none =>
      (.auditing ⟨.knowledgeSuperseded, actor, currentItemId, successorItemId⟩
        (.activated currentItemId successorItemId), next)
    | _, _ => (failed .database, store)
  | .restoring id actor =>
    match restoreItem id store, input.fault with
    | some next, none => (.auditing ⟨.knowledgeRestored, actor, id, id⟩ (.item id), next)
    | _, _ => (failed .database, store)
  | .auditing event reply =>
    if input.fault.isSome then (failed .database, store) else (.ended (.ok reply), store.log event)
  | .ended result => (.ended result, store)

def ArchiveStore.differs (before after : ArchiveStore) : Bool :=
  before.items.rows ≠ after.items.rows ∨ before.relationships ≠ after.relationships ∨ before.audit ≠ after.audit

/-- A call, and whether it has changed an item, a relationship or the audit. -/
structure ArchiveCall where
  stage : ArchiveStage
  changed : Bool
  deriving DecidableEq

def ArchiveCall.advance (input : ArchiveInput) (call : ArchiveCall) (store : ArchiveStore) :
    ArchiveCall × ArchiveStore :=
  (⟨(call.stage.advance input store).1, call.changed || store.differs (call.stage.advance input store).2⟩,
    (call.stage.advance input store).2)

/-- Other services create items. -/
def addItem (item : ArchiveItem) (store : ArchiveStore) : ArchiveStore :=
  { store with items := (store.items.insert item).getD store.items }

def archiveRules : CrowdRules ArchiveRequest ArchiveCall ArchiveInput ArchiveItem ArchiveStore where
  start request := ⟨.received request, false⟩
  advance := ArchiveCall.advance
  outside := addItem

abbrev ArchiveTurn := CrowdTurn ArchiveRequest ArchiveInput ArchiveItem

abbrev Archives := Crowd ArchiveCall ArchiveStore

end Turns

end CommandConsole.Archive
