import CommandConsole.Library.Script
import Mathlib.Algebra.Order.Ring.Rat
import Mathlib.Data.List.Sort

/-! # The task queue of the agents

The queue is one document of the database. Every operation loads the whole document, changes
one task and saves the whole document, with a command to the database for each.
-/
namespace CommandConsole.Agents
open Library
set_option autoImplicit false

section Tasks

inductive TaskStatus where
  | queued
  | claimed
  | completed
  | other (text : String)
  deriving DecidableEq

structure TaskCallback where
  enabled : Bool
  notifyAgent : String
  callbackMessageId : Option String
  callbackSentAt : Option Int
  callbackSummary : Option String
  deriving DecidableEq

structure Task where
  id : String
  agentName : String
  description : String
  status : TaskStatus
  priority : Rat
  sourceAgent : String
  delegationReason : String
  tags : List String
  sourceMessageId : Option String
  sourceInboxAgent : Option String
  workspaceId : Option String
  ownerId : Option String
  ownerName : Option String
  linkedInboxItemId : Option String
  linkedWorkspaceId : Option String
  callback : Option TaskCallback
  createdAt : Int
  claimedAt : Option Int
  completedAt : Option Int
  result : Option String
  deriving DecidableEq

/-- The options of a new task, where `priority` is the finite number that it converts to, if any. -/
structure TaskOptions where
  priority : Option Rat := none
  sourceAgent : Option String := none
  delegationReason : Option String := none
  tags : Option (List String) := none
  sourceMessageId : Option String := none
  sourceInboxAgent : Option String := none
  workspaceId : Option String := none
  ownerId : Option String := none
  ownerName : Option String := none
  linkedInboxItemId : Option String := none
  linkedWorkspaceId : Option String := none
  callbackEnabled : Option Bool := none
  notifyAgent : Option String := none

structure CallbackPatch where
  enabled : Option Bool := none
  notifyAgent : Option String := none
  callbackMessageId : Option (Option String) := none
  callbackSentAt : Option (Option Int) := none
  callbackSummary : Option (Option String) := none

/-- `text || null`. -/
def orNull (text : Option String) : Option String := text.filter fun value => value ≠ ""

/-- `Number(task.priority || 3)`. -/
def Task.rank (task : Task) : Rat := if task.priority = 0 then 3 else task.priority

/-- The order of the comparison by priority, then by the time of creation. -/
def Task.Before (a b : Task) : Prop := a.rank < b.rank ∨ (a.rank = b.rank ∧ a.createdAt ≤ b.createdAt)

instance (a b : Task) : Decidable (a.Before b) := inferInstanceAs (Decidable (_ ∨ _))

def sortTasks (tasks : List Task) : List Task := tasks.insertionSort Task.Before

end Tasks

section Storage

structure Document where
  createdAt : Option Int
  updatedAt : Option Int
  tasks : Option (List Task)
  deriving DecidableEq

/-- The row of the document. The payload is none where its text does not parse. -/
structure DocumentRow where
  payload : Option Document
  createdAt : Int
  deriving DecidableEq

inductive LegacyFile where
  | absent
  | unparsable
  | written (document : Document)
  deriving DecidableEq

/-- What a call has found out about the row, until something that it asks for fails. -/
inductive Sight where
  | unread
  | read (record : Option DocumentRow)
  | failed
  deriving DecidableEq

structure Trace where
  sight : Sight
  readFailed : Bool
  changed : Bool
  deriving DecidableEq

/-- The row and the legacy file, with what each call has met and which tasks a write of it handed out. -/
structure Storage where
  record : Option DocumentRow
  legacy : LegacyFile
  traces : Nat → Trace
  claims : List (Nat × String)

def Storage.begin (record : Option DocumentRow) (legacy : LegacyFile) : Storage :=
  ⟨record, legacy, fun _ => ⟨.unread, false, false⟩, []⟩

def Document.taskList (document : Document) : List Task := document.tasks.getD []

def DocumentRow.taskList (row : DocumentRow) : List Task := (row.payload.map Document.taskList).getD []

/-- The tasks that a call has seen in the row. -/
def Sight.taskList : Sight → List Task
  | read (some row) => row.taskList
  | _ => []

/-- The stored queue. -/
def Storage.tasks (storage : Storage) : List Task :=
  match storage.record with
  | some row => row.taskList
  | none =>
    match storage.legacy with
    | .written document => document.taskList
    | _ => []

inductive Access where
  | succeeds
  | fails
  | malformed
  deriving DecidableEq

inductive Command where
  | readRecord
  | writeRecord (document : Document)
  | readLegacyJson
  | writeLegacyJson (document : Document)
  | writeLegacyJsonMirrorsEnabled
  | now
  | makeTaskId

abbrev Answer : Command → Type
  | .readRecord => Option DocumentRow
  | .writeRecord _ => Unit
  | .readLegacyJson => Option Document
  | .writeLegacyJson _ => Unit
  | .writeLegacyJsonMirrorsEnabled => Bool
  | .now => Int
  | .makeTaskId => String

structure Circumstance where
  access : Access := .succeeds
  time : Int := 0
  taskId : String := ""
  mirrors : Bool := false

def Storage.mark (storage : Storage) (index : Nat) (change : Trace → Trace) : Storage :=
  { storage with traces := Function.update storage.traces index (change (storage.traces index)) }

/-- The first reading of the row is the one that a load parses. -/
def Trace.sees (record : Option DocumentRow) (trace : Trace) : Trace :=
  if trace.sight = .unread then
    if record.any fun row => row.payload.isNone then { trace with sight := .failed, readFailed := true }
    else { trace with sight := .read record }
  else trace

def Trace.readFails (trace : Trace) : Trace := { trace with sight := .failed, readFailed := true }

def Trace.writeFails (trace : Trace) : Trace := { trace with sight := .failed }

/-- The tasks that are queued before and no longer after. -/
def handedOut (before after : List Task) : List String :=
  ((before.filter fun task => task.status = .queued).map Task.id).filter fun id =>
    after.any fun task => task.id = id ∧ task.status ≠ .queued

def Storage.remove (storage : Storage) (index : Nat) : Storage :=
  let removed := { storage with record := none }
  removed.mark index fun trace =>
    { trace.readFails with changed := trace.changed || decide (removed.tasks ≠ storage.tasks) }

def Storage.write (storage : Storage) (index : Nat) (row : DocumentRow) : Storage where
  record := some row
  legacy := storage.legacy
  traces := Function.update storage.traces index
    { storage.traces index with
      sight := .read (some row)
      changed := (storage.traces index).changed || decide (row.taskList ≠ storage.tasks) }
  claims := storage.claims ++ (handedOut storage.tasks row.taskList).map fun id => (index, id)

/-- A malformed database is removed, and read or written anew. -/
def perform (index : Nat) (circumstance : Circumstance) :
    (command : Command) → Storage → Option (Option (Answer command) × Storage)
  | .readRecord, storage =>
    match circumstance.access with
    | .succeeds => some (some storage.record, storage.mark index (Trace.sees storage.record))
    | .fails => some (none, storage.mark index Trace.readFails)
    | .malformed => some (some none, storage.remove index)
  | .writeRecord document, storage =>
    match circumstance.access with
    | .fails => some (none, storage.mark index Trace.writeFails)
    | _ => some (some (), storage.write index ⟨some document, document.createdAt.getD 0⟩)
  | .readLegacyJson, storage =>
    match circumstance.access, storage.legacy with
    | .succeeds, .absent => some (some none, storage)
    | .succeeds, .written document => some (some (some document), storage)
    | _, _ => some (none, storage.mark index Trace.readFails)
  | .writeLegacyJson document, storage =>
    match circumstance.access with
    | .succeeds => some (some (), { storage with legacy := .written document })
    | .fails => some (none, storage.mark index Trace.writeFails)
    | .malformed => some (none, { storage.mark index Trace.writeFails with legacy := .unparsable })
  | .writeLegacyJsonMirrorsEnabled, storage => some (some circumstance.mirrors, storage)
  | .now, storage => some (some circumstance.time, storage)
  | .makeTaskId, storage => some (some circumstance.taskId, storage)

end Storage

section Operations

structure Platform where
  toLowerCase : String → String
  trim : String → String

variable (platform : Platform)

abbrev Operation := Script Command Answer

abbrev ask (command : Command) : Operation (Answer command) := Script.ask command

def saveDocument (value : Document) : Operation Document := do
  let existing ← ask .readRecord
  let now ← ask .now
  let createdAt := (value.createdAt.or (existing.map DocumentRow.createdAt)).getD now
  let normalized : Document := { value with createdAt := some createdAt, updatedAt := some now }
  ask (.writeRecord normalized)
  let mirrors ← ask .writeLegacyJsonMirrorsEnabled
  if mirrors then
    ask (.writeLegacyJson normalized)
    pure normalized
  else pure normalized

def defaultQueue (now : Int) : Document := ⟨some now, some now, some []⟩

def loadDocument : Operation Document := do
  let record ← ask .readRecord
  match record with
  | some row => Script.ofOption row.payload
  | none =>
    let initial ← (ask .readLegacyJson).attempt
    match initial with
    | some (some document) => saveDocument document
    | _ =>
      let now ← ask .now
      saveDocument (defaultQueue now)

structure TaskQueue where
  createdAt : Option Int
  updatedAt : Option Int
  tasks : List Task
  error : Bool

def loadQueue : Operation TaskQueue := do
  let parsed ← loadDocument.attempt
  match parsed with
  | some document => pure ⟨document.createdAt, document.updatedAt, document.tasks.getD [], false⟩
  | none =>
    let now ← ask .now
    pure ⟨none, some now, [], true⟩

def saveQueue (queue : TaskQueue) : Operation Document := do
  let now ← ask .now
  saveDocument ⟨some (queue.createdAt.getD now), none, some queue.tasks⟩

def newTask (id : String) (createdAt : Int) (agentName description : String) (options : TaskOptions) : Task where
  id := id
  agentName := agentName
  description := platform.trim description
  status := .queued
  priority := options.priority.getD 3
  sourceAgent := (orNull options.sourceAgent).getD "user"
  delegationReason := options.delegationReason.getD ""
  tags := options.tags.getD []
  sourceMessageId := orNull options.sourceMessageId
  sourceInboxAgent := orNull options.sourceInboxAgent
  workspaceId := orNull options.workspaceId
  ownerId := orNull options.ownerId
  ownerName := orNull options.ownerName
  linkedInboxItemId := orNull options.linkedInboxItemId
  linkedWorkspaceId := orNull options.linkedWorkspaceId
  callback := some ⟨decide (options.callbackEnabled ≠ some false), (orNull options.notifyAgent).getD "manager", none, none,
    none⟩
  createdAt := createdAt
  claimedAt := none
  completedAt := none
  result := none

def makeTask (agentName description : String) (options : TaskOptions) : Operation Task := do
  let id ← ask .makeTaskId
  let createdAt ← ask .now
  pure (newTask platform id createdAt agentName description options)

def addTask (agentName description : String) (options : TaskOptions) : Operation (Option Task) := do
  let queue ← loadQueue
  let task ← makeTask platform agentName description options
  let _ ← saveQueue { queue with tasks := queue.tasks ++ [task] }
  pure (some task)

def queuedMatches (agentName : String) (tasks : List Task) : List Task :=
  tasks.filter fun task =>
    platform.toLowerCase task.agentName = platform.toLowerCase agentName ∧ task.status = .queued

def Task.claim (now : Int) (task : Task) : Task := { task with status := .claimed, claimedAt := some now }

def claimNextTask (agentName : String) : Operation (Option Task) := do
  let queue ← loadQueue
  match (sortTasks (queuedMatches platform agentName queue.tasks)).head? with
  | none => pure none
  | some nextTask =>
    match queue.tasks.find? fun task => task.id = nextTask.id with
    | none => .fail
    | some realTask =>
      let now ← ask .now
      let index := queue.tasks.findIdx fun task => task.id = nextTask.id
      let _ ← saveQueue { queue with tasks := queue.tasks.set index (realTask.claim now) }
      pure (some (realTask.claim now))

/-- The updater is itself a part of the call; it throws where it fails. -/
def updateTask (taskId : String) (updater : Task → Operation Task) : Operation (Option Task) := do
  let queue ← loadQueue
  match queue.tasks.find? fun task => task.id = taskId with
  | none => pure none
  | some current =>
    let updated ← updater current
    let index := queue.tasks.findIdx fun task => task.id = taskId
    let _ ← saveQueue { queue with tasks := queue.tasks.set index updated }
    pure (some updated)

def Task.complete (result : Option String) (now : Int) (task : Task) : Task :=
  { task with status := .completed, completedAt := some now, result := orNull result }

def completeTask (taskId : String) (result : Option String) : Operation (Option Task) :=
  updateTask taskId fun task => do
    let now ← ask .now
    pure (task.complete result now)

def TaskCallback.default : TaskCallback := ⟨true, "manager", none, none, none⟩

def Task.patchCallback (patch : CallbackPatch) (task : Task) : Task :=
  let callback := task.callback.getD .default
  { task with
    callback := some
      ⟨patch.enabled.getD callback.enabled, patch.notifyAgent.getD callback.notifyAgent,
        patch.callbackMessageId.getD callback.callbackMessageId, patch.callbackSentAt.getD callback.callbackSentAt,
        patch.callbackSummary.getD callback.callbackSummary⟩ }

def setTaskCallback (taskId : String) (callbackPatch : CallbackPatch) : Operation (Option Task) :=
  updateTask taskId fun task => pure (task.patchCallback callbackPatch)

inductive Request where
  | addTask (agentName description : String) (options : TaskOptions)
  | claimNextTask (agentName : String)
  | updateTask (taskId : String) (updater : Option (Task → Option Task))
  | completeTask (taskId : String) (result : Option String)
  | setTaskCallback (taskId : String) (callbackPatch : CallbackPatch)

def Request.operation : Request → Operation (Option Task)
  | addTask agentName description options => Agents.addTask platform agentName description options
  | claimNextTask agentName => Agents.claimNextTask platform agentName
  | updateTask taskId updater => Agents.updateTask taskId fun task =>
    Script.ofOption ((updater.getD some) task)
  | completeTask taskId result => Agents.completeTask taskId result
  | setTaskCallback taskId callbackPatch => Agents.setTaskCallback taskId callbackPatch

end Operations

end CommandConsole.Agents
