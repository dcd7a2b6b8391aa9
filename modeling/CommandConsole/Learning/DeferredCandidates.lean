import CommandConsole.Library.InsertionMap
import CommandConsole.Library.Run
import Mathlib.Data.List.Sort

/-! # Deferred candidates and their registries

The lifecycle service over a registry, and the two registries: a map in memory and an append-only
file whose entries are chained by hashes.
-/
namespace CommandConsole.Learning.Deferred
open Library
set_option autoImplicit false

inductive DeferredStatus where
  | pending
  | committed
  | rejected
  | reEvaluationRequired
  deriving DecidableEq

structure DeferredRecord where
  deferredCandidateId : String
  candidateId : String
  lastEvaluationId : String
  reasonCodes : List String
  status : DeferredStatus
  createdAt : String
  updatedAt : String
  deriving DecidableEq

abbrev DeferredMap := List (String × DeferredRecord)

def listed (localeCompare : String → String → Int) (status : Option DeferredStatus) (records : DeferredMap) :
    List DeferredRecord :=
  ((records.map Prod.snd).filter fun record => status.all fun wanted => record.status = wanted).insertionSort
    fun left right =>
      let created := localeCompare left.createdAt right.createdAt
      (if created ≠ 0 then created else localeCompare left.deferredCandidateId right.deferredCandidateId) ≤ 0

/-- The operations of a registry; none where one throws. -/
structure Registry (σ : Type) where
  start : σ
  upsert : DeferredRecord → σ → Option (DeferredRecord × σ)
  get : String → σ → Option (Option DeferredRecord)
  list : Option DeferredStatus → σ → Option (List DeferredRecord)

namespace InMemory

def upsert (record : DeferredRecord) (records : DeferredMap) : DeferredRecord × DeferredMap :=
  let persisted :=
    match InsertionMap.get record.deferredCandidateId records with
    | some existing => { record with createdAt := existing.createdAt }
    | none => record
  (persisted, InsertionMap.set record.deferredCandidateId persisted records)

end InMemory

def inMemoryRegistry (localeCompare : String → String → Int) : Registry DeferredMap where
  start := []
  upsert record records := some (InMemory.upsert record records)
  get id records := some (InsertionMap.get id records)
  list status records := some (listed localeCompare status records)

structure LedgerEntry where
  sequence : Nat
  previousHash : Option String
  entryHash : String
  record : DeferredRecord
  deriving DecidableEq

namespace File

/-- The hash of a record with its place in the ledger. -/
abbrev EntryHash := DeferredRecord → Nat → Option String → String

def intact (hash : EntryHash) : Nat → Option String → List LedgerEntry → Bool
  | _, _, [] => true
  | index, previousHash, entry :: rest =>
    entry.sequence == index + 1 && entry.previousHash == previousHash &&
      entry.entryHash == hash entry.record entry.sequence entry.previousHash &&
      intact hash (index + 1) (some entry.entryHash) rest

def readEntries (hash : EntryHash) (entries : List LedgerEntry) : Option (List LedgerEntry) :=
  if intact hash 0 none entries then some entries else none

def derive (entries : List LedgerEntry) : DeferredMap :=
  entries.foldl (fun records entry => InsertionMap.set entry.record.deferredCandidateId entry.record records) []

def current (record : DeferredRecord) (entries : List LedgerEntry) : Option DeferredRecord :=
  match entries.getLast? with
  | some last =>
    if last.record.deferredCandidateId = record.deferredCandidateId then some last.record
    else InsertionMap.get record.deferredCandidateId (derive entries)
  | none => InsertionMap.get record.deferredCandidateId (derive entries)

def nextEntry (hash : EntryHash) (record : DeferredRecord) (entries : List LedgerEntry) : LedgerEntry :=
  let previousHash := entries.getLast?.map LedgerEntry.entryHash
  ⟨entries.length + 1, previousHash, hash record (entries.length + 1) previousHash, record⟩

def upsert (hash : EntryHash) (record : DeferredRecord) (file : List LedgerEntry) :
    Option (DeferredRecord × List LedgerEntry) :=
  (readEntries hash file).map fun entries =>
    if current record entries = some record then (record, file)
    else (record, file ++ [nextEntry hash record entries])

end File

def fileRegistry (hash : File.EntryHash) (localeCompare : String → String → Int) : Registry (List LedgerEntry) where
  start := []
  upsert record file := File.upsert hash record file
  get id file := (File.readEntries hash file).map fun entries => InsertionMap.get id (File.derive entries)
  list status file := (File.readEntries hash file).map fun entries => listed localeCompare status (File.derive entries)

structure GateDecision where
  outcomeDefer : Bool
  candidateId : String
  evaluationId : String
  reasonCodes : List String
  deriving DecidableEq

inductive PromotionStatus where
  | committed
  | deferred
  | rejected
  | reEvaluationRequired
  deriving DecidableEq

structure Promotion where
  status : PromotionStatus
  evaluationId : String
  reasonCodes : List String
  deriving DecidableEq

/-- What a call still has to do. The promotion service has been asked when the call is promoting. -/
inductive CallState where
  | reading (deferredCandidateId candidateId : String)
  | promoting (current : DeferredRecord)
  | storing (record : DeferredRecord)
  | finished
  deriving DecidableEq

/-- A call; the ghost field remembers whether its candidate was committed when it began. -/
structure LifecycleCall where
  beganCommitted : Bool
  state : CallState
  deriving DecidableEq

structure LifecycleWorld (σ : Type) where
  registry : σ
  calls : List LifecycleCall

inductive LifecycleTurn where
  | defer (decision : GateDecision) (now : String)
  | reevaluate (deferredCandidateId candidateId : String)
  | advance (index : Nat) (promotion : Option Promotion) (now : String)
  deriving DecidableEq

def deferredRecord (decision : GateDecision) (now : String) : DeferredRecord where
  deferredCandidateId := "deferred:" ++ decision.candidateId
  candidateId := decision.candidateId
  lastEvaluationId := decision.evaluationId
  reasonCodes := decision.reasonCodes
  status := .pending
  createdAt := now
  updatedAt := now

def promotedStatus : PromotionStatus → DeferredStatus
  | .committed => .committed
  | .deferred => .pending
  | .rejected => .rejected
  | .reEvaluationRequired => .reEvaluationRequired

def promotedRecord (current : DeferredRecord) (promotion : Promotion) (now : String) : DeferredRecord :=
  { current with
    lastEvaluationId := promotion.evaluationId
    reasonCodes := promotion.reasonCodes
    status := promotedStatus promotion.status
    updatedAt := now }

section Machine

variable {σ : Type} (registry : Registry σ)

def recordOf (store : σ) (id : String) : Option DeferredRecord := ((registry.get id store).getD none)

def isCommitted (store : σ) (id : String) : Bool :=
  (recordOf registry store id).any fun record => record.status = .committed

/-- One await of a call; a promotion that throws ends it. -/
def advanceCall (promotion : Option Promotion) (now : String) (store : σ) : CallState → CallState × σ
  | .reading id candidateId =>
    match registry.get id store with
    | none => (.finished, store)
    | some none => (.finished, store)
    | some (some current) => if current.candidateId = candidateId then (.promoting current, store) else (.finished, store)
  | .promoting current =>
    match promotion with
    | none => (.finished, store)
    | some promotion => (.storing (promotedRecord current promotion now), store)
  | .storing record =>
    match registry.upsert record store with
    | none => (.finished, store)
    | some (_, store) => (.finished, store)
  | .finished => (.finished, store)

def lifecycleStep (turn : LifecycleTurn) (world : LifecycleWorld σ) : LifecycleWorld σ :=
  match turn with
  | .defer decision now =>
    if decision.outcomeDefer then
      let record := deferredRecord decision now
      { world with calls := world.calls ++
          [⟨isCommitted registry world.registry record.deferredCandidateId, .storing record⟩] }
    else world
  | .reevaluate id candidateId =>
    { world with calls := world.calls ++ [⟨isCommitted registry world.registry id, .reading id candidateId⟩] }
  | .advance index promotion now =>
    match world.calls[index]? with
    | none => world
    | some call =>
      let (state, store) := advanceCall registry promotion now world.registry call.state
      ⟨store, world.calls.set index { call with state := state }⟩

end Machine

end CommandConsole.Learning.Deferred
