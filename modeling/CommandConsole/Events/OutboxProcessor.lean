import CommandConsole.Library.BatchQueue
import CommandConsole.Library.Table
import Mathlib.Data.List.Sort

/-! # The outbox processor

A run takes the oldest unprocessed messages in one batch. A published message
is marked processed; one that fails keeps its place and counts the attempt.
-/
namespace CommandConsole.Events
open Library
set_option autoImplicit false

/-- A row of `outbox_messages`. -/
structure OutboxMessage where
  id : String
  payloadJson : String
  createdAtUtc : Int
  processedAtUtc : Option Int
  attempts : Nat
  lastError : Option String
  deriving DecidableEq

abbrev Outbox := PlainTable OutboxMessage.id

/-- The serializer and the publisher; a failure is the type name of its exception. -/
structure EventPublisher (ε : Type) where
  deserialize : String → Except String (Option ε)
  publish : ε → Except String Unit

def batchSize : Nat := 50

section Processor

variable {ε : Type} (publisher : EventPublisher ε)

def deliver (payloadJson : String) : Except String Unit := do
  match ← publisher.deserialize payloadJson with
  | none => throw "InvalidOperationException"
  | some envelope => publisher.publish envelope

def fails (message : OutboxMessage) : Bool := !(deliver publisher message.payloadJson).isOk

/-- The body of the loop over the messages of a batch. -/
def settle (nowUtc : Int) (message : OutboxMessage) : OutboxMessage :=
  match deliver publisher message.payloadJson with
  | .ok _ => { message with processedAtUtc := some nowUtc, lastError := none }
  | .error name => { message with attempts := message.attempts + 1, lastError := some name }

theorem settle_id (nowUtc : Int) (message : OutboxMessage) : (settle publisher nowUtc message).id = message.id := by
  unfold settle
  split <;> rfl

/-- WHERE ProcessedAtUtc IS NULL ORDER BY CreatedAtUtc; messages of one instant stand in the order of the table. -/
def pending (outbox : Outbox) : List OutboxMessage :=
  (outbox.rows.insertionSort fun left right => left.createdAtUtc ≤ right.createdAtUtc).filter
    fun message => message.processedAtUtc.isNone

def batch (outbox : Outbox) : List OutboxMessage := (pending outbox).take batchSize

/-- The outbox after a run, and the ids of the messages that it published. -/
def processPending (nowUtc : Int) (outbox : Outbox) : Outbox × List String :=
  (outbox.update (fun message => message.id ∈ (batch outbox).map OutboxMessage.id) (settle publisher nowUtc)
      (settle_id publisher nowUtc) (fun _ => rfl),
    ((batch outbox).filter fun message => !fails publisher message).map OutboxMessage.id)

/-- Consecutive runs, each at its own instant. -/
def processRuns (outbox : Outbox) : List Int → Outbox × List String
  | [] => (outbox, [])
  | nowUtc :: rest =>
    let first := processPending publisher nowUtc outbox
    let last := processRuns first.1 rest
    (last.1, first.2 ++ last.2)

/-- What a run never changes of a message. -/
def OutboxMessage.key (message : OutboxMessage) : String × String := (message.id, message.payloadJson)

def refused (key : String × String) : Bool := !(deliver publisher key.2).isOk

theorem fails_eq_refused (message : OutboxMessage) : fails publisher message = refused publisher message.key := rfl

/-- A row after a run, by whether its message was in the batch. -/
def served (nowUtc : Int) (outbox : Outbox) (message : OutboxMessage) : OutboxMessage :=
  if message.id ∈ (batch outbox).map OutboxMessage.id then settle publisher nowUtc message else message

section Step

variable (nowUtc : Int) (outbox : Outbox)

theorem settle_key (message : OutboxMessage) : (settle publisher nowUtc message).key = message.key := by
  unfold settle
  split <;> rfl

theorem settle_createdAtUtc (message : OutboxMessage) :
    (settle publisher nowUtc message).createdAtUtc = message.createdAtUtc := by
  unfold settle
  split <;> rfl

theorem settle_processedAtUtc (message : OutboxMessage) :
    (settle publisher nowUtc message).processedAtUtc =
      if fails publisher message then message.processedAtUtc else some nowUtc := by
  unfold settle fails
  split <;> rename_i hDeliver <;> rw [hDeliver] <;> rfl

theorem served_key (message : OutboxMessage) : (served publisher nowUtc outbox message).key = message.key := by
  unfold served
  split
  · exact settle_key publisher nowUtc message
  · rfl

theorem served_createdAtUtc (message : OutboxMessage) :
    (served publisher nowUtc outbox message).createdAtUtc = message.createdAtUtc := by
  unfold served
  split
  · exact settle_createdAtUtc publisher nowUtc message
  · rfl

theorem rows_processPending :
    (processPending publisher nowUtc outbox).1.rows = outbox.rows.map (served publisher nowUtc outbox) := by
  rw [processPending, Table.rows_update]
  refine List.map_congr_left fun message _ => ?_
  simp only [served, decide_eq_true_eq]

theorem eq_of_key {left right : OutboxMessage} (hLeft : left ∈ outbox.rows) (hRight : right ∈ outbox.rows)
    (h : left.id = right.id) : left = right := outbox.eq_of_key_eq hLeft hRight h

theorem mem_pending {message : OutboxMessage} :
    message ∈ pending outbox ↔ message ∈ outbox.rows ∧ message.processedAtUtc = none := by
  simp [pending, List.mem_insertionSort]

theorem nodup_keys : ((pending outbox).map OutboxMessage.key).Nodup := by
  have hRows : (outbox.rows.map OutboxMessage.key).Nodup := by
    rw [List.Nodup, List.pairwise_map]
    exact outbox.unique.imp fun h hKey => h.1 (congrArg Prod.fst hKey)
  have hSorted := ((List.perm_insertionSort (fun left right : OutboxMessage =>
    left.createdAtUtc ≤ right.createdAtUtc) outbox.rows).map OutboxMessage.key).nodup_iff.mpr hRows
  exact hSorted.sublist (List.filter_sublist.map _)

theorem mem_batch_iff {message : OutboxMessage} (hMessage : message ∈ outbox.rows) :
    message.id ∈ (batch outbox).map OutboxMessage.id ↔
      message.key ∈ ((pending outbox).map OutboxMessage.key).take batchSize := by
  rw [← List.map_take, List.mem_map, List.mem_map]
  constructor
  · rintro ⟨other, hOther, hId⟩
    have hRow := (mem_pending outbox).mp (List.mem_of_mem_take hOther)
    exact ⟨other, hOther, by rw [eq_of_key outbox hRow.1 hMessage hId]⟩
  · rintro ⟨other, hOther, hKey⟩
    exact ⟨other, hOther, congrArg Prod.fst hKey⟩

/-- A run serves the queue of the pending messages once. -/
theorem pending_processPending :
    (pending (processPending publisher nowUtc outbox).1).map OutboxMessage.key =
      BatchQueue.serve batchSize (refused publisher) ((pending outbox).map OutboxMessage.key) := by
  have hSort : (processPending publisher nowUtc outbox).1.rows.insertionSort
      (fun left right => left.createdAtUtc ≤ right.createdAtUtc) =
        (outbox.rows.insertionSort fun left right => left.createdAtUtc ≤ right.createdAtUtc).map
          (served publisher nowUtc outbox) := by
    rw [rows_processPending]
    refine (List.map_insertionSort _ _ _ _ fun left _ right _ => ?_).symm
    rw [served_createdAtUtc, served_createdAtUtc]
  have hKeys : OutboxMessage.key ∘ served publisher nowUtc outbox = OutboxMessage.key :=
    funext (served_key publisher nowUtc outbox)
  rw [pending, hSort, List.filter_map, List.map_map, hKeys, ← BatchQueue.filter_served _ _ (nodup_keys outbox),
    List.filter_map, pending, List.filter_filter]
  refine congrArg _ (List.filter_congr fun message hMessage => ?_)
  rw [List.mem_insertionSort] at hMessage
  have hBatch := mem_batch_iff outbox hMessage
  simp only [Function.comp_apply, served, ← fails_eq_refused]
  by_cases hIn : message.id ∈ (batch outbox).map OutboxMessage.id
  · rw [if_pos hIn, settle_processedAtUtc]
    rw [hBatch] at hIn
    have hPending : message.processedAtUtc = none := by
      rw [← List.map_take, List.mem_map] at hIn
      obtain ⟨other, hOther, hKey⟩ := hIn
      have hRow := (mem_pending outbox).mp (List.mem_of_mem_take hOther)
      rw [← eq_of_key outbox hRow.1 hMessage (congrArg Prod.fst hKey)]
      exact hRow.2
    rw [pending] at hIn
    cases hFails : fails publisher message <;> simp [hIn, hPending]
  · rw [if_neg hIn]
    rw [hBatch, pending] at hIn
    simp [hIn]

/-- Rows keep their keys, marks stay, and a new mark goes to a message that was published. -/
structure Follows (outbox next : Outbox) (published : List String) : Prop where
  forth : ∀ message ∈ outbox.rows, ∃ row ∈ next.rows, row.key = message.key
  back : ∀ row ∈ next.rows, ∃ message ∈ outbox.rows, row.key = message.key ∧
    (row.processedAtUtc = none → message.processedAtUtc = none) ∧
      (row.processedAtUtc ≠ none → message.processedAtUtc = none →
        fails publisher message = false ∧ message.id ∈ published)

theorem follows_processPending :
    Follows publisher outbox (processPending publisher nowUtc outbox).1
      (processPending publisher nowUtc outbox).2 where
  forth := by
    intro message hMessage
    rw [rows_processPending]
    exact ⟨_, List.mem_map_of_mem hMessage, served_key publisher nowUtc outbox message⟩
  back := by
    intro row hRow
    rw [rows_processPending] at hRow
    obtain ⟨message, hMessage, rfl⟩ := List.mem_map.mp hRow
    refine ⟨message, hMessage, served_key publisher nowUtc outbox message, ?_⟩
    unfold served
    by_cases hIn : message.id ∈ (batch outbox).map OutboxMessage.id
    · rw [if_pos hIn, settle_processedAtUtc]
      cases hFails : fails publisher message with
      | true => simp
      | false =>
        refine ⟨by simp, fun _ _ => ⟨rfl, ?_⟩⟩
        obtain ⟨other, hOther, hId⟩ := List.mem_map.mp hIn
        have hRow := (mem_pending outbox).mp (List.mem_of_mem_take hOther)
        obtain rfl := eq_of_key outbox hRow.1 hMessage hId
        exact List.mem_map_of_mem (List.mem_filter.mpr ⟨hOther, by simp [hFails]⟩)
    · rw [if_neg hIn]
      exact ⟨id, fun hMarked hNone => absurd hNone hMarked⟩

end Step

theorem Follows.trans {publisher : EventPublisher ε} {outbox next last : Outbox} {published published' : List String}
    (h : Follows publisher outbox next published) (h' : Follows publisher next last published') :
    Follows publisher outbox last (published ++ published') where
  forth := by
    intro message hMessage
    obtain ⟨row, hRow, hKey⟩ := h.forth message hMessage
    obtain ⟨final, hFinal, hKey'⟩ := h'.forth row hRow
    exact ⟨final, hFinal, hKey'.trans hKey⟩
  back := by
    intro final hFinal
    obtain ⟨row, hRow, hKey', hOpen', hMarked'⟩ := h'.back final hFinal
    obtain ⟨message, hMessage, hKey, hOpen, hMarked⟩ := h.back row hRow
    refine ⟨message, hMessage, hKey'.trans hKey, fun hNone => hOpen (hOpen' hNone), fun hDone hNone => ?_⟩
    cases hRowMark : row.processedAtUtc with
    | some _ =>
      obtain ⟨hFails, hMem⟩ := hMarked (by simp [hRowMark]) hNone
      exact ⟨hFails, List.mem_append_left _ hMem⟩
    | none =>
      obtain ⟨hFails, hMem⟩ := hMarked' hDone hRowMark
      rw [fails_eq_refused, hKey, ← fails_eq_refused] at hFails
      have hId : row.id = message.id := congrArg Prod.fst hKey
      exact ⟨hFails, List.mem_append_right _ (hId ▸ hMem)⟩

theorem follows_processRuns (outbox : Outbox) (instants : List Int) :
    Follows publisher outbox (processRuns publisher outbox instants).1 (processRuns publisher outbox instants).2 := by
  induction instants generalizing outbox with
  | nil => exact ⟨fun row hRow => ⟨row, hRow, rfl⟩, fun row hRow =>
      ⟨row, hRow, rfl, id, fun hMarked hNone => absurd hNone hMarked⟩⟩
  | cons nowUtc rest ih => exact (follows_processPending publisher nowUtc outbox).trans (ih _)

theorem pending_processRuns (outbox : Outbox) (instants : List Int) :
    (pending (processRuns publisher outbox instants).1).map OutboxMessage.key =
      BatchQueue.serveFor batchSize (refused publisher) ((pending outbox).map OutboxMessage.key)
        instants.length := by
  induction instants generalizing outbox with
  | nil => rfl
  | cons nowUtc rest ih =>
    rw [processRuns, ih, pending_processPending, BatchQueue.serveFor_serve]
    rfl

section Progress

/-- One run for every fifty messages that are unprocessed at the start. -/
def runsFor (outbox : Outbox) : Nat := ((pending outbox).length + 49) / 50

def runInstants (outbox : Outbox) (clock : Nat → Int) : List Int := (List.range (runsFor outbox)).map clock

/-- All messages that can be published are marked, and no mark comes without a publication. -/
structure Progress (outbox last : Outbox) (published : List String) : Prop where
  delivered : ∀ message ∈ outbox.rows, message.processedAtUtc = none → fails publisher message = false →
    ∃ row ∈ last.rows, row.id = message.id ∧ row.processedAtUtc ≠ none
  honest : ∀ row ∈ last.rows, row.processedAtUtc ≠ none → ∃ message ∈ outbox.rows, message.id = row.id ∧
    (message.processedAtUtc ≠ none ∨ fails publisher message = false ∧ message.id ∈ published)

/-- Progress is that only refused messages still wait. -/
theorem Follows.progress_iff {publisher : EventPublisher ε} {outbox last : Outbox} {published : List String}
    (h : Follows publisher outbox last published) :
    Progress publisher outbox last published ↔
      ∀ key ∈ (pending last).map OutboxMessage.key, refused publisher key = true := by
  constructor
  · intro hProgress key hKey
    obtain ⟨row, hRow, rfl⟩ := List.mem_map.mp hKey
    rw [mem_pending] at hRow
    obtain ⟨message, hMessage, hSame, hOpen, -⟩ := h.back row hRow.1
    by_contra hHealthy
    rw [Bool.not_eq_true, hSame, ← fails_eq_refused] at hHealthy
    obtain ⟨other, hOther, hId, hMarked⟩ := hProgress.delivered message hMessage (hOpen hRow.2) hHealthy
    have hEq : other = row := eq_of_key last hOther hRow.1 (hId.trans (congrArg Prod.fst hSame).symm)
    rw [hEq] at hMarked
    exact hMarked hRow.2
  · intro hWaiting
    refine ⟨fun message hMessage _ hHealthy => ?_, fun row hRow hMarked => ?_⟩
    · obtain ⟨row, hRow, hKey⟩ := h.forth message hMessage
      refine ⟨row, hRow, congrArg Prod.fst hKey, fun hNone => ?_⟩
      have hRefused := hWaiting row.key (List.mem_map_of_mem ((mem_pending last).mpr ⟨hRow, hNone⟩))
      rw [hKey, ← fails_eq_refused, hHealthy] at hRefused
      cases hRefused
    · obtain ⟨message, hMessage, hKey, -, hNew⟩ := h.back row hRow
      refine ⟨message, hMessage, (congrArg Prod.fst hKey).symm, ?_⟩
      by_cases hNone : message.processedAtUtc = none
      · exact .inr (hNew hMarked hNone)
      · exact .inl hNone

/-- The runs make progress just when every message that no batch reaches is a failing one. -/
theorem outbox_progress_iff (outbox : Outbox) (clock : Nat → Int) :
    Progress publisher outbox (processRuns publisher outbox (runInstants outbox clock)).1
        (processRuns publisher outbox (runInstants outbox clock)).2 ↔
      ∀ message ∈ (pending outbox).drop
          (BatchQueue.reached batchSize (fails publisher) (pending outbox) (runsFor outbox)),
        fails publisher message = true := by
  have hReached : BatchQueue.reached batchSize (refused publisher) ((pending outbox).map OutboxMessage.key)
      (runsFor outbox) =
        BatchQueue.reached batchSize (fails publisher) (pending outbox) (runsFor outbox) :=
    BatchQueue.reached_map _ _ _ _ _
  rw [(follows_processRuns publisher outbox _).progress_iff, pending_processRuns, runInstants, List.length_map,
    List.length_range, BatchQueue.all_refused_iff, hReached, ← List.map_drop, List.forall_mem_map]
  rfl

end Progress

end Processor

section Poison

/-- Every payload but one is an event that can be published. -/
def poisonPublisher : EventPublisher Unit where
  deserialize payload := if payload = "poison" then throw "JsonException" else pure (some ())
  publish _ := pure ()

/-- Fifty messages that cannot be read, and a later one that can. -/
def poisonedOutbox : Outbox :=
  (List.range 51).foldl (fun outbox n => PlainTable.put outbox
    ⟨s!"message_{n}", if n < 50 then "poison" else "event", n, none, 0, none⟩) .empty

/-- After any two runs the healthy message still waits behind the failing ones. -/
theorem poisoned_outbox_stalls :
    ¬∀ (ε : Type) (publisher : EventPublisher ε) (outbox : Outbox) (clock : Nat → Int),
      Progress publisher outbox (processRuns publisher outbox (runInstants outbox clock)).1
        (processRuns publisher outbox (runInstants outbox clock)).2 := by
  intro h
  have hRefused := (follows_processRuns poisonPublisher poisonedOutbox _).progress_iff.mp
    (h Unit poisonPublisher poisonedOutbox fun n => n)
  rw [pending_processRuns, runInstants, List.length_map, List.length_range] at hRefused
  have hWaits : ("message_50", "event") ∈ BatchQueue.serveFor batchSize (refused poisonPublisher)
      ((pending poisonedOutbox).map OutboxMessage.key) (runsFor poisonedOutbox) := by decide +kernel
  exact absurd (hRefused _ hWaits) (by decide +kernel)

end Poison

end CommandConsole.Events
