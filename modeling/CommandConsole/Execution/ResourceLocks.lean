import CommandConsole.Library.Crowd
import CommandConsole.Library.JsonValue
import Mathlib.Data.Finset.Max

/-! # Locks on the resources of steps

Every key has a queue of promises, and the map holds its last one. A call takes its keys in ascending order, runs its
task while it holds all of them and opens its gates at the end.
-/
namespace CommandConsole.Execution
open Library
set_option autoImplicit false

section Definitions

/-- `Promise.resolve()`, the promise that a call opens itself, and `previous.then(() => current)`. -/
inductive LockPromise where
  | resolved
  | gate (index : Nat) (key : Text)
  | after (previous : LockPromise) (index : Nat) (key : Text)
  deriving DecidableEq

/-- Where a call stands; the loop of `acquire` has its `todo` before it, and between two turns it awaits a promise or
is through. -/
inductive ResourcePhase where
  | acquiring (todo : List Text)
  | waiting (key : Text) (previous : LockPromise) (rest : List Text)
  | running
  | done (returned : Bool)
  deriving DecidableEq

def ResourcePhase.todo : ResourcePhase → List Text
  | acquiring todo => todo
  | waiting key _ rest => key :: rest
  | _ => []

structure ResourceCall where
  keys : List Text
  heldLocks : List Text
  phase : ResourcePhase
  deriving DecidableEq

def ResourceCall.isDone (call : ResourceCall) : Bool :=
  match call.phase with
  | .done _ => true
  | _ => false

/-- The queues and the calls so far; `enqueued` and `acquired` record who asked for a key and who got it. -/
structure ResourceWorld where
  resourceQueues : Text → Option LockPromise
  calls : List ResourceCall
  enqueued : List (Text × Nat)
  acquired : List (Text × Nat)

def ResourceWorld.empty : ResourceWorld := ⟨fun _ => none, [], [], []⟩

/-- The texts that are not empty, each once and sorted. -/
def lockKeys (resourceIds : List Text) : List Text :=
  ((resourceIds.filter fun id => id ≠ []).dedup).insertionSort (· ≤ ·)

/-- The call has opened its gate of the key. -/
def ResourceWorld.released (world : ResourceWorld) (index : Nat) (key : Text) : Bool :=
  match world.calls[index]? with
  | some call => call.isDone && key ∈ call.heldLocks
  | none => false

def ResourceWorld.settled (world : ResourceWorld) : LockPromise → Bool
  | .resolved => true
  | .gate index key => world.released index key
  | .after previous index key => world.settled previous && world.released index key

/-- The loop of `acquire` up to its next await. -/
def ResourceWorld.enqueue (index : Nat) (world : ResourceWorld) : ResourceWorld :=
  match world.calls[index]? with
  | none => world
  | some call =>
    match call.phase with
    | .acquiring (key :: rest) =>
      let previous := (world.resourceQueues key).getD .resolved
      { world with
        resourceQueues := Function.update world.resourceQueues key (some (.after previous index key))
        calls := world.calls.set index { call with phase := .waiting key previous rest }
        enqueued := world.enqueued ++ [(key, index)] }
    | _ => world

/-- The lock after an await. -/
def ResourceWorld.acquire (index : Nat) (world : ResourceWorld) : ResourceWorld :=
  match world.calls[index]? with
  | none => world
  | some call =>
    match call.phase with
    | .waiting key previous rest =>
      if world.settled previous then
        { world with
          calls := world.calls.set index { call with heldLocks := call.heldLocks ++ [key], phase := .acquiring rest }
          acquired := world.acquired ++ [(key, index)] }
      else world
    | _ => world

def ResourceWorld.enter (index : Nat) (world : ResourceWorld) : ResourceWorld :=
  match world.calls[index]? with
  | none => world
  | some call =>
    if call.phase = .acquiring [] then { world with calls := world.calls.set index { call with phase := .running } }
    else world

/-- The task has ended; an entry goes when it is the promise of the call itself. -/
def ResourceWorld.leave (index : Nat) (returned : Bool) (world : ResourceWorld) : ResourceWorld :=
  match world.calls[index]? with
  | none => world
  | some call =>
    if call.phase = .running then
      { world with
        resourceQueues := call.heldLocks.foldl (fun queues key =>
          if queues key = some (.gate index key) then Function.update queues key none else queues) world.resourceQueues
        calls := world.calls.set index { call with phase := .done returned } }
    else world

inductive ResourceTurn where
  | lockResources (resourceIds : List Text)
  | resume (index : Nat)
  | enter (index : Nat)
  | leave (index : Nat) (returned : Bool)
  deriving DecidableEq

def ResourceWorld.step (turn : ResourceTurn) (world : ResourceWorld) : ResourceWorld :=
  match turn with
  | .lockResources resourceIds =>
    let keys := lockKeys resourceIds
    ResourceWorld.enqueue world.calls.length { world with calls := world.calls ++ [⟨keys, [], .acquiring keys⟩] }
  | .resume index => (world.acquire index).enqueue index
  | .enter index => world.enter index
  | .leave index returned => world.leave index returned

end Definitions

section Queues

variable {world : ResourceWorld}

/-- Who asked for the key, in order. -/
def ResourceWorld.enqueues (world : ResourceWorld) (key : Text) : List Nat :=
  (world.enqueued.filter fun entry => entry.1 = key).map Prod.snd

/-- Who got the key, in order. -/
def ResourceWorld.acquisitions (world : ResourceWorld) (key : Text) : List Nat :=
  (world.acquired.filter fun entry => entry.1 = key).map Prod.snd

def ResourceWorld.waitsFor (world : ResourceWorld) (index : Nat) (key : Text) : Prop :=
  ∃ call previous rest, world.calls[index]? = some call ∧ call.phase = .waiting key previous rest

/-- The promise behind the calls that asked for a key. -/
def chainOf (key : Text) (indices : List Nat) : LockPromise :=
  indices.foldl (fun previous index => .after previous index key) .resolved

theorem chainOf_append (key : Text) (indices : List Nat) (index : Nat) :
    chainOf key (indices ++ [index]) = .after (chainOf key indices) index key := by
  rw [chainOf, List.foldl_append]
  rfl

theorem settled_chainOf {key : Text} {indices : List Nat} :
    world.settled (chainOf key indices) = true ↔ ∀ index ∈ indices, world.released index key = true := by
  induction indices using List.reverseRecOn with
  | nil => simp [chainOf, ResourceWorld.settled]
  | append_singleton indices index ih =>
    rw [chainOf_append, ResourceWorld.settled, Bool.and_eq_true, ih]
    constructor
    · rintro ⟨hAll, hLast⟩ other hOther
      rcases List.mem_append.mp hOther with hOld | hNew
      · exact hAll other hOld
      · rw [List.mem_singleton.mp hNew]
        exact hLast
    · intro hAll
      exact ⟨fun other hOther => hAll other (List.mem_append_left _ hOther),
        hAll index (List.mem_append_right _ (List.mem_singleton_self index))⟩

/-- What holds between the sections of the calls, and inside them. -/
structure ResourceWorld.Queued (world : ResourceWorld) : Prop where
  tail : ∀ key, world.resourceQueues key =
    if world.enqueues key = [] then none else some (chainOf key (world.enqueues key))
  bound : ∀ key, ∀ index ∈ world.enqueues key, index < world.calls.length
  nodup : ∀ key, (world.enqueues key).Nodup
  split : ∀ key, ∃ waiting, world.enqueues key = world.acquisitions key ++ waiting ∧
    ∀ index, index ∈ waiting ↔ world.waitsFor index key
  held : ∀ (index : Nat) (call : ResourceCall), world.calls[index]? = some call → ∀ key, key ∈ call.heldLocks ↔ index ∈ world.acquisitions key
  previous : ∀ (index : Nat) (call : ResourceCall) key previous rest, world.calls[index]? = some call → call.phase = .waiting key previous rest →
    ∃ before after, world.enqueues key = before ++ index :: after ∧ previous = chainOf key before
  served : ∀ key, ∀ index ∈ (world.acquisitions key).dropLast, world.released index key = true
  keys : ∀ (index : Nat) (call : ResourceCall), world.calls[index]? = some call →
    call.heldLocks ++ call.phase.todo = call.keys ∧ call.keys.Pairwise (· < ·)

theorem filter_concat {entries : List (Text × Nat)} (key : Text) (index : Nat) (other : Text) :
    ((entries ++ [(key, index)]).filter fun entry => entry.1 = other).map Prod.snd =
      if other = key then (entries.filter fun entry => entry.1 = other).map Prod.snd ++ [index]
      else (entries.filter fun entry => entry.1 = other).map Prod.snd := by
  rw [List.filter_append, List.map_append]
  by_cases hKey : other = key
  · subst hKey
    rw [if_pos rfl, List.filter_cons_of_pos (by simp)]
    rfl
  · rw [if_neg hKey, List.filter_cons_of_neg (by simpa using Ne.symm hKey)]
    exact List.append_nil _

end Queues

section Changes

variable {world next : ResourceWorld} {index : Nat} {call call' : ResourceCall}

/-- The calls after one of them went on. -/
theorem getElem?_set_cases {calls : List ResourceCall} (h : calls[index]? = some call) {i : Nat} {c : ResourceCall}
    (hGet : (calls.set index call')[i]? = some c) : i = index ∧ c = call' ∨ i ≠ index ∧ calls[i]? = some c := by
  by_cases hSame : i = index
  · subst hSame
    rw [Crowd.getElem?_set_self' h] at hGet
    exact .inl ⟨rfl, (Option.some.inj hGet).symm⟩
  · rw [List.getElem?_set_ne (Ne.symm hSame)] at hGet
    exact .inr ⟨hSame, hGet⟩

theorem released_set (h : world.calls[index]? = some call) (hDone : call.isDone = call'.isDone)
    (hHeld : call.isDone = true → call.heldLocks = call'.heldLocks) (hCalls : next.calls = world.calls.set index call')
    (i : Nat) (key : Text) : next.released i key = world.released i key := by
  rw [ResourceWorld.released, ResourceWorld.released, hCalls]
  by_cases hSame : i = index
  · subst hSame
    rw [Crowd.getElem?_set_self' h, h]
    dsimp only
    rw [← hDone]
    cases hIs : call.isDone with
    | false => rfl
    | true => rw [hHeld hIs]
  · rw [List.getElem?_set_ne (Ne.symm hSame)]

theorem waitsFor_set (h : world.calls[index]? = some call) (hCalls : next.calls = world.calls.set index call')
    (i : Nat) (key : Text) :
    next.waitsFor i key ↔ if i = index then ∃ previous rest, call'.phase = .waiting key previous rest
      else world.waitsFor i key := by
  rw [ResourceWorld.waitsFor, ResourceWorld.waitsFor, hCalls]
  split
  · rename_i hSame
    subst hSame
    rw [Crowd.getElem?_set_self' h]
    constructor
    · rintro ⟨c, previous, rest, hCall, hPhase⟩
      obtain rfl := Option.some.inj hCall
      exact ⟨previous, rest, hPhase⟩
    · rintro ⟨previous, rest, hPhase⟩
      exact ⟨call', previous, rest, rfl, hPhase⟩
  · rename_i hOther
    rw [List.getElem?_set_ne (Ne.symm hOther)]

theorem released_mono (h : world.calls[index]? = some call) (hHeld : call'.heldLocks = call.heldLocks)
    (hDone : call.isDone = true → call'.isDone = true) (hCalls : next.calls = world.calls.set index call')
    {i : Nat} {key : Text} (hReleased : world.released i key = true) : next.released i key = true := by
  rw [ResourceWorld.released] at hReleased ⊢
  rw [hCalls]
  by_cases hSame : i = index
  · subst hSame
    rw [h, Bool.and_eq_true] at hReleased
    rw [Crowd.getElem?_set_self' h, Bool.and_eq_true, hHeld]
    exact ⟨hDone hReleased.1, hReleased.2⟩
  · rw [List.getElem?_set_ne (Ne.symm hSame)]
    exact hReleased

/-- A call that neither waits nor takes anything goes on. -/
theorem ResourceWorld.Queued.move (h : world.Queued) (hCall : world.calls[index]? = some call)
    (hTodo : call.phase.todo = []) (hTodo' : call'.phase.todo = []) (hHeld : call'.heldLocks = call.heldLocks)
    (hKeys : call'.keys = call.keys) (hDone : call.isDone = true → call'.isDone = true) :
    ResourceWorld.Queued { world with calls := world.calls.set index call' } := by
  have hQuiet {c : ResourceCall} (hc : c.phase.todo = []) {key : Text} {previous : LockPromise} {rest : List Text} :
      c.phase ≠ .waiting key previous rest := fun hPhase => by
    rw [hPhase] at hc
    cases hc
  refine ⟨h.tail, fun key i hi => ?_, h.nodup, fun key => ?_, fun i c hc key => ?_, fun i c key previous rest hc hPhase => ?_,
    fun key i hi => released_mono hCall hHeld hDone rfl (h.served key i hi), fun i c hc => ?_⟩
  · rw [List.length_set]
    exact h.bound key i hi
  · obtain ⟨waiting, hSplit, hWaiting⟩ := h.split key
    refine ⟨waiting, hSplit, fun i => ?_⟩
    rw [hWaiting, @waitsFor_set world { world with calls := world.calls.set index call' } index call call' hCall rfl]
    split
    · rename_i hSame
      subst hSame
      constructor
      · rintro ⟨c, previous, rest, hc, hPhase⟩
        rw [hCall] at hc
        obtain rfl := Option.some.inj hc
        exact absurd hPhase (hQuiet hTodo)
      · rintro ⟨previous, rest, hPhase⟩
        exact absurd hPhase (hQuiet hTodo')
    · rfl
  · rcases getElem?_set_cases hCall hc with ⟨rfl, rfl⟩ | ⟨-, hOld⟩
    · rw [hHeld]
      exact h.held i call hCall key
    · exact h.held i c hOld key
  · rcases getElem?_set_cases hCall hc with ⟨rfl, rfl⟩ | ⟨-, hOld⟩
    · exact absurd hPhase (hQuiet hTodo')
    · exact h.previous i c key previous rest hOld hPhase
  · rcases getElem?_set_cases hCall hc with ⟨rfl, rfl⟩ | ⟨-, hOld⟩
    · rw [hHeld, hKeys, hTodo', ← hTodo]
      exact h.keys i call hCall
    · exact h.keys i c hOld

theorem queued_empty : ResourceWorld.empty.Queued where
  tail _ := rfl
  bound _ _ h := nomatch h
  nodup _ := List.nodup_nil
  split _ := ⟨[], rfl, fun _ => ⟨nofun, fun ⟨_, _, _, h, _⟩ => nomatch h⟩⟩
  held _ _ h := nomatch h
  previous _ _ _ _ _ h := nomatch h
  served _ _ h := nomatch h
  keys _ _ h := nomatch h

theorem ResourceWorld.Queued.begin (h : world.Queued) {keys : List Text} (hKeys : keys.Pairwise (· < ·)) :
    ResourceWorld.Queued { world with calls := world.calls ++ [⟨keys, [], .acquiring keys⟩] } := by
  have hCases {i : Nat} {c : ResourceCall}
      (hc : (world.calls ++ [(⟨keys, [], .acquiring keys⟩ : ResourceCall)])[i]? = some c) :
      world.calls[i]? = some c ∨ i = world.calls.length ∧ c = ⟨keys, [], .acquiring keys⟩ := by
    rw [List.getElem?_append] at hc
    split at hc
    · exact .inl hc
    · rename_i hLong
      obtain rfl := List.mem_singleton.mp (List.mem_of_getElem? hc)
      have hIndex := (List.getElem?_eq_some_iff.mp hc).1
      rw [List.length_singleton] at hIndex
      exact .inr ⟨by omega, rfl⟩
  have hKept {i : Nat} {c : ResourceCall} (hc : world.calls[i]? = some c) :
      (world.calls ++ [(⟨keys, [], .acquiring keys⟩ : ResourceCall)])[i]? = some c := by
    rw [List.getElem?_append_left (List.getElem?_eq_some_iff.mp hc).1]
    exact hc
  have hGot {key : Text} {i : Nat} (hi : i ∈ world.acquisitions key) : i < world.calls.length := by
    obtain ⟨waiting, hSplit, -⟩ := h.split key
    refine h.bound key i ?_
    rw [hSplit]
    exact List.mem_append_left _ hi
  refine ⟨h.tail, fun key i hi => ?_, h.nodup, fun key => ?_, fun i c hc key => ?_, fun i c key previous rest hc hPhase => ?_,
    fun key i hi => ?_, fun i c hc => ?_⟩
  · rw [List.length_append]
    exact Nat.lt_add_right _ (h.bound key i hi)
  · obtain ⟨waiting, hSplit, hWaiting⟩ := h.split key
    refine ⟨waiting, hSplit, fun i => ?_⟩
    rw [hWaiting]
    constructor
    · rintro ⟨c, previous, rest, hc, hPhase⟩
      exact ⟨c, previous, rest, hKept hc, hPhase⟩
    · rintro ⟨c, previous, rest, hc, hPhase⟩
      rcases hCases hc with hOld | ⟨-, rfl⟩
      · exact ⟨c, previous, rest, hOld, hPhase⟩
      · cases hPhase
  · rcases hCases hc with hOld | ⟨rfl, rfl⟩
    · exact h.held i c hOld key
    · exact ⟨nofun, fun hi => absurd (hGot hi) (Nat.lt_irrefl _)⟩
  · rcases hCases hc with hOld | ⟨-, rfl⟩
    · exact h.previous i c key previous rest hOld hPhase
    · cases hPhase
  · have hReleased := h.served key i hi
    rw [ResourceWorld.released] at hReleased ⊢
    cases hc : world.calls[i]? with
    | none =>
      rw [hc] at hReleased
      cases hReleased
    | some c =>
      rw [hc] at hReleased
      rw [hKept hc]
      exact hReleased
  · rcases hCases hc with hOld | ⟨-, rfl⟩
    · exact h.keys i c hOld
    · exact ⟨rfl, hKeys⟩

theorem waitsFor_of_phase (hCall : world.calls[index]? = some call) {key : Text} :
    world.waitsFor index key ↔ ∃ previous rest, call.phase = .waiting key previous rest := by
  constructor
  · rintro ⟨c, previous, rest, hc, hPhase⟩
    rw [hCall] at hc
    obtain rfl := Option.some.inj hc
    exact ⟨previous, rest, hPhase⟩
  · rintro ⟨previous, rest, hPhase⟩
    exact ⟨call, previous, rest, hCall, hPhase⟩

/-- A call asks for its next key. -/
theorem ResourceWorld.Queued.wait {key : Text} {rest : List Text} (h : world.Queued)
    (hCall : world.calls[index]? = some call) (hPhase : call.phase = .acquiring (key :: rest))
    (hCalls : next.calls = world.calls.set index { call with phase := .waiting key (chainOf key (world.enqueues key)) rest })
    (hQueues : next.resourceQueues = Function.update world.resourceQueues key
      (some (.after (chainOf key (world.enqueues key)) index key)))
    (hEnqueued : next.enqueued = world.enqueued ++ [(key, index)]) (hAcquired : next.acquired = world.acquired) :
    next.Queued := by
  obtain ⟨hTodo, hSorted⟩ := h.keys index call hCall
  rw [hPhase] at hTodo
  change call.heldLocks ++ key :: rest = call.keys at hTodo
  have hIdle (other : Text) : ¬ world.waitsFor index other := by
    rw [waitsFor_of_phase hCall, hPhase]
    rintro ⟨previous, others, hWait⟩
    cases hWait
  have hNew : index ∉ world.enqueues key := by
    obtain ⟨waiting, hSplit, hWaiting⟩ := h.split key
    rw [hSplit, List.mem_append, not_or, hWaiting, ← h.held index call hCall]
    refine ⟨fun hHeld => ?_, hIdle key⟩
    rw [← hTodo, List.pairwise_append] at hSorted
    exact lt_irrefl key (hSorted.2.2 key hHeld key List.mem_cons_self)
  have hOpen : call.isDone = false := by
    rw [ResourceCall.isDone, hPhase]
  have hEnqueues (other : Text) :
      next.enqueues other = if other = key then world.enqueues other ++ [index] else world.enqueues other := by
    rw [ResourceWorld.enqueues, hEnqueued]
    exact filter_concat key index other
  have hAcquisitions (other : Text) : next.acquisitions other = world.acquisitions other := by
    rw [ResourceWorld.acquisitions, hAcquired]
    rfl
  have hReleased := @released_set world next index call
    { call with phase := .waiting key (chainOf key (world.enqueues key)) rest } hCall hOpen (fun _ => rfl) hCalls
  have hWaits := waitsFor_set hCall hCalls
  refine ⟨fun other => ?_, fun other i hi => ?_, fun other => ?_, fun other => ?_, fun i c hc other => ?_,
    fun i c other previous others hc hWait => ?_, fun other i hi => ?_, fun i c hc => ?_⟩
  · rw [hEnqueues, hQueues]
    by_cases hSame : other = key
    · subst hSame
      rw [if_pos rfl, if_neg (by simp), chainOf_append]
      exact Function.update_self ..
    · rw [if_neg hSame, ← h.tail]
      exact Function.update_of_ne hSame ..
  · rw [hEnqueues] at hi
    rw [hCalls, List.length_set]
    split at hi
    · rcases List.mem_append.mp hi with hOld | hLast
      · exact h.bound other i hOld
      · rw [List.mem_singleton.mp hLast]
        exact (List.getElem?_eq_some_iff.mp hCall).1
    · exact h.bound other i hi
  · rw [hEnqueues]
    split
    · rename_i hSame
      subst hSame
      rw [← List.concat_eq_append]
      exact (h.nodup other).concat hNew
    · exact h.nodup other
  · obtain ⟨waiting, hSplit, hWaiting⟩ := h.split other
    rw [hEnqueues, hAcquisitions]
    by_cases hSame : other = key
    · subst hSame
      refine ⟨waiting ++ [index], by rw [if_pos rfl, hSplit, List.append_assoc], fun i => ?_⟩
      rw [List.mem_append, List.mem_singleton, hWaiting, hWaits]
      split
      · rename_i hIs
        exact ⟨fun _ => ⟨_, _, rfl⟩, fun _ => .inr hIs⟩
      · rename_i hIs
        exact ⟨fun hWait => hWait.resolve_right hIs, .inl⟩
    · refine ⟨waiting, by rw [if_neg hSame, hSplit], fun i => ?_⟩
      rw [hWaiting, hWaits]
      split
      · rename_i hIs
        subst hIs
        refine ⟨fun hWait => (hIdle other hWait).elim, ?_⟩
        rintro ⟨previous, others, hWait⟩
        exact absurd (ResourcePhase.waiting.inj hWait).1.symm hSame
      · rfl
  · rw [hAcquisitions]
    rw [hCalls] at hc
    rcases getElem?_set_cases hCall hc with ⟨rfl, rfl⟩ | ⟨-, hOld⟩
    · exact h.held i call hCall other
    · exact h.held i c hOld other
  · rw [hCalls] at hc
    rcases getElem?_set_cases hCall hc with ⟨rfl, rfl⟩ | ⟨-, hOld⟩
    · cases hWait
      exact ⟨world.enqueues key, [], by rw [hEnqueues, if_pos rfl], rfl⟩
    · obtain ⟨before, after, hAt, hPrevious⟩ := h.previous i c other previous others hOld hWait
      rw [hEnqueues]
      split
      · exact ⟨before, after ++ [index], by rw [hAt, List.append_assoc]; rfl, hPrevious⟩
      · exact ⟨before, after, hAt, hPrevious⟩
  · rw [hReleased]
    rw [hAcquisitions] at hi
    exact h.served other i hi
  · rw [hCalls] at hc
    rcases getElem?_set_cases hCall hc with ⟨rfl, rfl⟩ | ⟨-, hOld⟩
    · exact ⟨hTodo, hSorted⟩
    · exact h.keys i c hOld

theorem ResourceWorld.Queued.enqueue (h : world.Queued) (index : Nat) : (world.enqueue index).Queued := by
  rw [ResourceWorld.enqueue]
  cases hCall : world.calls[index]? with
  | none => exact h
  | some call =>
    dsimp only
    cases hPhase : call.phase with
    | waiting key previous rest => exact h
    | running => exact h
    | done returned => exact h
    | acquiring todo =>
      cases todo with
      | nil => exact h
      | cons key rest =>
        have hChain : (world.resourceQueues key).getD .resolved = chainOf key (world.enqueues key) := by
          rw [h.tail]
          split
          · rename_i hNil
            rw [hNil]
            rfl
          · rfl
        dsimp only
        rw [hChain]
        exact h.wait hCall hPhase rfl rfl rfl rfl

/-- Behind a settled promise only the call itself is left to wait. -/
theorem ResourceWorld.Queued.first_waiting {key : Text} {previous : LockPromise} {rest : List Text} (h : world.Queued)
    (hCall : world.calls[index]? = some call) (hPhase : call.phase = .waiting key previous rest)
    (hSettled : world.settled previous = true) :
    ∃ after, world.enqueues key = world.acquisitions key ++ index :: after ∧
      (∀ i, i ∈ index :: after ↔ world.waitsFor i key) ∧
      ∀ i ∈ world.acquisitions key, world.released i key = true := by
  obtain ⟨waiting, hSplit, hWaiting⟩ := h.split key
  obtain ⟨before, after, hAt, rfl⟩ := h.previous index call key previous rest hCall hPhase
  have hReleased := settled_chainOf.mp hSettled
  have hGot : ∀ i, world.released i key = true → ¬ world.waitsFor i key := by
    rintro i hOpen ⟨c, others, left, hc, hWait⟩
    rw [ResourceWorld.released, hc, Bool.and_eq_true, ResourceCall.isDone, hWait] at hOpen
    cases hOpen.1
  have hSelf : world.waitsFor index key := ⟨call, _, rest, hCall, hPhase⟩
  have hSame : before = world.acquisitions key ∧ index :: after = waiting := by
    rcases List.append_eq_append_iff.mp (hAt.symm.trans hSplit) with ⟨inner, hInner, hLeft⟩ | ⟨inner, hInner, hRight⟩
    · cases inner with
      | nil => exact ⟨by rw [hInner, List.append_nil], hLeft⟩
      | cons i inner =>
        have hi : i = index := (List.cons.inj hLeft).1.symm
        refine absurd hSelf (fun _ => ?_)
        have hMem : index ∈ world.acquisitions key := by
          rw [hInner, hi]
          exact List.mem_append_right _ List.mem_cons_self
        have hBoth := h.nodup key
        rw [hSplit] at hBoth
        exact (List.disjoint_of_nodup_append hBoth) hMem ((hWaiting index).mpr hSelf)
    · cases inner with
      | nil => exact ⟨by rw [hInner, List.append_nil], hRight.symm⟩
      | cons i inner =>
        have hMem : i ∈ before := by
          rw [hInner]
          exact List.mem_append_right _ List.mem_cons_self
        refine absurd ((hWaiting i).mp ?_) (hGot i (hReleased i hMem))
        rw [hRight]
        exact List.mem_append_left _ List.mem_cons_self
  obtain ⟨hBefore, hAfter⟩ := hSame
  refine ⟨after, by rw [hAt, hBefore], fun i => ?_, fun i hi => hReleased i (hBefore ▸ hi)⟩
  rw [hAfter, hWaiting]

/-- A call gets the key that it waits for. -/
theorem ResourceWorld.Queued.take {key : Text} {previous : LockPromise} {rest : List Text} (h : world.Queued)
    (hCall : world.calls[index]? = some call) (hPhase : call.phase = .waiting key previous rest)
    (hSettled : world.settled previous = true)
    (hCalls : next.calls =
      world.calls.set index { call with heldLocks := call.heldLocks ++ [key], phase := .acquiring rest })
    (hQueues : next.resourceQueues = world.resourceQueues) (hEnqueued : next.enqueued = world.enqueued)
    (hAcquired : next.acquired = world.acquired ++ [(key, index)]) : next.Queued := by
  obtain ⟨after, hSplit, hWaiting, hServed⟩ := h.first_waiting hCall hPhase hSettled
  obtain ⟨hTodo, hSorted⟩ := h.keys index call hCall
  rw [hPhase] at hTodo
  have hOpen : call.isDone = false := by
    rw [ResourceCall.isDone, hPhase]
  have hEnqueues (other : Text) : next.enqueues other = world.enqueues other := by
    rw [ResourceWorld.enqueues, hEnqueued]
    rfl
  have hAcquisitions (other : Text) : next.acquisitions other =
      if other = key then world.acquisitions other ++ [index] else world.acquisitions other := by
    rw [ResourceWorld.acquisitions, hAcquired]
    exact filter_concat key index other
  have hReleased := @released_set world next index call
    { call with heldLocks := call.heldLocks ++ [key], phase := .acquiring rest } hCall hOpen
    (fun hDone => absurd hDone (by rw [hOpen]; exact Bool.false_ne_true)) hCalls
  have hWaits := waitsFor_set hCall hCalls
  refine ⟨fun other => ?_, fun other i hi => ?_, fun other => ?_, fun other => ?_, fun i c hc other => ?_,
    fun i c other previous' others hc hWait => ?_, fun other i hi => ?_, fun i c hc => ?_⟩
  · rw [hQueues, hEnqueues]
    exact h.tail other
  · rw [hEnqueues] at hi
    rw [hCalls, List.length_set]
    exact h.bound other i hi
  · rw [hEnqueues]
    exact h.nodup other
  · rw [hEnqueues, hAcquisitions]
    by_cases hSame : other = key
    · subst hSame
      refine ⟨after, by rw [if_pos rfl, hSplit, List.append_assoc]; rfl, fun i => ?_⟩
      have hOnce := h.nodup other
      rw [hSplit, List.nodup_append] at hOnce
      rw [hWaits]
      split
      · rename_i hIs
        subst hIs
        exact ⟨fun hi => absurd hi (List.nodup_cons.mp hOnce.2.1).1, fun ⟨_, _, hWait⟩ => nomatch hWait⟩
      · rename_i hIs
        rw [← hWaiting, List.mem_cons]
        exact ⟨.inr, fun hi => hi.resolve_left hIs⟩
    · obtain ⟨waiting, hSplit', hWaiting'⟩ := h.split other
      refine ⟨waiting, by rw [if_neg hSame, hSplit'], fun i => ?_⟩
      rw [hWaiting', hWaits]
      split
      · rename_i hIs
        subst hIs
        rw [waitsFor_of_phase hCall, hPhase]
        refine ⟨?_, fun ⟨_, _, hWait⟩ => nomatch hWait⟩
        rintro ⟨others, left, hWait⟩
        exact absurd (ResourcePhase.waiting.inj hWait).1.symm hSame
      · rfl
  · rw [hAcquisitions]
    rw [hCalls] at hc
    rcases getElem?_set_cases hCall hc with ⟨rfl, rfl⟩ | ⟨hIs, hOld⟩
    · rw [List.mem_append, List.mem_singleton, h.held i call hCall]
      split
      · rename_i hSame
        rw [List.mem_append, List.mem_singleton]
        exact ⟨fun _ => .inr rfl, fun _ => .inr hSame⟩
      · rename_i hSame
        exact ⟨fun hi => hi.resolve_right hSame, .inl⟩
    · rw [h.held i c hOld]
      split
      · rw [List.mem_append, List.mem_singleton]
        exact ⟨.inl, fun hi => hi.resolve_right hIs⟩
      · rfl
  · rw [hEnqueues]
    rw [hCalls] at hc
    rcases getElem?_set_cases hCall hc with ⟨rfl, rfl⟩ | ⟨-, hOld⟩
    · cases hWait
    · exact h.previous i c other previous' others hOld hWait
  · rw [hReleased]
    rw [hAcquisitions] at hi
    split at hi
    · rename_i hSame
      subst hSame
      rw [List.dropLast_concat] at hi
      exact hServed i hi
    · exact h.served other i hi
  · rw [hCalls] at hc
    rcases getElem?_set_cases hCall hc with ⟨rfl, rfl⟩ | ⟨-, hOld⟩
    · refine ⟨?_, hSorted⟩
      rw [← hTodo]
      exact List.append_assoc ..
    · exact h.keys i c hOld

theorem ResourceWorld.Queued.acquire (h : world.Queued) (index : Nat) : (world.acquire index).Queued := by
  rw [ResourceWorld.acquire]
  cases hCall : world.calls[index]? with
  | none => exact h
  | some call =>
    dsimp only
    cases hPhase : call.phase with
    | acquiring todo => exact h
    | running => exact h
    | done returned => exact h
    | waiting key previous rest =>
      dsimp only
      split
      · rename_i hSettled
        exact h.take hCall hPhase hSettled rfl rfl rfl rfl
      · exact h

theorem ResourceWorld.Queued.enter (h : world.Queued) (index : Nat) : (world.enter index).Queued := by
  rw [ResourceWorld.enter]
  cases hCall : world.calls[index]? with
  | none => exact h
  | some call =>
    dsimp only
    split
    · rename_i hPhase
      refine h.move hCall (by rw [hPhase]; rfl) rfl rfl rfl fun hDone => ?_
      rw [ResourceCall.isDone, hPhase] at hDone
      cases hDone
    · exact h

/-- The entry of a key is never the promise that a call compares it with. -/
theorem ResourceWorld.Queued.kept (h : world.Queued) (index : Nat) (keys : List Text) :
    keys.foldl (fun queues key =>
      if queues key = some (.gate index key) then Function.update queues key none else queues) world.resourceQueues =
        world.resourceQueues := by
  induction keys with
  | nil => rfl
  | cons key keys ih =>
    have hOther : world.resourceQueues key ≠ some (.gate index key) := by
      rw [h.tail]
      split
      · exact nofun
      · rename_i hSome
        obtain ⟨before, last, hLast⟩ : ∃ before last, world.enqueues key = before ++ [last] :=
          ⟨_, _, (List.dropLast_append_getLast hSome).symm⟩
        rw [hLast, chainOf_append]
        exact nofun
    rw [List.foldl_cons, if_neg hOther]
    exact ih

theorem ResourceWorld.Queued.leave (h : world.Queued) (index : Nat) (returned : Bool) :
    (world.leave index returned).Queued := by
  rw [ResourceWorld.leave]
  cases hCall : world.calls[index]? with
  | none => exact h
  | some call =>
    dsimp only
    split
    · rename_i hPhase
      rw [h.kept]
      exact h.move hCall (by rw [hPhase]; rfl) rfl rfl rfl fun _ => rfl
    · exact h

theorem lockKeys_sorted (resourceIds : List Text) : (lockKeys resourceIds).Pairwise (· < ·) := by
  have hSorted := List.pairwise_insertionSort (· ≤ ·) ((resourceIds.filter fun id => id ≠ []).dedup)
  have hNodup : (lockKeys resourceIds).Nodup :=
    (List.perm_insertionSort _ _).nodup_iff.mpr (List.nodup_dedup _)
  refine (hSorted.and hNodup).imp fun hBoth => lt_of_le_of_ne hBoth.1 hBoth.2

theorem ResourceWorld.Queued.step (h : world.Queued) (turn : ResourceTurn) : (world.step turn).Queued := by
  cases turn with
  | lockResources resourceIds => exact (h.begin (lockKeys_sorted resourceIds)).enqueue _
  | resume index => exact (h.acquire index).enqueue index
  | enter index => exact h.enter index
  | leave index returned => exact h.leave index returned

/-- Between two turns no call is in the middle of its loop. -/
def ResourceWorld.PausedBut (index : Nat) (world : ResourceWorld) : Prop :=
  ∀ (i : Nat) (call : ResourceCall), world.calls[i]? = some call → i ≠ index → ∀ todo, call.phase = .acquiring todo → todo = []

def ResourceWorld.Paused (world : ResourceWorld) : Prop :=
  ∀ (i : Nat) (call : ResourceCall), world.calls[i]? = some call → ∀ todo, call.phase = .acquiring todo → todo = []

theorem pausedBut_set (h : world.Paused) (hCall : world.calls[index]? = some call)
    (hCalls : next.calls = world.calls.set index call') : next.PausedBut index := by
  intro i c hc hOther
  rw [hCalls] at hc
  rcases getElem?_set_cases hCall hc with ⟨hSame, -⟩ | ⟨-, hOld⟩
  · exact absurd hSame hOther
  · exact h i c hOld

theorem ResourceWorld.PausedBut.enqueue (h : world.PausedBut index) : (world.enqueue index).Paused := by
  have hStays (hOwn : ∀ call, world.calls[index]? = some call → ∀ todo, call.phase = .acquiring todo → todo = []) :
      world.Paused := by
    intro i c hc
    by_cases hSame : i = index
    · subst hSame
      exact hOwn c hc
    · exact h i c hc hSame
  rw [ResourceWorld.enqueue]
  cases hCall : world.calls[index]? with
  | none =>
    refine hStays fun call hOther => ?_
    rw [hCall] at hOther
    cases hOther
  | some call =>
    have hOwn (hPhase : ∀ todo, call.phase = .acquiring todo → todo = []) : world.Paused := by
      refine hStays fun other hOther => ?_
      rw [hCall] at hOther
      exact Option.some.inj hOther ▸ hPhase
    dsimp only
    cases hPhase : call.phase with
    | waiting key previous rest => exact hOwn fun todo hTodo => by rw [hPhase] at hTodo; cases hTodo
    | running => exact hOwn fun todo hTodo => by rw [hPhase] at hTodo; cases hTodo
    | done returned => exact hOwn fun todo hTodo => by rw [hPhase] at hTodo; cases hTodo
    | acquiring todo =>
      cases todo with
      | nil => exact hOwn fun todo hTodo => by rw [hPhase] at hTodo; cases hTodo; rfl
      | cons key rest =>
        intro i c hc todo hTodo
        rcases getElem?_set_cases hCall hc with ⟨-, rfl⟩ | ⟨hOther, hOld⟩
        · cases hTodo
        · exact h i c hOld hOther todo hTodo

theorem ResourceWorld.Paused.step (h : world.Paused) (turn : ResourceTurn) : (world.step turn).Paused := by
  cases turn with
  | lockResources resourceIds =>
    refine ResourceWorld.PausedBut.enqueue fun i c hc hOther => ?_
    rw [List.getElem?_append] at hc
    split at hc
    · exact h i c hc
    · rename_i hLong
      have hIndex := (List.getElem?_eq_some_iff.mp hc).1
      rw [List.length_singleton] at hIndex
      omega
  | resume index =>
    refine ResourceWorld.PausedBut.enqueue ?_
    rw [ResourceWorld.acquire]
    cases hCall : world.calls[index]? with
    | none => exact fun i c hc _ => h i c hc
    | some call =>
      dsimp only
      split
      · split
        · exact pausedBut_set h hCall rfl
        · exact fun i c hc _ => h i c hc
      · exact fun i c hc _ => h i c hc
  | enter index =>
    rw [ResourceWorld.step, ResourceWorld.enter]
    cases hCall : world.calls[index]? with
    | none => exact h
    | some call =>
      dsimp only
      split
      · intro i c hc todo hTodo
        rcases getElem?_set_cases hCall hc with ⟨-, rfl⟩ | ⟨-, hOld⟩
        · cases hTodo
        · exact h i c hOld todo hTodo
      · exact h
  | leave index returned =>
    rw [ResourceWorld.step, ResourceWorld.leave]
    cases hCall : world.calls[index]? with
    | none => exact h
    | some call =>
      dsimp only
      split
      · intro i c hc todo hTodo
        rcases getElem?_set_cases hCall hc with ⟨-, rfl⟩ | ⟨-, hOld⟩
        · cases hTodo
        · exact h i c hOld todo hTodo
      · exact h

end Changes

section Results

variable {world : ResourceWorld}

def ResourceWorld.runs (world : ResourceWorld) (index : Nat) : Prop :=
  ∃ call, world.calls[index]? = some call ∧ call.phase = .running

/-- The call awaits a promise that is not settled yet. -/
def ResourceWorld.blocked (world : ResourceWorld) (index : Nat) : Prop :=
  ∃ call key previous rest, world.calls[index]? = some call ∧ call.phase = .waiting key previous rest ∧
    world.settled previous = false

/-- The call is past its last await or awaits a promise that is settled. -/
def ResourceWorld.canStep (world : ResourceWorld) (index : Nat) : Prop :=
  ∃ call, world.calls[index]? = some call ∧ (call.phase = .acquiring [] ∨
    ∃ key previous rest, call.phase = .waiting key previous rest ∧ world.settled previous = true)

/-- The call holds the key or waits for it. -/
def ResourceCall.uses (call : ResourceCall) (key : Text) : Prop :=
  key ∈ call.heldLocks ∧ call.isDone = false ∨ ∃ previous rest, call.phase = .waiting key previous rest

structure ResourceWorld.Locked (world : ResourceWorld) : Prop where
  exclusive : ∀ (i j : Nat) (left right : ResourceCall), world.calls[i]? = some left → world.calls[j]? = some right →
    left.phase = .running → right.phase = .running → ∀ key ∈ left.keys, key ∈ right.keys → i = j
  ordered : ∀ key, world.acquisitions key <+: world.enqueues key
  progress : ∀ i, world.blocked i → ∃ j, j ≠ i ∧ (world.runs j ∨ world.canStep j)

/-- There is no entry of a key that no call uses. -/
def ResourceWorld.Clean (world : ResourceWorld) : Prop :=
  ∀ key, (∀ call ∈ world.calls, ¬ call.uses key) → world.resourceQueues key = none

theorem ResourceWorld.Queued.exclusive (h : world.Queued) {i j : Nat} {left right : ResourceCall}
    (hLeft : world.calls[i]? = some left) (hRight : world.calls[j]? = some right) (hRuns : left.phase = .running)
    (hRuns' : right.phase = .running) {key : Text} (hKey : key ∈ left.keys) (hKey' : key ∈ right.keys) : i = j := by
  have hGot {k : Nat} {call : ResourceCall} (hCall : world.calls[k]? = some call) (hPhase : call.phase = .running)
      (hMem : key ∈ call.keys) : k ∈ world.acquisitions key ∧ k ∉ (world.acquisitions key).dropLast := by
    have hKeys := (h.keys k call hCall).1
    rw [hPhase] at hKeys
    refine ⟨(h.held k call hCall key).mp ?_, fun hEarly => ?_⟩
    · rw [← hKeys] at hMem
      exact (List.mem_append.mp hMem).resolve_right nofun
    · have hReleased := h.served key k hEarly
      rw [ResourceWorld.released, hCall, Bool.and_eq_true, ResourceCall.isDone, hPhase] at hReleased
      cases hReleased.1
  obtain ⟨hI, hI'⟩ := hGot hLeft hRuns hKey
  obtain ⟨hJ, hJ'⟩ := hGot hRight hRuns' hKey'
  have hSome : world.acquisitions key ≠ [] := List.ne_nil_of_mem hI
  rw [← List.dropLast_append_getLast hSome, List.mem_append, List.mem_singleton] at hI hJ
  exact (hI.resolve_left hI').trans (hJ.resolve_left hJ').symm

def ResourceCall.awaited (call : ResourceCall) : Option Text :=
  match call.phase with
  | .waiting key _ _ => some key
  | _ => none

theorem awaited_eq_some {call : ResourceCall} {key : Text} :
    call.awaited = some key ↔ ∃ previous rest, call.phase = .waiting key previous rest := by
  rw [ResourceCall.awaited]
  cases call.phase <;> simp

theorem exists_greatest_awaited {calls : List ResourceCall} {call : ResourceCall} {key : Text} (hMem : call ∈ calls)
    (hAwaited : call.awaited = some key) :
    ∃ owner ∈ calls, ∃ top, owner.awaited = some top ∧ ∀ other ∈ calls, ∀ key', other.awaited = some key' → key' ≤ top := by
  have hKey : key ∈ (calls.filterMap ResourceCall.awaited).toFinset :=
    List.mem_toFinset.mpr (List.mem_filterMap.mpr ⟨call, hMem, hAwaited⟩)
  obtain ⟨top, hTop, hMax⟩ := Finset.exists_max_image _ id ⟨key, hKey⟩
  obtain ⟨owner, hOwner, hTopOwner⟩ := List.mem_filterMap.mp (List.mem_toFinset.mp hTop)
  refine ⟨owner, hOwner, top, hTopOwner, fun other hOther key' hOtherKey => hMax key' ?_⟩
  exact List.mem_toFinset.mpr (List.mem_filterMap.mpr ⟨other, hOther, hOtherKey⟩)

/-- Of the calls that wait, one that waits for a greatest key can go on when no task runs and no call is at its end. -/
theorem ResourceWorld.Queued.progress (h : world.Queued) (hPaused : world.Paused) {i : Nat} (hBlocked : world.blocked i) :
    ∃ j, world.runs j ∨ world.canStep j := by
  refine Classical.byContradiction fun hNone => ?_
  rw [not_exists] at hNone
  have hAll (j : Nat) (call : ResourceCall) (hCall : world.calls[j]? = some call) (hOpen : call.isDone = false) :
      ∃ key previous rest, call.phase = .waiting key previous rest ∧ world.settled previous = false := by
    cases hPhase : call.phase with
    | acquiring todo =>
      refine absurd (.inr ⟨call, hCall, .inl ?_⟩) (hNone j)
      rw [hPhase, hPaused j call hCall todo hPhase]
    | running => exact absurd (.inl ⟨call, hCall, hPhase⟩) (hNone j)
    | done returned =>
      rw [ResourceCall.isDone, hPhase] at hOpen
      cases hOpen
    | waiting key previous rest =>
      refine ⟨key, previous, rest, rfl, ?_⟩
      rw [← Bool.not_eq_true]
      exact fun hSettled => hNone j (.inr ⟨call, hCall, .inr ⟨key, previous, rest, hPhase, hSettled⟩⟩)
  obtain ⟨_, _, _, _, hBlockedCall, hBlockedPhase, -⟩ := hBlocked
  obtain ⟨call, hMem, key, hAwaited, hTop⟩ := exists_greatest_awaited (List.mem_of_getElem? hBlockedCall)
    (awaited_eq_some.mpr ⟨_, _, hBlockedPhase⟩)
  obtain ⟨j, hCall⟩ := List.mem_iff_getElem?.mp hMem
  obtain ⟨previous, rest, hPhase⟩ := awaited_eq_some.mp hAwaited
  obtain ⟨waiting, hSplit, hWaiting⟩ := h.split key
  by_cases hServed : ∀ k ∈ world.acquisitions key, world.released k key = true
  · -- the first one that waits has only released gates before it
    have hSelf : j ∈ waiting := (hWaiting j).mpr ⟨call, previous, rest, hCall, hPhase⟩
    cases waiting with
    | nil => cases hSelf
    | cons k others =>
      obtain ⟨c, p, r, hc, hWait⟩ := (hWaiting k).mp List.mem_cons_self
      obtain ⟨before, after, hAt, rfl⟩ := h.previous k c key p r hc hWait
      refine hNone k (.inr ⟨c, hc, .inr ⟨key, _, r, hWait, settled_chainOf.mpr ?_⟩⟩)
      have hOnce := h.nodup key
      rw [hAt] at hOnce
      have hFresh : k ∉ before ∧ k ∉ world.acquisitions key := by
        refine ⟨fun hk => (List.disjoint_of_nodup_append hOnce) hk List.mem_cons_self, fun hk => ?_⟩
        have hOnce' := h.nodup key
        rw [hSplit] at hOnce'
        exact (List.disjoint_of_nodup_append hOnce') hk List.mem_cons_self
      have hSame : before = world.acquisitions key := by
        have hBoth : before ++ k :: after = world.acquisitions key ++ k :: others := hAt.symm.trans hSplit
        have hFirst := congrArg (List.takeWhile fun x => decide (x ≠ k)) hBoth
        have hOff {l : List Nat} (hl : k ∉ l) : ∀ x ∈ l, decide (x ≠ k) = true :=
          fun x hx => decide_eq_true fun hEq : x = k => hl (hEq ▸ hx)
        rw [List.takeWhile_append_of_pos (hOff hFresh.1), List.takeWhile_append_of_pos (hOff hFresh.2)] at hFirst
        simpa using hFirst
      rw [hSame]
      exact hServed
  · -- who holds the greatest key waits for a greater one
    push Not at hServed
    obtain ⟨k, hk, hOpen⟩ := hServed
    have hBound : k < world.calls.length := by
      refine h.bound key k ?_
      rw [hSplit]
      exact List.mem_append_left _ hk
    have hc : world.calls[k]? = some world.calls[k] := List.getElem?_eq_getElem hBound
    have hHeld := (h.held k _ hc key).mpr hk
    have hNotDone : world.calls[k].isDone = false := by
      rw [← Bool.not_eq_true]
      intro hDone
      refine hOpen ?_
      rw [ResourceWorld.released, hc, Bool.and_eq_true]
      exact ⟨hDone, decide_eq_true hHeld⟩
    obtain ⟨key', p, r, hWait, -⟩ := hAll k _ hc hNotDone
    obtain ⟨hKeys, hSorted⟩ := h.keys k _ hc
    rw [hWait] at hKeys
    rw [← hKeys, List.pairwise_append] at hSorted
    have hLess := hSorted.2.2 key hHeld key' List.mem_cons_self
    exact absurd (hTop _ (List.getElem_mem hBound) key' (awaited_eq_some.mpr ⟨p, r, hWait⟩)) (not_le.mpr hLess)

theorem ResourceWorld.Queued.clean_iff (h : world.Queued) :
    world.Clean ↔ ∀ entry ∈ world.enqueued, ∃ call ∈ world.calls, call.uses entry.1 := by
  have hEntry (key : Text) : world.resourceQueues key = none ↔ ∀ entry ∈ world.enqueued, entry.1 ≠ key := by
    have hNil : world.enqueues key = [] ↔ ∀ entry ∈ world.enqueued, entry.1 ≠ key := by
      rw [ResourceWorld.enqueues, List.map_eq_nil_iff, List.filter_eq_nil_iff]
      simp
    rw [h.tail, ← hNil]
    by_cases hEmpty : world.enqueues key = []
    · rw [if_pos hEmpty]
      exact iff_of_true rfl hEmpty
    · rw [if_neg hEmpty]
      exact iff_of_false nofun hEmpty
  constructor
  · intro hClean entry hMem
    refine Classical.byContradiction fun hUnused => ?_
    rw [not_exists] at hUnused
    exact (hEntry entry.1).mp (hClean entry.1 fun call hCall hUses => hUnused call ⟨hCall, hUses⟩) entry hMem rfl
  · intro hUsed key hFree
    rw [hEntry]
    rintro entry hMem rfl
    obtain ⟨call, hCall, hUses⟩ := hUsed entry hMem
    exact hFree call hCall hUses

/-- Exclusion, order and progress hold in every run. The map is clean only while every key that was ever asked for is
still held or waited for. -/
theorem resource_locks {world : ResourceWorld} (h : Reaches ResourceWorld.step (fun _ _ => True) .empty world) :
    world.Locked ∧ (world.Clean ↔ ∀ entry ∈ world.enqueued, ∃ call ∈ world.calls, call.uses entry.1) := by
  have hQueued : world.Queued := h.invariant queued_empty fun turn _ hBefore _ => hBefore.step turn
  have hPaused : world.Paused := h.invariant (fun _ _ hCall => nomatch hCall) fun turn _ hBefore _ =>
    ResourceWorld.Paused.step hBefore turn
  refine ⟨⟨fun i j left right hLeft hRight hRuns hRuns' key hKey hKey' =>
    hQueued.exclusive hLeft hRight hRuns hRuns' hKey hKey', fun key => ?_, fun i hBlocked => ?_⟩, hQueued.clean_iff⟩
  · obtain ⟨waiting, hSplit, -⟩ := hQueued.split key
    exact ⟨waiting, hSplit.symm⟩
  · obtain ⟨j, hGoes⟩ := hQueued.progress hPaused hBlocked
    refine ⟨j, ?_, hGoes⟩
    rintro rfl
    obtain ⟨call, key, previous, rest, hCall, hPhase, hOpen⟩ := hBlocked
    rcases hGoes with ⟨other, hOther, hRuns⟩ | ⟨other, hOther, hEnd | ⟨key', previous', rest', hWait, hSettled⟩⟩
    · rw [hCall] at hOther
      obtain rfl := Option.some.inj hOther
      rw [hPhase] at hRuns
      cases hRuns
    · rw [hCall] at hOther
      obtain rfl := Option.some.inj hOther
      rw [hPhase] at hEnd
      cases hEnd
    · rw [hCall] at hOther
      obtain rfl := Option.some.inj hOther
      rw [hPhase] at hWait
      cases hWait
      rw [hOpen] at hSettled
      cases hSettled

/-- One call on one key, from its start to its end. -/
def singleTurns : List ResourceTurn := [.lockResources [[97]], .resume 0, .enter 0, .leave 0 true]

theorem resource_locks_single :
    (runAll ResourceWorld.step .empty (singleTurns.take 3)).Locked ∧
      ((runAll ResourceWorld.step .empty (singleTurns.take 3)).Clean ↔
        ∀ entry ∈ (runAll ResourceWorld.step .empty (singleTurns.take 3)).enqueued,
          ∃ call ∈ (runAll ResourceWorld.step .empty (singleTurns.take 3)).calls, call.uses entry.1) :=
  resource_locks (reaches_runAll ResourceWorld.step .empty (singleTurns.take 3))

/-- The entry of the key stays although its only call is done. -/
theorem finished_call_leaves_entry :
    ((runAll ResourceWorld.step .empty singleTurns).calls = [⟨[[97]], [[97]], .done true⟩] ∧
      (runAll ResourceWorld.step .empty singleTurns).resourceQueues [97] = some (.after .resolved 0 [97])) ∧
    ¬ ∀ world, Reaches ResourceWorld.step (fun _ _ => True) .empty world → world.Locked ∧ world.Clean := by
  have hCalls : (runAll ResourceWorld.step .empty singleTurns).calls = [⟨[[97]], [[97]], .done true⟩] := by decide +kernel
  have hEntry : (runAll ResourceWorld.step .empty singleTurns).resourceQueues [97] = some (.after .resolved 0 [97]) := by
    decide +kernel
  refine ⟨⟨hCalls, hEntry⟩, fun hAll => ?_⟩
  have hClean := (hAll _ (reaches_runAll ResourceWorld.step .empty singleTurns)).2 [97] (fun call hCall hUses => ?_)
  · rw [hEntry] at hClean
    cases hClean
  · rw [hCalls] at hCall
    obtain rfl := List.mem_singleton.mp hCall
    rcases hUses with ⟨-, hOpen⟩ | ⟨previous, rest, hWait⟩
    · cases hOpen
    · cases hWait

end Results

end CommandConsole.Execution
