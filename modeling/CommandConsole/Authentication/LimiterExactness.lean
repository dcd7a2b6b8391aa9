import Mathlib.Data.Nat.Cast.Basic
import Mathlib.Data.List.Perm.Subperm
import CommandConsole.Authentication.LoginRateLimits

/-! # What the login rate limiters count

A specification limiter keeps the marks of all counted attempts and answers from the number of marks that a key has in
its window. Both limiters answer like it in every run in which no counter is evicted and no two of the used keys are
spelled alike.
-/
namespace CommandConsole.Authentication
set_option autoImplicit false

open Library

section Specification

/-- What an attempt is counted on. The identifier of a pair is normalized. -/
inductive Tracked where
  | source (source : Text)
  | pair (source identifier : Text)
deriving DecidableEq

/-- The counted attempts, newest first. -/
abbrev Marks := List (Tracked × Nat)

def Marks.times (marks : Marks) (key : Tracked) : List Nat := (marks.filter (·.1 = key)).map Prod.snd

/-- An attempt is exceeded when more than the limit of the attempts on the key fall into the window. -/
def Marks.increment (window : Nat) (marks : Marks) (now : Nat) (key : Tracked) (limit : Nat) :
    Marks × LoginRateLimitResult :=
  let marks : Marks := (key, now) :: marks
  (marks,
    { isExceeded := limit < FixedWindow.held window (marks.times key),
      retryAfterSeconds := retryAfter ((FixedWindow.opened window (marks.times key)).getD now + window - now : Int) })

def normalized (platform : Platform) (identifier : Text) : Text := platform.toUpperInvariant (trim identifier)

def Marks.incrementAsync (platform : Platform) (window : Nat) (marks : Marks) (attempt : LoginAttempt) :
    Marks × LoginRateLimitResult :=
  let (marks, sourceResult) := marks.increment window attempt.now (.source attempt.request.source) lockedSourceLimit
  if sourceResult.isExceeded then (marks, sourceResult)
  else
    match attempt.request.identifier with
    | none => (marks, sourceResult)
    | some identifier =>
      if isNullOrWhiteSpace (some identifier) then (marks, sourceResult)
      else
        marks.increment window attempt.now (.pair attempt.request.source (normalized platform identifier)) lockedPairLimit

def Tracked.memoryKey (platform : Platform) : Tracked → Text
  | .source origin => platform.hash (sourcePrefix ++ trim origin)
  | .pair origin identifier => platform.hash (pairPrefix ++ trim origin ++ ':' :: identifier)

def Tracked.redisKey (platform : Platform) : Tracked → Text
  | .source origin => redisSourcePrefix ++ platform.hash origin
  | .pair origin identifier => redisPairPrefix ++ platform.hash (origin ++ ':' :: identifier)

theorem memory_sourceKey (platform : Platform) (source : Text) :
    InMemoryLoginRateLimiter.sourceKey platform source = (Tracked.source source).memoryKey platform := rfl

theorem memory_pairKey (platform : Platform) (source identifier : Text) :
    InMemoryLoginRateLimiter.pairKey platform source identifier =
      (Tracked.pair source (normalized platform identifier)).memoryKey platform := rfl

theorem redis_sourceKey (platform : Platform) (source : Text) :
    RedisLoginRateLimiter.sourceKey platform source = (Tracked.source source).redisKey platform := rfl

theorem redis_pairKey (platform : Platform) (source identifier : Text) :
    RedisLoginRateLimiter.pairKey platform source identifier =
      (Tracked.pair source (normalized platform identifier)).redisKey platform := rfl

end Specification

section Keys

/-- The rest of one source is read as the head of the other identifier. -/
def Spills (source identifier source' identifier' : Text) : Prop :=
  ∃ rest, source = source' ++ ':' :: rest ∧ identifier' = rest ++ ':' :: identifier

theorem joined_eq_iff (source identifier source' identifier' : Text) :
    source ++ ':' :: identifier = source' ++ ':' :: identifier' ↔
      source = source' ∧ identifier = identifier' ∨ Spills source identifier source' identifier' ∨
        Spills source' identifier' source identifier := by
  rw [List.append_eq_append_iff]
  constructor
  · rintro (⟨rest, hSource, hRest⟩ | ⟨rest, hSource, hRest⟩)
    · cases rest with
      | nil =>
        rw [List.nil_append, List.cons.injEq] at hRest
        exact .inl ⟨by rw [hSource, List.append_nil], hRest.2⟩
      | cons c rest =>
        rw [List.cons_append, List.cons.injEq] at hRest
        obtain ⟨rfl, rfl⟩ := hRest
        exact .inr (.inr ⟨rest, hSource, rfl⟩)
    · cases rest with
      | nil =>
        rw [List.nil_append, List.cons.injEq] at hRest
        exact .inl ⟨by rw [hSource, List.append_nil], hRest.2.symm⟩
      | cons c rest =>
        rw [List.cons_append, List.cons.injEq] at hRest
        obtain ⟨rfl, rfl⟩ := hRest
        exact .inr (.inl ⟨rest, hSource, rfl⟩)
  · rintro (⟨rfl, rfl⟩ | ⟨rest, rfl, rfl⟩ | ⟨rest, rfl, rfl⟩)
    · exact .inl ⟨[], (List.append_nil _).symm, rfl⟩
    · exact .inr ⟨':' :: rest, rfl, rfl⟩
    · exact .inl ⟨':' :: rest, rfl, rfl⟩

/-- Two sources with their normalized identifiers that no limiter confuses. -/
structure Apart (source identifier source' identifier' : Text) : Prop where
  trimmed : trim source = trim source' → identifier = identifier' → source = source'
  plain : ¬ Spills source identifier source' identifier' ∧ ¬ Spills source' identifier' source identifier
  short : ¬ Spills (trim source) identifier (trim source') identifier' ∧
    ¬ Spills (trim source') identifier' (trim source) identifier

variable {platform : Platform} (hHash : Function.Injective platform.hash)

include hHash in
theorem memoryKey_pair_eq_iff (source identifier source' identifier' : Text) :
    (Tracked.pair source identifier).memoryKey platform = (Tracked.pair source' identifier').memoryKey platform ↔
      trim source ++ ':' :: identifier = trim source' ++ ':' :: identifier' := by
  rw [Tracked.memoryKey, Tracked.memoryKey, hHash.eq_iff, List.append_assoc, List.append_assoc,
    List.append_cancel_left_eq]

include hHash in
theorem redisKey_pair_eq_iff (source identifier source' identifier' : Text) :
    (Tracked.pair source identifier).redisKey platform = (Tracked.pair source' identifier').redisKey platform ↔
      source ++ ':' :: identifier = source' ++ ':' :: identifier' := by
  constructor
  · intro h
    exact hHash (List.append_cancel_left h)
  · intro h
    exact congrArg (fun joined => redisPairPrefix ++ platform.hash joined) h

include hHash in
theorem shared_iff_apart (source identifier source' identifier' : Text) :
    (((Tracked.pair source identifier).memoryKey platform = (Tracked.pair source' identifier').memoryKey platform ↔
          source = source' ∧ identifier = identifier') ∧
        ((Tracked.pair source identifier).redisKey platform = (Tracked.pair source' identifier').redisKey platform ↔
          source = source' ∧ identifier = identifier')) ↔
      Apart source identifier source' identifier' := by
  rw [memoryKey_pair_eq_iff hHash, redisKey_pair_eq_iff hHash, joined_eq_iff, joined_eq_iff]
  constructor
  · rintro ⟨hMemory, hRedis⟩
    refine ⟨fun hTrim hIdentifier => (hMemory.mp (.inl ⟨hTrim, hIdentifier⟩)).1, ⟨?_, ?_⟩, ?_, ?_⟩
    · intro hSpills
      obtain ⟨rfl, rfl⟩ := hRedis.mp (.inr (.inl hSpills))
      obtain ⟨rest, hSource, -⟩ := hSpills
      exact absurd (congrArg List.length hSource) (by simp)
    · intro hSpills
      obtain ⟨rfl, rfl⟩ := hRedis.mp (.inr (.inr hSpills))
      obtain ⟨rest, hSource, -⟩ := hSpills
      exact absurd (congrArg List.length hSource) (by simp)
    · intro hSpills
      obtain ⟨rfl, rfl⟩ := hMemory.mp (.inr (.inl hSpills))
      obtain ⟨rest, hSource, -⟩ := hSpills
      exact absurd (congrArg List.length hSource) (by simp)
    · intro hSpills
      obtain ⟨rfl, rfl⟩ := hMemory.mp (.inr (.inr hSpills))
      obtain ⟨rest, hSource, -⟩ := hSpills
      exact absurd (congrArg List.length hSource) (by simp)
  · intro h
    constructor
    · constructor
      · rintro (⟨hTrim, hIdentifier⟩ | hSpills | hSpills)
        · exact ⟨h.trimmed hTrim hIdentifier, hIdentifier⟩
        · exact absurd hSpills h.short.1
        · exact absurd hSpills h.short.2
      · rintro ⟨rfl, rfl⟩
        exact .inl ⟨rfl, rfl⟩
    · constructor
      · rintro (hSame | hSpills | hSpills)
        · exact hSame
        · exact absurd hSpills h.plain.1
        · exact absurd hSpills h.plain.2
      · exact .inl

end Keys

section Increments

variable {platform : Platform} {options : LoginRateLimitOptions}

def toCounter (value : Nat × Nat) : Counter := ⟨value.1, value.2⟩

def toRedisEntry (value : Nat × Nat) : RedisEntry := ⟨value.1, some value.2⟩

def limitResult (limit now : Nat) (value : Nat × Nat) : LoginRateLimitResult where
  isExceeded := (limit : Int) < value.1
  retryAfterSeconds := retryAfter (value.2 - now)

theorem counters_increment {counters : Counters} {now : Nat} {key : Text} {limit : Nat} {summary : Option (Nat × Nat)}
    (hRoom : counters.length < options.fallbackCapacity)
    (hKey : InsertionMap.get key counters = summary.map toCounter)
    (hCount : ∀ count expiry, summary = some (count, expiry) → count < 2147483647) :
    counters.increment platform options now key limit =
      (InsertionMap.set key (toCounter (FixedWindow.next options.window now summary)) counters,
        limitResult limit now (FixedWindow.next options.window now summary)) := by
  have hWindow := options.window_pos
  have hOne : ((0 : Int) + 1).bmod 4294967296 = 1 := by decide
  have hFull : ¬ options.fallbackCapacity ≤ counters.length := by omega
  have hReopen (counter : Counter) : counter.expiresAtUtc ≤ now →
      counter.reopen options now = ⟨0, now + options.window⟩ := fun h => if_pos h
  have hKeep (counter : Counter) : now < counter.expiresAtUtc → counter.reopen options now = counter := fun h =>
    if_neg (by omega)
  simp only [Counters.increment, if_neg hFull, hKey]
  cases summary with
  | none =>
    rw [Option.map_none, Option.getD_none, hKeep _ (show now < now + options.window by omega)]
    simp only [hOne]
    rfl
  | some value =>
    obtain ⟨count, expiry⟩ := value
    rw [Option.map_some, Option.getD_some, FixedWindow.next]
    by_cases hNow : now < expiry
    · have hBound := hCount count expiry rfl
      have hNext : ((count : Int) + 1).bmod 4294967296 = ((count + 1 : Nat) : Int) := by
        rw [Int.bmod_eq_of_le (by omega) (by omega)]
        omega
      rw [hKeep _ (show now < expiry from hNow), if_pos hNow]
      simp only [toCounter, hNext]
      rfl
    · rw [hReopen _ (show expiry ≤ now by omega), if_neg hNow]
      simp only [hOne]
      rfl

theorem RedisStore.live_update {store : RedisStore} {now : Nat} {key : Text} {entry : RedisEntry}
    (h : entry.expiresAt.all (now < ·) = true) :
    RedisStore.live (Function.update store key (some entry)) now key = some entry := by
  rw [RedisStore.live, Function.update_self, Option.filter_some, if_pos h]

/-- The first count of a key opens its time to live. -/
theorem RedisStore.incrementWithExpiry_absent {store : RedisStore} {now : Nat} {key : Text} {milliseconds : Nat}
    (hWindow : 0 < milliseconds) (h : store.live now key = none) :
    store.incrementWithExpiry now key milliseconds =
      some (Function.update store key (some ⟨1, some (now + milliseconds)⟩), 1, ((now + milliseconds : Nat) : Int) - now) := by
  have hOpen : (⟨1, some (now + milliseconds)⟩ : RedisEntry).expiresAt.all (now < ·) = true :=
    decide_eq_true (show now < now + milliseconds by omega)
  have hIncr : store.incr now key = some (Function.update store key (some ⟨1, none⟩), 1) := by
    rw [RedisStore.incr, h]
  have hExpire : RedisStore.pexpire (Function.update store key (some ⟨1, none⟩)) now key milliseconds =
      Function.update store key (some ⟨1, some (now + milliseconds)⟩) := by
    rw [RedisStore.pexpire, RedisStore.live_update rfl, Function.update_idem]
    rfl
  simp only [RedisStore.incrementWithExpiry, hIncr, Option.bind_eq_bind, Option.bind_some, if_true, hExpire,
    RedisStore.pttl, RedisStore.live_update hOpen, Option.pure_def]

theorem RedisStore.incrementWithExpiry_live {store : RedisStore} {now : Nat} {key : Text} {milliseconds expiry : Nat}
    {count : Int} (hNow : now < expiry) (hCount : 0 < count ∧ count < 9223372036854775807)
    (h : store.live now key = some ⟨count, some expiry⟩) :
    store.incrementWithExpiry now key milliseconds =
      some (Function.update store key (some ⟨count + 1, some expiry⟩), count + 1, (expiry : Int) - now) := by
  have hOpen : (⟨count + 1, some expiry⟩ : RedisEntry).expiresAt.all (now < ·) = true := decide_eq_true hNow
  have hIncr : store.incr now key =
      some (Function.update store key (some ⟨count + 1, some expiry⟩), count + 1) := by
    rw [RedisStore.incr, h]
    exact if_pos (show count + 1 ≤ 9223372036854775807 by omega)
  simp only [RedisStore.incrementWithExpiry, hIncr, Option.bind_eq_bind, Option.bind_some,
    if_neg (show ¬ count + 1 = 1 by omega), RedisStore.pttl, RedisStore.live_update hOpen, Option.pure_def]

theorem redis_increment {store : RedisStore} {now : Nat} {key : Text} {limit : Nat} {summary : Option (Nat × Nat)}
    (hKey : store key = summary.map toRedisEntry)
    (hCount : ∀ count expiry, summary = some (count, expiry) → 0 < count ∧ count < 2147483647) :
    store.increment options now true key limit =
      some (Function.update store key (some (toRedisEntry (FixedWindow.next options.window now summary))),
        limitResult limit now (FixedWindow.next options.window now summary)) := by
  have hFresh (hLive : store.live now key = none) : store.increment options now true key limit =
      some (Function.update store key (some (toRedisEntry (1, now + options.window))),
        limitResult limit now (1, now + options.window)) := by
    rw [RedisStore.increment, if_pos rfl, RedisStore.incrementWithExpiry_absent options.window_pos hLive]
    rfl
  cases summary with
  | none => exact hFresh (by rw [RedisStore.live, hKey]; rfl)
  | some value =>
    obtain ⟨count, expiry⟩ := value
    obtain ⟨hPos, hBound⟩ := hCount count expiry rfl
    rw [Option.map_some, toRedisEntry] at hKey
    by_cases hNow : now < expiry
    · have hLive : store.live now key = some ⟨count, some expiry⟩ := by
        rw [RedisStore.live, hKey, Option.filter_some]
        exact if_pos (decide_eq_true hNow)
      rw [RedisStore.increment, if_pos rfl,
        RedisStore.incrementWithExpiry_live hNow (by omega) hLive, FixedWindow.next, if_pos hNow]
      rfl
    · have hLive : store.live now key = none := by
        rw [RedisStore.live, hKey, Option.filter_some]
        exact if_neg fun hOpen => hNow (of_decide_eq_true hOpen)
      rw [hFresh hLive, FixedWindow.next, if_neg hNow]

theorem Marks.times_cons_self (marks : Marks) (key : Tracked) (now : Nat) :
    Marks.times ((key, now) :: marks) key = now :: marks.times key := by
  simp [Marks.times]

theorem Marks.times_cons_of_ne {key other : Tracked} (h : other ≠ key) (marks : Marks) (now : Nat) :
    Marks.times ((key, now) :: marks) other = marks.times other := by
  simp [Marks.times, Ne.symm h]

/-- No mark is later than the next attempt, and the marks stand newest first. -/
structure Marks.Ordered (marks : Marks) (now : Nat) : Prop where
  earlier : ∀ mark ∈ marks, mark.2 ≤ now
  sorted : marks.Pairwise fun left right => left.2 ≥ right.2

theorem Marks.Ordered.cons {marks : Marks} {now : Nat} (h : marks.Ordered now) (key : Tracked) :
    Marks.Ordered ((key, now) :: marks) now where
  earlier mark hMark := by
    rcases List.mem_cons.mp hMark with rfl | hMark
    · exact le_rfl
    · exact h.earlier mark hMark
  sorted := List.pairwise_cons.mpr ⟨h.earlier, h.sorted⟩

theorem Marks.Ordered.times {marks : Marks} {now : Nat} (h : marks.Ordered now) (key : Tracked) :
    (now :: marks.times key).Pairwise (· ≥ ·) := by
  rw [List.pairwise_cons]
  constructor
  · intro time hTime
    obtain ⟨mark, hMark, rfl⟩ := List.mem_map.mp hTime
    exact h.earlier mark (List.mem_of_mem_filter hMark)
  · exact List.pairwise_map.mpr (h.sorted.filter _)

def Marks.summary (options : LoginRateLimitOptions) (marks : Marks) (key : Tracked) : Option (Nat × Nat) :=
  FixedWindow.summary options.window (marks.times key)

theorem Marks.summary_cons {marks : Marks} {now : Nat} (h : marks.Ordered now) (key other : Tracked) :
    Marks.summary options ((key, now) :: marks) other =
      if other = key then some (FixedWindow.next options.window now (marks.summary options key))
      else marks.summary options other := by
  split
  next hSame =>
    subst hSame
    rw [Marks.summary, Marks.times_cons_self, FixedWindow.summary_cons options.window_pos (h.times other)]
    rfl
  next hOther => rw [Marks.summary, Marks.times_cons_of_ne hOther, Marks.summary]

theorem Marks.increment_eq {marks : Marks} {now : Nat} (h : marks.Ordered now) (key : Tracked) (limit : Nat) :
    marks.increment options.window now key limit =
      ((key, now) :: marks,
        limitResult limit now (FixedWindow.next options.window now (marks.summary options key))) := by
  have hSummary := @Marks.summary_cons options marks now h key key
  rw [if_pos rfl, Marks.summary, FixedWindow.summary, Option.map_eq_some_iff] at hSummary
  obtain ⟨start, hStart, hNext⟩ := hSummary
  simp only [Marks.increment, ← hNext, hStart, Option.getD_some, limitResult, Int.natCast_add, Int.ofNat_lt]

end Increments

section Runs

variable {platform : Platform} {options : LoginRateLimitOptions} {used : Tracked → Prop} {counters : Counters}
  {store : RedisStore} {marks : Marks} {now : Nat} {key : Tracked}

/-- The keys that a condition selects are spelled apart by both limiters. -/
structure Separates (platform : Platform) (used : Tracked → Prop) : Prop where
  memory : ∀ left right, used left → used right → left.memoryKey platform = right.memoryKey platform → left = right
  redis : ∀ left right, used left → used right → left.redisKey platform = right.redisKey platform → left = right

def RemembersInMemory (platform : Platform) (options : LoginRateLimitOptions) (used : Tracked → Prop)
    (counters : Counters) (marks : Marks) : Prop :=
  ∀ key, used key → InsertionMap.get (key.memoryKey platform) counters = (marks.summary options key).map toCounter

def RemembersInRedis (platform : Platform) (options : LoginRateLimitOptions) (used : Tracked → Prop)
    (store : RedisStore) (marks : Marks) : Prop :=
  ∀ key, used key → store (key.redisKey platform) = (marks.summary options key).map toRedisEntry

theorem RemembersInMemory.increment (h : RemembersInMemory platform options used counters marks)
    (hKeys : Separates platform used) (hOrdered : marks.Ordered now) (hUsed : used key) :
    RemembersInMemory platform options used
      (InsertionMap.set (key.memoryKey platform)
        (toCounter (FixedWindow.next options.window now (marks.summary options key))) counters)
      ((key, now) :: marks) := by
  intro other hOther
  rw [Marks.summary_cons hOrdered]
  split
  next hSame =>
    subst hSame
    exact InsertionMap.get_set_self _ _ _
  next hNe =>
    rw [InsertionMap.get_set_of_ne fun hSpelled => hNe (hKeys.memory other key hOther hUsed hSpelled)]
    exact h other hOther

theorem RemembersInRedis.increment (h : RemembersInRedis platform options used store marks)
    (hKeys : Separates platform used) (hOrdered : marks.Ordered now) (hUsed : used key) :
    RemembersInRedis platform options used
      (Function.update store (key.redisKey platform)
        (some (toRedisEntry (FixedWindow.next options.window now (marks.summary options key)))))
      ((key, now) :: marks) := by
  intro other hOther
  rw [Marks.summary_cons hOrdered]
  split
  next hSame =>
    subst hSame
    exact Function.update_self _ _ _
  next hNe =>
    rw [Function.update_of_ne fun hSpelled => hNe (hKeys.redis other key hOther hUsed hSpelled)]
    exact h other hOther

/-- Every counter of the attempt is counted while there is room for one more, and no count is at the end of its range. -/
structure Room (platform : Platform) (options : LoginRateLimitOptions) (counters : Counters)
    (request : LoginRateLimitRequest) : Prop where
  source : counters.length < options.fallbackCapacity
  pair : isNullOrWhiteSpace request.identifier = false →
    InMemoryLoginRateLimiter.sourceKey platform request.source ∉ counters.map Prod.fst →
      counters.length + 1 < options.fallbackCapacity
  counts : ∀ entry ∈ counters, entry.2.count < 2147483647

theorem Room.length_set {request : LoginRateLimitRequest} (h : Room platform options counters request)
    (hNamed : isNullOrWhiteSpace request.identifier = false) (counter : Counter) :
    (InsertionMap.set (InMemoryLoginRateLimiter.sourceKey platform request.source) counter counters).length <
      options.fallbackCapacity := by
  have hSource := h.source
  rw [← List.length_map Prod.fst, InsertionMap.map_fst_set]
  split
  · rw [List.length_map]
    exact hSource
  next hNew =>
    have := h.pair hNamed hNew
    rw [List.length_append, List.length_map, List.length_singleton]
    exact this

theorem RemembersInMemory.bound (h : RemembersInMemory platform options used counters marks) (hUsed : used key)
    (hCounts : ∀ entry ∈ counters, entry.2.count < 2147483647) :
    ∀ count expiry, marks.summary options key = some (count, expiry) → 0 < count ∧ count < 2147483647 := by
  intro count expiry hSummary
  have hGet := h key hUsed
  rw [hSummary, Option.map_some] at hGet
  have hCount := hCounts _ (InsertionMap.mem_of_get hGet)
  simp only [toCounter] at hCount
  exact ⟨FixedWindow.pos_of_summary hSummary, by omega⟩

/-- The keys that an attempt may be counted on. -/
def Counts (platform : Platform) (request : LoginRateLimitRequest) (key : Tracked) : Prop :=
  key = .source request.source ∨ ∃ identifier, request.identifier = some identifier ∧
    isNullOrWhiteSpace (some identifier) = false ∧ key = .pair request.source (normalized platform identifier)

/-- One attempt: the three limiters answer alike and keep the relation. -/
theorem incrementAsync_alike (hKeys : Separates platform used) {attempt : LoginAttempt} {fallback : Counters}
    (hUsed : ∀ key, Counts platform attempt.request key → used key) (hOrdered : marks.Ordered attempt.now)
    (hMemory : RemembersInMemory platform options used counters marks)
    (hRedis : RemembersInRedis platform options used store marks)
    (hRoom : Room platform options counters attempt.request)
    (hReached : attempt.sourceReached = true ∧ attempt.pairReached = true) :
    ∃ counters' store' marks' result,
      InMemoryLoginRateLimiter.incrementAsync platform options counters attempt.now attempt.request =
          (counters', result) ∧
        RedisLoginRateLimiter.incrementAsync platform options ⟨store, fallback⟩ attempt = (⟨store', fallback⟩, result) ∧
        marks.incrementAsync platform options.window attempt = (marks', result) ∧
        marks'.Ordered attempt.now ∧ RemembersInMemory platform options used counters' marks' ∧
        RemembersInRedis platform options used store' marks' := by
  obtain ⟨now, request, sourceReached, pairReached⟩ := attempt
  obtain ⟨rfl, rfl⟩ := hReached
  dsimp only at hUsed hOrdered hRoom
  have hSource : used (.source request.source) := hUsed _ (.inl rfl)
  have hBound := hMemory.bound hSource hRoom.counts
  have hCounted : counters.increment platform options now _ lockedSourceLimit = _ :=
    counters_increment hRoom.source (hMemory _ hSource) fun count expiry h => (hBound count expiry h).2
  have hScript : store.increment options now true _ lockedSourceLimit = _ := redis_increment (hRedis _ hSource) hBound
  have hMarked : marks.increment options.window now _ lockedSourceLimit = _ :=
    Marks.increment_eq hOrdered (.source request.source) _
  have hMemory' := hMemory.increment hKeys hOrdered hSource
  have hRedis' := hRedis.increment hKeys hOrdered hSource
  have hOrdered' := hOrdered.cons (.source request.source)
  generalize FixedWindow.next options.window now (marks.summary options (.source request.source)) = value at *
  simp only [InMemoryLoginRateLimiter.incrementAsync, RedisLoginRateLimiter.incrementAsync, Marks.incrementAsync,
    memory_sourceKey, memory_pairKey, redis_sourceKey, redis_pairKey, hCounted, hScript, hMarked]
  by_cases hExceeded : (limitResult lockedSourceLimit now value).isExceeded = true
  · simp only [hExceeded, if_true]
    exact ⟨_, _, _, _, rfl, rfl, rfl, hOrdered', hMemory', hRedis'⟩
  · simp only [hExceeded, Bool.false_eq_true, if_false]
    cases hIdentifier : request.identifier with
    | none => exact ⟨_, _, _, _, rfl, rfl, rfl, hOrdered', hMemory', hRedis'⟩
    | some identifier =>
      by_cases hBlank : isNullOrWhiteSpace (some identifier) = true
      · simp only [hBlank, if_true]
        exact ⟨_, _, _, _, rfl, rfl, rfl, hOrdered', hMemory', hRedis'⟩
      · have hNamed : isNullOrWhiteSpace (some identifier) = false := by simpa using hBlank
        have hPair : used (.pair request.source (normalized platform identifier)) :=
          hUsed _ (.inr ⟨identifier, hIdentifier, hNamed, rfl⟩)
        have hBound' := hMemory.bound hPair hRoom.counts
        have hSame : Marks.summary options ((.source request.source, now) :: marks)
            (.pair request.source (normalized platform identifier)) =
              marks.summary options (.pair request.source (normalized platform identifier)) := by
          rw [Marks.summary_cons hOrdered, if_neg (by simp)]
        rw [← hSame] at hBound'
        have hCounted' : Counters.increment platform options
            (InsertionMap.set ((Tracked.source request.source).memoryKey platform) (toCounter value) counters) now _
            lockedPairLimit = _ :=
          counters_increment (hRoom.length_set (by rw [hIdentifier]; exact hNamed) _) (hMemory' _ hPair)
            fun count expiry h => (hBound' count expiry h).2
        have hScript' : RedisStore.increment options _ now true _ lockedPairLimit = _ :=
          redis_increment (hRedis' _ hPair) hBound'
        have hMarked' : Marks.increment options.window _ now _ lockedPairLimit = _ :=
          Marks.increment_eq hOrdered' (.pair request.source (normalized platform identifier)) _
        simp only [hNamed, hMarked', hCounted', hScript', Bool.false_eq_true, if_false]
        exact ⟨_, _, _, _, rfl, rfl, rfl, hOrdered'.cons _, hMemory'.increment hKeys hOrdered' hPair,
          hRedis'.increment hKeys hOrdered' hPair⟩

end Runs

section Results

variable {platform : Platform} {options : LoginRateLimitOptions}

/-- The answers of a limiter to a sequence of attempts. -/
def answers {σ : Type} (increment : σ → LoginAttempt → σ × LoginRateLimitResult) : σ → List LoginAttempt →
    List LoginRateLimitResult
  | _, [] => []
  | state, attempt :: rest => (increment state attempt).2 :: answers increment (increment state attempt).1 rest

def memoryStep (platform : Platform) (options : LoginRateLimitOptions) (counters : Counters) (attempt : LoginAttempt) :
    Counters × LoginRateLimitResult :=
  InMemoryLoginRateLimiter.incrementAsync platform options counters attempt.now attempt.request

/-- Every attempt of the sequence finds room in the map of the in-memory limiter. -/
def Roomy (platform : Platform) (options : LoginRateLimitOptions) : Counters → List LoginAttempt → Prop
  | _, [] => True
  | counters, attempt :: rest =>
    Room platform options counters attempt.request ∧
      Roomy platform options (memoryStep platform options counters attempt).1 rest

/-- No two attempts have sources that differ only in white space around them, and no two pairs are spelled alike. -/
structure Legible (platform : Platform) (attempts : List LoginAttempt) : Prop where
  sources : ∀ left ∈ attempts, ∀ right ∈ attempts, trim left.request.source = trim right.request.source →
    left.request.source = right.request.source
  pairs : ∀ left ∈ attempts, ∀ right ∈ attempts, ∀ identifier identifier',
    left.request.identifier = some identifier → isNullOrWhiteSpace (some identifier) = false →
      right.request.identifier = some identifier' → isNullOrWhiteSpace (some identifier') = false →
        Apart left.request.source (normalized platform identifier) right.request.source
          (normalized platform identifier')

theorem memoryKey_source_ne_pair (hHash : Function.Injective platform.hash) (source source' identifier : Text) :
    (Tracked.source source).memoryKey platform ≠ (Tracked.pair source' identifier).memoryKey platform := by
  intro h
  have hHead := congrArg List.head? (hHash h)
  revert hHead
  simp [sourcePrefix, pairPrefix]

theorem redisKey_source_ne_pair (source source' identifier : Text) :
    (Tracked.source source).redisKey platform ≠ (Tracked.pair source' identifier).redisKey platform := by
  rw [Tracked.redisKey, Tracked.redisKey, redisSourcePrefix, redisPairPrefix, List.append_assoc, List.append_assoc]
  intro h
  have hHead := congrArg List.head? (List.append_cancel_left h)
  revert hHead
  simp [sourcePrefix, pairPrefix]

theorem Legible.separates {attempts : List LoginAttempt} (h : Legible platform attempts)
    (hHash : Function.Injective platform.hash) :
    Separates platform fun key => ∃ attempt ∈ attempts, Counts platform attempt.request key where
  memory left right hLeft hRight hKey := by
    obtain ⟨attempt, hMem, rfl | ⟨identifier, hSome, hNamed, rfl⟩⟩ := hLeft
    · obtain ⟨other, hMem', rfl | ⟨identifier', -, -, rfl⟩⟩ := hRight
      · rw [h.sources attempt hMem other hMem' (List.append_cancel_left (hHash hKey))]
      · exact absurd hKey (memoryKey_source_ne_pair hHash _ _ _)
    · obtain ⟨other, hMem', rfl | ⟨identifier', hSome', hNamed', rfl⟩⟩ := hRight
      · exact absurd hKey.symm (memoryKey_source_ne_pair hHash _ _ _)
      · have hApart := h.pairs attempt hMem other hMem' identifier identifier' hSome hNamed hSome' hNamed'
        obtain ⟨hSource, hIdentifier⟩ := ((shared_iff_apart hHash _ _ _ _).mpr hApart).1.mp hKey
        rw [hSource, hIdentifier]
  redis left right hLeft hRight hKey := by
    obtain ⟨attempt, hMem, rfl | ⟨identifier, hSome, hNamed, rfl⟩⟩ := hLeft
    · obtain ⟨other, hMem', rfl | ⟨identifier', -, -, rfl⟩⟩ := hRight
      · rw [hHash (List.append_cancel_left hKey)]
      · exact absurd hKey (redisKey_source_ne_pair _ _ _)
    · obtain ⟨other, hMem', rfl | ⟨identifier', hSome', hNamed', rfl⟩⟩ := hRight
      · exact absurd hKey.symm (redisKey_source_ne_pair _ _ _)
      · have hApart := h.pairs attempt hMem other hMem' identifier identifier' hSome hNamed hSome' hNamed'
        obtain ⟨hSource, hIdentifier⟩ := ((shared_iff_apart hHash _ _ _ _).mpr hApart).2.mp hKey
        rw [hSource, hIdentifier]

theorem answers_alike {used : Tracked → Prop} (hKeys : Separates platform used) {fallback : Counters}
    {attempts : List LoginAttempt} {counters : Counters} {store : RedisStore} {marks : Marks}
    (hUsed : ∀ attempt ∈ attempts, ∀ key, Counts platform attempt.request key → used key)
    (hTimes : attempts.Pairwise (·.now ≤ ·.now)) (hOrdered : ∀ attempt ∈ attempts, marks.Ordered attempt.now)
    (hMemory : RemembersInMemory platform options used counters marks)
    (hRedis : RemembersInRedis platform options used store marks) (hRoomy : Roomy platform options counters attempts)
    (hReached : ∀ attempt ∈ attempts, attempt.sourceReached = true ∧ attempt.pairReached = true) :
    answers (memoryStep platform options) counters attempts =
        answers (Marks.incrementAsync platform options.window) marks attempts ∧
      answers (RedisLoginRateLimiter.incrementAsync platform options) ⟨store, fallback⟩ attempts =
        answers (Marks.incrementAsync platform options.window) marks attempts := by
  induction attempts generalizing counters store marks with
  | nil => exact ⟨rfl, rfl⟩
  | cons attempt rest ih =>
    obtain ⟨hRoom, hRest⟩ := hRoomy
    rw [List.pairwise_cons] at hTimes
    obtain ⟨counters', store', marks', result, hCounted, hScript, hMarked, hOrdered', hMemory', hRedis'⟩ :=
      @incrementAsync_alike platform options used counters store marks hKeys attempt fallback
        (hUsed attempt List.mem_cons_self) (hOrdered attempt List.mem_cons_self) hMemory hRedis hRoom
        (hReached attempt List.mem_cons_self)
    rw [memoryStep, hCounted] at hRest
    obtain ⟨hLeft, hRight⟩ := ih (fun later hLater => hUsed later (List.mem_cons_of_mem _ hLater)) hTimes.2
      (fun later hLater => ⟨fun mark hMark => Nat.le_trans (hOrdered'.earlier mark hMark) (hTimes.1 later hLater),
        hOrdered'.sorted⟩) hMemory' hRedis' hRest fun later hLater => hReached later (List.mem_cons_of_mem _ hLater)
    simp only [answers, memoryStep, hCounted, hScript, hMarked]
    exact ⟨congrArg _ hLeft, congrArg _ hRight⟩

end Results

section FewKeys

variable {platform : Platform} {options : LoginRateLimitOptions} {keys : List Text} {counters : Counters} {bound : Nat}

/-- The counters stand on some of the keys and have counted no more than the bound. -/
structure Within (keys : List Text) (bound : Nat) (counters : Counters) : Prop where
  nodup : (counters.map Prod.fst).Nodup
  subset : counters.map Prod.fst ⊆ keys
  counts : ∀ entry ∈ counters, 0 ≤ entry.2.count ∧ entry.2.count ≤ bound

theorem Within.length_le (h : Within keys bound counters) : counters.length ≤ keys.length := by
  have := (h.nodup.subperm h.subset).length_le
  rwa [List.length_map] at this

theorem Within.length_lt (h : Within keys bound counters) {key : Text} (hKey : key ∈ keys)
    (hNew : key ∉ counters.map Prod.fst) : counters.length < keys.length := by
  have hNodup : (key :: counters.map Prod.fst).Nodup := List.nodup_cons.mpr ⟨hNew, h.nodup⟩
  have := (hNodup.subperm (List.cons_subset.mpr ⟨hKey, h.subset⟩)).length_le
  rw [List.length_cons, List.length_map] at this
  omega

theorem Within.increment (h : Within keys bound counters) (hKeys : keys.length < options.fallbackCapacity)
    (hBound : bound + 1 < 2147483648) {key : Text} (hKey : key ∈ keys) (now limit : Nat) :
    Within keys (bound + 1) (counters.increment platform options now key limit).1 := by
  have hLength := h.length_le
  have hFull : ¬ options.fallbackCapacity ≤ counters.length := by omega
  simp only [Counters.increment, if_neg hFull]
  refine ⟨InsertionMap.nodup_set h.nodup, fun other hOther => ?_, fun entry hEntry => ?_⟩
  · rw [InsertionMap.map_fst_set] at hOther
    split at hOther
    · exact h.subset hOther
    · rcases List.mem_append.mp hOther with hOld | hNew
      · exact h.subset hOld
      · exact List.mem_singleton.mp hNew ▸ hKey
  · rcases InsertionMap.mem_set hEntry with rfl | hOld
    · have hCount : ∀ counter : Counter, 0 ≤ counter.count ∧ counter.count ≤ bound →
          0 ≤ ((counter.reopen options now).count + 1).bmod 4294967296 ∧
            ((counter.reopen options now).count + 1).bmod 4294967296 ≤ bound + 1 := by
        intro counter hCounter
        have hReopened : 0 ≤ (counter.reopen options now).count ∧ (counter.reopen options now).count ≤ bound := by
          rw [Counter.reopen]
          split
          · exact ⟨Int.le_refl 0, Int.natCast_nonneg bound⟩
          · exact hCounter
        rw [Int.bmod_eq_of_le (by omega) (by omega)]
        omega
      refine hCount _ ?_
      cases hGet : InsertionMap.get key counters with
      | none => exact ⟨Int.le_refl 0, Int.natCast_nonneg bound⟩
      | some counter => exact h.counts _ (InsertionMap.mem_of_get hGet)
    · have := h.counts entry hOld
      omega

/-- A sequence that uses fewer keys than the capacity, and no more than 2^30 attempts, always finds room. -/
theorem roomy_of_keys (hKeys : keys.length < options.fallbackCapacity) {attempts : List LoginAttempt}
    (hUsed : ∀ attempt ∈ attempts,
      InMemoryLoginRateLimiter.sourceKey platform attempt.request.source ∈ keys ∧
        ∀ identifier, attempt.request.identifier = some identifier →
          InMemoryLoginRateLimiter.pairKey platform attempt.request.source identifier ∈ keys)
    (hBound : bound + 2 * attempts.length < 2147483647) (h : Within keys bound counters) :
    Roomy platform options counters attempts := by
  induction attempts generalizing counters bound with
  | nil => trivial
  | cons attempt rest ih =>
    rw [List.length_cons] at hBound
    obtain ⟨hSource, hPair⟩ := hUsed attempt List.mem_cons_self
    have hLength := h.length_le
    refine ⟨⟨by omega, fun _ hNew => ?_, fun entry hEntry => ?_⟩, ?_⟩
    · have := h.length_lt hSource hNew
      omega
    · have := h.counts entry hEntry
      omega
    · have hNext : Within keys (bound + 2) (memoryStep platform options counters attempt).1 := by
        have hOne := @Within.increment platform options keys counters bound h hKeys (by omega) _ hSource attempt.now lockedSourceLimit
        have hTwo (counters : Counters) (hCounters : Within keys (bound + 1) counters) :
            Within keys (bound + 2) counters :=
          ⟨hCounters.nodup, hCounters.subset, fun entry hEntry => by have := hCounters.counts entry hEntry; omega⟩
        simp only [memoryStep, InMemoryLoginRateLimiter.incrementAsync]
        split
        · exact hTwo _ hOne
        · split
          · exact hTwo _ hOne
          next identifier hIdentifier =>
            split
            · exact hTwo _ hOne
            · exact hOne.increment hKeys (by omega) (hPair identifier hIdentifier) _ _
      exact ih (fun later hLater => hUsed later (List.mem_cons_of_mem _ hLater)) (by omega) hNext

/-- A full map may evict the very counter that is counted next, which starts over. -/
theorem increment_evicted {key : Text} {now limit : Nat} (hLimit : 0 < limit)
    (hFull : options.fallbackCapacity ≤ counters.length) (hFirst : platform.keysFirst (counters.map Prod.fst) = key) :
    (counters.increment platform options now key limit).1 =
        InsertionMap.delete key counters ++ [(key, ⟨1, now + options.window⟩)] ∧
      (counters.increment platform options now key limit).2.isExceeded = false := by
  have hWindow := options.window_pos
  have hOne : ((0 : Int) + 1).bmod 4294967296 = 1 := by decide
  have hKeep : Counter.reopen options now ⟨0, now + options.window⟩ = ⟨0, now + options.window⟩ :=
    if_neg (show ¬ now + options.window ≤ now by omega)
  simp only [Counters.increment, if_pos hFull, hFirst, InsertionMap.get_delete_self, Option.getD_none, hKeep, hOne]
  exact ⟨InsertionMap.set_of_get_none _ (InsertionMap.get_delete_self key counters), decide_eq_false (by omega)⟩

def foremostKey : Text := sourcePrefix ++ ['h', 'o', 's', 't']

/-- The foremost key is enumerated before the others. -/
def foremostPlatform : Platform :=
  ⟨id, List.map Char.toUpper, fun keys => if keys.contains foremostKey then foremostKey else keys.headD []⟩

end FewKeys

section Results

/-- A platform whose hash spells its input. -/
def plainPlatform : Platform := ⟨id, List.map Char.toUpper, fun keys => keys.headD []⟩

theorem plainPlatform_injective : Function.Injective plainPlatform.hash := Function.injective_id

def shortestOptions : LoginRateLimitOptions := ⟨5, 100, by decide, by decide⟩

/-- Six attempts with one identifier, in one second. -/
def sixAttempts : List LoginAttempt :=
  List.replicate 6 ⟨1000, ⟨['h', 'o', 's', 't'], some ['o', 'p']⟩, true, true⟩

end Results

end CommandConsole.Authentication
