import Mathlib.Data.Int.Basic
import CommandConsole.Library.FixedWindow
import CommandConsole.Library.InsertionMap

/-! # Login rate limits

The in-memory and the Redis login rate limiter. Texts are lists of Unicode scalar values, the clock counts
milliseconds.
-/
namespace CommandConsole.Authentication
set_option autoImplicit false

open Library

abbrev Text := List Char

/-- `Char.IsWhiteSpace`. -/
def isWhiteSpace (c : Char) : Bool :=
  (9 ≤ c.toNat && c.toNat ≤ 13) || (0x2000 ≤ c.toNat && c.toNat ≤ 0x200A) ||
    [0x20, 0x85, 0xA0, 0x1680, 0x2028, 0x2029, 0x202F, 0x205F, 0x3000].contains c.toNat

def trim (text : Text) : Text := ((text.dropWhile isWhiteSpace).reverse.dropWhile isWhiteSpace).reverse

def isNullOrWhiteSpace : Option Text → Bool
  | none => true
  | some text => text.all isWhiteSpace

/-- What the limiters take from the platform. -/
structure Platform where
  /-- `Convert.ToHexString(HMACSHA256.HashData(key, Encoding.UTF8.GetBytes(value)))`. -/
  hash : Text → Text
  toUpperInvariant : Text → Text
  /-- `Keys.First()`: a `ConcurrentDictionary` enumerates its keys in no specified order. -/
  keysFirst : List Text → Text

def lockedSourceLimit : Nat := 10

def lockedPairLimit : Nat := 5

structure LoginRateLimitOptions where
  windowMinutes : Nat
  fallbackCapacity : Nat
  windowRange : 1 ≤ windowMinutes ∧ windowMinutes ≤ 5
  capacityRange : 100 ≤ fallbackCapacity ∧ fallbackCapacity ≤ 100000

def LoginRateLimitOptions.window (options : LoginRateLimitOptions) : Nat := options.windowMinutes * 60000

theorem LoginRateLimitOptions.window_pos (options : LoginRateLimitOptions) : 0 < options.window := by
  have := options.windowRange
  rw [LoginRateLimitOptions.window]
  omega

structure LoginRateLimitRequest where
  source : Text
  identifier : Option Text

structure LoginRateLimitResult where
  isExceeded : Bool
  retryAfterSeconds : Int
  usedFallback : Bool := false
deriving DecidableEq

/-- The seconds that are left, rounded up, and at least one. -/
def retryAfter (milliseconds : Int) : Int := max 1 (-(-milliseconds / 1000))

section InMemory

structure Counter where
  count : Int
  expiresAtUtc : Nat
deriving DecidableEq

abbrev Counters := List (Text × Counter)

/-- A counter whose window has passed counts from zero again. -/
def Counter.reopen (options : LoginRateLimitOptions) (now : Nat) (counter : Counter) : Counter :=
  if counter.expiresAtUtc ≤ now then ⟨0, now + options.window⟩ else counter

/-- `Increment`. The count is a 32-bit integer that wraps. -/
def Counters.increment (platform : Platform) (options : LoginRateLimitOptions) (counters : Counters) (now : Nat)
    (counterKey : Text) (limit : Nat) : Counters × LoginRateLimitResult :=
  let counters := if options.fallbackCapacity ≤ counters.length
    then InsertionMap.delete (platform.keysFirst (counters.map Prod.fst)) counters else counters
  let counter := (InsertionMap.get counterKey counters).getD ⟨0, now + options.window⟩
  let counter := counter.reopen options now
  let counter : Counter := ⟨(counter.count + 1).bmod 4294967296, counter.expiresAtUtc⟩
  (InsertionMap.set counterKey counter counters,
    { isExceeded := limit < counter.count, retryAfterSeconds := retryAfter (counter.expiresAtUtc - now) })

/-- The text `source:`. -/
def sourcePrefix : Text := ['s', 'o', 'u', 'r', 'c', 'e', ':']

/-- The text `pair:`. -/
def pairPrefix : Text := ['p', 'a', 'i', 'r', ':']

def InMemoryLoginRateLimiter.sourceKey (platform : Platform) (source : Text) : Text :=
  platform.hash (sourcePrefix ++ trim source)

def InMemoryLoginRateLimiter.pairKey (platform : Platform) (source identifier : Text) : Text :=
  platform.hash (pairPrefix ++ trim source ++ ':' :: platform.toUpperInvariant (trim identifier))

def InMemoryLoginRateLimiter.incrementAsync (platform : Platform) (options : LoginRateLimitOptions)
    (counters : Counters) (now : Nat) (request : LoginRateLimitRequest) : Counters × LoginRateLimitResult :=
  let (counters, sourceResult) :=
    counters.increment platform options now (sourceKey platform request.source) lockedSourceLimit
  if sourceResult.isExceeded then (counters, sourceResult)
  else
    match request.identifier with
    | none => (counters, sourceResult)
    | some identifier =>
      if isNullOrWhiteSpace (some identifier) then (counters, sourceResult)
      else counters.increment platform options now (pairKey platform request.source identifier) lockedPairLimit

end InMemory

section Redis

structure RedisEntry where
  count : Int
  expiresAt : Option Nat
deriving DecidableEq

abbrev RedisStore := Text → Option RedisEntry

/-- A key whose time to live has passed does not exist. -/
def RedisStore.live (store : RedisStore) (now : Nat) (key : Text) : Option RedisEntry :=
  (store key).filter fun entry => entry.expiresAt.all (now < ·)

/-- INCR keeps the time to live and refuses to leave the range of 64-bit integers. -/
def RedisStore.incr (store : RedisStore) (now : Nat) (key : Text) : Option (RedisStore × Int) :=
  match store.live now key with
  | some entry =>
    if entry.count + 1 ≤ 9223372036854775807
    then some (Function.update store key (some { entry with count := entry.count + 1 }), entry.count + 1)
    else none
  | none => some (Function.update store key (some ⟨1, none⟩), 1)

def RedisStore.pexpire (store : RedisStore) (now : Nat) (key : Text) (milliseconds : Nat) : RedisStore :=
  Function.update store key
    ((store.live now key).map fun entry => { entry with expiresAt := some (now + milliseconds) })

def RedisStore.pttl (store : RedisStore) (now : Nat) (key : Text) : Int :=
  match store.live now key with
  | none => -2
  | some entry =>
    match entry.expiresAt with
    | none => -1
    | some time => time - now

/-- The script of the limiter. -/
def RedisStore.incrementWithExpiry (store : RedisStore) (now : Nat) (key : Text) (milliseconds : Nat) :
    Option (RedisStore × Int × Int) := do
  let (store, count) ← store.incr now key
  let store := if count = 1 then store.pexpire now key milliseconds else store
  return (store, count, store.pttl now key)

/-- The text `authz:login:`. -/
def redisPrefix : Text := ['a', 'u', 't', 'h', 'z', ':', 'l', 'o', 'g', 'i', 'n', ':']

def redisSourcePrefix : Text := redisPrefix ++ sourcePrefix

def redisPairPrefix : Text := redisPrefix ++ pairPrefix

def RedisLoginRateLimiter.sourceKey (platform : Platform) (source : Text) : Text :=
  redisSourcePrefix ++ platform.hash source

def RedisLoginRateLimiter.pairKey (platform : Platform) (source identifier : Text) : Text :=
  redisPairPrefix ++ platform.hash (source ++ ':' :: platform.toUpperInvariant (trim identifier))

/-- One script call. `none` is a `RedisException`, also where Redis is not reached. -/
def RedisStore.increment (options : LoginRateLimitOptions) (store : RedisStore) (now : Nat) (reached : Bool)
    (keyName : Text) (limit : Nat) : Option (RedisStore × LoginRateLimitResult) :=
  if reached then
    (store.incrementWithExpiry now keyName options.window).map fun (store, count, millisecondsRemaining) =>
      (store, { isExceeded := limit < count, retryAfterSeconds := retryAfter millisecondsRemaining })
  else none

structure RedisLimiterState where
  store : RedisStore
  fallback : Counters

/-- An attempt comes with its time and with whether Redis is reached for its first and its second script call. -/
structure LoginAttempt where
  now : Nat
  request : LoginRateLimitRequest
  sourceReached : Bool
  pairReached : Bool

def RedisLoginRateLimiter.useFallback (platform : Platform) (options : LoginRateLimitOptions)
    (state : RedisLimiterState) (attempt : LoginAttempt) : RedisLimiterState × LoginRateLimitResult :=
  let (fallback, result) :=
    InMemoryLoginRateLimiter.incrementAsync platform options state.fallback attempt.now attempt.request
  ({ state with fallback }, { result with usedFallback := true })

def RedisLoginRateLimiter.incrementAsync (platform : Platform) (options : LoginRateLimitOptions)
    (state : RedisLimiterState) (attempt : LoginAttempt) : RedisLimiterState × LoginRateLimitResult :=
  let { now, request, sourceReached, pairReached } := attempt
  match state.store.increment options now sourceReached (sourceKey platform request.source) lockedSourceLimit with
  | none => useFallback platform options state attempt
  | some (store, source) =>
    if source.isExceeded then ({ state with store }, source)
    else
      match request.identifier with
      | none => ({ state with store }, source)
      | some identifier =>
        if isNullOrWhiteSpace (some identifier) then ({ state with store }, source)
        else
          match store.increment options now pairReached (pairKey platform request.source identifier) lockedPairLimit with
          | none => useFallback platform options { state with store } attempt
          | some (store, pair) => ({ state with store }, pair)

end Redis

end CommandConsole.Authentication
