import Gungnir.Redis.Server
import Gungnir.Library.Stateful
import Mathlib.Data.Rat.Floor

/-!
# Rate limit stores

`MemoryRateLimitStore` of `http/rate_limit.hpp` and `RedisRateLimitStore` of
`http/redis_rate_limit.cpp`. Times are in nanoseconds, counted from the epoch of the steady clock.
What the conversion from text to number does to other texts than decimal ones is left to the
interpreter of the script.
-/

namespace Gungnir.Http.RateLimit

open Gungnir.Core Gungnir.Library Gungnir.Redis

structure Decision where
  allowed : Bool
  remaining : Nat
  retryAfter : Int
  deriving DecidableEq, Repr

def maxExactInteger : Nat := 9007199254740991

/-- `steady_clock::time_point::max()`. -/
def maxTime : Int := 9223372036854775807

def nanoseconds (seconds : Int) : Int := seconds * 1000000000

variable (now : Int)

def validateRateLimit (requests : Nat) (window : Int) : Except Exception Unit :=
  if requests = 0 ∨ requests > maxExactInteger ∨ window ≤ 0 ∨
      window.toNat > maxExactInteger / 1000 ∨
      nanoseconds window > maxTime - now - nanoseconds 1 then
    .error (.invalidArgument "Rate limit values are out of range")
  else .ok ()

def emptyKey : Exception := .invalidArgument "Rate limit key cannot be empty"

/-- `std::chrono::ceil` of a duration given in parts of a second. -/
def ceilSeconds (parts duration : Int) : Int := -((-duration) / parts)

/-! ## The memory store -/

structure Bucket where
  count : Nat
  reset : Int
  deriving DecidableEq, Repr

abbrev Buckets := AList fun _ : Bytes => Bucket

structure MemoryStore where
  maxClients : Nat
  buckets : Buckets
  positive : maxClients ≠ 0

/-- `std::erase_if` on the buckets that have expired. -/
def eraseExpired (buckets : Buckets) : Buckets :=
  ⟨buckets.entries.filter fun item => ¬item.2.reset ≤ now,
    buckets.nodupKeys.sublist List.filter_sublist⟩

def MemoryStore.consume (key : Bytes) (requests : Nat) (window : Int)
    (store : MemoryStore) : Except Exception Decision × MemoryStore :=
  match validateRateLimit now requests window with
  | .error raised => (.error raised, store)
  | .ok () =>
    if key = [] then (.error emptyKey, store)
    else
      let buckets :=
        if (store.buckets.lookup key).isNone ∧ store.buckets.entries.length ≥ store.maxClients then
          eraseExpired now store.buckets
        else store.buckets
      if (buckets.lookup key).isNone ∧ buckets.entries.length ≥ store.maxClients then
        (.ok ⟨false, 0, window⟩, { store with buckets := buckets })
      else
        -- A bucket that `operator[]` has just made is expired.
        let bucket := (buckets.lookup key).getD ⟨0, 0⟩
        let bucket := if bucket.reset ≤ now then ⟨0, now + nanoseconds window⟩ else bucket
        let allowed := decide (bucket.count < requests)
        let bucket := if allowed then { bucket with count := bucket.count + 1 } else bucket
        (.ok ⟨allowed, if bucket.count ≥ requests then 0 else requests - bucket.count,
            ceilSeconds 1000000000 (bucket.reset - now)⟩,
          { store with buckets := buckets.insert key bucket })

/-! ## The Redis store -/

/-- The conversion of the script's interpreter, where numbers up to `maxExactInteger` are exact. -/
structure Lua where
  tonumber : Bytes → Option Rat
  tonumber_print : ∀ value, value ≤ maxExactInteger → tonumber (stdToString value) = some (value : Rat)

/-- How a number of the script becomes an integer reply. -/
def truncate (number : Rat) : Redis.Reply := .integer (number.num.tdiv number.den)

/-- `PTTL` of a key that is there. -/
def timeToLive (entry : Expiring Int Bytes) : Int :=
  match entry.expiresAt with
  | none => -1
  | some expiry => (expiry - now) / 1000000

def notAnInteger : Redis.Reply := .error (ascii "ERR value is not an integer or out of range")

/-- `SET key value PX milliseconds`. -/
def setPx (key value milliseconds : Bytes) (server : Server) : Except Redis.Reply Server :=
  match Decimal.parse (2 ^ 63) milliseconds with
  | none => .error notAnInteger
  | some 0 => .error (.error (ascii "ERR invalid expire time in 'set' command"))
  | some (value' + 1) =>
    .ok (AList.insert key ⟨value, some (now + (value' + 1 : Nat) * 1000000)⟩ server)

/-- `INCR` of a key that is there. -/
def increment (key : Bytes) (entry : Expiring Int Bytes) (server : Server) : Except Redis.Reply Server :=
  match Decimal.parse (2 ^ 63) entry.value with
  | none => .error notAnInteger
  | some value =>
    if value + 1 = 2 ^ 63 then
      .error (.error (ascii "ERR increment or decrement would overflow"))
    else .ok (AList.insert key ⟨stdToString (value + 1), entry.expiresAt⟩ server)

def arithmeticOnNil : Redis.Reply := .error (ascii "ERR attempt to perform arithmetic on a nil value")

/-- `consume_script`, with the effects that it has had when it raises. -/
def consumeScript (lua : Lua) (now : Int) (key limitText windowText : Bytes) (server : Server) :
    Redis.Reply × Server :=
  match Expiring.seen now server key with
  | none =>
    match setPx now key (ascii "1") windowText server with
    | .error reply => (reply, server)
    | .ok server =>
      match lua.tonumber limitText, lua.tonumber windowText with
      | none, _ => (arithmeticOnNil, server)
      -- A table ends at its first nil.
      | some limit, none => (.array [.integer 1, truncate (limit - 1)], server)
      | some limit, some window =>
        (.array [.integer 1, truncate (limit - 1), truncate window], server)
  | some entry =>
    let ttl := timeToLive now entry
    match lua.tonumber entry.value with
    | none => (.error (ascii "Invalid rate limit record"), server)
    | some count =>
      if count < 0 ∨ count ≠ count.floor ∨ ttl < 0 then
        (.error (ascii "Invalid rate limit record"), server)
      else
        match lua.tonumber limitText with
        | none => (.error (ascii "ERR attempt to compare nil with number"), server)
        | some limit =>
          if count ≥ limit then (.array [.integer 0, .integer 0, .integer ttl], server)
          else
            match increment key entry server with
            | .error reply => (reply, server)
            | .ok server =>
              (.array [.integer 1, truncate (limit - count - 1), .integer ttl], server)

structure RedisSettings where
  keyPrefix : Bytes
  deriving DecidableEq

/-- A script that the server runs as one command. -/
def eval (script : Server → Redis.Reply × Server) : Talk Redis.Reply := do
  let (reply, server) := script (← get)
  set server
  match reply with
  | .error text => throw ⟨.runtimeError, ascii "Redis command failed: " ++ text⟩
  | other => return other

def unexpectedReply : Exception :=
  ⟨.runtimeError, ascii "Redis rate limit returned an unexpected reply"⟩

def invalidDecision : Exception :=
  ⟨.runtimeError, ascii "Redis rate limit returned an invalid decision"⟩

def readDecision (requests : Nat) : Redis.Reply → Except Exception Decision
  | .array [first, second, third] =>
    match first, second, third with
    | .integer allowed, .integer remaining, .integer milliseconds =>
      if (allowed ≠ 0 ∧ allowed ≠ 1) ∨ remaining < 0 ∨ remaining.toNat > requests ∨
          milliseconds < 0 then
        .error invalidDecision
      else .ok ⟨allowed = 1, remaining.toNat, max 1 (ceilSeconds 1000 milliseconds)⟩
    | _, _, _ => .error invalidDecision
  | _ => .error unexpectedReply

def RedisStore.consume (lua : Lua) (settings : RedisSettings) (now : Int) (key : Bytes)
    (requests : Nat) (window : Int) : Talk Decision := do
  let _ ← (validateRateLimit now requests window : Except Exception Unit)
  if key = [] then throw emptyKey
  let reply ← eval (consumeScript lua now (settings.keyPrefix ++ key) (stdToString requests)
    (stdToStringSigned (window * 1000)))
  (readDecision requests reply : Except Exception Decision)

end Gungnir.Http.RateLimit
