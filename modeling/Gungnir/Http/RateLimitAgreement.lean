import Gungnir.Http.RateLimit
import Gungnir.Library.Keyed

/-!
# Agreement of the rate limit stores

For each key a store has a window with the number of calls that it has allowed in it. The
memory store keeps the window until the next call, the server forgets it when its time has come.
Both answer every history of calls as the counters of the single keys do.
-/

namespace Gungnir.Http.RateLimit

open Gungnir.Core Gungnir.Library Gungnir.Redis List

/-! ## Calls -/

/-- A call of `consume`, at a time in whole milliseconds. -/
structure Call where
  now : Nat
  key : Bytes
  requests : Nat
  window : Int
  deriving DecidableEq, Repr

def Call.time (call : Call) : Int := call.now * 1000000

def memoryStep (store : MemoryStore) (call : Call) : Except Exception Decision × MemoryStore :=
  store.consume call.time call.key call.requests call.window

def redisStep (lua : Lua) (settings : RedisSettings) (server : Server) (call : Call) :
    Except Exception Decision × Server :=
  (RedisStore.consume lua settings call.time call.key call.requests call.window).run.run server

/-- What both stores check first. -/
def Call.check (call : Call) : Except Exception Unit :=
  match validateRateLimit call.time call.requests call.window with
  | .error raised => .error raised
  | .ok () => if call.key = [] then .error emptyKey else .ok ()

variable {call : Call}

theorem Call.valid (accepted : call.check = .ok ()) :
    validateRateLimit call.time call.requests call.window = .ok () ∧ call.key ≠ [] := by
  unfold check at accepted
  split at accepted
  · cases accepted
  · rename_i valid
    split at accepted
    · cases accepted
    · rename_i named
      exact ⟨valid, named⟩

theorem Call.bounds (accepted : call.check = .ok ()) :
    0 < call.requests ∧ call.requests ≤ maxExactInteger ∧ 0 < call.window ∧
      (call.window * 1000).toNat ≤ maxExactInteger := by
  have valid := (Call.valid accepted).1
  unfold validateRateLimit at valid
  split at valid
  · cases valid
  · rename_i inside
    push Not at inside
    omega

/-! ## One counter -/

/-- The window of a key, with its end in milliseconds. -/
structure Window where
  count : Nat
  reset : Int
  deriving DecidableEq, Repr

/-- The window of a call: the one that is open, or a new one. -/
def current (window : Option Window) (call : Call) : Window :=
  match window with
  | none => ⟨0, call.now + call.window * 1000⟩
  | some window =>
    if window.reset ≤ call.now then ⟨0, call.now + call.window * 1000⟩ else window

variable (requests : Nat) (window : Window)

def hit : Window :=
  if window.count < requests then { window with count := window.count + 1 } else window

def counterStep (window : Option Window) (call : Call) :
    Except Exception Decision × Option Window :=
  match call.check with
  | .error raised => (.error raised, window)
  | .ok () =>
    let before := current window call
    let after := hit call.requests before
    (.ok ⟨before.count < call.requests, call.requests - after.count,
      ceilSeconds 1000 (after.reset - call.now)⟩, some after)

variable {raised : Exception}

theorem counterStep_rejected (rejected : call.check = .error raised) (window : Option Window) :
    counterStep window call = (.error raised, window) := by
  unfold counterStep
  rw [rejected]

theorem counterStep_accepted (accepted : call.check = .ok ()) (window : Option Window) :
    counterStep window call =
      (.ok ⟨(current window call).count < call.requests,
        call.requests - (hit call.requests (current window call)).count,
        ceilSeconds 1000 ((hit call.requests (current window call)).reset - call.now)⟩,
      some (hit call.requests (current window call))) := by
  unfold counterStep
  rw [accepted]

def isAllowed : Except Exception Decision → Bool
  | .ok decision => decision.allowed
  | .error _ => false

/-- How many calls before the given time have been allowed. -/
def allowedBefore (bound : Int) (calls : List Call) (given : List (Except Exception Decision)) :
    Nat :=
  (calls.zip given).countP fun answered => decide (answered.1.now < bound) && isAllowed answered.2

theorem allowedBefore_cons (bound : Int) (call : Call) (calls : List Call)
    (first : Except Exception Decision) (given : List (Except Exception Decision)) :
    allowedBefore bound (call :: calls) (first :: given) =
      allowedBefore bound calls given +
        if (call.now : Int) < bound ∧ isAllowed first = true then 1 else 0 := by
  unfold allowedBefore
  rw [zip_cons_cons, countP_cons]
  simp only [Bool.and_eq_true, decide_eq_true_eq]

variable {calls : List Call}

theorem allowedBefore_late {bound : Int} (late : ∀ call ∈ calls, bound ≤ call.now)
    (given : List (Except Exception Decision)) : allowedBefore bound calls given = 0 := by
  refine countP_eq_zero.mpr fun answered member counted => ?_
  have early := of_decide_eq_true (Bool.and_eq_true_iff.mp counted).1
  have after := late answered.1 (of_mem_zip member).1
  omega

/-- A window allows what is left of its limit. -/
theorem allowedBefore_le {window : Window} {requests : Nat} {calls : List Call}
    (ordered : calls.Pairwise fun first second => first.now ≤ second.now)
    (same : ∀ call ∈ calls, call.requests = requests) :
    allowedBefore window.reset calls (answers counterStep (some window) calls) ≤
      requests - window.count := by
  induction calls generalizing window with
  | nil => exact Nat.zero_le _
  | cons call rest ih =>
    obtain ⟨limit, limits⟩ := forall_mem_cons.mp same
    obtain ⟨later, ordered⟩ := pairwise_cons.mp ordered
    by_cases early : (call.now : Int) < window.reset
    · rw [answers, allowedBefore_cons]
      cases checked : call.check with
      | error raised =>
        rw [counterStep_rejected checked, if_neg fun both => Bool.false_ne_true both.2]
        exact ih ordered limits
      | ok done =>
        have open_ : current (some window) call = window := if_neg (Int.not_le.mpr early)
        rw [counterStep_accepted checked, open_, limit]
        unfold hit
        by_cases room : window.count < requests
        · rw [if_pos room, if_pos ⟨early, decide_eq_true room⟩]
          have rest := @ih ⟨window.count + 1, window.reset⟩ ordered limits
          dsimp only at rest ⊢
          omega
        · rw [if_neg room, if_neg fun both => room (of_decide_eq_true both.2)]
          exact ih ordered limits
    · rw [allowedBefore_late]
      · exact Nat.zero_le _
      · refine forall_mem_cons.mpr ⟨by omega, fun other member => ?_⟩
        have after := later other member
        omega

structure Opens (window : Option Window) (call : Call) : Prop where
  accepted : call.check = .ok ()
  closed : ∀ open_, window = some open_ → open_.reset ≤ call.now

theorem Opens.current {window : Option Window} (opens : Opens window call) :
    current window call = ⟨0, call.now + call.window * 1000⟩ := by
  cases window with
  | none => rfl
  | some window => exact if_pos (opens.closed window rfl)

/-- A window that is opened allows as many calls as its limit says. -/
theorem allowedBefore_opened {window : Option Window} (opens : Opens window call)
    (ordered : calls.Pairwise fun first second => first.now ≤ second.now)
    (same : ∀ other ∈ calls, other.requests = call.requests) :
    allowedBefore (call.now + call.window * 1000) (call :: calls)
      (answers counterStep window (call :: calls)) ≤ call.requests := by
  obtain ⟨some, _, positive, _⟩ := Call.bounds opens.accepted
  rw [answers, allowedBefore_cons, counterStep_accepted opens.accepted, opens.current]
  unfold hit
  rw [if_pos some, if_pos ⟨by omega, decide_eq_true some⟩]
  have rest := @allowedBefore_le ⟨0 + 1, call.now + call.window * 1000⟩ call.requests calls ordered
    same
  dsimp only at rest ⊢
  omega

/-! ## The memory store -/

/-- The counters of the keys. -/
abbrev Counters := Bytes → Option Window

def countersStep : Counters → Call → Except Exception Decision × Counters :=
  keyedStep Call.key counterStep

def Window.bucket : Bucket := ⟨window.count, window.reset * 1000000⟩

/-- The buckets of the memory store are the counters. -/
def Holds (store : MemoryStore) (counters : Counters) : Prop :=
  ∀ key, store.buckets.lookup key = (counters key).map Window.bucket

/-- An accepted call finds its bucket, or room for one. -/
def Roomy (store : MemoryStore) (call : Call) : Prop :=
  call.check = .ok () → (store.buckets.lookup call.key).isSome = true ∨
    store.buckets.entries.length < store.maxClients

/-- The capacity is not reached by any of the calls. -/
def NeverFull (store : MemoryStore) : List Call → Prop
  | [] => True
  | call :: rest => Roomy store call ∧ NeverFull (memoryStep store call).2 rest

variable {store : MemoryStore}

theorem memoryStep_rejected (rejected : call.check = .error raised) (store : MemoryStore) :
    memoryStep store call = (.error raised, store) := by
  unfold Call.check at rejected
  unfold memoryStep MemoryStore.consume
  cases checked : validateRateLimit call.time call.requests call.window with
  | error other =>
    rw [checked] at rejected
    cases rejected
    rfl
  | ok valid =>
    rw [checked] at rejected
    by_cases unnamed : call.key = []
    · cases (if_pos unnamed).symm.trans rejected
      exact if_pos unnamed
    · cases (if_neg unnamed).symm.trans rejected

/-- The bucket of a call: the one that is there, or a new one. -/
def bucketFor (store : MemoryStore) (call : Call) : Bucket :=
  let bucket := (store.buckets.lookup call.key).getD ⟨0, 0⟩
  if bucket.reset ≤ call.time then ⟨0, call.time + nanoseconds call.window⟩ else bucket

def Bucket.hit (bucket : Bucket) : Bucket :=
  if bucket.count < requests then { bucket with count := bucket.count + 1 } else bucket

theorem memoryStep_accepted (accepted : call.check = .ok ()) (roomy : Roomy store call) :
    memoryStep store call =
      (.ok ⟨(bucketFor store call).count < call.requests,
        call.requests - ((bucketFor store call).hit call.requests).count,
        ceilSeconds 1000000000 (((bucketFor store call).hit call.requests).reset - call.time)⟩,
      { store with buckets :=
        store.buckets.insert call.key ((bucketFor store call).hit call.requests) }) := by
  obtain ⟨valid, named⟩ := Call.valid accepted
  have room : ¬((store.buckets.lookup call.key).isNone ∧
      store.buckets.entries.length ≥ store.maxClients) := by
    rintro ⟨missing, full⟩
    rcases roomy accepted with found | free
    · rw [Option.isNone_iff_eq_none.mp missing] at found
      cases found
    · exact Nat.not_lt.mpr full free
  have remaining : ∀ count : Nat,
      (if count ≥ call.requests then 0 else call.requests - count) = call.requests - count := by
    intro count
    split
    · omega
    · rfl
  unfold memoryStep MemoryStore.consume
  rw [valid]
  dsimp only
  rw [if_neg named, if_neg room, if_neg room, remaining]
  unfold Bucket.hit bucketFor
  simp only [decide_eq_true_eq]

theorem ceilSeconds_scaled (duration : Int) :
    ceilSeconds 1000000000 (duration * 1000000) = ceilSeconds 1000 duration := by
  unfold ceilSeconds
  rw [← Int.neg_mul]
  congr 1
  exact Int.mul_ediv_mul_of_pos_left (-duration) 1000 (by decide : (0 : Int) < 1000000)

theorem bucketFor_eq {counters : Counters} (holds : Holds store counters) (call : Call) :
    bucketFor store call = (current (counters call.key) call).bucket := by
  unfold bucketFor Window.bucket
  rw [holds call.key]
  have fresh : call.time + nanoseconds call.window = (call.now + call.window * 1000) * 1000000 := by
    unfold Call.time nanoseconds
    omega
  cases counters call.key with
  | none =>
    have past : (0 : Int) ≤ call.time := by
      unfold Call.time
      omega
    dsimp only [Option.map_none, Option.getD_none]
    rw [if_pos past, fresh]
    rfl
  | some window =>
    have same : window.reset * 1000000 ≤ call.time ↔ window.reset ≤ call.now := by
      unfold Call.time
      omega
    dsimp only [Option.map_some, Option.getD_some, Window.bucket]
    unfold current
    dsimp only
    by_cases past : window.reset ≤ call.now
    · rw [if_pos past, if_pos (same.mpr past), fresh]
    · rw [if_neg past, if_neg (mt same.mp past)]

theorem hit_bucket : window.bucket.hit requests = (hit requests window).bucket := by
  unfold Bucket.hit hit Window.bucket
  split
  · rfl
  · rfl

theorem memoryStep_counters {counters : Counters} (holds : Holds store counters)
    (roomy : Roomy store call) :
    (memoryStep store call).1 = (countersStep counters call).1 ∧
      Holds (memoryStep store call).2 (countersStep counters call).2 := by
  unfold countersStep keyedStep
  cases checked : call.check with
  | error raised =>
    rw [memoryStep_rejected checked, counterStep_rejected checked, Function.update_eq_self]
    exact ⟨rfl, holds⟩
  | ok done =>
    rw [memoryStep_accepted checked roomy, counterStep_accepted checked, bucketFor_eq holds,
      hit_bucket]
    refine ⟨?_, fun key => ?_⟩
    · have scaled : (hit call.requests (current (counters call.key) call)).bucket.reset -
          call.time = ((hit call.requests (current (counters call.key) call)).reset - call.now) *
            1000000 := by
        unfold Window.bucket Call.time
        dsimp only
        omega
      rw [scaled, ceilSeconds_scaled]
      rfl
    · dsimp only
      by_cases same : key = call.key
      · rw [same, AList.lookup_insert, Function.update_self]
        rfl
      · rw [AList.lookup_insert_ne same, Function.update_of_ne same]
        exact holds key

/-! ## The Redis store -/

def Window.entry : Expiring Int Bytes :=
  ⟨stdToString window.count, some (window.reset * 1000000)⟩

/-- At a time in milliseconds, the server shows the counters. -/
structure Shows (settings : RedisSettings) (now : Int) (server : Server) (counters : Counters) :
    Prop where
  seen : ∀ key, Expiring.seen (now * 1000000) server (settings.keyPrefix ++ key) =
    Expiring.visible (now * 1000000) ((counters key).map Window.entry)
  exact : ∀ key window, counters key = some window → window.count ≤ maxExactInteger

variable {lua : Lua} {settings : RedisSettings} {server : Server} {counters : Counters} {now : Int}

theorem Shows.later {later : Int} (shows : Shows settings now server counters)
    (after : now ≤ later) : Shows settings later server counters where
  seen := by
    intro key
    have scaled : now * 1000000 ≤ later * 1000000 := by omega
    rw [← Expiring.visible_seen scaled, shows.seen, Expiring.visible_visible scaled]
  exact := shows.exact

theorem redisStep_rejected (rejected : call.check = .error raised) :
    redisStep lua settings server call = (.error raised, server) := by
  unfold Call.check at rejected
  unfold redisStep RedisStore.consume
  split at rejected
  · rename_i invalid
    cases rejected
    rw [invalid]
    rfl
  · rename_i valid
    split at rejected
    · rename_i unnamed
      cases rejected
      rw [valid, unnamed]
      rfl
    · cases rejected

theorem eval_run {script : Server → Redis.Reply × Server} {after : Server}
    {elements : List Redis.Reply} (ran : script server = (.array elements, after)) :
    (eval script).run.run server = (.ok (.array elements), after) := by
  have once : (eval script).run.run server = (eval fun _ => script server).run.run server := rfl
  rw [once, ran]
  rfl

theorem redisStep_accepted (accepted : call.check = .ok ()) {after : Server} {elements : List Redis.Reply}
    (script : consumeScript lua call.time (settings.keyPrefix ++ call.key)
      (stdToString call.requests) (stdToStringSigned (call.window * 1000)) server =
        (.array elements, after)) :
    redisStep lua settings server call = (readDecision call.requests (.array elements), after) := by
  obtain ⟨valid, named⟩ := Call.valid accepted
  unfold redisStep RedisStore.consume
  rw [valid, if_neg named]
  refine (run_bind_ok (eval_run script)).trans ?_
  cases readDecision call.requests (.array elements) with
  | error raised => rfl
  | ok decision => rfl

theorem truncate_natCast (value : Nat) : truncate (value : Rat) = .integer value :=
  congrArg _ (Int.tdiv_one _)

theorem stdToStringSigned_ofNat (value : Nat) : stdToStringSigned value = stdToString value := by
  unfold stdToStringSigned
  rw [if_neg (Int.not_lt.mpr (Int.natCast_nonneg value)), Int.natAbs_natCast]

/-- A decision for a reply whose numbers are in range. -/
theorem readDecision_range {requests remaining : Nat} {milliseconds : Int} (allowed : Bool)
    (small : remaining ≤ requests) (positive : 0 < milliseconds) :
    readDecision requests (.array [.integer (if allowed then 1 else 0), .integer remaining,
      .integer milliseconds]) =
        .ok ⟨allowed, remaining, ceilSeconds 1000 milliseconds⟩ := by
  have late : max 1 (ceilSeconds 1000 milliseconds) = ceilSeconds 1000 milliseconds := by
    unfold ceilSeconds
    omega
  unfold readDecision
  dsimp only
  rw [if_neg, late, Int.toNat_natCast]
  · cases allowed with
    | false => rfl
    | true => rfl
  · cases allowed with
    | false =>
      omega
    | true =>
      omega

theorem consumeScript_new (accepted : call.check = .ok ()) {key : Bytes}
    (missing : Expiring.seen call.time server key = none) :
    consumeScript lua call.time key (stdToString call.requests)
        (stdToStringSigned (call.window * 1000)) server =
      (.array [.integer 1, .integer (call.requests - 1 : Nat), .integer (call.window * 1000)],
        AList.insert key (Window.entry ⟨1, call.now + call.window * 1000⟩) server) := by
  obtain ⟨some, requests, positive, window⟩ := Call.bounds accepted
  obtain ⟨milliseconds, same⟩ : ∃ milliseconds : Nat, call.window * 1000 = (milliseconds + 1 : Nat) :=
    ⟨(call.window * 1000).toNat - 1, by omega⟩
  rw [same, Int.toNat_natCast] at window
  have stored : setPx call.time key (ascii "1") (stdToString (milliseconds + 1)) server =
      .ok (AList.insert key (Window.entry ⟨1, call.now + call.window * 1000⟩) server) := by
    have read : Decimal.parse (2 ^ 63) (stdToString (milliseconds + 1)) =
        Option.some (milliseconds + 1) := by
      refine Decimal.parse_print ?_
      unfold maxExactInteger at window
      omega
    have expiry : call.time + ((milliseconds + 1 : Nat) : Int) * 1000000 =
        (call.now + call.window * 1000) * 1000000 := by
      unfold Call.time
      omega
    unfold setPx
    rw [read]
    dsimp only
    rw [expiry]
    rfl
  have left : ((call.requests : Rat) - 1) = ((call.requests - 1 : Nat) : Rat) := by
    rw [Nat.cast_sub some, Nat.cast_one]
  rw [same] at stored
  unfold consumeScript
  rw [missing, same, stdToStringSigned_ofNat]
  rw [stored, lua.tonumber_print _ requests, lua.tonumber_print _ window]
  dsimp only
  rw [left, truncate_natCast, truncate_natCast]

theorem consumeScript_open {call : Call} (accepted : call.check = .ok ()) {key : Bytes}
    {window : Window} (found : Expiring.seen call.time server key = some window.entry)
    (exact_ : window.count ≤ maxExactInteger) (early : (call.now : Int) < window.reset) :
    consumeScript lua call.time key (stdToString call.requests)
        (stdToStringSigned (call.window * 1000)) server =
      if window.count < call.requests then
        (.array [.integer 1, .integer (call.requests - (window.count + 1) : Nat),
          .integer (window.reset - call.now)],
          AList.insert key (Window.entry { window with count := window.count + 1 }) server)
      else (.array [.integer 0, .integer 0, .integer (window.reset - call.now)], server) := by
  obtain ⟨_, requests, _⟩ := Call.bounds accepted
  have ttl : timeToLive call.time window.entry = window.reset - call.now := by
    unfold timeToLive Window.entry Call.time
    dsimp only
    rw [← Int.sub_mul, Int.mul_ediv_cancel _ (by decide)]
  have sane : ¬((window.count : Rat) < 0 ∨ (window.count : Rat) ≠ (window.count : Rat).floor ∨
      window.reset - call.now < 0) := by
    rintro (negative | broken | late)
    · exact absurd negative (not_lt.mpr (Nat.cast_nonneg _))
    · refine broken ?_
      rw [← Int.cast_natCast, Rat.floor_intCast]
    · omega
  unfold consumeScript
  rw [found]
  dsimp only
  rw [ttl]
  have counted : lua.tonumber window.entry.value = some (window.count : Rat) :=
    lua.tonumber_print _ exact_
  rw [counted]
  dsimp only
  rw [if_neg sane, lua.tonumber_print _ requests]
  dsimp only
  by_cases room : window.count < call.requests
  · have incremented : increment key window.entry server =
        .ok (AList.insert key (Window.entry { window with count := window.count + 1 }) server) := by
      have read : Decimal.parse (2 ^ 63) window.entry.value = some window.count := by
        refine Decimal.parse_print ?_
        unfold maxExactInteger at exact_
        omega
      unfold increment
      rw [read]
      dsimp only
      rw [if_neg (by unfold maxExactInteger at exact_; omega)]
      rfl
    have left : ((call.requests : Rat) - window.count - 1) =
        ((call.requests - (window.count + 1) : Nat) : Rat) := by
      rw [Nat.cast_sub room, Nat.cast_succ, sub_sub]
    rw [if_pos room, if_neg (by rw [ge_iff_le, Nat.cast_le]; omega), incremented]
    rw [left, truncate_natCast]
  · rw [if_neg room, if_pos (by rw [ge_iff_le, Nat.cast_le]; omega)]

theorem visible_entry {window : Window} (early : now < window.reset) :
    Expiring.visible (now * 1000000) (some window.entry) = some window.entry :=
  Expiring.visible_of_live (decide_eq_true (by omega))

theorem Shows.write (shows : Shows settings call.now server counters) {window : Window}
    (exact_ : window.count ≤ maxExactInteger) :
    Shows settings call.now
      (AList.insert (settings.keyPrefix ++ call.key) window.entry server)
      (Function.update counters call.key (some window)) where
  seen := by
    intro key
    rw [Expiring.seen_insert]
    by_cases same : key = call.key
    · rw [if_pos (by rw [same]), same, Function.update_self]
      rfl
    · rw [if_neg fun equal => same (append_cancel_left equal), Function.update_of_ne same]
      exact shows.seen key
  exact := by
    intro key other found
    by_cases same : key = call.key
    · rw [same, Function.update_self] at found
      cases found
      exact exact_
    · rw [Function.update_of_ne same] at found
      exact shows.exact key other found

/-- The Redis store answers as the counters do. -/
theorem redisStep_counters {call : Call} (shows : Shows settings call.now server counters) :
    (redisStep lua settings server call).1 = (countersStep counters call).1 ∧
      Shows settings call.now (redisStep lua settings server call).2
        (countersStep counters call).2 := by
  unfold countersStep keyedStep
  cases checked : call.check with
  | error raised =>
    rw [redisStep_rejected checked, counterStep_rejected checked, Function.update_eq_self]
    exact ⟨rfl, shows⟩
  | ok done =>
    obtain ⟨some, requests, positive, _⟩ := Call.bounds checked
    have seen := shows.seen call.key
    rw [counterStep_accepted checked]
    by_cases opens : Opens (counters call.key) call
    · have missing : Expiring.seen call.time server (settings.keyPrefix ++ call.key) = none := by
        refine seen.trans ?_
        cases found : counters call.key with
        | none => rfl
        | some window =>
          have late := opens.closed window found
          exact Expiring.visible_of_expired (decide_eq_false (by omega))
      rw [redisStep_accepted checked (consumeScript_new checked missing), opens.current]
      unfold hit
      rw [if_pos some]
      refine ⟨?_, shows.write (by dsimp only; omega)⟩
      have read := @readDecision_range call.requests (call.requests - 1) (call.window * 1000) true
        (Nat.sub_le _ _) (by omega)
      rw [if_pos rfl] at read
      rw [read, add_sub_cancel_left, decide_eq_true some]
    · obtain ⟨window, found, early⟩ : ∃ window, counters call.key = .some window ∧
          (call.now : Int) < window.reset := by
        by_contra closed
        push Not at closed
        exact opens ⟨checked, closed⟩
      have open_ : current (counters call.key) call = window := by
        rw [found]
        exact if_neg (Int.not_le.mpr early)
      have exact_ := shows.exact call.key window found
      have shown : Expiring.seen call.time server (settings.keyPrefix ++ call.key) =
          .some window.entry := by
        refine seen.trans ?_
        rw [found]
        exact visible_entry early
      have script := @consumeScript_open lua server call checked _ window shown exact_ early
      rw [open_]
      unfold hit
      by_cases room : window.count < call.requests
      · rw [if_pos room] at script ⊢
        rw [redisStep_accepted checked script]
        refine ⟨?_, shows.write (by dsimp only; omega)⟩
        have read := @readDecision_range call.requests (call.requests - (window.count + 1))
          (window.reset - call.now) true (Nat.sub_le _ _) (by omega)
        rw [if_pos rfl] at read
        rw [read, decide_eq_true room]
      · rw [if_neg room] at script ⊢
        rw [redisStep_accepted checked script]
        have read := @readDecision_range call.requests 0 (window.reset - call.now) false
          (Nat.zero_le _) (by omega)
        refine ⟨?_, ?_⟩
        · have none : call.requests - window.count = 0 := by omega
          rw [none, decide_eq_false room]
          exact read
        · rw [← found, Function.update_eq_self]
          exact shows

/-! ## Histories -/

/-- The calls come in the order of their times. -/
def InOrder (calls : List Call) : Prop :=
  calls.Pairwise fun first second => first.now ≤ second.now

/-- The memory store holds the counters, and has room for the calls to come. -/
def Holding (store : MemoryStore) (counters : Counters) (calls : List Call) : Prop :=
  Holds store counters ∧ NeverFull store calls

theorem Holding.step {rest : List Call} (holding : Holding store counters (call :: rest)) :
    (memoryStep store call).1 = (countersStep counters call).1 ∧
      Holding (memoryStep store call).2 (countersStep counters call).2 rest := by
  obtain ⟨holds, roomy, others⟩ := holding
  obtain ⟨same, after⟩ := memoryStep_counters holds roomy
  exact ⟨same, after, others⟩

/-- The server has shown the counters before the calls to come. -/
def Showing (settings : RedisSettings) (server : Server) (counters : Counters)
    (calls : List Call) : Prop :=
  ∃ now, Shows settings now server counters ∧ InOrder calls ∧ ∀ call ∈ calls, now ≤ call.now

theorem Showing.step {rest : List Call} (showing : Showing settings server counters (call :: rest)) :
    (redisStep lua settings server call).1 = (countersStep counters call).1 ∧
      Showing settings (redisStep lua settings server call).2 (countersStep counters call).2 rest := by
  obtain ⟨now, shows, ordered, after⟩ := showing
  obtain ⟨later, ordered⟩ := pairwise_cons.mp ordered
  obtain ⟨same, moved⟩ := redisStep_counters (shows.later (after call mem_cons_self))
  exact ⟨same, call.now, moved, ordered, fun other member => Int.ofNat_le.mpr (later other member)⟩

theorem holding_empty (unused : store.buckets = ∅) (neverFull : NeverFull store calls) :
    Holding store (fun _ => none) calls := by
  refine ⟨fun key => ?_, neverFull⟩
  rw [unused]
  rfl

theorem showing_empty (settings : RedisSettings) (ordered : InOrder calls) :
    Showing settings ∅ (fun _ => none) calls :=
  ⟨0, ⟨fun _ => rfl, nofun⟩, ordered, fun _ _ => Int.natCast_nonneg _⟩

/-! ## Windows -/

/-- The memory store has no open window for the call. -/
def MemoryStore.opens (store : MemoryStore) (call : Call) : Prop :=
  ∀ bucket, store.buckets.lookup call.key = some bucket → bucket.reset ≤ call.time

/-- The server has no open window for the call. -/
def opensRedis (settings : RedisSettings) (server : Server) (call : Call) : Prop :=
  Expiring.seen call.time server (settings.keyPrefix ++ call.key) = none

theorem Holds.opens (holds : Holds store counters) (accepted : call.check = .ok ())
    (closed : store.opens call) : Opens (counters call.key) call where
  accepted := accepted
  closed := by
    intro window found
    have past := closed window.bucket (by rw [holds, found]; rfl)
    unfold Window.bucket Call.time at past
    dsimp only at past
    omega

theorem Shows.opens (shows : Shows settings call.now server counters)
    (accepted : call.check = .ok ()) (closed : opensRedis settings server call) :
    Opens (counters call.key) call where
  accepted := accepted
  closed := by
    intro window found
    by_contra early
    have seen := shows.seen call.key
    rw [found, Option.map_some, visible_entry (Int.not_le.mp early)] at seen
    cases closed.symm.trans seen

/-- How many calls for the key before the given time have been allowed. -/
def allowedFor (key : Bytes) (bound : Int) (calls : List Call)
    (given : List (Except Exception Decision)) : Nat :=
  (calls.zip given).countP fun answered =>
    decide (answered.1.key = key) && decide (answered.1.now < bound) && isAllowed answered.2

theorem allowedFor_eq (key : Bytes) (bound : Int) {given : List (Except Exception Decision)}
    (same : calls.length = given.length) :
    allowedFor key bound calls given =
      allowedBefore bound (eventsOf Call.key key calls) (answersOf Call.key key calls given) := by
  unfold allowedFor allowedBefore
  rw [zip_answersOf Call.key key same, countP_filter]
  refine countP_congr fun answered _ => ?_
  rw [Bool.and_assoc, Bool.and_comm]

theorem allowedFor_opened {late : List Call} (opens : Opens (counters call.key) call)
    (ordered : InOrder (call :: late))
    (limit : ∀ other ∈ late, other.key = call.key → other.requests = call.requests) :
    allowedFor call.key (call.now + call.window * 1000) (call :: late)
      (answers countersStep counters (call :: late)) ≤ call.requests := by
  rw [allowedFor_eq _ _ (length_answers _ _ _).symm]
  unfold countersStep
  rw [answersOf_keyedStep]
  have first : eventsOf Call.key call.key (call :: late) =
      call :: eventsOf Call.key call.key late :=
    filter_cons_of_pos (decide_eq_true rfl)
  rw [first]
  refine allowedBefore_opened opens ?_ fun other member => ?_
  · exact (pairwise_cons.mp ordered).2.sublist filter_sublist
  · obtain ⟨listed, same⟩ := mem_filter.mp member
    exact limit other listed (of_decide_eq_true same)

/-! ## Agreement -/

theorem neverFull_single {store : MemoryStore} {calls : List Call} {key : Bytes}
    (only : ∀ other ≠ key, store.buckets.lookup other = none) (single : ∀ call ∈ calls, call.key = key) :
    NeverFull store calls := by
  induction calls generalizing store with
  | nil => trivial
  | cons call rest ih =>
    obtain ⟨same, others⟩ := forall_mem_cons.mp single
    have roomy : Roomy store call := by
      intro accepted
      by_cases found : (store.buckets.lookup call.key).isSome = true
      · exact .inl found
      · right
        have none : store.buckets.entries = [] := by
          refine eq_nil_iff_forall_not_mem.mpr fun item member => ?_
          have listed : store.buckets.lookup item.1 = some item.2 :=
            AList.mem_lookup_iff.mpr member
          by_cases this : item.1 = key
          · rw [same, ← this, listed] at found
            exact found rfl
          · rw [only item.1 this] at listed
            cases listed
        rw [none]
        exact Nat.pos_of_ne_zero store.positive
    refine ⟨roomy, ih (fun other different => ?_) others⟩
    cases checked : call.check with
    | error raised =>
      rw [memoryStep_rejected checked]
      exact only other different
    | ok done =>
      rw [memoryStep_accepted checked roomy]
      exact (AList.lookup_insert_ne (same ▸ different)).trans (only other different)

/-- A history of calls in the order of their times, and a memory store whose capacity it does not
reach. Both stores answer every call alike. Calls for other keys have no influence on
the answers. From a call on that opens a window, both stores allow at most as many calls for its
key before the end of the window as the limit says. -/
theorem rate_limit_agreement (lua : Lua) (settings : RedisSettings) {store : MemoryStore}
    {calls : List Call} (unused : store.buckets = ∅) (ordered : InOrder calls)
    (neverFull : NeverFull store calls) :
    answers memoryStep store calls = answers (redisStep lua settings) ∅ calls ∧
    (∀ key, answersOf Call.key key calls (answers memoryStep store calls) =
        answers memoryStep store (eventsOf Call.key key calls) ∧
      answersOf Call.key key calls (answers (redisStep lua settings) ∅ calls) =
        answers (redisStep lua settings) ∅ (eventsOf Call.key key calls)) ∧
    ∀ early call late, calls = early ++ call :: late → call.check = .ok () →
      (∀ other ∈ late, other.key = call.key → other.requests = call.requests) →
      ((settles memoryStep store early).opens call →
        allowedFor call.key (call.now + call.window * 1000) (call :: late)
          (answers memoryStep (settles memoryStep store early) (call :: late)) ≤ call.requests) ∧
      (opensRedis settings (settles (redisStep lua settings) ∅ early) call →
        allowedFor call.key (call.now + call.window * 1000) (call :: late)
          (answers (redisStep lua settings) (settles (redisStep lua settings) ∅ early)
            (call :: late)) ≤ call.requests) := by
  have memory := holding_empty unused neverFull
  have redis := showing_empty settings ordered
  have memories := answers_eq Holding.step memory
  have served : answers (redisStep lua settings) ∅ calls = _ := answers_eq Showing.step redis
  refine ⟨memories.trans served.symm, fun key => ⟨?_, ?_⟩, ?_⟩
  · have alone : NeverFull store (eventsOf Call.key key calls) := by
      refine @neverFull_single store _ key (fun other _ => ?_) fun call member => ?_
      · rw [unused]
        rfl
      · exact of_decide_eq_true (mem_filter.mp member).2
    rw [memories, answers_eq Holding.step (holding_empty unused alone)]
    unfold countersStep
    rw [answersOf_keyedStep, answers_keyedStep_eventsOf]
  · have alone : InOrder (eventsOf Call.key key calls) := ordered.sublist filter_sublist
    rw [served, answers_eq Showing.step (showing_empty settings alone)]
    unfold countersStep
    rw [answersOf_keyedStep, answers_keyedStep_eventsOf]
  · rintro early call late rfl accepted limit
    have rest := (pairwise_append.mp ordered).2.1
    constructor
    · intro closed
      have holding := settles_related Holding.step memory
      rw [answers_eq Holding.step holding]
      exact allowedFor_opened (holding.1.opens accepted closed) rest limit
    · intro closed
      have showing : Showing settings (settles (redisStep lua settings) ∅ early) _ _ :=
        settles_related Showing.step redis
      rw [answers_eq Showing.step showing]
      obtain ⟨now, shows, _, before⟩ := showing
      exact allowedFor_opened ((shows.later (before call mem_cons_self)).opens accepted closed)
        rest limit

/-- An interpreter that reads decimal numbers only. -/
def decimalLua : Lua where
  tonumber := fun text => (Decimal.parse (2 ^ 63) text).map fun value => (value : Rat)
  tonumber_print := by
    intro value exact_
    have read : Decimal.parse (2 ^ 63) (stdToString value) = some value :=
      Decimal.parse_print (Nat.lt_of_le_of_lt exact_ (by decide))
    rw [read]
    rfl

def sampleStore : MemoryStore := ⟨10000, ∅, by decide⟩

/-- Two clients with one request in a second. -/
def sampleCalls : List Call :=
  [⟨0, ascii "first", 1, 1⟩, ⟨500, ascii "first", 1, 1⟩, ⟨500, ascii "second", 1, 1⟩,
    ⟨1000, ascii "first", 1, 1⟩]

theorem rate_limit_agreement_sample :
    answers memoryStep sampleStore sampleCalls =
        [.ok ⟨true, 0, 1⟩, .ok ⟨false, 0, 1⟩, .ok ⟨true, 0, 1⟩, .ok ⟨true, 0, 1⟩] ∧
      answers memoryStep sampleStore sampleCalls =
        answers (redisStep decimalLua ⟨ascii "limit:"⟩) ∅ sampleCalls :=
  ⟨by decide, (rate_limit_agreement decimalLua ⟨ascii "limit:"⟩ rfl (by
      unfold InOrder
      decide) (by
      refine ⟨fun _ => .inr (by decide), fun _ => .inr (by decide),
        fun _ => .inr (by decide), fun _ => .inr (by decide), trivial⟩)).1⟩

end Gungnir.Http.RateLimit
