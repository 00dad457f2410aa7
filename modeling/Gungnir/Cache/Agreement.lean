import Gungnir.Redis.Server
import Gungnir.Library.Stateful
import Gungnir.Library.Transition

/-!
# The cache stores and their agreement

`MemoryStore` and `RedisStore`, with the time of every operation in nanoseconds, and one
history of operations on both. At every time the two show the same entries: the memory
store may still hold an entry whose time has come, and only `forget` tells.
-/

namespace Gungnir.Cache

open Gungnir.Core Gungnir.Library Gungnir.Redis List

/-! ## Memory -/

/-- `std::chrono` counts in 64 bits. -/
def representable (ticks : Int) : Bool := -2 ^ 63 ≤ ticks && ticks < 2 ^ 63

/-- A `std::chrono::seconds` added to a time point; an overflow is undefined. -/
def addSeconds (now seconds : Int) : Except Exception Int :=
  if representable (seconds * 1000000000) && representable (now + seconds * 1000000000) then
    .ok (now + seconds * 1000000000)
  else .error .undefinedBehavior

abbrev MemoryStore := Expiring.Entries Bytes Int Bytes

namespace MemoryStore

def get (now : Int) (store : MemoryStore) (key : Bytes) : Option Bytes × MemoryStore :=
  match store.lookup key with
  | none => (none, store)
  | some found =>
    if found.expiresAt.any fun expiry => expiry ≤ now then (none, AList.erase key store)
    else (some found.value, store)

def put (now : Int) (store : MemoryStore) (key value : Bytes) (ttl : Option Int) :
    Except Exception MemoryStore := do
  let expiresAt ← match ttl with
    | some seconds => some <$> addSeconds now seconds
    | none => pure none
  return store.insert key ⟨value, expiresAt⟩

def forget (store : MemoryStore) (key : Bytes) : Bool × MemoryStore :=
  ((store.lookup key).isSome, AList.erase key store)

def flush (_ : MemoryStore) : MemoryStore := ∅

end MemoryStore

/-! ## Redis -/

/-- The field of `RedisSettings` that the commands use. -/
structure RedisSettings where
  keyPrefix : Bytes
  deriving Repr

def requireStatus (reply : Reply) (expected operation : Bytes) : Talk Unit :=
  match reply with
  | .status text =>
    if text = expected then pure ()
    else throw ⟨.runtimeError, ascii "Redis " ++ operation ++ ascii " returned an unexpected reply"⟩
  | _ => throw ⟨.runtimeError, ascii "Redis " ++ operation ++ ascii " returned an unexpected reply"⟩

namespace RedisStore

variable (settings : RedisSettings) (now : Int) (key : Bytes)

def cacheKey : Bytes := settings.keyPrefix ++ key

def eraseUnlocked : Talk Bool := do
  match ← command now (.del [key]) with
  | .integer removed => return 0 < removed
  | _ => throw ⟨.runtimeError, ascii "Redis DEL returned an unexpected reply"⟩

def eraseManyUnlocked (keys : List Bytes) : Talk Unit := do
  if keys = [] then return
  match ← command now (.del keys) with
  | .integer _ => return
  | _ => throw ⟨.runtimeError, ascii "Redis DEL batch returned an unexpected reply"⟩

def get : Talk (Option Bytes) := do
  match ← command now (.get (cacheKey settings key)) with
  | .nil => return none
  | .string text => return some text
  | _ => throw ⟨.runtimeError, ascii "Redis GET returned an unexpected reply"⟩

def put (value : Bytes) (ttl : Option Int) : Talk Unit := do
  let fullKey := cacheKey settings key
  if ttl.any fun seconds => seconds ≤ 0 then
    let _ ← eraseUnlocked now fullKey
    return
  let reply ← match ttl with
    | some seconds => command now (.set fullKey value (.ex seconds))
    | none => command now (.set fullKey value .never)
  requireStatus reply (ascii "OK") (ascii "SET")

def forget : Talk Bool := eraseUnlocked now (cacheKey settings key)

/-- The keys of a `SCAN` reply that belong to the store. -/
def matching (items : List Reply) : List Bytes :=
  items.filterMap fun item =>
    match item with
    | .string candidate =>
      if settings.keyPrefix.isPrefixOf candidate then some candidate else none
    | _ => none

/-- The loop of `flush`, on the replies that `SCAN` gets. -/
def flushPages : List Reply → Talk Unit
  | [] => throw ⟨.runtimeError, ascii "Redis command failed: connection unavailable"⟩
  | .array [cursor, .array items] :: rest => do
    eraseManyUnlocked now (matching settings items)
    if cursor.text ≠ ascii "0" then flushPages rest
  | .array [_, _] :: _ =>
    throw ⟨.runtimeError, ascii "Redis SCAN key list has an unexpected reply type"⟩
  | .error text :: _ => throw ⟨.runtimeError, ascii "Redis command failed: " ++ text⟩
  | _ :: _ => throw ⟨.runtimeError, ascii "Redis SCAN returned an unexpected reply"⟩

def flush (replies : List Reply) : Talk Unit := do
  if settings.keyPrefix = [] then
    requireStatus (← command now .flushDb) (ascii "OK") (ascii "FLUSHDB")
  else flushPages settings now replies

end RedisStore

/-! ## What the Redis store does to the server -/

/-- A reply of `SCAN`. -/
structure Page where
  cursor : Bytes
  keys : List Bytes
  deriving DecidableEq, Repr

def Page.reply (page : Page) : Reply :=
  .array [.string page.cursor, .array (page.keys.map .string)]

/-- The replies of one whole iteration. -/
def iterates : List Page → Bool
  | [] => false
  | page :: rest => if page.cursor = ascii "0" then rest.isEmpty else iterates rest

namespace RedisStore

variable (settings : RedisSettings) (now : Int) (server : Server) (key : Bytes)

theorem get_run :
    (get settings now key).run.run server =
      (.ok ((Expiring.seen now server (cacheKey settings key)).map Expiring.value), server) := by
  cases found : Expiring.seen now server (cacheKey settings key) with
  | none =>
    have executes : Server.execute now server (.get (cacheKey settings key)) =
        (.nil, server) := by
      simp only [Server.execute, Server.read, found]
    exact run_bind_ok (command_run executes fun _ => Redis.Reply.noConfusion)
  | some entry =>
    have executes : Server.execute now server (.get (cacheKey settings key)) =
        (.string entry.value, server) := by
      simp only [Server.execute, Server.read, found]
    exact run_bind_ok (command_run executes fun _ => Redis.Reply.noConfusion)

theorem eraseUnlocked_run :
    (eraseUnlocked now key).run.run server =
      (.ok (server.present now key), server.eraseAll [key]) := by
  have removed : decide (0 < ((server.count now [key] : Nat) : Int)) = server.present now key := by
    rw [Server.count_single]
    cases server.present now key <;> rfl
  rw [← removed]
  exact run_bind_ok (@command_run now server _ (.del [key]) _ rfl nofun)

theorem eraseManyUnlocked_run (keys : List Bytes) :
    (eraseManyUnlocked now keys).run.run server = (.ok (), server.eraseAll keys) := by
  cases keys with
  | nil => rfl
  | cons key rest =>
    exact run_bind_ok (@command_run now server _ (.del (key :: rest)) _ rfl nofun)

theorem put_run_expired (value : Bytes) {seconds : Int} (expired : seconds ≤ 0) :
    (put settings now key value (some seconds)).run.run server =
      (.ok (), server.eraseAll [cacheKey settings key]) := by
  unfold put
  have taken : (some seconds).any (fun seconds => decide (seconds ≤ 0)) = true :=
    decide_eq_true expired
  rw [if_pos taken]
  exact run_bind_ok (eraseUnlocked_run now server (cacheKey settings key))

theorem put_run_ex (value : Bytes) {seconds : Int} (positive : 0 < seconds) :
    (put settings now key value (some seconds)).run.run server =
      (.ok (), AList.insert (cacheKey settings key)
        ⟨value, some (now + seconds * 1000000000)⟩ server) := by
  unfold put
  have skipped : ¬ (some seconds).any (fun seconds => decide (seconds ≤ 0)) = true := by
    simpa using positive
  have executes : Server.execute now server (.set (cacheKey settings key) value (.ex seconds)) =
      (.status (ascii "OK"), AList.insert (cacheKey settings key)
        ⟨value, some (now + seconds * 1000000000)⟩ server) :=
    if_pos (decide_eq_true positive)
  rw [if_neg skipped]
  exact run_bind_ok (command_run executes nofun)

theorem matching_reply (keys : List Bytes) :
    matching settings (keys.map .string) = keys.filter settings.keyPrefix.isPrefixOf := by
  unfold matching
  rw [filterMap_map]
  exact congrFun filterMap_eq_filter keys

variable (scan : List Page)

/-- The keys of an iteration that belong to the store. -/
def owned : List Bytes :=
  (scan.flatMap Page.keys).filter settings.keyPrefix.isPrefixOf

theorem flushPages_run (whole : iterates scan = true) :
    (flushPages settings now (scan.map Page.reply)).run.run server =
      (.ok (), server.eraseAll (owned settings scan)) := by
  induction scan generalizing server with
  | nil => exact absurd whole nofun
  | cons page rest ih =>
    have erased := eraseManyUnlocked_run now server (matching settings (page.keys.map .string))
    have here : (flushPages settings now ((page :: rest).map Page.reply)).run.run server =
        (if page.cursor ≠ ascii "0" then flushPages settings now (rest.map Page.reply)
          else pure () : Talk Unit).run.run
          (server.eraseAll (page.keys.filter settings.keyPrefix.isPrefixOf)) := by
      rw [← matching_reply]
      exact run_bind_ok erased
    have all : server.eraseAll (owned settings (page :: rest)) =
        (server.eraseAll (page.keys.filter settings.keyPrefix.isPrefixOf)).eraseAll
          (owned settings rest) := by
      unfold owned Server.eraseAll
      rw [flatMap_cons, filter_append, foldl_append]
    unfold iterates at whole
    rw [here, all]
    by_cases last : page.cursor = ascii "0"
    · rw [if_pos last, List.isEmpty_iff] at whole
      rw [if_neg (not_not.mpr last), whole]
      rfl
    · rw [if_neg last] at whole
      rw [if_pos last]
      exact ih _ whole

theorem flush_run (whole : iterates scan = true) :
    (flush settings now (scan.map Page.reply)).run.run server =
      (.ok (), if settings.keyPrefix = [] then ∅ else server.eraseAll (owned settings scan)) := by
  unfold flush
  by_cases bare : settings.keyPrefix = []
  · rw [if_pos bare, if_pos bare]
    exact run_bind_ok (@command_run now server _ .flushDb _ rfl nofun)
  · rw [if_neg bare, if_neg bare]
    exact flushPages_run settings now server scan whole

end RedisStore

/-! ## Histories -/

inductive Operation where
  | get (key : Bytes)
  | put (key value : Bytes) (ttl : Option Int)
  | forget (key : Bytes)
  /-- With the replies that `SCAN` gives meanwhile. -/
  | flush (scan : List Page)
  /-- Another client of the server sets or deletes a key. -/
  | elsewhere (key : Bytes) (entry : Option (Expiring Int Bytes))
  deriving DecidableEq, Repr

inductive Result where
  | value (found : Option Bytes)
  | removed (found : Bool)
  | done
  | raised (exception : Exception)
  deriving DecidableEq, Repr

def MemoryStore.perform (now : Int) (store : MemoryStore) : Operation → Result × MemoryStore
  | .get key => (.value (store.get now key).1, (store.get now key).2)
  | .put key value ttl =>
    match store.put now key value ttl with
    | .ok stored => (.done, stored)
    | .error exception => (.raised exception, store)
  | .forget key => (.removed (store.forget key).1, (store.forget key).2)
  | .flush _ => (.done, store.flush)
  | .elsewhere _ _ => (.done, store)

/-- What the caller of the Redis store sees. -/
def conclude {α : Type} (result : α → Result) (ran : Except Exception α × Server) :
    Result × Server :=
  match ran.1 with
  | .ok value => (result value, ran.2)
  | .error exception => (.raised exception, ran.2)

def RedisStore.perform (settings : RedisSettings) (now : Int) (server : Server) :
    Operation → Result × Server
  | .get key => conclude .value ((RedisStore.get settings now key).run.run server)
  | .put key value ttl =>
    conclude (fun _ => .done) ((RedisStore.put settings now key value ttl).run.run server)
  | .forget key => conclude .removed ((RedisStore.forget settings now key).run.run server)
  | .flush scan =>
    conclude (fun _ => .done)
      ((RedisStore.flush settings now (scan.map Page.reply)).run.run server)
  | .elsewhere key (some entry) => (.done, AList.insert key entry server)
  | .elsewhere key none => (.done, server.erase key)

structure Event where
  time : Int
  operation : Operation
  deriving DecidableEq, Repr

/-- The two stores, and the time of the last operation. -/
structure System where
  memory : MemoryStore
  redis : Server
  now : Int

def System.initial (start : Int) : System := ⟨∅, ∅, start⟩

section Histories

variable (settings : RedisSettings) (system : System) (event : Event)

def next : System where
  memory := (system.memory.perform event.time event.operation).2
  redis := (RedisStore.perform settings event.time system.redis event.operation).2
  now := event.time

/-- What is assumed of the server: `SCAN` returns every key that is there throughout, and
the other clients keep off the prefix. -/
def Served : Prop :=
  match event.operation with
  | .flush scan => iterates scan = true ∧ ∀ key ∈ system.redis.keys,
      system.redis.present event.time key = true →
      (next settings system event).redis.present event.time key = true →
        ∃ page ∈ scan, key ∈ page.keys
  | .elsewhere key _ => settings.keyPrefix.isPrefixOf key = false
  | _ => True

instance (system : System) : (event : Event) → Decidable (Served settings system event)
  | ⟨_, .flush _⟩ => inferInstanceAs (Decidable (_ ∧ _))
  | ⟨_, .elsewhere _ _⟩ => inferInstanceAs (Decidable (_ = _))
  | ⟨_, .get _⟩ | ⟨_, .put _ _ _⟩ | ⟨_, .forget _⟩ => inferInstanceAs (Decidable True)

def Enabled : Prop :=
  system.now ≤ event.time ∧ Served settings system event

instance (system : System) (event : Event) : Decidable (Enabled settings system event) :=
  inferInstanceAs (Decidable (_ ∧ _))

variable (transition : Transition System Event)

/-- `forget` meets no entry whose time has come, and the time that `put` computes can be
represented. -/
def Prompt : Prop :=
  match transition.label.operation with
  | .forget key => ∀ entry ∈ transition.before.memory.lookup key,
      entry.live transition.label.time = true
  | .put _ _ (some seconds) => addSeconds transition.label.time seconds =
      .ok (transition.label.time + seconds * 1000000000)
  | _ => True

instance : (transition : Transition System Event) → Decidable (Prompt transition)
  | ⟨_, ⟨_, .forget _⟩, _⟩ => inferInstanceAs (Decidable (∀ _ ∈ _, _ = true))
  | ⟨_, ⟨_, .put _ _ (some _)⟩, _⟩ => inferInstanceAs (Decidable (_ = _))
  | ⟨_, ⟨_, .put _ _ none⟩, _⟩ | ⟨_, ⟨_, .get _⟩, _⟩ | ⟨_, ⟨_, .flush _⟩, _⟩
  | ⟨_, ⟨_, .elsewhere _ _⟩, _⟩ => inferInstanceAs (Decidable True)

/-- Both stores answer the same. -/
def SameResult : Prop :=
  (transition.before.memory.perform transition.label.time transition.label.operation).1 =
    (RedisStore.perform settings transition.label.time transition.before.redis
      transition.label.operation).1

/-! ## What both stores show -/

/-- At the given time both stores show the same entries. -/
def Agree (now : Int) (memory : MemoryStore) (redis : Server) : Prop :=
  ∀ key, Expiring.seen now memory key =
    Expiring.seen now redis (RedisStore.cacheKey settings key)

variable {settings} {now : Int} {memory : MemoryStore} {redis : Server}

variable {ttl : Option Int} {key value : Bytes}

theorem MemoryStore.perform_put {stored : MemoryStore}
    (put : memory.put now key value ttl = .ok stored) :
    memory.perform now (.put key value ttl) = (.done, stored) := by
  simp only [MemoryStore.perform, put]

theorem RedisStore.perform_put {stored : Server}
    (put : (RedisStore.put settings now key value ttl).run.run redis = (.ok (), stored)) :
    RedisStore.perform settings now redis (.put key value ttl) = (.done, stored) := by
  simp only [RedisStore.perform, put, conclude]

theorem isPrefixOf_cacheKey (key : Bytes) :
    settings.keyPrefix.isPrefixOf (RedisStore.cacheKey settings key) = true :=
  isPrefixOf_iff_prefix.mpr (prefix_append _ _)

theorem mem_keys_of_present (present : redis.present now key = true) : key ∈ redis.keys := by
  rw [← AList.mem_keys, ← AList.lookup_isSome]
  unfold Server.present Expiring.seen Expiring.visible at present
  cases found : AList.lookup key redis with
  | none => rw [found] at present; exact absurd present nofun
  | some entry => rfl

theorem flush_unseen {system : System} {scan : List Page}
    (served : Served settings system ⟨now, .flush scan⟩) (key : Bytes) :
    Expiring.seen now (next settings system ⟨now, .flush scan⟩).redis
      (RedisStore.cacheKey settings key) = none := by
  obtain ⟨whole, returned⟩ := served
  have flushed : (next settings system ⟨now, .flush scan⟩).redis =
      if settings.keyPrefix = [] then ∅
      else system.redis.eraseAll (RedisStore.owned settings scan) := by
    show (conclude _ _).2 = _
    rw [RedisStore.flush_run settings now system.redis scan whole]
    rfl
  by_cases bare : settings.keyPrefix = []
  · rw [flushed, if_pos bare]
    rfl
  · rw [if_neg bare] at flushed
    by_contra some_
    have after := Option.ne_none_iff_isSome.mp some_
    rw [flushed, Server.seen_eraseAll] at some_
    -- A key that is left was there throughout, so it was returned and erased.
    by_cases erased : RedisStore.cacheKey settings key ∈ RedisStore.owned settings scan
    · rw [if_pos erased] at some_
      exact some_ rfl
    · rw [if_neg erased] at some_
      have before : system.redis.present now (RedisStore.cacheKey settings key) = true :=
        Option.ne_none_iff_isSome.mp some_
      obtain ⟨page, member, listed⟩ :=
        returned _ (mem_keys_of_present before) before after
      apply erased
      exact mem_filter.mpr
        ⟨mem_flatMap.mpr ⟨page, member, listed⟩, isPrefixOf_cacheKey key⟩

theorem flush_result {scan : List Page} (whole : iterates scan = true) :
    (RedisStore.perform settings now redis (.flush scan)).1 = .done := by
  simp only [RedisStore.perform, RedisStore.flush_run settings now redis scan whole, conclude]

section

variable (agree : Agree settings now memory redis)
include agree

theorem Agree.later {later : Int} (order : now ≤ later) : Agree settings later memory redis := by
  intro key
  rw [← Expiring.visible_seen order, agree key, Expiring.visible_seen order]

theorem Agree.insert (key : Bytes) (entry : Expiring Int Bytes) :
    Agree settings now (AList.insert key entry memory)
      (AList.insert (RedisStore.cacheKey settings key) entry redis) := by
  intro other
  rw [Expiring.seen_insert, Expiring.seen_insert, agree other]
  simp only [RedisStore.cacheKey, append_right_inj]

theorem Agree.erase (key : Bytes) :
    Agree settings now (AList.erase key memory)
      (redis.eraseAll [RedisStore.cacheKey settings key]) := by
  intro other
  rw [Expiring.seen_erase, Server.seen_eraseAll, agree other]
  simp only [mem_singleton, RedisStore.cacheKey, append_right_inj]

/-- An entry that is not seen makes no difference in the memory store. -/
theorem Agree.erase_unseen (unseen : Expiring.seen now memory key = none) :
    Agree settings now (AList.erase key memory) redis := by
  intro other
  rw [Expiring.seen_erase]
  split
  · rename_i same
    rw [same, ← agree key, unseen]
  · exact agree other

theorem get_agree (key : Bytes) :
    (memory.get now key).1 =
        (Expiring.seen now redis (RedisStore.cacheKey settings key)).map Expiring.value ∧
      Agree settings now (memory.get now key).2 redis := by
  rw [← agree key]
  unfold MemoryStore.get
  cases found : AList.lookup key memory with
  | none =>
    have unseen : Expiring.seen now memory key = none := by rw [Expiring.seen, found]; rfl
    rw [unseen]
    exact ⟨rfl, agree⟩
  | some entry =>
    dsimp only
    rw [Expiring.any_le_eq]
    cases alive : entry.live now with
    | true =>
      have shown : Expiring.seen now memory key = some entry := by
        rw [Expiring.seen, found, Expiring.visible_of_live alive]
      rw [shown]
      exact ⟨rfl, agree⟩
    | false =>
      have unseen : Expiring.seen now memory key = none := by
        rw [Expiring.seen, found, Expiring.visible_of_expired alive]
      rw [unseen]
      exact ⟨rfl, agree.erase_unseen unseen⟩

theorem put_agree (key value : Bytes)
    (exact_ : ∀ seconds ∈ ttl, addSeconds now seconds = .ok (now + seconds * 1000000000)) :
    (memory.perform now (.put key value ttl)).1 =
        (RedisStore.perform settings now redis (.put key value ttl)).1 ∧
      Agree settings now (memory.perform now (.put key value ttl)).2
        (RedisStore.perform settings now redis (.put key value ttl)).2 := by
  cases ttl with
  | none =>
    exact ⟨rfl, agree.insert key _⟩
  | some seconds =>
    have stored : memory.put now key value (some seconds) =
        .ok (AList.insert key ⟨value, some (now + seconds * 1000000000)⟩ memory) := by
      simp only [MemoryStore.put, exact_ seconds rfl]
      rfl
    rw [MemoryStore.perform_put stored]
    by_cases positive : 0 < seconds
    · rw [RedisStore.perform_put
        (RedisStore.put_run_ex settings now redis key value positive)]
      exact ⟨rfl, agree.insert key _⟩
    · -- The memory store keeps an entry that is never seen.
      have expired : Expiring.live now
          (⟨value, some (now + seconds * 1000000000)⟩ : Expiring Int Bytes) = false := by
        rw [Expiring.live_until, decide_eq_false_iff_not]
        omega
      rw [RedisStore.perform_put
        (RedisStore.put_run_expired settings now redis key value (not_lt.mp positive))]
      refine ⟨rfl, fun other => ?_⟩
      rw [Expiring.seen_insert, Expiring.visible_of_expired expired, ← agree.erase key other,
        Expiring.seen_erase]

theorem forget_agree (alive : ∀ entry ∈ AList.lookup key memory, entry.live now = true) :
    (memory.perform now (.forget key)).1 =
        (RedisStore.perform settings now redis (.forget key)).1 ∧
      Agree settings now (memory.perform now (.forget key)).2
        (RedisStore.perform settings now redis (.forget key)).2 := by
  have shown : Expiring.seen now memory key = AList.lookup key memory := by
    unfold Expiring.seen
    cases found : AList.lookup key memory with
    | none => rfl
    | some entry => exact Expiring.visible_of_live (alive entry found)
  have ran : RedisStore.perform settings now redis (.forget key) =
      (.removed (redis.present now (RedisStore.cacheKey settings key)),
        redis.eraseAll [RedisStore.cacheKey settings key]) := by
    simp only [RedisStore.perform, RedisStore.forget, RedisStore.eraseUnlocked_run, conclude]
  rw [ran, Server.present, ← agree key, shown]
  exact ⟨rfl, agree.erase key⟩

theorem elsewhere_agree (apart : settings.keyPrefix.isPrefixOf key = false)
    (entry : Option (Expiring Int Bytes)) :
    (RedisStore.perform settings now redis (.elsewhere key entry)).1 = .done ∧
      Agree settings now memory (RedisStore.perform settings now redis (.elsewhere key entry)).2 := by
  have other : ∀ own, RedisStore.cacheKey settings own ≠ key := by
    intro own same
    rw [← same, isPrefixOf_cacheKey] at apart
    exact absurd apart nofun
  cases entry with
  | none =>
    refine ⟨rfl, fun own => ?_⟩
    show _ = Expiring.seen now (AList.erase key redis) _
    rw [Expiring.seen_erase, if_neg (other own)]
    exact agree own
  | some entry =>
    refine ⟨rfl, fun own => ?_⟩
    show _ = Expiring.seen now (AList.insert key entry redis) _
    rw [Expiring.seen_insert, if_neg (other own)]
    exact agree own

end

/-- One operation on stores that show the same entries. -/
theorem operation_agree {system : System} {event : Event}
    (agree : Agree settings system.now system.memory system.redis)
    (enabled : Enabled settings system event)
    (prompt : Prompt ⟨system, event, next settings system event⟩) :
    SameResult settings ⟨system, event, next settings system event⟩ ∧
      Agree settings event.time (next settings system event).memory
        (next settings system event).redis := by
  obtain ⟨order, served⟩ := enabled
  have current := agree.later order
  obtain ⟨time, operation⟩ := event
  cases operation with
  | get key =>
    obtain ⟨same, kept⟩ := get_agree current key
    have ran : RedisStore.perform settings time system.redis (.get key) =
        (.value (system.memory.get time key).1, system.redis) := by
      simp only [RedisStore.perform, RedisStore.get_run, conclude, same]
    unfold SameResult next
    rw [ran]
    exact ⟨rfl, kept⟩
  | put key value ttl =>
    refine put_agree current key value fun seconds given => ?_
    cases given
    exact prompt
  | forget key => exact forget_agree current prompt
  | flush scan =>
    refine ⟨(flush_result served.1).symm, fun key => ?_⟩
    rw [flush_unseen served key]
    rfl
  | elsewhere key entry =>
    obtain ⟨done, kept⟩ := elsewhere_agree current served entry
    exact ⟨done.symm, kept⟩

/-! ## Runs -/

/-- In every history in which `forget` never meets an expired entry and no time overflows,
the two stores answer every operation alike. -/
theorem cache_stores_agree (settings : RedisSettings) (start : Int) (events : List Event)
    (enabled : EnabledFrom (next settings) (Enabled settings) (System.initial start) events)
    (prompt : ∀ transition ∈ transitionsFrom (next settings) (System.initial start) events,
      Prompt transition) :
    ∀ transition ∈ transitionsFrom (next settings) (System.initial start) events,
      SameResult settings transition := by
  refine enabled.forall_mem_where
    (fun system => Agree settings system.now system.memory system.redis) Prompt
    (fun possible allowed agree => ?_) prompt (fun _ => rfl) fun possible allowed agree => ?_
  · exact (operation_agree agree possible allowed).2
  · exact (operation_agree agree possible allowed).1

end Histories

def sampleSettings : RedisSettings := ⟨ascii "cache:"⟩

/-- An entry with a time to live of one second. -/
def stored : Event := ⟨0, .put (ascii "key") (ascii "value") (some 1)⟩

/-- Two seconds later the memory store still has the entry to forget. -/
theorem forget_expired_differs :
    EnabledFrom (next sampleSettings) (Enabled sampleSettings) (System.initial 0)
      [stored, ⟨2000000000, .forget (ascii "key")⟩] ∧
    ((next sampleSettings (System.initial 0) stored).memory.perform 2000000000
      (.forget (ascii "key"))).1 = .removed true ∧
    (RedisStore.perform sampleSettings 2000000000
      (next sampleSettings (System.initial 0) stored).redis (.forget (ascii "key"))).1 =
        .removed false := by
  decide

/-- An entry that is read after its time, forgotten, stored once more and flushed, next to
a key of another client. -/
def sampleHistory : List Event :=
  [⟨0, .elsewhere (ascii "other") (some ⟨ascii "1", none⟩)⟩, stored,
    ⟨500000000, .get (ascii "key")⟩, ⟨2000000000, .get (ascii "key")⟩,
    ⟨2000000000, .forget (ascii "key")⟩, ⟨3000000000, .put (ascii "key") (ascii "next") none⟩,
    ⟨4000000000, .flush [⟨ascii "7", [ascii "other"]⟩, ⟨ascii "0", [ascii "cache:key"]⟩]⟩,
    ⟨5000000000, .get (ascii "key")⟩]

theorem cache_stores_agree_sample :
    (transitionsFrom (next sampleSettings) (System.initial 0) sampleHistory).Forall
      (SameResult sampleSettings) :=
  forall_iff_forall_mem.mpr
    (cache_stores_agree sampleSettings 0 sampleHistory (by decide) (by decide))

end Gungnir.Cache
