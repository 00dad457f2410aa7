import Gungnir.Redis.Server
import Gungnir.Library.Stateful

/-!
# Remember-token stores

`MemoryRememberStore` and `RedisRememberStore`. Both keep, under the digest of a token, the
identity it was issued to and the time from which it is void; only a token that has been
put is ever consumed, and only once.
-/

namespace Gungnir.Auth

open Gungnir.Core Gungnir.Library Gungnir.Redis

abbrev Entries := Expiring.Entries Bytes Int Bytes

namespace MemoryRememberStore

/-- `std::erase_if` on what has expired. -/
def sweep (now : Int) (entries : Entries) : Entries :=
  ⟨entries.entries.filter fun item => !(item.2.expiresAt.any fun expiry => expiry ≤ now),
    entries.nodupKeys.sublist List.filter_sublist⟩

def put (now : Int) (entries : Entries) (digest identity : Bytes) (expires : Int) : Entries :=
  (sweep now entries).insert digest ⟨identity, some expires⟩

def consume (now : Int) (entries : Entries) (digest : Bytes) : Option Bytes × Entries :=
  match entries.lookup digest with
  | none => (none, entries)
  | some entry =>
    if entry.expiresAt.any fun expiry => expiry ≤ now then (none, AList.erase digest entries)
    else (some entry.value, AList.erase digest entries)

def revoke (entries : Entries) (digest : Bytes) : Entries := AList.erase digest entries

theorem lookup_sweep {now : Int} {entries : Entries} {digest : Bytes}
    {entry : Expiring Int Bytes} (found : (sweep now entries).lookup digest = some entry) :
    entries.lookup digest = some entry := by
  have member := AList.mem_lookup_iff.mp found
  exact AList.mem_lookup_iff.mpr (List.mem_of_mem_filter member)

end MemoryRememberStore

namespace RedisRememberStore

variable (keyPrefix : Bytes) (now : Int)

def isDigestCharacter (character : UInt8) : Bool :=
  (48 ≤ character && character ≤ 57) || (97 ≤ character && character ≤ 102)

variable (digest : Bytes)

def key : Talk Bytes :=
  if digest.length ≠ 64 || !digest.all isDigestCharacter then
    throw (.invalidArgument "Invalid remember-token digest")
  else pure (keyPrefix ++ digest)

/-- `std::chrono::ceil` to milliseconds. -/
def ceilMilliseconds (ticks : Int) : Int := -(-ticks / 1000000)

def put (identity : Bytes) (expires : Int) : Talk Unit := do
  let address ← key keyPrefix digest
  if identity = [] then throw (.invalidArgument "Remember-token identity cannot be empty")
  else if expires ≤ now then
    let _ ← command now (.del [address])
    return
  else
    match ← command now (.set address identity (.pxat (ceilMilliseconds expires))) with
    | .status text =>
      if text = ascii "OK" then return
      else throw ⟨.runtimeError, ascii "Remember-token publication failed"⟩
    | _ => throw ⟨.runtimeError, ascii "Remember-token publication failed"⟩

def consume : Talk (Option Bytes) := do
  match ← command now (.getDel (← key keyPrefix digest)) with
  | .nil => return none
  | .string text =>
    if text = [] then throw ⟨.runtimeError, ascii "Invalid remember-token record"⟩
    else return some text
  | _ => throw ⟨.runtimeError, ascii "Invalid remember-token record"⟩

def revoke : Talk Unit := do
  let _ ← command now (.del [← key keyPrefix digest])
  return

def validDigest : Bool := digest.length = 64 && digest.all isDigestCharacter

variable {digest : Bytes} (server : Server)

theorem key_run_valid (valid : validDigest digest = true) :
    (key keyPrefix digest).run.run server = (.ok (keyPrefix ++ digest), server) := by
  obtain ⟨length, characters⟩ := Bool.and_eq_true_iff.mp valid
  have accepted : ¬ (decide (digest.length ≠ 64) || !digest.all isDigestCharacter) = true := by
    simp [of_decide_eq_true length, characters]
  unfold key
  rw [if_neg accepted]
  rfl

section

variable (invalid : validDigest digest = false)
include invalid

theorem key_run_invalid :
    (key keyPrefix digest).run.run server =
      (.error (.invalidArgument "Invalid remember-token digest"), server) := by
  have refused : (decide (digest.length ≠ 64) || !digest.all isDigestCharacter) = true := by
    unfold validDigest at invalid
    rw [decide_not, ← Bool.not_and, invalid]
    rfl
  unfold key
  rw [if_pos refused]
  rfl

theorem consume_run_invalid :
    (consume keyPrefix now digest).run.run server =
      (.error (.invalidArgument "Invalid remember-token digest"), server) :=
  run_bind_error (key_run_invalid keyPrefix server invalid)

theorem revoke_run_invalid :
    (revoke keyPrefix now digest).run.run server =
      (.error (.invalidArgument "Invalid remember-token digest"), server) :=
  run_bind_error (key_run_invalid keyPrefix server invalid)

end

theorem put_server (digest : Bytes) (server : Server) (identity : Bytes) (expires : Int) :
    ((put keyPrefix now digest identity expires).run.run server).2 = server ∨
    ((put keyPrefix now digest identity expires).run.run server).2 =
      server.eraseAll [keyPrefix ++ digest] ∨
    ((put keyPrefix now digest identity expires).run.run server).2 =
      AList.insert (keyPrefix ++ digest)
        ⟨identity, some (ceilMilliseconds expires * 1000000)⟩ server := by
  unfold put
  cases valid : validDigest digest with
  | false => rw [run_bind_error (key_run_invalid keyPrefix server valid)]; exact .inl rfl
  | true =>
    rw [run_bind_ok (key_run_valid keyPrefix server valid)]
    by_cases empty : identity = []
    · rw [if_pos empty]
      exact .inl rfl
    · rw [if_neg empty]
      by_cases past : expires ≤ now
      · rw [if_pos past,
          run_bind_ok (@command_run now server _ (.del [keyPrefix ++ digest]) _ rfl nofun)]
        exact .inr (.inl rfl)
      · rw [if_neg past]
        cases accepted : (Expiry.pxat (ceilMilliseconds expires)).valid with
        | true =>
          have executes : server.execute now (.set (keyPrefix ++ digest) identity
              (.pxat (ceilMilliseconds expires))) = (.status (ascii "OK"),
            AList.insert (keyPrefix ++ digest)
              ⟨identity, some (ceilMilliseconds expires * 1000000)⟩ server) :=
            if_pos accepted
          rw [run_bind_ok (command_run executes nofun)]
          exact .inr (.inr rfl)
        | false =>
          have executes : server.execute now (.set (keyPrefix ++ digest) identity
              (.pxat (ceilMilliseconds expires))) =
            (.error (ascii "ERR invalid expire time in 'set' command"), server) :=
            if_neg (Bool.not_eq_true _ ▸ accepted)
          rw [run_bind_error (command_run_error executes)]
          exact .inl rfl

/-- What `consume` returns, and that the key is gone. -/
theorem consume_run_valid (valid : validDigest digest = true) :
    (consume keyPrefix now digest).run.run server =
      (match Expiring.seen now server (keyPrefix ++ digest) with
        | none => .ok none
        | some entry =>
          if entry.value = [] then
            .error ⟨.runtimeError, ascii "Invalid remember-token record"⟩
          else .ok (some entry.value),
        server.erase (keyPrefix ++ digest)) := by
  unfold consume
  rw [run_bind_ok (key_run_valid keyPrefix server valid)]
  cases found : Expiring.seen now server (keyPrefix ++ digest) with
  | none =>
    have executes : server.execute now (.getDel (keyPrefix ++ digest)) =
        (.nil, server.erase (keyPrefix ++ digest)) := by
      simp only [Server.execute, Server.read, found]
    exact run_bind_ok (command_run executes fun _ => Redis.Reply.noConfusion)
  | some entry =>
    have executes : server.execute now (.getDel (keyPrefix ++ digest)) =
        (.string entry.value, server.erase (keyPrefix ++ digest)) := by
      simp only [Server.execute, Server.read, found]
    rw [run_bind_ok (command_run executes fun _ => Redis.Reply.noConfusion)]
    dsimp only
    by_cases empty : entry.value = []
    · rw [if_pos empty, if_pos empty]
      rfl
    · rw [if_neg empty, if_neg empty]
      rfl

theorem revoke_run_valid (valid : validDigest digest = true) :
    (revoke keyPrefix now digest).run.run server =
      (.ok (), server.eraseAll [keyPrefix ++ digest]) := by
  unfold revoke
  rw [run_bind_ok (key_run_valid keyPrefix server valid)]
  exact run_bind_ok (@command_run now server _ (.del [keyPrefix ++ digest]) _ rfl nofun)

end RedisRememberStore

/-! ## Either store -/

/-- The kinds of `RememberStore`; the state of both is a map of entries that expire. -/
inductive RememberStore where
  | memory
  | redis (keyPrefix : Bytes)
  deriving DecidableEq, Repr

namespace RememberStore

variable (store : RememberStore) (now : Int) (entries : Entries) (digest : Bytes)

def put (identity : Bytes) (expires : Int) : Except Exception Unit × Entries :=
  match store with
  | memory => (.ok (), MemoryRememberStore.put now entries digest identity expires)
  | redis keyPrefix =>
    (RedisRememberStore.put keyPrefix now digest identity expires).run.run entries

def consume : Except Exception (Option Bytes) × Entries :=
  match store with
  | memory =>
    (.ok (MemoryRememberStore.consume now entries digest).1,
      (MemoryRememberStore.consume now entries digest).2)
  | redis keyPrefix => (RedisRememberStore.consume keyPrefix now digest).run.run entries

def revoke : Except Exception Unit × Entries :=
  match store with
  | memory => (.ok (), MemoryRememberStore.revoke entries digest)
  | redis keyPrefix => (RedisRememberStore.revoke keyPrefix now digest).run.run entries

def address : Bytes :=
  match store with
  | memory => digest
  | redis keyPrefix => keyPrefix ++ digest

/-- The entry that the store has under a digest, expired or not. -/
def find : Option (Expiring Int Bytes) :=
  entries.lookup (store.address digest)

/-- The time from which a token that expires at the given time is void. -/
def deadline (expires : Int) : Int :=
  match store with
  | memory => expires
  | redis _ => RedisRememberStore.ceilMilliseconds expires * 1000000

variable {store} {now : Int} {entries : Entries} {digest other : Bytes}
  {entry : Expiring Int Bytes}

theorem address_inj : store.address other = store.address digest ↔ other = digest := by
  cases store with
  | memory => exact Iff.rfl
  | redis keyPrefix => exact List.append_right_inj keyPrefix

theorem find_erase (entries : Entries) (digest other : Bytes) :
    store.find (AList.erase (store.address digest) entries) other =
      if other = digest then none else store.find entries other := by
  unfold find
  split
  · rename_i same
    rw [same, AList.lookup_erase]
  · rename_i differs
    rw [AList.lookup_erase_ne (mt address_inj.mp differs)]

theorem find_insert (entries : Entries) (digest other : Bytes) (entry : Expiring Int Bytes) :
    store.find (AList.insert (store.address digest) entry entries) other =
      if other = digest then some entry else store.find entries other := by
  unfold find
  split
  · rename_i same
    rw [same, AList.lookup_insert]
  · rename_i differs
    rw [AList.lookup_insert_ne (mt address_inj.mp differs)]

theorem find_of_find_erase
    (found : store.find (AList.erase (store.address digest) entries) other = some entry) :
    other ≠ digest ∧ store.find entries other = some entry := by
  rw [find_erase] at found
  split at found
  · cases found
  · rename_i differs
    exact ⟨differs, found⟩

/-- What `put` adds. -/
theorem find_put {identity : Bytes} {expires : Int}
    (found : store.find (store.put now entries digest identity expires).2 other = some entry) :
    (other = digest ∧ entry = ⟨identity, some (store.deadline expires)⟩) ∨
      store.find entries other = some entry := by
  cases store with
  | memory =>
    change memory.find (AList.insert (memory.address digest) _ _) other = some entry at found
    rw [find_insert] at found
    split at found
    · rename_i same
      cases found
      exact .inl ⟨same, rfl⟩
    · exact .inr (MemoryRememberStore.lookup_sweep found)
  | redis keyPrefix =>
    change (redis keyPrefix).find
      ((RedisRememberStore.put keyPrefix now digest identity expires).run.run entries).2
        other = some entry at found
    rcases RedisRememberStore.put_server keyPrefix now digest entries identity expires with
      same | erased | stored
    · rw [same] at found
      exact .inr found
    · rw [erased] at found
      exact .inr (find_of_find_erase found).2
    · rw [stored] at found
      change (redis keyPrefix).find (AList.insert ((redis keyPrefix).address digest) _ _) other =
        some entry at found
      rw [find_insert] at found
      split at found
      · rename_i same
        cases found
        exact .inl ⟨same, rfl⟩
      · exact .inr found

/-- A consumed token was there, and its time had not come. -/
theorem consume_ok {identity : Bytes}
    (consumed : (store.consume now entries digest).1 = .ok (some identity)) :
    ∃ entry, store.find entries digest = some entry ∧ entry.value = identity ∧
      entry.live now = true := by
  cases store with
  | memory =>
    change Except.ok (MemoryRememberStore.consume now entries digest).1 = _ at consumed
    unfold MemoryRememberStore.consume at consumed
    cases found : AList.lookup digest entries with
    | none => rw [found] at consumed; cases consumed
    | some entry =>
      rw [found] at consumed
      dsimp only at consumed
      rw [Expiring.any_le_eq] at consumed
      cases alive : entry.live now with
      | false => rw [alive] at consumed; cases consumed
      | true =>
        rw [alive] at consumed
        cases consumed
        exact ⟨entry, found, rfl, alive⟩
  | redis keyPrefix =>
    change ((RedisRememberStore.consume keyPrefix now digest).run.run entries).1 = _ at consumed
    cases valid : RedisRememberStore.validDigest digest with
    | false =>
      rw [RedisRememberStore.consume_run_invalid keyPrefix now entries valid] at consumed
      cases consumed
    | true =>
      rw [RedisRememberStore.consume_run_valid keyPrefix now entries valid] at consumed
      cases shown : Expiring.seen now entries (keyPrefix ++ digest) with
      | none => rw [shown] at consumed; cases consumed
      | some entry =>
        rw [shown] at consumed
        dsimp only at consumed
        split at consumed
        · cases consumed
        · cases consumed
          obtain ⟨found, alive⟩ := Option.filter_eq_some_iff.mp shown
          exact ⟨entry, found, rfl, alive⟩

/-- A call that takes the entry away, or fails and changes nothing. -/
def Removes {α : Type} (store : RememberStore) (entries : Entries) (digest : Bytes)
    (performed : Except Exception α × Entries) : Prop :=
  performed.2 = AList.erase (store.address digest) entries ∨
    ∃ raised, performed = (.error raised, entries)

theorem consume_removes : store.Removes entries digest (store.consume now entries digest) := by
  cases store with
  | memory =>
    refine .inl (show (MemoryRememberStore.consume now entries digest).2 = _ from ?_)
    unfold MemoryRememberStore.consume
    split
    · rename_i absent
      exact AList.ext (List.kerase_of_notMem_keys (AList.lookup_eq_none.mp absent)).symm
    · split <;> rfl
  | redis keyPrefix =>
    cases valid : RedisRememberStore.validDigest digest with
    | false => exact .inr ⟨_, RedisRememberStore.consume_run_invalid keyPrefix now entries valid⟩
    | true =>
      exact .inl (congrArg Prod.snd
        (RedisRememberStore.consume_run_valid keyPrefix now entries valid))

theorem revoke_removes : store.Removes entries digest (store.revoke now entries digest) := by
  cases store with
  | memory => exact .inl rfl
  | redis keyPrefix =>
    cases valid : RedisRememberStore.validDigest digest with
    | false => exact .inr ⟨_, RedisRememberStore.revoke_run_invalid keyPrefix now entries valid⟩
    | true =>
      exact .inl (congrArg Prod.snd
        (RedisRememberStore.revoke_run_valid keyPrefix now entries valid))

variable {α : Type} {performed : Except Exception α × Entries}
  (removes : store.Removes entries digest performed)
include removes

theorem Removes.less (found : store.find performed.2 other = some entry) :
    store.find entries other = some entry := by
  rcases removes with erased | ⟨raised, rfl⟩
  · rw [erased] at found
    exact (find_of_find_erase found).2
  · exact found

/-- A call that returns has taken effect. -/
theorem Removes.gone {value : α} {after : Entries} (returned : performed = (.ok value, after)) :
    store.find after digest = none := by
  cases returned
  rcases removes with erased | ⟨raised, failed⟩
  · rw [show after = _ from erased, find_erase, if_pos rfl]
  · cases failed

end RememberStore

end Gungnir.Auth
