import Gungnir.Scheduler.Task
import Mathlib.Data.List.AList

/-!
# Lock stores and lock keys

`MemoryLockStore` of `scheduler/lock.hpp`, and the keys that the tasks lock. Times are those of
the steady clock in nanoseconds.
-/

namespace Gungnir.Scheduler

open Gungnir.Core Gungnir.Library List

def nanoseconds (milliseconds : Int) : Int := milliseconds * 1000000

/-! ## The memory store -/

structure LockEntry where
  owner : Bytes
  expiresAt : Int
  deriving DecidableEq, Repr

structure MemoryLockStore where
  locks : AList fun _ : Bytes => LockEntry
  nextOwner : UInt64

namespace MemoryLockStore

def initial : MemoryLockStore := ⟨∅, 1⟩

def validate (key : Bytes) (ttl : Int) : Except Exception Unit :=
  if key = [] then .error (.invalidArgument "Scheduler lock key must not be empty")
  else if ttl ≤ 0 then .error (.invalidArgument "Scheduler lock TTL must be greater than zero")
  else .ok ()

variable (store : MemoryLockStore)

def acquire (now : Int) (key : Bytes) (ttl : Int) :
    Except Exception (Option LockLease) × MemoryLockStore :=
  match validate key ttl with
  | .error raised => (.error raised, store)
  | .ok () =>
    if (store.locks.lookup key).any fun found => found.expiresAt > now then (.ok none, store)
    else
      let owner := stdToString store.nextOwner.toNat
      (.ok (some ⟨key, owner⟩),
        ⟨store.locks.insert key ⟨owner, now + nanoseconds ttl⟩, store.nextOwner + 1⟩)

def release (now : Int) (lease : LockLease) : Bool × MemoryLockStore :=
  match store.locks.lookup lease.key with
  | none => (false, store)
  | some found =>
    if found.owner ≠ lease.owner then (false, store)
    else (found.expiresAt > now, { store with locks := store.locks.erase lease.key })

variable {store after : MemoryLockStore} {lease : LockLease}

/-- A lock that has been granted is there until its time has come. -/
theorem acquire_granted {now ttl : Int} {key : Bytes}
    (granted : store.acquire now key ttl = (.ok (some lease), after)) :
    lease.key = key ∧ after.locks.lookup key = some ⟨lease.owner, now + nanoseconds ttl⟩ := by
  unfold acquire at granted
  split at granted
  · cases granted
  · split at granted
    · cases granted
    · cases granted
      exact ⟨rfl, AList.lookup_insert _⟩

/-- Until then its key is refused and other keys do not touch it. -/
theorem acquire_locked {now ttl : Int} {key other : Bytes}
    {result : Except Exception (Option LockLease)} {entry : LockEntry}
    (found : store.locks.lookup key = some entry) (early : now < entry.expiresAt)
    (acquired : store.acquire now other ttl = (result, after)) :
    after.locks.lookup key = some entry ∧ (other = key → ∀ lease, result ≠ .ok (some lease)) := by
  unfold acquire at acquired
  split at acquired
  · cases acquired
    exact ⟨found, fun _ _ => nofun⟩
  · split at acquired
    · cases acquired
      exact ⟨found, fun _ _ => nofun⟩
    · rename_i free
      have different : other ≠ key := by
        rintro rfl
        rw [found] at free
        exact free (decide_eq_true early)
      cases acquired
      exact ⟨(AList.lookup_insert_ne different.symm).trans found, fun same => absurd same different⟩

/-- Only its own lease releases a lock. -/
theorem release_locked {now : Int} {key : Bytes} {entry : LockEntry} {result : Bool}
    (found : store.locks.lookup key = some entry) (other : lease ≠ ⟨key, entry.owner⟩)
    (released : store.release now lease = (result, after)) :
    after.locks.lookup key = some entry := by
  unfold release at released
  split at released
  · cases released
    exact found
  · rename_i there present
    split at released
    · cases released
      exact found
    · rename_i owned
      cases released
      have different : key ≠ lease.key := by
        rintro rfl
        cases found.symm.trans present
        refine other ?_
        cases lease
        exact congrArg _ (not_not.mp owned).symm
      exact (AList.lookup_erase_ne different).trans found

end MemoryLockStore

/-! ## Keys -/

variable {first second : Bytes}

/-- A text is cut at a separator that its last part does not have. -/
theorem split_last {separator : UInt8} {one two : Bytes} (oneFree : separator ∉ one)
    (twoFree : separator ∉ two) (same : first ++ separator :: one = second ++ separator :: two) :
    first = second ∧ one = two := by
  rcases append_eq_append_iff.mp same with ⟨middle, longer, rest⟩ | ⟨middle, longer, rest⟩
  · cases middle with
    | nil => exact ⟨(append_nil first ▸ longer).symm, (cons.inj rest).2⟩
    | cons head tail =>
      refine absurd ?_ oneFree
      rw [(cons.inj rest).2]
      exact mem_append_right _ mem_cons_self
  · cases middle with
    | nil => exact ⟨append_nil second ▸ longer, (cons.inj rest).2.symm⟩
    | cons head tail =>
      refine absurd ?_ twoFree
      rw [(cons.inj rest).2]
      exact mem_append_right _ mem_cons_self

theorem not_mem_stdToString {character : UInt8} (other : ¬(48 ≤ character.toNat ∧ character.toNat ≤ 57))
    (value : Nat) : character ∉ stdToString value :=
  fun member => other (Decimal.mem_print_digit member)

theorem stdToString_injective : Function.Injective stdToString := by
  intro first second same
  have one := @Decimal.parse_print (max first second + 1) first (by omega)
  have two := @Decimal.parse_print (max first second + 1) second (by omega)
  have equal : Decimal.print first = Decimal.print second := same
  rw [equal] at one
  exact Option.some.inj (one.symm.trans two)

theorem stdToStringSigned_injective : Function.Injective stdToStringSigned := by
  have dash : ∀ {value other : Nat}, ascii "-" ++ stdToString value ≠ stdToString other := by
    intro value other same
    refine not_mem_stdToString (by decide : ¬(48 ≤ (45 : UInt8).toNat ∧ _)) other ?_
    rw [← same]
    exact mem_cons_self
  intro first second same
  unfold stdToStringSigned at same
  split at same
  · split at same
    · have equal := stdToString_injective (append_cancel_left same)
      omega
    · exact absurd same dash
  · split at same
    · exact absurd same.symm dash
    · have equal := stdToString_injective same
      omega

namespace Task

theorem Slot.colon_not_mem (slot : Slot) : (58 : UInt8) ∉ slot.text := by
  have plain : ∀ value, (58 : UInt8) ∉ stdToString value := not_mem_stdToString (by decide)
  have signed : ∀ value, (58 : UInt8) ∉ stdToStringSigned value := by
    intro value
    unfold stdToStringSigned
    split
    · exact fun member => (mem_append.mp member).elim (by decide) (plain _)
    · exact plain _
  have dash : (58 : UInt8) ∉ ascii "-" := by decide
  cases slot with
  | wall minute =>
    unfold text
    simp only [mem_append, not_or]
    exact ⟨⟨⟨⟨⟨⟨⟨⟨signed _, dash⟩, plain _⟩, dash⟩, plain _⟩, dash⟩, plain _⟩, dash⟩, plain _⟩
  | number index => exact signed _

theorem split_dash {one two : Nat}
    (same : first ++ ascii "-" ++ stdToString one = second ++ ascii "-" ++ stdToString two) :
    first = second ∧ one = two := by
  have free : ∀ value, (45 : UInt8) ∉ stdToString value := not_mem_stdToString (by decide)
  rw [append_assoc, append_assoc] at same
  obtain ⟨front, back⟩ := split_last (free one) (free two) same
  exact ⟨front, stdToString_injective back⟩

/-- The last number of a wall minute stands behind a dash that is not at the beginning. -/
theorem Slot.wall_ne_number (minute : WallMinute) (index : Int) :
    (Slot.wall minute).text ≠ (Slot.number index).text := by
  intro same
  have text : (Slot.number index).text =
      if index < 0 then ascii "-" ++ stdToString index.natAbs else stdToString index.natAbs := rfl
  rw [text] at same
  by_cases negative : index < 0
  · rw [if_pos negative] at same
    have split := (@split_dash _ [] _ _ same).1
    exact cons_ne_nil _ _ (append_eq_nil_iff.mp (append_eq_nil_iff.mp split).1).2
  · rw [if_neg negative] at same
    refine not_mem_stdToString (by decide : ¬(48 ≤ (45 : UInt8).toNat ∧ _)) index.natAbs ?_
    rw [← same]
    exact mem_append_left _ (mem_append_right _ mem_cons_self)

theorem Slot.text_injective : Function.Injective Slot.text := by
  intro first second same
  cases first with
  | wall one =>
    cases second with
    | wall two =>
      obtain ⟨same, minute⟩ := split_dash same
      obtain ⟨same, hour⟩ := split_dash same
      obtain ⟨same, day⟩ := split_dash same
      obtain ⟨same, month⟩ := split_dash same
      have year := stdToStringSigned_injective same
      cases one
      cases minute
      cases hour
      cases day
      cases month
      cases year
      rfl
    | number index => exact absurd same (wall_ne_number one index)
  | number index =>
    cases second with
    | wall two => exact absurd same.symm (wall_ne_number two index)
    | number other => exact congrArg _ (stdToStringSigned_injective same)

/-- The key says which task it is and which slot. -/
theorem occurrenceKey_injective {one two : Slot}
    (same : occurrenceKey first one = occurrenceKey second two) : first = second ∧ one = two := by
  unfold occurrenceKey at same
  rw [append_assoc, append_assoc, append_assoc, append_assoc] at same
  obtain ⟨name, slot⟩ := split_last (one.colon_not_mem) (two.colon_not_mem)
    (append_cancel_left same)
  exact ⟨name, Slot.text_injective slot⟩

theorem occurrenceKey_ne_overlap (name other : Bytes) (slot : Slot) :
    occurrenceKey name slot ≠ ascii "gungnir:scheduler:overlap:" ++ other := by
  intro same
  unfold occurrenceKey at same
  rw [append_assoc, append_assoc] at same
  have letters := congrArg (take 19) same
  rw [take_append_of_le_length (by decide), take_append_of_le_length (by decide)] at letters
  exact absurd letters (by decide)

end Task

end Gungnir.Scheduler
