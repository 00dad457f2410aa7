import Mathlib.Data.List.AList
import Mathlib.Order.Lattice

/-!
# Entries that expire

An entry may carry the time from which it is no longer there. A map of such entries can
keep an entry past that time; what a reader sees of the map at a given time is the same.
-/

namespace Gungnir.Library

structure Expiring (τ α : Type*) where
  value : α
  expiresAt : Option τ
  deriving DecidableEq, Repr

namespace Expiring

variable {τ α κ : Type*} [LinearOrder τ]

def live (now : τ) (entry : Expiring τ α) : Bool := entry.expiresAt.all fun expiry => now < expiry

/-- What is seen of an entry at the given time. -/
def visible (now : τ) (found : Option (Expiring τ α)) : Option (Expiring τ α) :=
  found.filter (live now)

@[simp] theorem visible_none (now : τ) : visible now (none : Option (Expiring τ α)) = none := rfl

variable {now : τ} {entry : Expiring τ α}

theorem visible_of_live (alive : entry.live now = true) : visible now (some entry) = some entry :=
  if_pos alive

theorem visible_of_expired (expired : entry.live now = false) : visible now (some entry) = none :=
  if_neg (Bool.not_eq_true _ ▸ expired)

theorem live_until {expiry : τ} {value : α} :
    live now ⟨value, some expiry⟩ = decide (now < expiry) := rfl

/-- The expiry test as a reader of the map writes it. -/
theorem any_le_eq (now : τ) (entry : Expiring τ α) :
    (entry.expiresAt.any fun expiry => expiry ≤ now) = !entry.live now := by
  obtain ⟨value, expiresAt⟩ := entry
  cases expiresAt with
  | none => rfl
  | some expiry =>
    show decide (expiry ≤ now) = !decide (now < expiry)
    rw [← decide_not]
    exact decide_eq_decide.mpr not_lt.symm

theorem live_of_le {earlier : τ} (later : earlier ≤ now) (alive : entry.live now = true) :
    entry.live earlier = true := by
  obtain ⟨value, expiresAt⟩ := entry
  cases expiresAt with
  | none => rfl
  | some expiry =>
    rw [live_until, decide_eq_true_iff] at alive ⊢
    exact lt_of_le_of_lt later alive

/-- What is seen later depends only on what is seen now. -/
theorem visible_visible {earlier : τ} (later : earlier ≤ now) (found : Option (Expiring τ α)) :
    visible now (visible earlier found) = visible now found := by
  cases found with
  | none => rfl
  | some entry =>
    cases early : entry.live earlier with
    | true => rw [visible_of_live early]
    | false =>
      have late : entry.live now = false := by
        rw [← Bool.not_eq_true] at early ⊢
        exact fun alive => early (live_of_le later alive)
      rw [visible_of_expired early, visible_of_expired late, visible_none]

/-! ## Maps -/

variable [DecidableEq κ]

abbrev Entries (κ τ α : Type*) := AList fun _ : κ => Expiring τ α

/-- The entry that a reader finds at the given time. -/
def seen (now : τ) (entries : Entries κ τ α) (key : κ) : Option (Expiring τ α) :=
  visible now (entries.lookup key)

theorem seen_insert (now : τ) (entries : Entries κ τ α) (key other : κ) (entry : Expiring τ α) :
    seen now (entries.insert key entry) other =
      if other = key then visible now (some entry) else seen now entries other := by
  unfold seen
  split
  · rename_i same
    rw [same, AList.lookup_insert]
  · rename_i differs
    rw [AList.lookup_insert_ne differs]

theorem seen_erase (now : τ) (entries : Entries κ τ α) (key other : κ) :
    seen now (entries.erase key) other = if other = key then none else seen now entries other := by
  unfold seen
  split
  · rename_i same
    rw [same, AList.lookup_erase, visible_none]
  · rename_i differs
    rw [AList.lookup_erase_ne differs]

theorem visible_seen {earlier : τ} (later : earlier ≤ now) (entries : Entries κ τ α) (key : κ) :
    visible now (seen earlier entries key) = seen now entries key :=
  visible_visible later _

end Expiring

end Gungnir.Library
