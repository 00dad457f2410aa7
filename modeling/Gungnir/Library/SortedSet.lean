import Mathlib.Data.List.AList
import Mathlib.Data.List.Sort

/-!
# Hashes and sorted sets

A hash is an association list with distinct keys. A sorted set gives each member
one integer score and is read in the order of scores, members of equal score in
their own order.
-/

namespace Gungnir.Library

abbrev Hash (κ ν : Type*) := AList fun _ : κ => ν

abbrev SortedSet (κ : Type*) := Hash κ Int

namespace SortedSet

variable {κ : Type*} [LE κ]

def Before (first second : Σ _ : κ, Int) : Prop :=
  first.2 < second.2 ∨ first.2 = second.2 ∧ first.1 ≤ second.1

instance [DecidableLE κ] : DecidableRel (@Before κ _) := fun _ _ =>
  inferInstanceAs (Decidable (_ ∨ _))

/-- `ZRANGEBYSCORE set -inf maximum`. -/
def rangeByScore [DecidableLE κ] (set : SortedSet κ) (maximum : Int) : List κ :=
  ((set.entries.filter fun entry => entry.2 ≤ maximum).insertionSort Before).map Sigma.fst

variable [DecidableLE κ] [DecidableEq κ]

theorem mem_rangeByScore {set : SortedSet κ} {maximum : Int} {member : κ} :
    member ∈ rangeByScore set maximum ↔
      ∃ score, set.lookup member = some score ∧ score ≤ maximum := by
  simp only [rangeByScore, List.mem_map, List.mem_insertionSort, List.mem_filter,
    decide_eq_true_eq]
  constructor
  · rintro ⟨⟨key, score⟩, ⟨entry, low⟩, rfl⟩
    exact ⟨score, AList.mem_lookup_iff.mpr entry, low⟩
  · rintro ⟨score, found, low⟩
    exact ⟨⟨member, score⟩, ⟨AList.mem_lookup_iff.mp found, low⟩, rfl⟩

omit [DecidableEq κ] in
theorem nodup_rangeByScore (set : SortedSet κ) (maximum : Int) :
    (rangeByScore set maximum).Nodup := by
  have sorted := (List.perm_insertionSort Before
    (set.entries.filter fun entry => entry.2 ≤ maximum)).map Sigma.fst
  refine sorted.nodup_iff.mpr ?_
  exact List.Nodup.sublist (List.Sublist.map _ List.filter_sublist) set.keys_nodup

end SortedSet

namespace Hash

variable {κ ν : Type*} [DecidableEq κ]

theorem mem_iff_lookup {hash : Hash κ ν} {key : κ} :
    key ∈ hash ↔ ∃ value, hash.lookup key = some value := by
  rw [← AList.lookup_isSome, Option.isSome_iff_exists]

theorem lookup_insert_of {hash : Hash κ ν} {key other : κ} {value : ν} :
    (hash.insert key value).lookup other = if other = key then some value else hash.lookup other := by
  split
  · rename_i same
    subst same
    exact AList.lookup_insert hash
  · rename_i different
    exact AList.lookup_insert_ne different

theorem lookup_erase_of {hash : Hash κ ν} {key other : κ} :
    (hash.erase key).lookup other = if other = key then none else hash.lookup other := by
  split
  · rename_i same
    subst same
    exact AList.lookup_erase other hash
  · rename_i different
    exact AList.lookup_erase_ne different

end Hash

end Gungnir.Library
