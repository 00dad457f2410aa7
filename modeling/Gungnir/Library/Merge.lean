import Mathlib.Data.List.Lemmas

/-!
# Merging rows into a table

A given row meets the rows of a table that it replaces. Rows are put one after the other,
or merged all at once; the two agree if no two given rows meet the same row.
-/

namespace Gungnir.Library.Merge

open List

variable {ρ ν : Type}

section Rows

variable (meets : ν → ρ → Bool) (make : ν → ρ) (change : ν → ρ → ρ)

/-- Changes the rows that one given row meets, and adds a row if there is none. -/
def put (table : List ρ) (given : ν) : List ρ :=
  if table.any (meets given) then
    table.map fun old => if meets given old then change given old else old
  else table ++ [make given]

def merged (given : List ν) (old : ρ) : ρ :=
  match given.find? (meets · old) with
  | some new => change new old
  | none => old

/-- Changes every row that some given row meets, and adds the given rows that meet none. -/
def merge (table : List ρ) (given : List ν) : List ρ :=
  table.map (merged meets change given) ++
    (given.filter fun new => !table.any (meets new)).map make

/-- No two of the given rows meet the same row, and a change keeps what a row is met by. -/
structure Apart (given : List ν) : Prop where
  once : given.Pairwise fun first second => ∀ old, meets first old → meets second old = false
  made : given.Pairwise fun first second => meets second (make first) = false
  kept : ∀ new ∈ given, ∀ other ∈ given, ∀ old, meets new old →
    meets other (change new old) = meets other old

end Rows

section Agreement

variable {meets : ν → ρ → Bool} {make : ν → ρ} {change : ν → ρ → ρ} {new : ν} {rest : List ν}

theorem Apart.tail (apart : Apart meets make change (new :: rest)) : Apart meets make change rest :=
  ⟨(pairwise_cons.mp apart.once).2, (pairwise_cons.mp apart.made).2,
    fun first inRest second inRest' =>
      apart.kept first (mem_cons_of_mem _ inRest) second (mem_cons_of_mem _ inRest')⟩

theorem merged_cons_of_meets {old : ρ} (met : meets new old = true) :
    merged meets change (new :: rest) old = change new old := by
  have found : (new :: rest).find? (meets · old) = some new := find?_cons_of_pos met
  rw [merged, found]

theorem merged_cons_of_not {old : ρ} (unmet : meets new old = false) :
    merged meets change (new :: rest) old = merged meets change rest old := by
  have found : (new :: rest).find? (meets · old) = rest.find? (meets · old) :=
    find?_cons_of_neg (by rw [unmet]; exact Bool.false_ne_true)
  rw [merged, found, merged]

variable {given : List ν}

theorem merged_of_unmet {old : ρ} (unmet : ∀ new ∈ given, meets new old = false) :
    merged meets change given old = old := by
  have none : given.find? (meets · old) = none :=
    find?_eq_none.mpr fun new member => by rw [unmet new member]; exact Bool.false_ne_true
  rw [merged, none]

/-- A changed row is met by what met it before. -/
theorem meets_change {other : ν}
    (kept : ∀ old, meets new old → meets other (change new old) = meets other old) (old : ρ) :
    meets other (if meets new old then change new old else old) = meets other old := by
  split
  · rename_i met
    exact kept old met
  · rfl

theorem any_map_change {other : ν} (table : List ρ)
    (kept : ∀ old, meets new old → meets other (change new old) = meets other old) :
    (table.map fun old => if meets new old then change new old else old).any (meets other) =
      table.any (meets other) := by
  rw [any_map]
  congr 1
  exact funext (meets_change kept)

/-- Putting one row first does not change what a merge of all rows gives. -/
theorem merge_put (apart : Apart meets make change (new :: rest)) (table : List ρ) :
    merge meets make change (put meets make change table new) rest =
      merge meets make change table (new :: rest) := by
  have once := (pairwise_cons.mp apart.once).1
  have made := (pairwise_cons.mp apart.made).1
  unfold merge put
  by_cases met : table.any (meets new) = true
  · have inner : ∀ old, merged meets change rest (if meets new old then change new old else old) =
        merged meets change (new :: rest) old := by
      intro old
      split
      · rename_i here
        rw [merged_cons_of_meets here]
        apply merged_of_unmet
        intro other member
        rw [apart.kept new mem_cons_self other (mem_cons_of_mem _ member) old here]
        exact once other member old here
      · rename_i away
        exact (merged_cons_of_not (Bool.eq_false_of_not_eq_true away)).symm
    have added : (rest.filter fun other =>
        !(table.map fun old => if meets new old then change new old else old).any (meets other)) =
        rest.filter fun other => !table.any (meets other) := by
      apply filter_congr
      intro other member
      rw [any_map_change table
        (apart.kept new mem_cons_self other (mem_cons_of_mem _ member))]
    rw [if_pos met, map_map, filter_cons_of_neg (by simp [met]), added]
    congr 1
    exact map_congr_left fun old _ => inner old
  · have unmet : ∀ old ∈ table, meets new old = false := by
      intro old member
      exact Bool.eq_false_of_not_eq_true fun here => met (any_eq_true.mpr ⟨old, member, here⟩)
    have added : (rest.filter fun other => !(table ++ [make new]).any (meets other)) =
        rest.filter fun other => !table.any (meets other) := by
      apply filter_congr
      intro other member
      rw [any_append, any_cons, made other member, any_nil, Bool.or_false,
        Bool.or_false]
    rw [if_neg met, filter_cons_of_pos (by simp [met]), added, map_append,
      map_cons, map_nil, map_cons, merged_of_unmet made, append_assoc,
      singleton_append]
    congr 1
    exact map_congr_left fun old member => (merged_cons_of_not (unmet old member)).symm

theorem foldl_put (apart : Apart meets make change given) (table : List ρ) :
    given.foldl (put meets make change) table = merge meets make change table given := by
  induction given generalizing table with
  | nil =>
    have same : merged meets change ([] : List ν) = id := funext fun old => rfl
    rw [foldl_nil, merge, same, map_id, filter_nil, map_nil, append_nil]
  | cons new rest ih => rw [foldl_cons, ih apart.tail, merge_put apart]

end Agreement

/-! ## One row at a time -/

/-- Changes the first row that a given row meets, if the change is allowed, and adds a row
if there is none. -/
def putFirst (meets : ν → ρ → Bool) (make : ν → ρ) (change : ν → ρ → Option ρ) :
    List ρ → ν → Option (List ρ)
  | [], given => some [make given]
  | old :: rest, given =>
    if meets given old then (change given old).map (· :: rest)
    else (putFirst meets make change rest given).map (old :: ·)

/-- No two rows of the table are met. -/
def Single (meets : ν → ρ → Bool) (table : List ρ) (given : ν) : Prop :=
  table.Pairwise fun first second => meets given first → meets given second = false

section First

variable {meets : ν → ρ → Bool} {make : ν → ρ} {change : ν → ρ → ρ} {change? : ν → ρ → Option ρ}
  {table : List ρ}

theorem map_unmet {given : ν} (unmet : ∀ old ∈ table, meets given old = false) :
    (table.map fun old => if meets given old then change given old else old) = table := by
  rw [map_congr_left (g := id), map_id]
  intro old member
  rw [unmet old member]
  rfl

theorem putFirst_eq_put {given : ν} (single : Single meets table given)
    (allowed : ∀ old, meets given old → change? given old = some (change given old)) :
    putFirst meets make change? table given = some (put meets make change table given) := by
  induction table with
  | nil => rfl
  | cons old rest ih =>
    obtain ⟨others, single⟩ := pairwise_cons.mp single
    unfold put
    rw [putFirst, any_cons, map_cons]
    by_cases met : meets given old = true
    · rw [if_pos met, met, Bool.true_or, if_pos rfl, if_pos rfl, allowed old met,
        map_unmet fun other member => others other member met]
      rfl
    · rw [if_neg met, if_neg met, Bool.eq_false_of_not_eq_true met, Bool.false_or, ih single,
        Option.map_some, put]
      congr 1
      split <;> rfl

theorem single_put {new other : ν} (single : Single meets table other)
    (made : meets other (make new) = false)
    (kept : ∀ old, meets new old → meets other (change new old) = meets other old) :
    Single meets (put meets make change table new) other := by
  unfold put
  split
  · apply pairwise_map.mpr
    simp only [meets_change kept]
    exact single
  · apply pairwise_append.mpr ⟨single, pairwise_singleton _ _, ?_⟩
    intro first _ second isMade _
    rw [mem_singleton.mp isMade]
    exact made

theorem foldlM_putFirst {given : List ν} (apart : Apart meets make change given)
    (allowed : ∀ new ∈ given, ∀ old, meets new old → change? new old = some (change new old))
    (single : ∀ new ∈ given, Single meets table new) :
    given.foldlM (putFirst meets make change?) table = some (merge meets make change table given) := by
  rw [← foldl_put apart]
  induction given generalizing table with
  | nil => rfl
  | cons new rest ih =>
    rw [foldlM_cons, putFirst_eq_put (single new mem_cons_self)
      (allowed new mem_cons_self)]
    apply ih apart.tail (forall_mem_cons.mp allowed).2
    intro other member
    exact single_put (single other (mem_cons_of_mem _ member))
      ((pairwise_cons.mp apart.made).1 other member)
      (apart.kept new mem_cons_self other (mem_cons_of_mem _ member))

end First

/-! ## Other given rows -/

section Given

variable {ι : Type} {meets : ν → ρ → Bool} {make : ν → ρ} {change : ν → ρ → ρ}

theorem merge_map (image : ι → ν) (table : List ρ) (given : List ι) :
    merge meets make change table (given.map image) =
      merge (meets ∘ image) (make ∘ image) (change ∘ image) table given := by
  have same : merged meets change (given.map image) =
      merged (meets ∘ image) (change ∘ image) given := by
    funext old
    unfold merged
    rw [find?_map]
    cases found : given.find? ((meets · old) ∘ image) with
    | none =>
      have others : given.find? (fun item => (meets ∘ image) item old) = none := found
      rw [others]
      rfl
    | some item =>
      have others : given.find? (fun item => (meets ∘ image) item old) = some item := found
      rw [others]
      rfl
  unfold merge
  rw [same, filter_map, map_map]
  rfl

theorem putFirst_image (image : ι → ν) (change? : ν → ρ → Option ρ) (table : List ρ) (item : ι) :
    putFirst meets make change? table (image item) =
      putFirst (meets ∘ image) (make ∘ image) (change? ∘ image) table item := by
  induction table with
  | nil => rfl
  | cons old rest ih =>
    rw [putFirst, putFirst, ih]
    rfl

variable {other : ν → ρ → Bool} {make' : ν → ρ}

theorem putFirst_congr {new : ν} (meeting : other new = meets new) (making : make' new = make new)
    (change? : ν → ρ → Option ρ) (table : List ρ) :
    putFirst other make' change? table new = putFirst meets make change? table new := by
  induction table with
  | nil => rw [putFirst, putFirst, making]
  | cons old rest ih => rw [putFirst, putFirst, meeting, ih]

theorem foldlM_congr {step step' : List ρ → ν → Option (List ρ)} {given : List ν}
    (same : ∀ new ∈ given, ∀ table, step table new = step' table new) (table : List ρ) :
    given.foldlM step table = given.foldlM step' table := by
  induction given generalizing table with
  | nil => rfl
  | cons new rest ih =>
    rw [foldlM_cons, foldlM_cons, same new mem_cons_self]
    congr 1
    funext middle
    exact ih (forall_mem_cons.mp same).2 middle

theorem merge_congr {change' : ν → ρ → ρ} {given : List ν}
    (changing : ∀ new ∈ given, ∀ old, meets new old → change' new old = change new old)
    (table : List ρ) : merge meets make change' table given = merge meets make change table given := by
  unfold merge
  congr 1
  apply map_congr_left
  intro old _
  unfold merged
  cases first : given.find? (meets · old) with
  | none => rfl
  | some new =>
    have met := @find?_some _ (meets · old) _ _ first
    exact changing new (mem_of_find?_eq_some first) old met

end Given

end Gungnir.Library.Merge
