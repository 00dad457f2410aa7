import Mathlib.Data.List.Infix

/-!
# First occurrence of a word in a text

The search returns the position of the first occurrence. An occurrence that ends
inside an initial part of the text is found in that part, so a search that
succeeds is not changed by what follows the text.
-/

namespace Gungnir.Library

open List

variable {α : Type*} [DecidableEq α]

def find (needle : List α) : List α → Option Nat
  | [] => if needle = [] then some 0 else none
  | first :: rest =>
    if needle.isPrefixOf (first :: rest) then some 0
    else (find needle rest).map (· + 1)

/-- The text cut at every occurrence of a separator; no piece is produced after a
separator that ends the text. Each piece takes one unit of fuel. -/
def piecesFuel (separator : List α) : Nat → List α → List (List α)
  | 0, _ => []
  | fuel + 1, text =>
    if text = [] then []
    else
      match find separator text with
      | none => [text]
      | some position =>
        text.take position ::
          piecesFuel separator fuel (text.drop (position + separator.length))

def pieces (separator text : List α) : List (List α) :=
  piecesFuel separator text.length text

variable {needle text suffix : List α} {position : Nat}

theorem find_cons (first : α) (rest : List α) :
    find needle (first :: rest) =
      if needle.isPrefixOf (first :: rest) then some 0 else (find needle rest).map (· + 1) := rfl

/-- The position is that of an occurrence, and there is none before it. -/
theorem find_eq_some_iff : find needle text = some position ↔ position ≤ text.length ∧
    needle <+: text.drop position ∧ ∀ earlier < position, ¬ needle <+: text.drop earlier := by
  induction text generalizing position with
  | nil =>
    simp only [find, Option.ite_none_right_eq_some, Option.some.injEq, drop_nil, prefix_nil,
      length_nil, Nat.le_zero]
    constructor
    · rintro ⟨empty, rfl⟩
      exact ⟨rfl, empty, fun _ impossible => absurd impossible (Nat.not_lt_zero _)⟩
    · rintro ⟨rfl, empty, _⟩
      exact ⟨empty, rfl⟩
  | cons first rest ih =>
    simp only [find_cons, isPrefixOf_iff_prefix]
    cases position with
    | zero => simp
    | succ position =>
      rw [Nat.forall_lt_succ_left, drop_zero, drop_succ_cons, length_cons,
        Nat.add_le_add_iff_right]
      by_cases here : needle <+: first :: rest
      · simp [here]
      · simp [here, ih]

theorem find_le_length (found : find needle text = some position) :
    position + needle.length ≤ text.length := by
  obtain ⟨inside, starts, _⟩ := find_eq_some_iff.mp found
  have short := starts.length_le
  rw [length_drop] at short
  omega

/-- An occurrence that ends inside a text is found in the text and in every longer one. -/
theorem find_append_iff (inside : position + needle.length ≤ text.length) :
    find needle (text ++ suffix) = some position ↔ find needle text = some position := by
  have starts : ∀ place, place ≤ position →
      (needle <+: (text ++ suffix).drop place ↔ needle <+: text.drop place) := by
    intro place before
    have long : needle.length ≤ (text.drop place).length := by
      rw [length_drop]
      omega
    rw [drop_append_of_le_length (by omega)]
    exact ⟨fun here => prefix_of_prefix_length_le here (prefix_append _ _) long,
      fun here => here.trans (prefix_append _ _)⟩
  rw [find_eq_some_iff, find_eq_some_iff, starts position (Nat.le_refl _), length_append]
  refine and_congr (by omega) (and_congr_right fun _ => forall₂_congr fun earlier before => ?_)
  rw [starts earlier (Nat.le_of_lt before)]

theorem find_append (found : find needle text = some position) :
    find needle (text ++ suffix) = some position :=
  (find_append_iff (find_le_length found)).mpr found

theorem find_of_append (found : find needle (text ++ suffix) = some position)
    (inside : position + needle.length ≤ text.length) : find needle text = some position :=
  (find_append_iff inside).mp found

theorem find_take {count : Nat} (found : find needle text = some position)
    (inside : position + needle.length ≤ count) : find needle (text.take count) = some position := by
  have fits := find_le_length found
  have whole : find needle (text.take count ++ text.drop count) = some position := by
    rw [take_append_drop]
    exact found
  apply find_of_append whole
  rw [length_take]
  omega

/-! ## One mark -/

variable {mark : α}

theorem find_mark {before : List α} (absent : mark ∉ before) (after : List α) :
    find [mark] (before ++ mark :: after) = some before.length := by
  induction before with
  | nil => simp [find_cons]
  | cons first rest ih =>
    obtain ⟨other, later⟩ := not_or.mp (mt mem_cons.mpr absent)
    simp [find_cons, ih later, other]

theorem find_absent {text : List α} (absent : mark ∉ text) : find [mark] text = none := by
  induction text with
  | nil => rfl
  | cons first rest ih =>
    obtain ⟨other, later⟩ := not_or.mp (mt mem_cons.mpr absent)
    simp [find_cons, ih later, other]

theorem notMem_of_find (absent : find [mark] text = none) : mark ∉ text := by
  intro member
  obtain ⟨before, after, rfl, free⟩ := eq_append_cons_of_mem member
  rw [find_mark free] at absent
  cases absent

theorem split_of_find (found : find [mark] text = some position) :
    mark ∉ text.take position ∧
      text = text.take position ++ mark :: text.drop (position + 1) := by
  by_cases member : mark ∈ text
  · obtain ⟨before, after, rfl, free⟩ := eq_append_cons_of_mem member
    rw [find_mark free] at found
    cases found
    simp [free]
  · rw [find_absent member] at found
    cases found

end Gungnir.Library
