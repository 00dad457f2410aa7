import Gungnir.Validation.Validator
import Mathlib.Data.List.TakeWhile

/-!
# What selecting writes

A place in a value is given by keys and by indices in their usual notation. Writing a
value at a place of the input changes what the output has there and nothing else.
-/

namespace Gungnir.Validation

open Gungnir.Core List
open Gungnir.Http (Json)

/-! ## Places -/

variable (json : Json)

/-- The value under a key or an index; null where there is none. -/
def child (key : Bytes) : Json :=
  match json with
  | .object entries => (entries.lookup key).getD .null
  | .array items =>
    match fromChars sizeBound key with
    | some index => if stdToString index = key then items.getD index .null else .null
    | none => .null
  | _ => .null

variable (place : Path)

def descend : Json := place.foldl child json

/-- The scalar at a place. -/
def leafAt : Option Json :=
  if (descend json place).isScalar then some (descend json place) else none

@[simp] theorem descend_nil (json : Json) : descend json [] = json := rfl

@[simp] theorem descend_cons (json : Json) (key : Bytes) (rest : Path) :
    descend json (key :: rest) = descend (child json key) rest := rfl

theorem descend_null : descend .null place = .null := by
  induction place with
  | nil => rfl
  | cons key rest ih => exact ih

theorem leafAt_cons (key : Bytes) (rest : Path) :
    leafAt json (key :: rest) = leafAt (child json key) rest := rfl

theorem leafAt_null : leafAt .null place = none := by
  rw [leafAt, descend_null]
  rfl

variable {key : Bytes} {rest : Path}

/-! ## Indices -/

variable {index : Nat}

theorem leadingIndex_of_fromChars (read : fromChars sizeBound key = some index) :
    leadingIndex key = index := by
  obtain ⟨_, digits, _⟩ := Library.Decimal.parse_eq_some read
  have whole : key.takeWhile isDigit = key := by
    refine takeWhile_eq_self_iff.mpr fun byte member => ?_
    obtain ⟨low, high⟩ := digits byte member
    simp only [isDigit, Bool.and_eq_true, decide_eq_true_eq, UInt8.le_iff_toNat_le]
    exact ⟨low, high⟩
  rw [leadingIndex, whole, read]
  rfl

theorem fromChars_stdToString (fits : index < sizeBound) :
    fromChars sizeBound (stdToString index) = some index :=
  Library.Decimal.parse_print fits

variable {items : List Json}

theorem child_array (fits : index < sizeBound) :
    child (.array items) (stdToString index) = items.getD index .null := by
  simp only [child, fromChars_stdToString fits, if_true]

theorem getD_resized (items : List Json) (index other : Nat) :
    (resized items index).getD other .null = items.getD other .null := by
  unfold resized
  simp only [getD_eq_getElem?_getD]
  by_cases inside : other < items.length
  · rw [getElem?_append_left inside]
  · rw [getElem?_append_right (Nat.le_of_not_lt inside),
      getElem?_eq_none (Nat.le_of_not_lt inside), getElem?_replicate]
    split <;> rfl

/-- Writing an element changes the array at its index only. -/
theorem child_set (fits : index < sizeBound) (value : Json) (key : Bytes) :
    child (.array ((resized items index).set index value)) key =
      if key = stdToString index then value else child (.array items) key := by
  split
  · rename_i same
    rw [same, child_array fits, getD_eq_getElem?_getD, getElem?_set_self]
    · rfl
    · unfold resized
      rw [length_append, length_replicate]
      omega
  · rename_i other
    unfold child
    cases read : fromChars sizeBound key with
    | none => rfl
    | some position =>
      dsimp only
      split
      · rename_i shown
        have apart : index ≠ position := fun same => other (by rw [same, shown])
        rw [getD_eq_getElem?_getD, getElem?_set_ne apart,
          ← getD_eq_getElem?_getD, getD_resized]
      · rfl

/-! ## Writing at a place -/

/-- The place exists, so every value above it is a container. -/
inductive Reaches : Json → Path → Prop where
  | here (json : Json) : Reaches json []
  | item {items : List Json} {index : Nat} {item : Json} {rest : Path} (fits : index < sizeBound)
      (found : items[index]? = some item) (further : Reaches item rest) :
      Reaches (.array items) (stdToString index :: rest)
  | entry {entries : List (Bytes × Json)} {key : Bytes} {value : Json} {rest : Path}
      (found : entries.lookup key = some value) (further : Reaches value rest) :
      Reaches (.object entries) (key :: rest)

/-- Containers of one kind, or the same scalar. -/
def SameKind (first second : Json) : Prop :=
  (first.isArray = true ∧ second.isArray = true) ∨
    (first.isObject = true ∧ second.isObject = true) ∨ (first.isScalar = true ∧ first = second)

/-- Where the output is not null, it is like the input. -/
def Fits (output input : Json) : Prop :=
  ∀ place, descend output place = .null ∨ SameKind (descend output place) (descend input place)

variable {output input : Json}

theorem Fits.child (fits : Fits output input) (key : Bytes) :
    Fits (child output key) (child input key) :=
  fun place => fits (key :: place)

theorem SameKind.refl {json : Json} (present : json ≠ .null) : SameKind json json := by
  cases json with
  | null => exact absurd rfl present
  | array items => exact .inl ⟨rfl, rfl⟩
  | object entries => exact .inr (.inl ⟨rfl, rfl⟩)
  | boolean value | int64 value | uint64 value | double bits | string value =>
    exact .inr (.inr ⟨rfl, rfl⟩)

theorem SameKind.eq_of_scalar {first second : Json} (alike : SameKind first second)
    (scalar : first.isScalar = true) : first = second := by
  rcases alike with ⟨isArray, _⟩ | ⟨isObject, _⟩ | ⟨_, same⟩
  · cases first <;> simp only [Json.isArray, Json.isScalar, Bool.false_eq_true] at isArray scalar
  · cases first <;> simp only [Json.isObject, Json.isScalar, Bool.false_eq_true] at isObject scalar
  · exact same

theorem Fits.refl : Fits json json := by
  intro place
  by_cases empty : descend json place = .null
  · exact .inl empty
  · exact .inr (.refl empty)

/-- The output at an array of the input has the elements that it is read with. -/
theorem Fits.outputArray (fits : Fits output (.array items)) (key : Bytes) :
    Validation.child output key = Validation.child (.array (outputArray output)) key := by
  rcases fits [] with empty | ⟨isArray, _⟩ | ⟨_, other⟩ | ⟨scalar, same⟩
  · rw [descend_nil] at empty
    subst empty
    unfold Validation.child Validation.outputArray
    cases fromChars sizeBound key with
    | none => rfl
    | some index => simp
  · cases output with
    | array elements => rfl
    | _ => cases isArray
  · cases other
  · rw [descend_nil, descend_nil] at same
    rw [descend_nil, same] at scalar
    cases scalar

theorem Fits.outputObject {entries : List (Bytes × Json)} (fits : Fits output (.object entries))
    (key : Bytes) :
    Validation.child output key = ((outputObject output).lookup key).getD .null := by
  rcases fits [] with empty | ⟨_, other⟩ | ⟨isObject, _⟩ | ⟨scalar, same⟩
  · subst empty
    rfl
  · cases other
  · rw [descend_nil] at isObject
    cases output with
    | object members => rfl
    | _ => cases isObject
  · rw [descend_nil, descend_nil] at same
    rw [descend_nil, same] at scalar
    cases scalar

section

variable (reaches : Reaches input (key :: rest))
include reaches

/-- One step of writing: the child on the way is written, the others stay. -/
theorem child_selectPath (fits : Fits output input) (value : Json) (other : Bytes) :
    child (selectPath output input (key :: rest) value) other =
      if other = key then selectPath (child output key) (child input key) rest value
      else child output other := by
  cases reaches with
  | @item items index item _ inside found further =>
    have read := leadingIndex_of_fromChars (fromChars_stdToString inside)
    have here : child (.array items) (stdToString index) = item := by
      rw [child_array inside, getD_eq_getElem?_getD, found]
      rfl
    simp only [selectPath, read, found, here]
    rw [child_set inside, fits.outputArray other, fits.outputArray (stdToString index),
      child_array inside, getD_resized]
  | @entry entries _ member _ found further =>
    have here : child (.object entries) key = member := by
      simp only [child, found, Option.getD_some]
    simp only [selectPath, here, Json.get, found, Option.getD_some]
    unfold child
    dsimp only
    rw [Json.lookup_assign, ← fits.outputObject key]
    split
    · rfl
    · exact (fits.outputObject other).symm

theorem isScalar_selectPath (value : Json) :
    (selectPath output input (key :: rest) value).isScalar = false ∧
      SameKind (selectPath output input (key :: rest) value) input := by
  cases reaches with
  | @item items index item _ inside found further =>
    have read := leadingIndex_of_fromChars (fromChars_stdToString inside)
    simp only [selectPath, read, found]
    exact ⟨rfl, .inl ⟨rfl, rfl⟩⟩
  | entry found further => exact ⟨rfl, .inr (.inl ⟨rfl, rfl⟩)⟩

theorem Reaches.container : input.isScalar = false := by
  cases reaches <;> rfl

theorem Reaches.tail : Reaches (child input key) rest := by
  cases reaches with
  | @item items index item _ inside found further =>
    rw [child_array inside, getD_eq_getElem?_getD, found]
    exact further
  | @entry entries _ member _ found further =>
    simp only [child, found, Option.getD_some]
    exact further

end

/-- At the places behind the written one there is the new value, elsewhere the old. -/
theorem leafAt_selectPath {place : Path} (reaches : Reaches input place) (fits : Fits output input)
    (value : Json) (other : Path) :
    leafAt (selectPath output input place value) other =
      if place.isPrefixOf other then leafAt value (other.drop place.length)
      else leafAt output other := by
  induction place generalizing output input other with
  | nil =>
    cases input <;> rfl
  | cons key rest ih =>
    cases other with
    | nil =>
      have scalar : output.isScalar = false := by
        rcases fits [] with empty | alike
        · rw [descend_nil] at empty
          rw [empty]
          rfl
        · by_contra isScalar
          rw [Bool.not_eq_false] at isScalar
          have same : output = input := alike.eq_of_scalar isScalar
          rw [same, reaches.container] at isScalar
          cases isScalar
      simp only [leafAt, descend_nil, (isScalar_selectPath reaches value).1, scalar]
      rfl
    | cons first others =>
      rw [leafAt_cons, child_selectPath reaches fits]
      by_cases same : first = key
      · subst same
        rw [if_pos rfl, ih reaches.tail (fits.child first)]
        simp only [isPrefixOf_cons_cons, beq_self_eq_true, Bool.true_and, length_cons,
          drop_succ_cons, leafAt_cons]
      · have differs : (key == first) = false := by
          simpa using fun equal : key = first => same equal.symm
        rw [if_neg same]
        simp only [isPrefixOf_cons_cons, differs, Bool.false_and, leafAt_cons]
        rfl

theorem fits_selectPath {place : Path} (reaches : Reaches input place) (fits : Fits output input)
    {value : Json} (valueFits : Fits value (descend input place)) :
    Fits (selectPath output input place value) input := by
  induction place generalizing output input with
  | nil =>
    exact valueFits
  | cons key rest ih =>
    intro other
    cases other with
    | nil => exact .inr (isScalar_selectPath reaches value).2
    | cons first others =>
      rw [descend_cons, descend_cons, child_selectPath reaches fits]
      split
      · rename_i same
        subst same
        exact ih reaches.tail (fits.child first) valueFits others
      · exact fits (first :: others)

end Gungnir.Validation
