import Gungnir.Validation.Selection
import Gungnir.Library.Fallible

/-!
# What the returned values contain

Every scalar of the returned values is the scalar of the input at its place, and it
comes from an entry whose rules passed. The last value written at or above a place
decides what the place has.
-/

namespace Gungnir.Validation

open Gungnir.Core Gungnir.Library List
open Gungnir.Http (Json)

/-! ## The place of a path -/

/-- The path with its indices in their usual notation. -/
def resolve : Json → Path → Path
  | _, [] => []
  | .array items, key :: rest =>
    stdToString (leadingIndex key) :: resolve ((items[leadingIndex key]?).getD .null) rest
  | input, key :: rest => key :: resolve ((input.get key).getD .null) rest

/-- A part that is no index, or an index without superfluous zeros. -/
def isCanonical (key : Bytes) : Bool :=
  match fromChars sizeBound key with
  | some index => stdToString index == key
  | none => true

variable {input : Json} {path : Path} {value : Json}

theorem resolve_spec (found : atPath input path = some value) :
    Reaches input (resolve input path) ∧ descend input (resolve input path) = value ∧
      (∀ output new,
        selectPath output input path new = selectPath output input (resolve input path) new) ∧
      ((∀ key ∈ path, isCanonical key = true) → resolve input path = path) := by
  induction path generalizing input with
  | nil =>
    cases found
    cases value <;> exact ⟨.here _, rfl, fun _ _ => rfl, fun _ => rfl⟩
  | cons key rest ih =>
    obtain ⟨next, stepped, further⟩ := Option.bind_eq_some_iff.mp found
    obtain ⟨reaches, reached, written, straight⟩ := ih further
    cases input with
    | array items =>
      obtain ⟨index, read, item⟩ := Option.bind_eq_some_iff.mp stepped
      have inside := (Library.Decimal.parse_eq_some read).2.2
      have leading := leadingIndex_of_fromChars read
      have again := leadingIndex_of_fromChars (fromChars_stdToString inside)
      have path : resolve (.array items) (key :: rest) =
          stdToString index :: resolve next rest := by
        simp only [resolve, leading, item, Option.getD_some]
      rw [path]
      refine ⟨.item inside item reaches, ?_, fun output new => ?_, fun canonical => ?_⟩
      · rw [descend_cons, child_array inside, getD_eq_getElem?_getD, item]
        exact reached
      · simp only [selectPath, leading, again, item, written]
      · obtain ⟨shown, others⟩ := forall_mem_cons.mp canonical
        simp only [isCanonical, read, beq_iff_eq] at shown
        rw [shown, straight others]
    | object entries =>
      have here : entries.lookup key = some next := stepped
      have path : resolve (.object entries) (key :: rest) = key :: resolve next rest := by
        simp only [resolve, Json.get, here, Option.getD_some]
      rw [path]
      refine ⟨.entry here reaches, ?_, fun output new => ?_, fun canonical => ?_⟩
      · simp only [descend_cons, child, here, Option.getD_some]
        exact reached
      · simp only [selectPath, Json.get, here, Option.getD_some, written]
      · rw [straight (forall_mem_cons.mp canonical).2]
    | null | boolean _ | int64 _ | uint64 _ | double _ | string _ => cases stepped

variable {output : Json}

theorem Fits.leafAt_eq {leaf : Json} (fits : Fits output input) {place : Path}
    (found : leafAt output place = some leaf) : leafAt input place = some leaf := by
  unfold leafAt at found ⊢
  split at found
  · rename_i scalar
    cases found
    rcases fits place with empty | alike
    · rw [empty] at scalar
      cases scalar
    · rw [← alike.eq_of_scalar scalar, if_pos scalar]
  · cases found

/-! ## What is put together -/

/-- Values to be written: each stands for a value of the input at its path. -/
def Consistent (input : Json) (items : List (Path × Json)) : Prop :=
  ∀ item ∈ items, ∃ value, atPath input item.1 = some value ∧ Fits item.2 value

theorem fits_put (found : atPath input path = some value) {new : Json} (fits : Fits output input)
    (newFits : Fits new value) : Fits (selectPath output input path new) input := by
  obtain ⟨reaches, reached, written, _⟩ := resolve_spec found
  rw [written]
  exact fits_selectPath reaches fits (reached.symm ▸ newFits)

variable {items : List (Path × Json)}

theorem fits_foldl (consistent : Consistent input items) (fits : Fits output input) :
    Fits (items.foldl (fun output item => selectPath output input item.1 item.2) output) input := by
  induction items generalizing output with
  | nil => exact fits
  | cons item rest ih =>
    obtain ⟨value, found, valueFits⟩ := consistent item mem_cons_self
    exact ih (forall_mem_cons.mp consistent).2
      (fits_put found fits valueFits)

/-- The last value that was written at or above a place decides. -/
theorem leafAt_foldl (consistent : Consistent input items) (fits : Fits output input)
    (place : Path) :
    leafAt (items.foldl (fun output item => selectPath output input item.1 item.2) output) place =
      match items.reverse.find? (fun item => (resolve input item.1).isPrefixOf place) with
      | some item => leafAt item.2 (place.drop (resolve input item.1).length)
      | none => leafAt output place := by
  induction items generalizing output with
  | nil => rfl
  | cons item rest ih =>
    obtain ⟨value, found, valueFits⟩ := consistent item mem_cons_self
    obtain ⟨reaches, reached, written, _⟩ := resolve_spec found
    have others : Consistent input rest :=
      (forall_mem_cons.mp consistent).2
    rw [foldl_cons, ih others (fits_put found fits valueFits), reverse_cons, find?_append]
    cases later : rest.reverse.find? (fun item => (resolve input item.1).isPrefixOf place) with
    | some last => rfl
    | none =>
      rw [Option.none_or, written, leafAt_selectPath reaches fits]
      by_cases inside : (resolve input item.1).isPrefixOf place = true
      · simp only [inside, if_true, find?_cons]
      · simp only [inside, find?_cons, find?_nil]
        rfl

/-! ## What an entry selects -/

/-- A run of the loop without messages has passed every test. -/
theorem Subject.passes_of_failures {subject : Subject} {rules : List ParsedRule}
    (none : subject.failures rules = .ok []) :
    ∀ rule ∈ rules, rule.name ∈ controlNames ∨ subject.passes rule = .ok true := by
  induction rules with
  | nil => exact nofun
  | cons first rest ih =>
    unfold Subject.failures at none
    intro rule member
    split at none
    · rename_i control
      rcases mem_cons.mp member with rfl | later
      · exact .inl control
      · exact ih none rule later
    · obtain ⟨passed, tested, none⟩ := bind_eq_ok.mp none
      cases passed with
      | true =>
        rcases mem_cons.mp member with rfl | later
        · exact .inr tested
        · exact ih none rule later
      | false =>
        rw [if_neg Bool.false_ne_true] at none
        split at none
        · cases none
        · obtain ⟨more, _, none⟩ := bind_eq_ok.mp none
          cases none

namespace Run

variable {run : Run}

/-- The rules of an entry hold for the value at a path. -/
def Holds (run : Run) (entry : Entry) (path : Path) (value : Json) : Prop :=
  (∀ rule ∈ entry.parsed,
    rule.name ∈ controlNames ∨ (run.subject entry path value).passes rule = .ok true) ∧
  ((has entry.parsed "required" || entry.parsed.any (run.requiredIf entry path)) = true →
    isEmpty (some value) = false)

theorem lookup_eq (structured : run.flat = false) (path : Path) :
    run.lookup path = atPath run.input path := by
  unfold lookup
  rw [structured, if_neg Bool.false_ne_true]

theorem contribution_null (path : Path) : run.contribution path .null = .null := by
  unfold contribution
  split <;> rfl

/-- What an entry selects is the contribution of the value at the path, and a value that
is not null has passed its rules. -/
theorem checkPath_selected (structured : run.flat = false) {entry : Entry} {outcome : Outcome}
    (checked : run.checkPath entry path = .ok outcome) {selected : Json}
    (some_selected : outcome.selected = some selected) :
    ∃ value, run.lookup path = some value ∧ selected = run.contribution path value ∧
      (value = .null ∨ run.Holds entry path value) := by
  unfold checkPath at checked
  dsimp only at checked
  split at checked
  · cases checked
    cases some_selected
  · split at checked
    · cases checked
      cases some_selected
    · rename_i present
      cases found : run.lookup path with
      | none =>
        rw [found] at checked
        cases checked
        cases some_selected
      | some value =>
        rw [found] at checked present
        dsimp only at checked
        refine ⟨value, rfl, ?_⟩
        split at checked
        · rename_i nullable
          cases checked
          cases some_selected
          rw [structured] at nullable
          have isNull : selected = .null := by
            cases selected <;> simp [Json.isNull] at nullable ⊢
          rw [isNull]
          exact ⟨(contribution_null path).symm, .inl rfl⟩
        · obtain ⟨messages, ran, checked⟩ := bind_eq_ok.mp checked
          cases checked
          split at some_selected
          · rename_i clean
            cases some_selected
            subst clean
            refine ⟨rfl, .inr ⟨Subject.passes_of_failures ran, fun required => ?_⟩⟩
            rw [required, Bool.true_and, Bool.not_eq_true] at present
            exact present
          · cases some_selected

theorem child_emptied (items : List Json) (key : Bytes) :
    child (.array (items.map fun _ => Json.null)) key = .null := by
  unfold child
  dsimp only
  split
  · split
    · rename_i index _ _
      rw [getD_eq_getElem?_getD, getElem?_map]
      cases items[index]? <;> rfl
    · rfl
  · rfl

/-- A container that has more specific entries contributes nothing below itself. -/
theorem descend_contribution (value : Json) (structured : run.flat = false)
    (plain : run.file path = none) (specific : run.hasDescendant path = true) (key : Bytes)
    (rest : Path) : descend (run.contribution path value) (key :: rest) = .null := by
  unfold contribution
  rw [structured, plain, specific]
  cases value with
  | array items =>
    show descend (child (.array (items.map fun _ => Json.null)) key) rest = .null
    rw [child_emptied]
    exact descend_null rest
  | object entries | null | boolean value | int64 value | uint64 value | double bits =>
    exact descend_null rest
  | string value => exact descend_null rest

theorem fits_contribution (path : Path) (value : Json) :
    Fits (run.contribution path value) value := by
  by_cases emptied : (!run.flat && (run.file path).isNone && run.hasDescendant path) = true
  · simp only [Bool.and_eq_true, Bool.not_eq_true', Option.isNone_iff_eq_none] at emptied
    obtain ⟨⟨structured, plain⟩, specific⟩ := emptied
    intro place
    cases place with
    | nil =>
      unfold contribution
      rw [structured, plain, specific]
      cases value with
      | array items => exact .inr (.inl ⟨rfl, rfl⟩)
      | object entries => exact .inr (.inr (.inl ⟨rfl, rfl⟩))
      | null => exact .inl rfl
      | boolean value | int64 value | uint64 value | double bits | string value =>
        exact Fits.refl _ []
    | cons key rest => exact .inl (descend_contribution value structured plain specific key rest)
  · have whole : run.contribution path value = value := if_neg emptied
    rw [whole]
    exact Fits.refl value

/-! ## The whole run -/

/-- An entry selects a value at one of its paths. -/
def Selects (run : Run) (entry : Entry) (path : Path) (value : Json) : Prop :=
  entry ∈ run.entries ∧ path ∈ run.paths entry ∧
    ∃ outcome, run.checkPath entry path = .ok outcome ∧ outcome.selected = some value

def Fails (run : Run) (path : Path) : Prop :=
  ∃ entry ∈ run.entries, path ∈ run.paths entry ∧
    ∃ outcome, run.checkPath entry path = .ok outcome ∧ outcome.messages ≠ []

variable {progress : Progress}

theorem mem_record {path other : Path} {outcome : Outcome} :
    other ∈ (record progress path outcome).errors ↔
      other ∈ progress.errors ∨ (path = other ∧ outcome.messages ≠ []) := by
  unfold record
  split
  · rename_i clean
    simp [clean]
  · rename_i failed
    rw [AList.mem_insert, or_comm, and_iff_left failed, eq_comm]

/-- What the loops over the entries and their paths collect for one path. -/
theorem collected {path : Path} (Has : Progress → Prop) (Gives : Outcome → Prop)
    (recorded : ∀ {progress other outcome},
      Has (record progress other outcome) ↔ Has progress ∨ (other = path ∧ Gives outcome))
    (none : ¬ Has ⟨∅, []⟩) (ran : run.checkAll = .ok progress) :
    Has progress ↔ ∃ entry ∈ run.entries, path ∈ run.paths entry ∧
      ∃ outcome, run.checkPath entry path = .ok outcome ∧ Gives outcome := by
  have loop := foldlM_tracks (fun seen progress => Has progress ↔ ∃ item ∈ seen, item.2 = path ∧
      ∃ outcome, run.checkPath item.1 item.2 = .ok outcome ∧ Gives outcome)
    (fun {seen before item after} stepped kept => by
      obtain ⟨outcome, checked, made⟩ := bind_eq_ok.mp stepped
      cases made
      simp only [recorded, kept, mem_append, mem_singleton, or_and_right, exists_or,
        exists_eq_left, checked, Except.ok.injEq, exists_eq_left'])
    ran [] (iff_of_false none (by simp))
  simp only [nil_append, mem_flatMap, mem_map] at loop
  rw [loop]
  constructor
  · rintro ⟨item, ⟨entry, member, other, expanded, rfl⟩, rfl, given⟩
    exact ⟨entry, member, expanded, given⟩
  · rintro ⟨entry, member, expanded, given⟩
    exact ⟨_, ⟨entry, member, path, expanded, rfl⟩, rfl, given⟩

theorem mem_checkAll (ran : run.checkAll = .ok progress) :
    (∀ path value, (path, value) ∈ progress.selected ↔ ∃ entry, run.Selects entry path value) ∧
      ∀ path, path ∈ progress.errors ↔ run.Fails path := by
  constructor
  · intro path value
    exact collected (fun progress => (path, value) ∈ progress.selected)
      (fun outcome => outcome.selected = some value)
      (fun {_ _ _} => by simp [record, and_comm]) not_mem_nil ran
  · intro path
    exact collected (fun progress => path ∈ progress.errors) _ mem_record (AList.notMem_empty _) ran

/-- A value that is put together: it is selected, and no entry fails at or above it. -/
def Survives (run : Run) (entry : Entry) (path : Path) (value : Json) : Prop :=
  run.Selects entry path value ∧ ∀ failed, run.Fails failed → ¬ failed <+: path

theorem mem_survivors (ran : run.checkAll = .ok progress) :
    (path, value) ∈ survivors progress ↔ ∃ entry, run.Survives entry path value := by
  obtain ⟨selected, failed⟩ := mem_checkAll ran
  have order : (path, value) ∈ sorted progress.selected ↔ (path, value) ∈ progress.selected :=
    (perm_insertionSort _ _).mem_iff
  have intact : (!ancestorFailed progress.errors path) = true ↔
      ∀ other, run.Fails other → ¬ other <+: path := by
    unfold ancestorFailed
    rw [Bool.not_eq_true', any_eq_false]
    constructor
    · intro none other fails starts
      refine none other (AList.mem_keys.mp ?_) <| isPrefixOf_iff_prefix.mpr starts
      exact (failed other).mpr fails
    · intro none other member starts
      have fails := (failed other).mp (AList.mem_keys.mpr member)
      exact none other fails <| isPrefixOf_iff_prefix.mp starts
  unfold survivors
  rw [mem_filter, order, selected path value, intact]
  constructor
  · rintro ⟨⟨entry, chosen⟩, clear⟩
    exact ⟨entry, chosen, clear⟩
  · rintro ⟨entry, chosen, clear⟩
    exact ⟨⟨entry, chosen⟩, clear⟩

theorem fits_initial (isObject : run.input.isObject = true) : Fits (.object []) run.input := by
  intro place
  cases place with
  | nil => exact .inr (.inr (.inl ⟨rfl, isObject⟩))
  | cons key rest => exact .inl (descend_null rest)

section

variable (structured : run.flat = false)
include structured

theorem consistent_survivors (ran : run.checkAll = .ok progress) :
    Consistent run.input (survivors progress) := by
  rintro ⟨path, selected⟩ member
  obtain ⟨entry, ⟨_, _, outcome, checked, chosen⟩, _⟩ := (mem_survivors ran).mp member
  obtain ⟨value, found, rfl, _⟩ := checkPath_selected structured checked chosen
  rw [lookup_eq structured] at found
  exact ⟨value, found, fits_contribution path value⟩

theorem values_eq (progress : Progress) :
    run.values progress = (survivors progress).foldl
      (fun output item => selectPath output run.input item.1 item.2) (.object []) := by
  have same : run.put = fun output item => selectPath output run.input item.1 item.2 := by
    funext output item
    unfold put
    rw [structured, if_neg Bool.false_ne_true]
  rw [values, same]

/-- What the returned values have at a place, by the last survivor at or above it. -/
theorem leafAt_values (isObject : run.input.isObject = true) (ran : run.checkAll = .ok progress)
    (place : Path) :
    leafAt (run.values progress) place =
      match (survivors progress).reverse.find?
        (fun item => (resolve run.input item.1).isPrefixOf place) with
      | some item => leafAt item.2 (place.drop (resolve run.input item.1).length)
      | none => none := by
  rw [values_eq structured, leafAt_foldl (consistent_survivors structured ran)
    (fits_initial isObject)]
  have empty : leafAt (.object []) place = none := by
    cases place with
    | nil => rfl
    | cons key rest => exact leafAt_null rest
  rw [empty]

/-- A leaf of the returned values comes from a survivor at or above it. -/
theorem survivor_of_leafAt (isObject : run.input.isObject = true)
    (ran : run.checkAll = .ok progress) {place : Path} {leaf : Json}
    (found : leafAt (run.values progress) place = some leaf) :
    ∃ entry path value, run.Survives entry path (run.contribution path value) ∧
      run.lookup path = some value ∧ run.Holds entry path value ∧
      resolve run.input path <+: place ∧
      leafAt (run.contribution path value)
        (place.drop (resolve run.input path).length) = some leaf := by
  rw [leafAt_values structured isObject ran] at found
  cases last : (survivors progress).reverse.find?
      (fun item => (resolve run.input item.1).isPrefixOf place) with
  | none =>
    rw [last] at found
    cases found
  | some item =>
    rw [last] at found
    obtain ⟨path, selected⟩ := item
    dsimp only at found
    have member := mem_reverse.mp (mem_of_find?_eq_some last)
    have matching := find?_some last
    have above : resolve run.input path <+: place := isPrefixOf_iff_prefix.mp matching
    obtain ⟨entry, survives⟩ := (mem_survivors ran).mp member
    obtain ⟨_, _, outcome, checked, chosen⟩ := survives.1
    obtain ⟨value, looked, rfl, holds⟩ := checkPath_selected structured checked chosen
    refine ⟨entry, path, value, survives, looked, ?_, above, found⟩
    rcases holds with rfl | holds
    · rw [contribution_null, leafAt_null] at found
      cases found
    · exact holds

end

end Run

end Gungnir.Validation
