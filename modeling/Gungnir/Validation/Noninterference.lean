import Gungnir.Validation.Coverage

/-!
# What the returned values depend on

Data in a container with more specific entries comes from these entries. Two inputs that
agree on what the entries cover give the same scalars, if the rules that look at other
data answer the same.
-/

namespace Gungnir.Validation

open Gungnir.Core Gungnir.Library List
open Gungnir.Http (Json)

/-! ## Patterns -/

/-- A path is an instance of a pattern. -/
def Matches (pattern path : Path) : Prop :=
  Forall₂ (fun part key => part = ascii "*" ∨ part = key) pattern path

/-- The first parts of a pattern match a path, and there are more. -/
def MoreSpecific (pattern path : Path) : Prop :=
  ∃ above rest, pattern = above ++ rest ∧ rest ≠ [] ∧ Matches above path

variable {pattern : Path}

theorem moreSpecific_nil : MoreSpecific pattern [] ↔ pattern ≠ [] := by
  constructor
  · rintro ⟨above, rest, rfl, nonempty, _⟩ empty
    exact nonempty (append_eq_nil_iff.mp empty).2
  · intro nonempty
    exact ⟨[], pattern, rfl, nonempty, .nil⟩

theorem moreSpecific_cons {part key : Bytes} {path : Path} :
    MoreSpecific (part :: pattern) (key :: path) ↔
      (part = ascii "*" ∨ part = key) ∧ MoreSpecific pattern path := by
  constructor
  · rintro ⟨above, rest, split, nonempty, matching⟩
    cases matching with
    | cons first others =>
      obtain ⟨rfl, rfl⟩ := cons.inj split
      exact ⟨first, _, rest, rfl, nonempty, others⟩
  · rintro ⟨first, above, rest, rfl, nonempty, others⟩
    exact ⟨part :: above, rest, rfl, nonempty, .cons first others⟩

theorem descendant_iff {path : Path} :
    descendant pattern path = true ↔ path ≠ [] ∧ MoreSpecific pattern path := by
  induction path generalizing pattern with
  | nil => cases pattern <;> simp [descendant]
  | cons key path ih =>
    cases pattern with
    | nil =>
      constructor
      · intro impossible
        cases impossible
      · rintro ⟨_, above, rest, empty, nonempty, _⟩
        exact absurd (append_eq_nil_iff.mp empty.symm).2 nonempty
    | cons part pattern =>
      rw [moreSpecific_cons]
      unfold descendant
      by_cases fitting : part = ascii "*" ∨ part = key
      · rw [if_neg (by tauto)]
        cases path with
        | nil => simp [fitting, moreSpecific_nil]
        | cons next path =>
          cases pattern with
          | nil =>
            have none : ¬ MoreSpecific [] (next :: path) := by
              rintro ⟨above, rest, empty, nonempty, _⟩
              exact nonempty (append_eq_nil_iff.mp empty.symm).2
            simp [none]
          | cons other pattern =>
            rw [if_neg (cons_ne_nil _ _), if_neg (cons_ne_nil _ _), ih]
            simp [fitting]
      · simp [fitting]

/-- A pattern goes on behind every proper part of its instances. -/
theorem Matches.moreSpecific {path short : Path} (matching : Matches pattern path)
    (above : short <+: path) (proper : short ≠ path) : MoreSpecific pattern short := by
  obtain ⟨rest, rfl⟩ := above
  refine ⟨pattern.take short.length, pattern.drop short.length,
    (take_append_drop _ _).symm, ?_, forall₂_take_append pattern short rest matching⟩
  intro empty
  have behind := forall₂_drop_append pattern short rest matching
  rw [empty] at behind
  cases behind
  exact proper (append_nil short).symm

theorem mem_expandFrom {input : Json} {before path : Path}
    (member : path ∈ expandFrom input before pattern) :
    ∃ tail, path = before ++ tail ∧ Matches pattern tail ∧
      ∀ key ∈ tail, key ∈ pattern ∨ ∃ index, key = stdToString index := by
  induction pattern generalizing before with
  | nil =>
    rw [mem_singleton.mp member]
    exact ⟨[], (append_nil _).symm, .nil, by simp⟩
  | cons part pattern ih =>
    unfold expandFrom at member
    split at member
    · rename_i star
      obtain ⟨key, listed, below⟩ := mem_flatMap.mp member
      obtain ⟨tail, rfl, matching, known⟩ := ih below
      refine ⟨key :: tail, by simp, .cons (.inl star) matching, ?_⟩
      have index : ∃ index, key = stdToString index := by
        unfold indices at listed
        split at listed
        · obtain ⟨index, _, rfl⟩ := mem_map.mp listed
          exact ⟨index, rfl⟩
        · cases listed
      exact forall_mem_cons.mpr ⟨.inr index,
        fun other inside => (known other inside).imp_left (mem_cons_of_mem _)⟩
    · obtain ⟨tail, rfl, matching, known⟩ := ih member
      refine ⟨part :: tail, by simp, .cons (.inr rfl) matching, ?_⟩
      exact forall_mem_cons.mpr ⟨.inl mem_cons_self,
        fun other inside => (known other inside).imp_left (mem_cons_of_mem _)⟩

theorem isCanonical_stdToString (index : Nat) : isCanonical (stdToString index) = true := by
  unfold isCanonical
  by_cases fits : index < sizeBound
  · rw [fromChars_stdToString fits]
    exact beq_self_eq_true _
  · have beyond : fromChars sizeBound (stdToString index) = none :=
      Decimal.parse_print_of_le (Nat.le_of_not_lt fits)
    rw [beyond]

namespace Run

variable {run : Run}

/-- The fields of the rules write indices without superfluous zeros. -/
def Canonical (entries : List Entry) : Prop :=
  ∀ entry ∈ entries, ∀ part ∈ pathOf entry.rule.field, isCanonical part = true

variable {entry : Entry} {path : Path}

theorem hasDescendant_of_moreSpecific (member : entry ∈ run.entries) (nonempty : path ≠ [])
    (specific : MoreSpecific (pathOf entry.rule.field) path) : run.hasDescendant path = true :=
  any_eq_true.mpr ⟨entry, member, descendant_iff.mpr ⟨nonempty, specific⟩⟩

section

variable (structured : run.flat = false)
include structured

theorem mem_paths (expanded : path ∈ run.paths entry) :
    Matches (pathOf entry.rule.field) path ∧
      ∀ key ∈ path, key ∈ pathOf entry.rule.field ∨ ∃ index, key = stdToString index := by
  unfold paths expand at expanded
  rw [structured, if_neg Bool.false_ne_true] at expanded
  obtain ⟨tail, rfl, matching, known⟩ := mem_expandFrom expanded
  exact ⟨matching, known⟩

theorem ne_nil_of_mem_paths (expanded : path ∈ run.paths entry) : path ≠ [] := by
  rintro rfl
  have empty : pathOf entry.rule.field = [] :=
    forall₂_nil_right_iff.mp (mem_paths structured expanded).1
  exact splitOn_ne_nil 46 entry.rule.field empty

theorem resolve_path (canonical : Canonical run.entries) (member : entry ∈ run.entries)
    (expanded : path ∈ run.paths entry) {value : Json} (found : run.lookup path = some value) :
    resolve run.input path = path := by
  rw [lookup_eq structured] at found
  refine (resolve_spec found).2.2.2 fun key inside => ?_
  rcases (mem_paths structured expanded).2 key inside with written | ⟨index, rfl⟩
  · exact canonical entry member key written
  · exact isCanonical_stdToString index

/-- Data in a container with more specific entries comes from an entry below it. -/
theorem survivor_below (isObject : run.input.isObject = true) (canonical : Canonical run.entries)
    {progress : Progress} (ran : run.checkAll = .ok progress) (member : entry ∈ run.entries)
    (expanded : path ∈ run.paths entry) (plain : ∀ above, above <+: path → run.file above = none)
    (specific : ∃ other ∈ run.entries, MoreSpecific (pathOf other.rule.field) path) {place : Path}
    {leaf : Json} (inside : path <+: place) (proper : path ≠ place)
    (found : leafAt (run.values progress) place = some leaf) :
    ∃ other below value, run.Survives other below value ∧ path <+: below ∧ path ≠ below ∧
      below <+: place := by
  obtain ⟨other, below, value, survives, looked, _, above, chosen⟩ :=
    survivor_of_leafAt structured isObject ran found
  rw [resolve_path structured canonical survives.1.1 survives.1.2.1 looked] at above chosen
  by_cases deeper : path <+: below ∧ path ≠ below
  · exact ⟨other, below, _, survives, deeper.1, deeper.2, above⟩
  · -- The survivor is the container itself or lies above it, so it has more specific
    -- entries and contributes nothing below itself.
    exfalso
    have higher : below <+: path := by
      rcases prefix_or_prefix_of_prefix inside above with down | up
      · by_cases same : path = below
        · exact same ▸ prefix_refl path
        · exact absurd ⟨down, same⟩ deeper
      · exact up
    have emptied : run.hasDescendant below = true := by
      have nonempty := ne_nil_of_mem_paths structured survives.1.2.1
      by_cases same : below = path
      · obtain ⟨more, listed, goesOn⟩ := specific
        exact hasDescendant_of_moreSpecific listed nonempty (same ▸ goesOn)
      · exact hasDescendant_of_moreSpecific member nonempty
          ((mem_paths structured expanded).1.moreSpecific higher same)
    obtain ⟨rest, rfl⟩ := above
    rw [drop_left] at chosen
    cases rest with
    | nil =>
      rw [append_nil] at inside proper
      exact proper (inside.eq_of_length_le higher.length_le)
    | cons key rest =>
      have nothing : leafAt (run.contribution below value) (key :: rest) = none := by
        unfold leafAt
        rw [descend_contribution value structured (plain below higher) emptied]
        rfl
      rw [nothing] at chosen
      cases chosen

end

end Run

/-! ## Values that the rules do not tell apart -/

/-- The same value, or two containers of one kind with as many elements. -/
inductive Alike : Json → Json → Prop where
  | same (value : Json) : Alike value value
  | arrays {first second : List Json} (count : first.length = second.length) :
      Alike (.array first) (.array second)
  | objects {first second : List (Bytes × Json)} (count : first.length = second.length) :
      Alike (.object first) (.object second)

variable {first second : Json}

theorem Alike.kinds (alike : Alike first second) :
    second.isString = first.isString ∧ second.isArray = first.isArray ∧
      second.isObject = first.isObject ∧ second.isInteger = first.isInteger ∧
      second.isNumber = first.isNumber ∧ second.isBoolean = first.isBoolean ∧
      second.isScalar = first.isScalar := by
  cases alike <;> exact ⟨rfl, rfl, rfl, rfl, rfl, rfl, rfl⟩

theorem Alike.eq_of_scalar (alike : Alike first second) (scalar : first.isScalar = true) :
    second = first := by
  cases alike with
  | same => rfl
  | arrays count => cases scalar
  | objects count => cases scalar

/-- The rules that look at more than the size of a container and the scalar at a path. -/
def referringNames : List Bytes := ["same", "different", "confirmed", "custom"].map ascii

namespace Subject

variable {subject : Subject} {input : Json} {lookup : Path → Option Json} {value : Json}

/-- The check of a path on another input. -/
def elsewhere (subject : Subject) (input : Json) (lookup : Path → Option Json) (value : Json) :
    Subject :=
  { subject with input := input, lookup := lookup, value := value }

section

variable (alike : Alike subject.value value)
include alike

theorem text_elsewhere : (subject.elsewhere input lookup value).text = subject.text := by
  obtain ⟨environment, custom, _, _, field, parsed, path, old, file⟩ := subject
  cases alike <;> rfl

theorem measure_elsewhere (name : Bytes) :
    (subject.elsewhere input lookup value).measure name = subject.measure name := by
  obtain ⟨environment, custom, _, _, field, parsed, path, old, file⟩ := subject
  cases alike with
  | same => rfl
  | arrays count | objects count =>
    cases file with
    | none => exact congrArg stdToString count.symm
    | some file => rfl

theorem sizePasses_elsewhere (name argument : Bytes) :
    (subject.elsewhere input lookup value).sizePasses name argument =
      subject.sizePasses name argument := by
  have order : ∀ measured, (subject.elsewhere input lookup value).sizeOrder measured argument =
      subject.sizeOrder measured argument := by
    intro measured
    obtain ⟨environment, custom, _, _, field, parsed, path, old, file⟩ := subject
    cases alike <;> rfl
  unfold sizePasses
  simp only [measure_elsewhere alike, order]

theorem format_elsewhere (test : Bytes → Bool) :
    (subject.elsewhere input lookup value).format test = subject.format test := by
  unfold format
  rw [text_elsewhere alike]
  simp only [elsewhere, alike.kinds.1]

/-- Only the referring rules tell alike values apart. -/
theorem passes_elsewhere {rule : ParsedRule} (plain : rule.name ∉ referringNames) :
    (subject.elsewhere input lookup value).passes rule = subject.passes rule := by
  simp only [referringNames, map_cons, map_nil, mem_cons, not_mem_nil,
    or_false, not_or] at plain
  obtain ⟨notSame, notDifferent, notConfirmed, notCustom⟩ := plain
  obtain ⟨isString, isArray, isObject, isInteger, isNumber, isBoolean, isScalar⟩ := alike.kinds
  unfold passes
  simp only [notSame, notDifferent, notConfirmed, notCustom, or_self, if_false,
    text_elsewhere alike, format_elsewhere alike, sizePasses_elsewhere alike]
  simp only [elsewhere, isString, isArray, isObject, isInteger, isNumber, isBoolean, isScalar]
  by_cases scalar : subject.value.isScalar = true
  · simp only [alike.eq_of_scalar scalar]
  · simp only [scalar, Bool.not_false, Bool.or_true, if_true]

/-- With the same answers of the referring rules there are the same messages. -/
theorem failures_elsewhere {rules : List ParsedRule}
    (answers : ∀ rule ∈ rules, rule.name ∈ referringNames →
      (subject.elsewhere input lookup value).passes rule = subject.passes rule) :
    (subject.elsewhere input lookup value).failures rules = subject.failures rules := by
  induction rules with
  | nil => rfl
  | cons rule rest ih =>
    have here : (subject.elsewhere input lookup value).passes rule = subject.passes rule := by
      by_cases referring : rule.name ∈ referringNames
      · exact answers rule mem_cons_self referring
      · exact passes_elsewhere alike referring
    have further := ih (forall_mem_cons.mp answers).2
    unfold failures
    rw [here, further]
    rfl

end

end Subject

namespace Run

variable {run : Run} {input : Json}

def on (run : Run) (input : Json) : Run := { run with input := input }

/-- Two values at a path of an entry: equal, or containers whose content is left to more
specific entries; and the rules that look at other data answer the same. -/
structure Similar (run : Run) (input : Json) (entry : Entry) (path : Path)
    (first second : Json) : Prop where
  alike : Alike first second
  content : first = second ∨ (run.file path = none ∧ run.hasDescendant path = true)
  referring : ∀ rule ∈ entry.parsed, rule.name ∈ referringNames →
    ((run.on input).subject entry path second).passes rule =
      (run.subject entry path first).passes rule
  required : ∀ rule ∈ entry.parsed,
    (run.on input).requiredIf entry path rule = run.requiredIf entry path rule

/-- Two inputs have the same covered paths, with similar values. -/
structure Agrees (run : Run) (input : Json) : Prop where
  covered : ∀ entry ∈ run.entries, ∀ path ∈ run.paths entry, ∀ first,
    run.lookup path = some first → ∃ second, path ∈ (run.on input).paths entry ∧
      (run.on input).lookup path = some second ∧ run.Similar input entry path first second
  noMore : ∀ entry ∈ run.entries, ∀ path ∈ (run.on input).paths entry, ∀ second,
    (run.on input).lookup path = some second →
      path ∈ run.paths entry ∧ (run.lookup path).isSome = true

variable {path : Path} {entry : Entry}

theorem isEmpty_alike (alike : Alike first second) :
    isEmpty (some second) = isEmpty (some first) := by
  cases alike with
  | same => rfl
  | arrays count | objects count =>
    show List.isEmpty _ = List.isEmpty _
    rw [Bool.eq_iff_iff, List.isEmpty_iff_length_eq_zero, List.isEmpty_iff_length_eq_zero, count]

/-- A path of an entry that the input has. -/
def Exists (run : Run) (entry : Entry) (path : Path) : Prop :=
  entry ∈ run.entries ∧ path ∈ run.paths entry ∧ (run.lookup path).isSome = true

theorem exists_on (agrees : run.Agrees input) :
    (run.on input).Exists entry path ↔ run.Exists entry path := by
  constructor
  · rintro ⟨member, expanded, isSome⟩
    obtain ⟨second, found⟩ := Option.isSome_iff_exists.mp isSome
    exact ⟨member, agrees.noMore entry member path expanded second found⟩
  · rintro ⟨member, expanded, isSome⟩
    obtain ⟨first, found⟩ := Option.isSome_iff_exists.mp isSome
    obtain ⟨second, expandedOn, foundOn, _⟩ :=
      agrees.covered entry member path expanded first found
    exact ⟨member, expandedOn, foundOn ▸ rfl⟩

theorem atPath_append (json : Json) (first second : Path) :
    atPath json (first ++ second) = (atPath json first).bind (atPath · second) := by
  induction first generalizing json with
  | nil => rfl
  | cons key rest ih =>
    show (step json key).bind (atPath · (rest ++ second)) = _
    cases stepped : step json key with
    | none => simp only [atPath, stepped, Option.bind_none]
    | some next => simp only [atPath, stepped, Option.bind_some, ih]

theorem isSome_of_prefix {json : Json} {above : Path} (starts : above <+: path)
    (found : (atPath json path).isSome = true) : (atPath json above).isSome = true := by
  obtain ⟨rest, rfl⟩ := starts
  rw [atPath_append] at found
  cases reached : atPath json above with
  | none =>
    rw [reached] at found
    cases found
  | some value => rfl

/-- The last of a sorted list that passes a test is the longest one. -/
theorem length_le_last {items : List (Path × Json)}
    (order : items.Pairwise fun first second => first.1.length ≤ second.1.length)
    {test : Path × Json → Bool} {item other : Path × Json}
    (last : items.reverse.find? test = some item) (member : other ∈ items)
    (passes : test other = true) : other.1.length ≤ item.1.length := by
  obtain ⟨_, before, after, split, none⟩ := find?_eq_some_iff_append.mp last
  have listed := mem_reverse.mpr member
  have reversed := pairwise_reverse.mpr order
  rw [split] at listed reversed
  rcases mem_append.mp listed with early | later
  · have fails := none other early
    rw [passes] at fails
    cases fails
  · rcases mem_cons.mp later with rfl | later
    · exact le_rfl
    · exact rel_of_pairwise_cons (pairwise_append.mp reversed).2.1 later

section

variable (structured : run.flat = false)
include structured

theorem contribution_on (similar : run.Similar input entry path first second) :
    (run.on input).contribution path second = run.contribution path first := by
  rcases similar.content with rfl | ⟨plain, specific⟩
  · rfl
  · have plainOn : (run.on input).file path = none := plain
    have specificOn : (run.on input).hasDescendant path = true := specific
    have structuredOn : (run.on input).flat = false := structured
    unfold contribution
    rw [structured, plain, specific, structuredOn, plainOn, specificOn]
    cases similar.alike with
    | same => rfl
    | arrays count =>
      show Http.Json.array _ = Http.Json.array _
      rw [map_const', map_const', count]
    | objects count => rfl

/-- The check of a path has the same outcome on similar values. -/
theorem checkPath_on (found : run.lookup path = some first)
    (foundOn : (run.on input).lookup path = some second)
    (similar : run.Similar input entry path first second) :
    (run.on input).checkPath entry path = run.checkPath entry path := by
  have structuredOn : (run.on input).flat = false := structured
  have required : entry.parsed.any ((run.on input).requiredIf entry path) =
      entry.parsed.any (run.requiredIf entry path) := by
    rw [Bool.eq_iff_iff, any_eq_true, any_eq_true]
    refine exists_congr fun rule => and_congr_right fun member => ?_
    rw [similar.required rule member]
  have messages : ((run.on input).subject entry path second).failures entry.parsed =
      (run.subject entry path first).failures entry.parsed :=
    @Subject.failures_elsewhere (run.subject entry path first) _ _ _ similar.alike _
      similar.referring
  unfold checkPath
  dsimp only
  rw [found, foundOn, required, isEmpty_alike similar.alike, structured, structuredOn]
  dsimp only
  rw [messages, contribution_on structured similar]
  cases similar.alike with
  | same => rfl
  | arrays count => simp [Json.isNull]
  | objects count => simp [Json.isNull]

theorem Selects.present {entry : Entry} {path : Path}
    {value : Json} (selects : run.Selects entry path value) : run.Exists entry path := by
  obtain ⟨member, expanded, outcome, checked, chosen⟩ := selects
  obtain ⟨first, found, _⟩ := checkPath_selected structured checked chosen
  exact ⟨member, expanded, found ▸ rfl⟩

variable {value : Json}

section

variable (agrees : run.Agrees input)
include agrees

theorem checkPath_agrees (present : run.Exists entry path) :
    (run.on input).checkPath entry path = run.checkPath entry path := by
  obtain ⟨member, expanded, isSome⟩ := present
  obtain ⟨first, found⟩ := Option.isSome_iff_exists.mp isSome
  obtain ⟨second, _, foundOn, similar⟩ := agrees.covered entry member path expanded first found
  exact checkPath_on structured found foundOn similar

/-- An entry has the wanted outcome at a path on both inputs or on none, if both have the path. -/
theorem outcome_on {Wanted : Outcome → Prop} (present : (run.lookup path).isSome = true)
    (presentOn : ((run.on input).lookup path).isSome = true) :
    (entry ∈ run.entries ∧ path ∈ (run.on input).paths entry ∧
      ∃ outcome, (run.on input).checkPath entry path = .ok outcome ∧ Wanted outcome) ↔
    entry ∈ run.entries ∧ path ∈ run.paths entry ∧
      ∃ outcome, run.checkPath entry path = .ok outcome ∧ Wanted outcome := by
  constructor
  · rintro ⟨member, expanded, found⟩
    have known := (exists_on agrees).mp ⟨member, expanded, presentOn⟩
    rw [checkPath_agrees structured agrees known] at found
    exact ⟨member, known.2.1, found⟩
  · rintro ⟨member, expanded, found⟩
    have known : run.Exists entry path := ⟨member, expanded, present⟩
    rw [← checkPath_agrees structured agrees known] at found
    exact ⟨member, ((exists_on agrees).mpr known).2.1, found⟩

theorem selects_on : (run.on input).Selects entry path value ↔ run.Selects entry path value := by
  constructor
  · intro selects
    have known := @Selects.present (run.on input) structured _ _ _ selects
    exact (outcome_on structured agrees ((exists_on agrees).mp known).2.2 known.2.2).mp selects
  · intro selects
    have known := selects.present structured
    exact (outcome_on structured agrees known.2.2 ((exists_on agrees).mpr known).2.2).mpr selects

theorem survives_on : (run.on input).Survives entry path value ↔ run.Survives entry path value := by
  unfold Survives
  rw [selects_on structured agrees]
  refine and_congr_right fun selects => forall_congr' fun failed => ?_
  -- A path above one that exists exists itself.
  have present := selects.present structured
  have presentOn := (exists_on agrees).mpr present
  have above : failed <+: path → ((run.on input).Fails failed ↔ run.Fails failed) := by
    intro starts
    refine exists_congr fun _ => outcome_on structured agrees ?_ ?_
    · rw [lookup_eq structured]
      exact isSome_of_prefix starts (lookup_eq structured path ▸ present.2.2)
    · rw [@lookup_eq (run.on input) structured]
      exact isSome_of_prefix starts (@lookup_eq (run.on input) structured path ▸ presentOn.2.2)
  constructor
  · intro clear fails starts
    exact clear ((above starts).mpr fails) starts
  · intro clear fails starts
    exact clear ((above starts).mp fails) starts

end

theorem Survives.resolve_eq (canonical : Canonical run.entries)
    (survives : run.Survives entry path value) : resolve run.input path = path := by
  obtain ⟨member, expanded, isSome⟩ := survives.1.present structured
  obtain ⟨found, looked⟩ := Option.isSome_iff_exists.mp isSome
  exact resolve_path structured canonical member expanded looked

/-- The longest survivor at or above a place decides what the place has. -/
theorem leafAt_decided (isObject : run.input.isObject = true) (canonical : Canonical run.entries)
    {progress : Progress} (ran : run.checkAll = .ok progress) (place : Path) :
    (∃ entry path value, run.Survives entry path value ∧ path <+: place ∧
      leafAt (run.values progress) place = leafAt value (place.drop path.length) ∧
      ∀ other below found, run.Survives other below found → below <+: place →
        below.length ≤ path.length) ∨
    (leafAt (run.values progress) place = none ∧
      ∀ other below found, run.Survives other below found → ¬ below <+: place) := by
  have matching : ∀ other below found, run.Survives other below found → below <+: place →
      (resolve run.input below).isPrefixOf place = true := by
    intro other below found survives above
    rw [survives.resolve_eq structured canonical]
    exact isPrefixOf_iff_prefix.mpr above
  rw [leafAt_values structured isObject ran]
  cases last : (survivors progress).reverse.find?
      (fun item => (resolve run.input item.1).isPrefixOf place) with
  | none =>
    refine .inr ⟨rfl, fun other below found survives above => ?_⟩
    have listed := mem_reverse.mpr ((mem_survivors ran).mpr ⟨other, survives⟩)
    exact find?_eq_none.mp last _ listed (matching other below found survives above)
  | some item =>
    obtain ⟨path, value⟩ := item
    have listed := mem_reverse.mp (mem_of_find?_eq_some last)
    obtain ⟨entry, survives⟩ := (mem_survivors ran).mp listed
    have straight := survives.resolve_eq structured canonical
    have starts := find?_some last
    dsimp only at starts ⊢
    rw [straight] at starts ⊢
    refine .inl ⟨entry, path, value, survives, isPrefixOf_iff_prefix.mp starts, rfl, ?_⟩
    intro other below found survivesToo above
    exact length_le_last ((pairwise_insertionSort _ _).filter _) last
      ((mem_survivors ran).mpr ⟨other, survivesToo⟩)
      (matching other below found survivesToo above)

theorem Selects.unique {first second : Entry} {other : Json}
    (selects : run.Selects first path value) (selectsToo : run.Selects second path other) :
    value = other := by
  obtain ⟨_, _, _, checked, chosen⟩ := selects
  obtain ⟨_, _, _, checkedToo, chosenToo⟩ := selectsToo
  obtain ⟨found, looked, rfl, _⟩ := checkPath_selected structured checked chosen
  obtain ⟨again, lookedToo, rfl, _⟩ := checkPath_selected structured checkedToo chosenToo
  cases looked.symm.trans lookedToo
  rfl

/-- Agreeing inputs give the same scalars at every place. -/
theorem leafAt_on (isObject : run.input.isObject = true) (isObjectOn : input.isObject = true)
    (canonical : Canonical run.entries) (agrees : run.Agrees input)
    {progress progressOn : Progress} (ran : run.checkAll = .ok progress)
    (ranOn : (run.on input).checkAll = .ok progressOn) (place : Path) :
    leafAt ((run.on input).values progressOn) place = leafAt (run.values progress) place := by
  rcases leafAt_decided structured isObject canonical ran place with
    ⟨entry, path, value, survives, above, decided, longest⟩ | ⟨decided, none⟩
  · rcases @leafAt_decided (run.on input) structured isObjectOn canonical _ ranOn place with
      ⟨entryOn, pathOn, valueOn, survivesOn, aboveOn, decidedOn, longestOn⟩ | ⟨decidedOn, noneOn⟩
    · have survivesToo := (survives_on structured agrees).mp survivesOn
      have shorter := longest _ _ _ survivesToo aboveOn
      have longer := longestOn _ _ _ ((survives_on structured agrees).mpr survives) above
      have same : pathOn = path :=
        (prefix_of_prefix_length_le aboveOn above shorter).eq_of_length_le longer
      subst same
      rw [decided, decidedOn, survives.1.unique structured survivesToo.1]
    · exact absurd above (noneOn _ _ _ ((survives_on structured agrees).mpr survives))
  · rcases @leafAt_decided (run.on input) structured isObjectOn canonical _ ranOn place with
      ⟨entryOn, pathOn, valueOn, survivesOn, aboveOn, _, _⟩ | ⟨decidedOn, _⟩
    · exact absurd aboveOn (none _ _ _ ((survives_on structured agrees).mp survivesOn))
    · rw [decided, decidedOn]

end

end Run

/-! ## The validator -/

theorem check_eq_ok {environment : Environment} {body : List (Bytes × Json)} {rules : List Rule}
    {context : Context} {entries : List Entry} {result : StructuredResult}
    (configured : configure environment context [] rules = .ok entries)
    (done : check environment (.object body) rules context = .ok result) :
    ∃ progress, (runOf environment body context entries false).checkAll = .ok progress ∧
      result.values = (runOf environment body context entries false).values progress := by
  obtain ⟨again, same, done⟩ := bind_eq_ok.mp done
  cases configured.symm.trans same
  obtain ⟨progress, ran, done⟩ := bind_eq_ok.mp done
  cases done
  exact ⟨progress, ran, rfl⟩

/-- Every scalar that the validator returns is the scalar of the input at its place. It
lies at or below a path of an entry whose rules passed, with no failure at or above the
path. Where the fields write indices in the usual notation, a container of the body with
more specific entries holds only what they select, and the scalars depend only on what
the entries cover and on the answers of the rules that look at other data. -/
theorem validated_values (environment : Environment) (rules : List Rule) (context : Context)
    (entries : List Entry) (configured : configure environment context [] rules = .ok entries)
    (body : List (Bytes × Json)) (result : StructuredResult)
    (done : check environment (.object body) rules context = .ok result) :
    let run := runOf environment body context entries false
    (∀ place leaf, leafAt result.values place = some leaf →
      leafAt run.input place = some leaf ∧
      ∃ entry ∈ entries, ∃ path ∈ run.paths entry, ∃ value, run.lookup path = some value ∧
        run.Holds entry path value ∧ (∀ failed, run.Fails failed → ¬ failed <+: path) ∧
        resolve run.input path <+: place) ∧
    (Run.Canonical entries →
      (∀ entry ∈ entries, ∀ path ∈ run.paths entry,
        (∀ above, above <+: path → run.file above = none) →
        (∃ other ∈ entries, MoreSpecific (pathOf other.rule.field) path) →
        ∀ place leaf, path <+: place → path ≠ place → leafAt result.values place = some leaf →
          ∃ other below value, run.Survives other below value ∧ path <+: below ∧ path ≠ below ∧
            below <+: place) ∧
      ∀ otherBody otherResult,
        check environment (.object otherBody) rules context = .ok otherResult →
        run.Agrees (runOf environment otherBody context entries false).input →
        ∀ place, leafAt otherResult.values place = leafAt result.values place) := by
  intro run
  obtain ⟨progress, ran, same⟩ := check_eq_ok configured done
  rw [same]
  refine ⟨fun place leaf found => ⟨?_, ?_⟩, fun canonical => ⟨?_, ?_⟩⟩
  · have fits : Fits (run.values progress) run.input :=
      fits_foldl (Run.consistent_survivors rfl ran) (Run.fits_initial rfl)
    exact fits.leafAt_eq found
  · obtain ⟨entry, path, value, survives, looked, holds, above, _⟩ :=
      Run.survivor_of_leafAt rfl rfl ran found
    exact ⟨entry, survives.1.1, path, survives.1.2.1, value, looked, holds, survives.2, above⟩
  · intro entry member path expanded plain specific place leaf inside proper found
    exact Run.survivor_below rfl rfl canonical ran member expanded plain specific inside proper
      found
  · intro otherBody otherResult otherDone agrees place
    obtain ⟨otherProgress, otherRan, otherSame⟩ := check_eq_ok configured otherDone
    rw [otherSame]
    exact Run.leafAt_on rfl rfl rfl canonical agrees ran otherRan place

/-- An environment without floating-point numbers and without a database. -/
def sampleEnvironment : Environment where
  numerals := sampleNumerals
  maps := ⟨id, .refl⟩
  mediaType := fun _ => []
  database := fun _ _ _ => .ok false

/-- The text that the validator returns at a place. -/
def returned (body : List (Bytes × Json)) (rules : List Rule) (uploads : List UploadedFile)
    (place : Path) : Option Bytes :=
  ((check sampleEnvironment (.object body) rules ⟨some uploads, none⟩).toOption.bind
    fun result => leafAt result.values place).map (·.text sampleEnvironment.numerals)

/-- The metadata of an upload is returned whole beside a more specific entry; an index
with a leading zero does not count as more specific than a star; and a rule that looks at
another field makes the result depend on this field. -/
theorem returned_beyond_coverage :
    returned [] [⟨ascii "doc", ascii "file"⟩, ⟨ascii "doc.name", ascii "string"⟩]
      [⟨ascii "doc", ascii "a.txt", ascii "text/plain", ascii "text"⟩]
      [ascii "doc", ascii "size"] = some (ascii "4") ∧
    returned
      [(ascii "items", .array [.object [], .object [(ascii "x", .string (ascii "1")),
        (ascii "secret", .string (ascii "2"))]])]
      [⟨ascii "items.*", ascii "object"⟩, ⟨ascii "items.01.x", ascii "string"⟩] []
      [ascii "items", ascii "1", ascii "secret"] = some (ascii "2") ∧
    returned [(ascii "a", .string (ascii "1")), (ascii "b", .string (ascii "1"))]
      [⟨ascii "a", ascii "same:b"⟩] [] [ascii "a"] = some (ascii "1") ∧
    returned [(ascii "a", .string (ascii "1")), (ascii "b", .string (ascii "2"))]
      [⟨ascii "a", ascii "same:b"⟩] [] [ascii "a"] = none := by
  decide +kernel

def sampleBody (secret : String) : List (Bytes × Json) :=
  [(ascii "user", .object [(ascii "name", .string (ascii "Ann")),
    (ascii "secret", .string (ascii secret))])]

def sampleRules : List Rule :=
  [⟨ascii "user", ascii "required|object"⟩, ⟨ascii "user.name", ascii "string"⟩]

def sampleEntries : List Entry :=
  [⟨⟨ascii "user", ascii "required|object"⟩, [⟨ascii "required", []⟩, ⟨ascii "object", []⟩]⟩,
    ⟨⟨ascii "user.name", ascii "string"⟩, [⟨ascii "string", []⟩]⟩]

def sampleRun (secret : String) : Run :=
  runOf sampleEnvironment (sampleBody secret) ⟨none, none⟩ sampleEntries false

theorem sampleRun_agrees : (sampleRun "1").Agrees (sampleRun "2").input := by
  constructor
  · intro entry member path expanded first found
    rcases mem_pair.mp member with rfl | rfl
    · cases mem_singleton.mp expanded
      cases found
      refine ⟨_, mem_singleton.mpr rfl, rfl, .objects rfl, .inr ⟨rfl, by decide⟩, ?_, ?_⟩
      · decide
      · decide
    · cases mem_singleton.mp expanded
      cases found
      refine ⟨_, mem_singleton.mpr rfl, rfl, .same _, .inl rfl, ?_, ?_⟩
      · decide
      · decide
  · intro entry member path expanded second found
    rcases mem_pair.mp member with rfl | rfl
    · cases mem_singleton.mp expanded
      exact ⟨mem_singleton.mpr rfl, rfl⟩
    · cases mem_singleton.mp expanded
      exact ⟨mem_singleton.mpr rfl, rfl⟩

theorem validated_values_sample :
    ∃ first second,
      check sampleEnvironment (.object (sampleBody "1")) sampleRules ⟨none, none⟩ = .ok first ∧
      check sampleEnvironment (.object (sampleBody "2")) sampleRules ⟨none, none⟩ = .ok second ∧
      Run.Canonical sampleEntries ∧ (sampleRun "1").Agrees (sampleRun "2").input ∧
      ∀ place, leafAt second.values place = leafAt first.values place := by
  have canonical : Run.Canonical sampleEntries := by
    unfold Run.Canonical
    decide
  refine ⟨_, _, rfl, rfl, canonical, sampleRun_agrees, ?_⟩
  exact ((validated_values sampleEnvironment sampleRules ⟨none, none⟩ sampleEntries rfl
    (sampleBody "1") _ rfl).2 canonical).2 (sampleBody "2") _ rfl sampleRun_agrees

end Gungnir.Validation
