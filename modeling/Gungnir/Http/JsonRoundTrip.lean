import Gungnir.Http.JsonReading

/-!
# The round trip of JSON values

What is read back from the text of a value equals the value unless an unsigned integer
comes back signed, and it has the same text unless a map comes back in another order.
-/

namespace Gungnir.Http

open Gungnir.Core List

namespace Json

variable {maps : MapOrder} {numerals : Numerals}

/-! ## Equality -/

variable {change : Json → Json}

theorem sameItems_map {values : List Json} :
    sameItems (values.map change) values = true ↔
      ∀ item ∈ values, same (change item) item = true := by
  induction values with
  | nil => simp [sameItems]
  | cons item rest ih => simp [sameItems, ih]

theorem sameEntries_iff {entries others : List (Bytes × Json)} :
    sameEntries entries others = true ↔
      ∀ entry ∈ entries, ∃ other, others.lookup entry.1 = some other ∧
        same entry.2 other = true := by
  induction entries with
  | nil => simp [sameEntries]
  | cons entry rest ih =>
    obtain ⟨key, value⟩ := entry
    rw [sameEntries, Bool.and_eq_true, ih, forall_mem_cons]
    refine and_congr_left fun _ => ?_
    cases others.lookup key <;> simp

theorem keys_rereadEntries (entries : List (Bytes × Json)) :
    (entries.map fun entry => (entry.1, reread maps entry.2)).map (·.1) = entries.map (·.1) := by
  rw [map_map]
  rfl

theorem reread_array (values : List Json) :
    reread maps (.array values) = .array (values.map (reread maps)) := by
  rw [reread, rereadItems_eq]

theorem reread_object (values : List (Bytes × Json)) :
    reread maps (.object values) =
      .object (maps.iterate (values.map fun entry => (entry.1, reread maps entry.2))) := by
  rw [reread, rereadEntries_eq]

variable {values : List (Bytes × Json)}

theorem keys_of_distinct (distinct : (Json.object values).distinctKeys = true) :
    (values.map (·.1)).Nodup :=
  of_decide_eq_true (all_object.mp distinct).1

theorem rereadKeys_of_distinct {values : List (Bytes × Json)}
    (distinct : (Json.object values).distinctKeys = true) :
    ((values.map fun entry => (entry.1, reread maps entry.2)).map (·.1)).Nodup := by
  rw [keys_rereadEntries]
  exact keys_of_distinct distinct

variable {json : Json}

/-- What is read back equals the value exactly if no unsigned integer changes its tag. -/
theorem same_reread (distinct : json.distinctKeys = true) :
    same (reread maps json) json = true ↔ json.noSmallUnsigned = true := by
  induction json using Json.induction with
  | null => exact ⟨fun _ => rfl, fun _ => rfl⟩
  | boolean value | int64 value | string value =>
    exact ⟨fun _ => rfl, fun _ => beq_self_eq_true value⟩
  | uint64 value =>
    have small : (Json.uint64 value).noSmallUnsigned = decide (2 ^ 63 ≤ value.toNat) := rfl
    rw [small, decide_eq_true_eq, reread]
    by_cases fits : value.toNat < 2 ^ 63
    · rw [if_pos fits]
      constructor
      · intro impossible
        cases impossible
      · intro large
        omega
    · rw [if_neg fits]
      exact ⟨fun _ => Nat.le_of_not_lt fits, fun _ => beq_self_eq_true value⟩
  | double bits => exact ⟨fun _ => rfl, fun _ => beq_self_eq_true _⟩
  | array values ih =>
    have distinctItems := (all_array.mp distinct).2
    rw [reread_array, same, sameItems_map, noSmallUnsigned, all_array]
    constructor
    · intro equal
      exact ⟨rfl, fun item member =>
        (ih item member (distinctItems item member)).mp (equal item member)⟩
    · intro plain item member
      exact (ih item member (distinctItems item member)).mpr (plain.2 item member)
  | object values ih =>
    have distinctItems := (all_object.mp distinct).2
    have moved := @MapOrder.iterate_perm maps _ (@rereadKeys_of_distinct maps values distinct)
    have found : ∀ entry ∈ values, values.lookup entry.1 = some entry.2 :=
      fun entry member => lookup_of_mem (keys_of_distinct distinct) member
    have count : (maps.iterate (values.map fun entry => (entry.1, reread maps entry.2))).length =
        values.length := by
      rw [moved.length_eq, length_map]
    rw [reread_object, same, count, beq_self_eq_true, Bool.true_and, sameEntries_iff,
      noSmallUnsigned, all_object]
    constructor
    · intro equal
      refine ⟨rfl, fun entry member => ?_⟩
      have listed : (entry.1, reread maps entry.2) ∈
          maps.iterate (values.map fun entry => (entry.1, reread maps entry.2)) :=
        moved.mem_iff.mpr (mem_map.mpr ⟨entry, member, rfl⟩)
      obtain ⟨other, looked, alike⟩ := equal _ listed
      rw [found entry member] at looked
      cases looked
      exact (ih entry member (distinctItems entry member)).mp alike
    · intro plain entry listed
      obtain ⟨source, member, rfl⟩ := mem_map.mp (moved.mem_iff.mp listed)
      exact ⟨source.2, found source member,
        (ih source member (distinctItems source member)).mpr (plain.2 source member)⟩

/-! ## Text -/

theorem dumpItems_congr {values : List Json}
    (each : ∀ item ∈ values, dump numerals (change item) = dump numerals item) (first : Bool) :
    dumpItems numerals first (values.map change) = dumpItems numerals first values := by
  induction values generalizing first with
  | nil => rfl
  | cons item rest ih =>
    rw [map_cons, dumpItems, dumpItems, each item mem_cons_self,
      ih (forall_mem_cons.mp each).2]

theorem dumpEntries_congr
    (each : ∀ entry ∈ values, dump numerals (change entry.2) = dump numerals entry.2)
    (first : Bool) :
    dumpEntries numerals first (values.map fun entry => (entry.1, change entry.2)) =
      dumpEntries numerals first values := by
  induction values generalizing first with
  | nil => rfl
  | cons entry rest ih =>
    rw [map_cons, dumpEntries, dumpEntries, each entry mem_cons_self,
      ih (forall_mem_cons.mp each).2]

theorem iterate_reread (distinct : (Json.object values).distinctKeys = true)
    (kept : maps.order (values.map (·.1)) = values.map (·.1)) :
    maps.iterate (values.map fun entry => (entry.1, reread maps entry.2)) =
      values.map fun entry => (entry.1, reread maps entry.2) := by
  refine MapOrder.iterate_of_order (rereadKeys_of_distinct distinct) ?_
  rw [keys_rereadEntries]
  exact kept

theorem dump_reread (distinct : json.distinctKeys = true) (kept : json.ordered maps = true) :
    dump numerals (reread maps json) = dump numerals json := by
  induction json using Json.induction with
  | null => rfl
  | boolean value => rfl
  | int64 value => rfl
  | uint64 value =>
    rw [reread]
    split
    · rename_i fits
      exact JsonParser.stdToStringSigned_ofNat fits
    · rfl
  | double bits => rfl
  | string value => rfl
  | array values ih =>
    rw [reread_array, dump, dump, dumpItems_congr fun item member =>
      ih item member ((all_array.mp distinct).2 item member) ((all_array.mp kept).2 item member)]
  | object values ih =>
    obtain ⟨keeps, keptItems⟩ := all_object.mp kept
    rw [reread_object, iterate_reread distinct (of_decide_eq_true keeps), dump, dump,
      dumpEntries_congr fun entry member =>
        ih entry member ((all_object.mp distinct).2 entry member) (keptItems entry member)]

/-- A map that keeps the order of insertion. -/
def insertionOrder : MapOrder := ⟨id, fun keys => Perm.refl keys⟩

theorem iterate_insertionOrder {entries : List (Bytes × Json)}
    (distinct : (entries.map (·.1)).Nodup) : insertionOrder.iterate entries = entries :=
  MapOrder.iterate_of_order distinct rfl

/-- A test passes on all that is read back if it does on the scalars and on containers. -/
theorem all_reread {before after : Json → Bool}
    (scalar : ∀ json, json.isArray = false → json.isObject = false →
      (∀ value, json = .uint64 value → 2 ^ 63 ≤ value.toNat) → before json = true →
      after json = true) (signed : ∀ value, after (.int64 value) = true)
    (array : ∀ values, after (.array values) = true)
    (object : ∀ values, (values.map (·.1)).Nodup → after (.object values) = true)
    (distinct : json.distinctKeys = true) (holds : all before json = true) :
    all after (reread maps json) = true := by
  induction json using Json.induction with
  | null => exact scalar .null rfl rfl (fun _ => Json.noConfusion) holds
  | boolean value => exact scalar (.boolean value) rfl rfl (fun _ => Json.noConfusion) holds
  | int64 value => exact signed value
  | uint64 value =>
    rw [reread]
    by_cases fits : value.toNat < 2 ^ 63
    · rw [if_pos fits]
      exact signed _
    · rw [if_neg fits]
      refine scalar (.uint64 value) rfl rfl (fun other same => ?_) holds
      cases same
      exact Nat.le_of_not_lt fits
  | double bits => exact scalar (.double bits) rfl rfl (fun _ => Json.noConfusion) holds
  | string value => exact scalar (.string value) rfl rfl (fun _ => Json.noConfusion) holds
  | array values ih =>
    rw [reread_array, all_array]
    refine ⟨array _, fun item listed => ?_⟩
    obtain ⟨source, member, rfl⟩ := mem_map.mp listed
    exact ih source member ((all_array.mp distinct).2 source member)
      ((all_array.mp holds).2 source member)
  | object values ih =>
    have keys := @rereadKeys_of_distinct maps values distinct
    rw [reread_object, all_object]
    refine ⟨object _ ?_, fun entry listed => ?_⟩
    · rw [MapOrder.iterate_keys keys]
      exact (maps.perm _).nodup_iff.mpr keys
    · obtain ⟨source, member, rfl⟩ :=
        mem_map.mp ((MapOrder.iterate_perm keys).mem_iff.mp listed)
      exact ih source member ((all_object.mp distinct).2 source member)
        ((all_object.mp holds).2 source member)

theorem all_true : all (fun _ => true) json = true := by
  induction json using Json.induction with
  | array values ih => exact all_array.mpr ⟨rfl, ih⟩
  | object values ih => exact all_object.mpr ⟨rfl, ih⟩
  | _ => rfl

theorem noDouble_reread {json : Json} (distinct : json.distinctKeys = true)
    (plain : json.noDouble = true) : (reread maps json).noDouble = true :=
  all_reread (fun _ _ _ _ holds => holds) (fun _ => rfl) (fun _ => rfl) (fun _ _ => rfl) distinct
    plain

theorem distinctKeys_reread {json : Json} (distinct : json.distinctKeys = true) :
    (reread maps json).distinctKeys = true := by
  refine all_reread (fun json _ notObject _ _ => ?_) (fun _ => rfl) (fun _ => rfl)
    (fun values keys => decide_eq_true keys) distinct all_true
  cases json with
  | object values => cases notObject
  | _ => rfl

theorem noSmallUnsigned_reread (distinct : json.distinctKeys = true) :
    (reread maps json).noSmallUnsigned = true := by
  refine all_reread (fun json _ _ large _ => ?_) (fun _ => rfl) (fun _ => rfl) (fun _ _ => rfl)
    distinct all_true
  cases json with
  | uint64 value => exact decide_eq_true (large value rfl)
  | _ => rfl

/-- Where no tag changes and maps keep the order of insertion, nothing changes. -/
theorem reread_insertionOrder (distinct : json.distinctKeys = true)
    (plain : json.noSmallUnsigned = true) : reread insertionOrder json = json := by
  induction json using Json.induction with
  | array values ih =>
    have each : values.map (reread insertionOrder) = values.map id :=
      map_congr_left fun item member =>
        ih item member ((all_array.mp distinct).2 item member)
          ((all_array.mp plain).2 item member)
    rw [reread_array, each, map_id]
  | object values ih =>
    have each : (values.map fun entry => (entry.1, reread insertionOrder entry.2)) =
        values.map id :=
      map_congr_left fun entry member => by
        rw [ih entry member ((all_object.mp distinct).2 entry member)
          ((all_object.mp plain).2 entry member)]
        rfl
    rw [reread_object, each, map_id, iterate_insertionOrder (keys_of_distinct distinct)]
  | uint64 value =>
    have large : 2 ^ 63 ≤ value.toNat := of_decide_eq_true plain
    rw [reread, if_neg (Nat.not_lt.mpr large)]
  | _ => rfl

theorem parse_dump (maps : MapOrder) (numerals : Numerals) (plain : json.noDouble = true)
    (distinct : json.distinctKeys = true) :
    parse maps numerals (dump numerals json) = .ok (reread maps json) := by
  obtain ⟨first, others, split, visible, _⟩ := @JsonParser.dump_head numerals json plain
  have start : JsonParser.skipSpace (dump numerals json) = dump numerals json := by
    rw [split]
    exact JsonParser.skipSpace_cons visible others
  have read := @JsonParser.parseValue_dump maps numerals json plain distinct
    ((dump numerals json).length + 1) [] (.inl rfl) (Nat.le_succ _)
  rw [append_nil] at read
  rw [parse, start, read]
  rfl

/-- Two values with one text are read back as one value. -/
theorem reread_eq_of_dump_eq {first second : Json} (plain : first.noDouble = true)
    (distinct : first.distinctKeys = true) (plainToo : second.noDouble = true)
    (distinctToo : second.distinctKeys = true) (same : dump numerals first = dump numerals second) :
    reread maps first = reread maps second := by
  have read := parse_dump maps numerals plain distinct
  rw [same, parse_dump maps numerals plainToo distinctToo] at read
  exact (Except.ok.inj read).symm

theorem ordered_of_reread_eq (distinct : json.distinctKeys = true)
    (equal : reread maps json = reread insertionOrder json) : json.ordered maps = true := by
  induction json using Json.induction with
  | array values ih =>
    rw [reread_array, reread_array] at equal
    have each := map_inj_left.mp (Json.array.inj equal)
    exact all_array.mpr ⟨rfl, fun item member =>
      ih item member ((all_array.mp distinct).2 item member) (each item member)⟩
  | object values ih =>
    have keys := @rereadKeys_of_distinct maps values distinct
    rw [reread_object, reread_object,
      iterate_insertionOrder (rereadKeys_of_distinct distinct)] at equal
    have entries := Json.object.inj equal
    have kept : maps.order (values.map (·.1)) = values.map (·.1) := by
      have listed := congrArg (map (·.1)) entries
      rw [MapOrder.iterate_keys keys, keys_rereadEntries, keys_rereadEntries] at listed
      exact listed
    rw [iterate_reread distinct kept] at entries
    have each := map_inj_left.mp entries
    exact all_object.mpr ⟨decide_eq_true kept, fun entry member =>
      ih entry member ((all_object.mp distinct).2 entry member)
        (congrArg Prod.snd (each entry member))⟩
  | _ => rfl

/-- The text changes exactly if a map comes back in another order. -/
theorem dump_reread_iff (plain : json.noDouble = true) (distinct : json.distinctKeys = true) :
    dump numerals (reread maps json) = dump numerals json ↔ json.ordered maps = true := by
  constructor
  · intro same
    have plainToo := @noDouble_reread maps _ distinct plain
    have distinctToo := @distinctKeys_reread maps _ distinct
    have equal := @reread_eq_of_dump_eq insertionOrder numerals _ _ plainToo distinctToo plain
      distinct same
    rw [reread_insertionOrder distinctToo (noSmallUnsigned_reread distinct)] at equal
    exact ordered_of_reread_eq distinct equal
  · exact dump_reread distinct

/-- The text of a value without doubles is always read. What is read equals the value and
has the same text exactly if no unsigned integer fits `Int64` and the maps keep their
order; and values without such integers that have one text are equal. -/
theorem json_round_trip (maps : MapOrder) (numerals : Numerals) (json : Json)
    (plain : json.noDouble = true) (distinct : json.distinctKeys = true) :
    (∃ result, parse maps numerals (dump numerals json) = .ok result ∧
      (same result json = true ↔ json.noSmallUnsigned = true) ∧
      (dump numerals result = dump numerals json ↔ json.ordered maps = true)) ∧
    ∀ other : Json, other.noDouble = true → other.distinctKeys = true →
      json.noSmallUnsigned = true → other.noSmallUnsigned = true →
      dump numerals json = dump numerals other → same json other = true := by
  refine ⟨⟨reread maps json, parse_dump maps numerals plain distinct, same_reread distinct,
    dump_reread_iff plain distinct⟩, ?_⟩
  intro other otherPlain otherDistinct large otherLarge sameText
  have equal := @reread_eq_of_dump_eq insertionOrder numerals _ _ plain distinct otherPlain
    otherDistinct sameText
  rw [reread_insertionOrder distinct large] at equal
  rw [equal]
  exact (same_reread otherDistinct).mpr otherLarge

/-- A map that iterates over its newest key first, as small maps of libstdc++ do. -/
def reversedOrder : MapOrder := ⟨reverse, fun keys => reverse_perm keys⟩

def sampleObject : Json := .object [(ascii "a", .int64 1), (ascii "b", .int64 2)]

/-- An unsigned five comes back as a signed one, and the members of an object come back
in another order. -/
theorem round_trip_changes :
    (parse reversedOrder sampleNumerals (dump sampleNumerals (.uint64 5))).toOption.map
      (same · (.uint64 5)) = some false ∧
    (parse reversedOrder sampleNumerals (dump sampleNumerals sampleObject)).toOption.map
      (fun result => (same result sampleObject, decide (dump sampleNumerals result =
        dump sampleNumerals sampleObject))) = some (true, false) := by
  decide

def sampleJson : Json :=
  .object [(ascii "n", .array [.int64 (-1), .uint64 18446744073709551615, .null]),
    (ascii "\t\"", .string [0, 34, 92, 200])]

theorem json_round_trip_sample :
    ∃ result, parse insertionOrder sampleNumerals (dump sampleNumerals sampleJson) = .ok result ∧
      same result sampleJson = true ∧
      dump sampleNumerals result = dump sampleNumerals sampleJson := by
  obtain ⟨⟨result, read, equal, text⟩, _⟩ :=
    json_round_trip insertionOrder sampleNumerals sampleJson (by decide) (by decide)
  exact ⟨result, read, equal.mpr (by decide), text.mpr (by decide)⟩

end Json

end Gungnir.Http
