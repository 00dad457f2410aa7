import Gungnir.Http.JsonParser
import Mathlib.Data.List.TakeWhile

/-!
# Reading back what was written

A value without doubles is read back from its text with two changes: an unsigned
integer that fits `Int64` comes back signed, and the entries of an object come back in
the order in which the new map iterates.
-/

namespace Gungnir.Http

open Gungnir.Core Gungnir.Library List

/-! ## The order of a map -/

variable {entries : List (Bytes × Json)} {value : Json} {key : Bytes}

theorem lookup_of_mem (distinct : (entries.map (·.1)).Nodup) (member : (key, value) ∈ entries) :
    entries.lookup key = some value := by
  induction entries with
  | nil => cases member
  | cons entry rest ih =>
    obtain ⟨name, other⟩ := entry
    rw [map_cons, nodup_cons] at distinct
    rcases mem_cons.mp member with same | later
    · cases same
      exact lookup_cons_self
    · have differs : (key == name) = false := by
        rw [beq_eq_false_iff_ne]
        rintro rfl
        exact distinct.1 (mem_map.mpr ⟨(key, value), later, rfl⟩)
      rw [lookup_cons, differs]
      exact ih distinct.2 later

theorem lookup_eq_some_iff (distinct : (entries.map (·.1)).Nodup) :
    entries.lookup key = some value ↔ (key, value) ∈ entries := by
  constructor
  · intro found
    obtain ⟨before, after, split, _⟩ := List.lookup_eq_some_iff.mp found
    rw [split]
    exact mem_append_right before mem_cons_self
  · exact lookup_of_mem distinct

theorem lookup_map (change : Json → Json) (entries : List (Bytes × Json)) (key : Bytes) :
    (entries.map fun entry => (entry.1, change entry.2)).lookup key =
      (entries.lookup key).map change := by
  induction entries with
  | nil => rfl
  | cons entry rest ih =>
    rw [map_cons, lookup_cons, lookup_cons, ih]
    cases key == entry.1 <;> rfl

namespace MapOrder

variable {maps : MapOrder} {entries : List (Bytes × Json)}

theorem iterate_nil (maps : MapOrder) : maps.iterate ([] : List (Bytes × Json)) = [] := by
  have empty : maps.order [] = [] := perm_nil.mp (maps.perm [])
  unfold iterate
  rw [map_nil, empty, filterMap_nil]

section

variable (distinct : (entries.map (·.1)).Nodup)
include distinct

theorem filterMap_keys :
    ((entries.map (·.1)).filterMap fun key =>
      (entries.lookup key).map fun value => (key, value)) = entries := by
  have each : ∀ entry ∈ entries,
      ((entries.lookup entry.1).map fun value => (entry.1, value)) = some entry := by
    intro entry member
    rw [lookup_of_mem distinct member, Option.map_some]
  rw [filterMap_map]
  exact (filterMap_congr each).trans filterMap_some

theorem iterate_perm : (maps.iterate entries).Perm entries := by
  have moved := (maps.perm (entries.map (·.1))).filterMap fun key =>
    (entries.lookup key).map fun value => (key, value)
  rw [filterMap_keys distinct] at moved
  exact moved

theorem iterate_of_order (kept : maps.order (entries.map (·.1)) = entries.map (·.1)) :
    maps.iterate entries = entries := by
  unfold iterate
  rw [kept, filterMap_keys distinct]

theorem iterate_keys : (maps.iterate entries).map (·.1) = maps.order (entries.map (·.1)) := by
  have each : ∀ key ∈ maps.order (entries.map (·.1)),
      ((entries.lookup key).map fun value => (key, value)).map (·.1) = some key := by
    intro key member
    obtain ⟨entry, listed, rfl⟩ := mem_map.mp ((maps.perm _).mem_iff.mp member)
    rw [lookup_of_mem distinct listed, Option.map_some, Option.map_some]
  unfold iterate
  rw [map_filterMap]
  exact (filterMap_congr each).trans filterMap_some

theorem lookup_iterate (key : Bytes) : (maps.iterate entries).lookup key = entries.lookup key := by
  have keys : ((maps.iterate entries).map (·.1)).Nodup := by
    rw [iterate_keys distinct]
    exact (maps.perm _).nodup_iff.mpr distinct
  refine Option.ext fun value => ?_
  rw [lookup_eq_some_iff keys, lookup_eq_some_iff distinct]
  exact (iterate_perm distinct).mem_iff

end

end MapOrder

namespace Json

/-! ## Values that are read back -/

/-- No double anywhere. -/
def noDouble : Json → Bool :=
  all fun
    | .double _ => false
    | _ => true

/-- Every object has each key once, as its map has. -/
def distinctKeys : Json → Bool :=
  all fun
    | .object entries => decide (entries.map (·.1)).Nodup
    | _ => true

/-- No unsigned integer anywhere that fits `Int64`. -/
def noSmallUnsigned : Json → Bool :=
  all fun
    | .uint64 value => decide (2 ^ 63 ≤ value.toNat)
    | _ => true

variable (maps : MapOrder)

/-- A map that is built from the entries of an object in their order keeps this order. -/
def ordered : Json → Bool :=
  all fun
    | .object entries => decide (maps.order (entries.map (·.1)) = entries.map (·.1))
    | _ => true

mutual

/-- What is read back from the text of a value. -/
def reread (maps : MapOrder) : Json → Json
  | .uint64 value =>
    if value.toNat < 2 ^ 63 then .int64 (Int64.ofInt value.toNat) else .uint64 value
  | .array values => .array (rereadItems maps values)
  | .object values => .object (maps.iterate (rereadEntries maps values))
  | other => other

def rereadItems (maps : MapOrder) : List Json → List Json
  | [] => []
  | item :: rest => reread maps item :: rereadItems maps rest

def rereadEntries (maps : MapOrder) : List (Bytes × Json) → List (Bytes × Json)
  | [] => []
  | (key, item) :: rest => (key, reread maps item) :: rereadEntries maps rest

end

theorem rereadItems_eq (values : List Json) :
    rereadItems maps values = values.map (reread maps) := by
  induction values with
  | nil => rfl
  | cons item rest ih => rw [rereadItems, ih, map_cons]

theorem rereadEntries_eq (values : List (Bytes × Json)) :
    rereadEntries maps values = values.map fun entry => (entry.1, reread maps entry.2) := by
  induction values with
  | nil => rfl
  | cons entry rest ih => rw [rereadEntries, ih, map_cons]

theorem assign_of_notMem (fresh : key ∉ entries.map (·.1)) (value : Json) :
    assign entries key value = entries ++ [(key, value)] := by
  induction entries with
  | nil => rfl
  | cons entry rest ih =>
    obtain ⟨name, other⟩ := entry
    rw [map_cons, mem_cons, not_or] at fresh
    have differs : name ≠ key := fun same => fresh.1 same.symm
    rw [assign, if_neg differs, ih fresh.2, cons_append]

end Json

namespace JsonParser

/-! ## Strings -/

theorem hexValue_hexDigit {value : Nat} (small : value < 16) :
    hexValue (hexDigit value) = .ok value := by
  have table : ∀ value : Fin 16, (hexValue (hexDigit value.val)).toOption = some value.val := by
    decide
  have read := table ⟨value, small⟩
  cases found : hexValue (hexDigit value) with
  | error raised =>
    rw [found] at read
    cases read
  | ok number =>
    rw [found] at read
    cases read
    rfl

theorem appendUtf8_ascii {character : UInt8} (low : character < 128) :
    appendUtf8 character.toNat = [character] := by
  have bound : character.toNat ≤ 0x7F := Nat.le_of_lt_succ (UInt8.lt_iff_toNat_lt.mp low)
  rw [appendUtf8, if_pos bound, UInt8.ofNat_toNat]

theorem stringBody_control (output tail : Bytes) {character : UInt8} (low : character < 32) :
    stringBody output (ascii "\\u00" ++
      [hexDigit (character.toNat / 16), hexDigit (character.toNat % 16)] ++ tail) =
      stringBody (output ++ [character]) tail := by
  have bound : character.toNat < 32 := UInt8.lt_iff_toNat_lt.mp low
  have zero : hexValue 48 = .ok 0 := rfl
  show (do
    let a ← hexValue 48
    let b ← hexValue 48
    let c ← hexValue (hexDigit (character.toNat / 16))
    let d ← hexValue (hexDigit (character.toNat % 16))
    stringBody (output ++ appendUtf8 (((a * 16 + b) * 16 + c) * 16 + d)) tail) = _
  rw [zero, hexValue_hexDigit (by omega), hexValue_hexDigit (by omega)]
  show stringBody (output ++ appendUtf8 (((0 * 16 + 0) * 16 + character.toNat / 16) * 16 +
    character.toNat % 16)) tail = _
  have number : ((0 * 16 + 0) * 16 + character.toNat / 16) * 16 + character.toNat % 16 =
      character.toNat := by omega
  rw [number, appendUtf8_ascii (UInt8.lt_trans low (by decide))]

theorem stringBody_escapeCharacter (output tail : Bytes) (character : UInt8) :
    stringBody output (Json.escapeCharacter character ++ tail) =
      stringBody (output ++ [character]) tail := by
  unfold Json.escapeCharacter
  by_cases special : character ∈ [34, 92, 8, 12, 10, 13, 9]
  · simp only [mem_cons, not_mem_nil, or_false] at special
    rcases special with rfl | rfl | rfl | rfl | rfl | rfl | rfl <;> rfl
  simp only [mem_cons, not_mem_nil, or_false, not_or] at special
  obtain ⟨quote, backslash, backspace, formFeed, newline, carriageReturn, tab⟩ := special
  rw [if_neg quote, if_neg backslash, if_neg backspace, if_neg formFeed, if_neg newline,
    if_neg carriageReturn, if_neg tab]
  by_cases control : character < 32
  · rw [if_pos control]
    exact stringBody_control output tail control
  · rw [if_neg control, singleton_append, stringBody.eq_def]
    dsimp only
    rw [if_neg quote, if_pos backslash, if_neg control]

theorem stringBody_escapeString (output value rest : Bytes) :
    stringBody output (Json.escapeString value ++ 34 :: rest) = .ok (output ++ value, rest) := by
  induction value generalizing output with
  | nil =>
    rw [append_nil]
    unfold stringBody
    rfl
  | cons character value ih =>
    rw [Json.escapeString, flatMap_cons, append_assoc, stringBody_escapeCharacter,
      ← Json.escapeString, ih, append_assoc, singleton_append]

/-! ## Numbers -/

/-- What may follow a value inside a text. -/
def Follows (rest : Bytes) : Prop := rest = [] ∨ rest.head? ∈ [some 44, some 93, some 125]

variable {rest : Bytes}

theorem Follows.head_ne (follows : Follows rest) {head : UInt8} {tail : Bytes}
    (split : rest = head :: tail) : head = 44 ∨ head = 93 ∨ head = 125 := by
  rcases follows with empty | listed
  · rw [empty] at split
    cases split
  · rw [split] at listed
    simpa using listed

theorem takeWhile_digits {digits rest : Bytes} (only : ∀ byte ∈ digits, isDigit byte = true)
    (follows : Follows rest) :
    (digits ++ rest).takeWhile isDigit = digits ∧ (digits ++ rest).dropWhile isDigit = rest := by
  have stops : rest.takeWhile isDigit = [] ∧ rest.dropWhile isDigit = rest := by
    cases rest with
    | nil => exact ⟨rfl, rfl⟩
    | cons head tail =>
      rcases follows.head_ne rfl with rfl | rfl | rfl <;> exact ⟨rfl, rfl⟩
  rw [takeWhile_append_of_pos only, dropWhile_append_of_pos only, stops.1, stops.2,
    append_nil]
  exact ⟨rfl, rfl⟩

theorem isDigit_iff {byte : UInt8} : isDigit byte = true ↔ 48 ≤ byte.toNat ∧ byte.toNat ≤ 57 := by
  simp only [isDigit, Bool.and_eq_true, decide_eq_true_eq, UInt8.le_iff_toNat_le]
  exact Iff.rfl

theorem isDigit_print {value : Nat} {byte : UInt8} (member : byte ∈ stdToString value) :
    isDigit byte = true := isDigit_iff.mpr (Decimal.mem_print_digit member)

variable (token : Bytes)

theorem scanInteger_print (value : Nat) (follows : Follows rest) :
    scanInteger (token, stdToString value ++ rest) = .ok (token ++ stdToString value, rest) := by
  cases value with
  | zero => rfl
  | succ value =>
    obtain ⟨first, others, split, nonzero⟩ := Decimal.print_succ value
    have digits := takeWhile_digits (fun _ => @isDigit_print (value + 1) _) follows
    have member : first ∈ stdToString (value + 1) := by
      rw [stdToString, split]
      exact mem_cons_self
    have bounds := Decimal.mem_print_digit member
    rw [stdToString, split, cons_append] at digits ⊢
    unfold scanInteger
    dsimp only
    rw [if_neg nonzero, digits.1, digits.2, if_neg]
    rintro (low | high)
    · have differs : first.toNat ≠ 48 := fun same => nonzero (UInt8.toNat_inj.mp same)
      have below : first.toNat < 49 := UInt8.lt_iff_toNat_lt.mp low
      omega
    · have above : 57 < first.toNat := UInt8.lt_iff_toNat_lt.mp high
      omega

theorem print_head (value : Nat) :
    ∃ first others, stdToString value = first :: others ∧ isDigit first = true ∧ first ≠ 45 := by
  cases split : stdToString value with
  | nil => exact absurd split (Decimal.print_ne_nil value)
  | cons first others =>
    have member : first ∈ stdToString value := split ▸ mem_cons_self
    refine ⟨first, others, rfl, isDigit_print member, ?_⟩
    rintro rfl
    exact absurd (Decimal.mem_print_digit member).1 (by decide)

theorem scanSign_print (sign : Bytes) (signs : sign = [] ∨ sign = [45]) (value : Nat)
    (rest : Bytes) :
    scanSign (sign ++ stdToString value ++ rest) = (sign, stdToString value ++ rest) := by
  rcases signs with rfl | rfl
  · obtain ⟨first, others, split, _, differs⟩ := print_head value
    rw [nil_append, split, cons_append]
    unfold scanSign
    split
    · rename_i same
      exact absurd (cons.inj same).1 differs
    · rfl
  · rfl

theorem scanFraction_follows (follows : Follows rest) :
    scanFraction (token, rest) = .ok ((token, rest), false) := by
  cases rest with
  | nil => rfl
  | cons head tail => rcases follows.head_ne rfl with rfl | rfl | rfl <;> rfl

theorem scanExponent_follows (follows : Follows rest) :
    scanExponent (token, rest) = .ok ((token, rest), false) := by
  cases rest with
  | nil => rfl
  | cons head tail => rcases follows.head_ne rfl with rfl | rfl | rfl <;> rfl

variable (numerals : Numerals)

/-- A printed integer is scanned whole, and nothing behind it. -/
theorem parseNumber_print (sign : Bytes) (signs : sign = [] ∨ sign = [45]) (value : Nat)
    (follows : Follows rest) :
    parseNumber numerals (sign ++ stdToString value ++ rest) = (do
      return (← numberValue numerals (sign ++ stdToString value) false, rest)) := by
  unfold parseNumber
  rw [scanSign_print sign signs, scanInteger_print sign value follows]
  dsimp only [bind, Except.bind]
  rw [scanFraction_follows _ follows]
  dsimp only
  rw [scanExponent_follows _ follows]
  rfl

theorem fromCharsInt64_digits (value : Nat) :
    fromCharsInt64 (stdToString value) =
      (fromChars (2 ^ 63) (stdToString value)).map fun value : Nat => Int64.ofInt value := by
  obtain ⟨first, others, split, _, differs⟩ := print_head value
  rw [split]
  unfold fromCharsInt64
  split
  · rename_i same
    exact absurd (cons.inj same).1 differs
  · rfl

theorem fromCharsInt64_signed (value : Int64) :
    fromCharsInt64 (stdToStringSigned value.toInt) = some value := by
  have lower := value.le_toInt
  have upper := value.toInt_lt
  unfold stdToStringSigned
  split
  · rename_i negative
    have parsed : fromChars (2 ^ 63 + 1) (stdToString value.toInt.natAbs) =
        some value.toInt.natAbs := Decimal.parse_print (by omega)
    have back : -(value.toInt.natAbs : Int) = value.toInt := by omega
    show (fromChars (2 ^ 63 + 1) (stdToString value.toInt.natAbs)).map _ = _
    rw [parsed, Option.map_some, back, Int64.ofInt_toInt]
  · rename_i positive
    have parsed : fromChars (2 ^ 63) (stdToString value.toInt.natAbs) =
        some value.toInt.natAbs := Decimal.parse_print (by omega)
    have back : (value.toInt.natAbs : Int) = value.toInt := by omega
    rw [fromCharsInt64_digits, parsed, Option.map_some, back, Int64.ofInt_toInt]

theorem numberValue_signed (value : Int64) :
    numberValue numerals (stdToStringSigned value.toInt) false = .ok (.int64 value) := by
  simp only [numberValue, fromCharsInt64_signed, Bool.false_eq_true, if_false]

/-- The text of a number that fits `Int64` does not depend on its tag. -/
theorem stdToStringSigned_ofNat {value : Nat} (fits : value < 2 ^ 63) :
    stdToStringSigned (Int64.ofInt value).toInt = stdToString value := by
  have back : (Int64.ofInt value).toInt = value := Int64.toInt_ofInt_of_le (by omega) (by omega)
  rw [back, stdToStringSigned, if_neg (by omega), Int.natAbs_natCast]

/-- An unsigned integer that fits `Int64` is read as a signed one. -/
theorem numberValue_unsigned (value : UInt64) :
    numberValue numerals (stdToString value.toNat) false =
      .ok (if value.toNat < 2 ^ 63 then .int64 (Int64.ofInt value.toNat) else .uint64 value) := by
  by_cases fits : value.toNat < 2 ^ 63
  · have read : fromCharsInt64 (stdToString value.toNat) = some (Int64.ofInt value.toNat) := by
      have parsed : fromChars (2 ^ 63) (stdToString value.toNat) = some value.toNat :=
        Decimal.parse_print fits
      rw [fromCharsInt64_digits, parsed, Option.map_some]
    rw [if_pos fits]
    simp only [numberValue, read, Bool.false_eq_true, if_false]
  · have read : fromCharsInt64 (stdToString value.toNat) = none := by
      have parsed : fromChars (2 ^ 63) (stdToString value.toNat) = none :=
        Decimal.parse_print_of_le (Nat.le_of_not_lt fits)
      rw [fromCharsInt64_digits, parsed, Option.map_none]
    have unsigned : fromChars sizeBound (stdToString value.toNat) = some value.toNat :=
      Decimal.parse_print value.toNat_lt
    obtain ⟨first, others, split, _, differs⟩ := print_head value.toNat
    have plain : stdToString value.toNat ≠ [] ∧ (stdToString value.toNat).head? ≠ some 45 := by
      rw [split]
      simp [differs]
    rw [if_neg fits]
    simp only [numberValue, read, unsigned, Bool.false_eq_true, if_false, Option.map_some,
      UInt64.ofNat_toNat]
    rw [if_pos plain]

/-! ## Values -/

variable {maps : MapOrder} {numerals : Numerals} {first : UInt8}

theorem skipSpace_cons (visible : isSpace first = false) (others : Bytes) :
    skipSpace (first :: others) = first :: others := by
  rw [skipSpace, dropWhile_cons_of_neg (by rw [visible]; exact Bool.false_ne_true)]

theorem isSpace_of_isDigit {byte : UInt8} (digit : isDigit byte = true) :
    isSpace byte = false ∧ byte ≠ 93 ∧ byte ≠ 125 ∧ byte ≠ 34 ∧ byte ≠ 123 ∧ byte ≠ 91 := by
  have bounds := isDigit_iff.mp digit
  have away : ∀ other : UInt8, (other.toNat < 48 ∨ 57 < other.toNat) → byte ≠ other := by
    rintro other outside rfl
    omega
  have blank : isSpace byte = false := by
    simp only [isSpace, Bool.or_eq_false_iff, beq_eq_false_iff_ne]
    exact ⟨⟨⟨away 32 (by decide), away 10 (by decide)⟩, away 13 (by decide)⟩, away 9 (by decide)⟩
  exact ⟨blank, away 93 (by decide), away 125 (by decide), away 34 (by decide),
    away 123 (by decide), away 91 (by decide)⟩

variable {json : Json}

/-- A text of a value begins with a character that is no space and ends no container. -/
theorem dump_head (plain : json.noDouble = true) :
    ∃ first others, json.dump numerals = first :: others ∧ isSpace first = false ∧
      first ≠ 93 ∧ first ≠ 125 := by
  have numeral : ∀ value, ∃ first others, stdToString value = first :: others ∧
      isSpace first = false ∧ first ≠ 93 ∧ first ≠ 125 := by
    intro value
    obtain ⟨first, others, split, digit, _⟩ := print_head value
    have apart := isSpace_of_isDigit digit
    exact ⟨first, others, split, apart.1, apart.2.1, apart.2.2.1⟩
  cases json with
  | null => exact ⟨110, _, rfl, by decide⟩
  | boolean value =>
    cases value with
    | true => exact ⟨116, _, rfl, by decide⟩
    | false => exact ⟨102, _, rfl, by decide⟩
  | int64 value =>
    show ∃ first others, stdToStringSigned value.toInt = first :: others ∧ _
    unfold stdToStringSigned
    split
    · exact ⟨45, _, rfl, by decide⟩
    · exact numeral _
  | uint64 value => exact numeral _
  | double bits => cases plain
  | string value => exact ⟨34, _, rfl, by decide⟩
  | array values => exact ⟨91, _, rfl, by decide⟩
  | object values => exact ⟨123, _, rfl, by decide⟩

/-- The text of the value is read back, and nothing behind it. -/
def ReadsBack (maps : MapOrder) (numerals : Numerals) (json : Json) : Prop :=
  ∀ fuel tail, Follows tail → (json.dump numerals).length ≤ fuel →
    parseValue maps numerals fuel (json.dump numerals ++ tail) = .ok (json.reread maps, tail)

theorem parseItems_dump {first : Json} {rest : List Json}
    (each : ∀ item ∈ first :: rest, ReadsBack maps numerals item) (items : List Json) (fuel : Nat)
    (tail : Bytes)
    (enough : (first.dump numerals ++ Json.dumpItems numerals false rest).length < fuel) :
    parseItems maps numerals fuel items
        (first.dump numerals ++ Json.dumpItems numerals false rest ++ 93 :: tail) =
      .ok (.array (items ++ (first :: rest).map (Json.reread maps)), tail) := by
  induction rest generalizing first items fuel with
  | nil =>
    cases fuel with
    | zero => cases enough
    | succ fuel =>
      rw [Json.dumpItems, append_nil] at enough ⊢
      have read := each first mem_cons_self fuel (93 :: tail) (.inr (by simp))
        (Nat.le_of_lt_succ enough)
      rw [parseItems, read]
      rfl
  | cons second rest ih =>
    cases fuel with
    | zero => cases enough
    | succ fuel =>
      have text : Json.dumpItems numerals false (second :: rest) =
          44 :: (second.dump numerals ++ Json.dumpItems numerals false rest) := rfl
      rw [text] at enough ⊢
      rw [length_append, length_cons] at enough
      have read := each first mem_cons_self fuel
        (44 :: (second.dump numerals ++ Json.dumpItems numerals false rest ++ 93 :: tail))
        (.inr (by simp)) (by omega)
      have further := ih (forall_mem_cons.mp each).2
        (items ++ [first.reread maps]) fuel (by omega)
      rw [append_assoc, cons_append, parseItems, read]
      show parseItems maps numerals fuel (items ++ [first.reread maps])
        (second.dump numerals ++ Json.dumpItems numerals false rest ++ 93 :: tail) = _
      rw [further, append_assoc, singleton_append]
      rfl

/-- The text of the members of an object from a first one on. -/
def entriesText (numerals : Numerals) (key : Bytes) (value : Json) (rest : List (Bytes × Json)) :
    Bytes :=
  34 :: (Json.escapeString key ++ 34 :: 58 :: (value.dump numerals ++
    Json.dumpEntries numerals false rest))

theorem dumpEntries_cons (numerals : Numerals) (first : Bool) (key : Bytes) (value : Json)
    (rest : List (Bytes × Json)) :
    Json.dumpEntries numerals first ((key, value) :: rest) =
      (if first then [] else [44]) ++ entriesText numerals key value rest := by
  have quote : ascii "\"" = [34] := rfl
  have colon : ascii "\":" = [34, 58] := rfl
  have comma : ascii "," = [44] := rfl
  simp only [Json.dumpEntries, entriesText, quote, colon, comma, append_assoc,
    cons_append, nil_append]

/-- One round of the loop over the members. -/
theorem parseEntries_step {fuel : Nat} {key source rest : Bytes} {current : UInt8}
    (read : parseValue maps numerals fuel source = .ok (value, current :: rest))
    (visible : isSpace current = false) :
    parseEntries maps numerals (fuel + 1) entries
        (34 :: (Json.escapeString key ++ 34 :: 58 :: source)) =
      if current = 125 then .ok (.object (maps.iterate (Json.assign entries key value)), rest)
      else if current ≠ 44 then .error (.invalidArgument "JSON object is missing ','")
      else parseEntries maps numerals fuel (Json.assign entries key value) rest := by
  have body := stringBody_escapeString [] key (58 :: source)
  have colon : skipSpace (58 :: source) = 58 :: source := skipSpace_cons rfl source
  have next : skipSpace (current :: rest) = current :: rest := skipSpace_cons visible rest
  rw [parseEntries, skipSpace_cons rfl]
  simp only [body, bind, Except.bind, nil_append, colon, read, next]

theorem parseEntries_dump {rest : List (Bytes × Json)}
    (each : ∀ entry ∈ (key, value) :: rest, ReadsBack maps numerals entry.2)
    (entries : List (Bytes × Json)) (fuel : Nat) (tail : Bytes)
    (distinct : (entries.map (·.1) ++ key :: rest.map (·.1)).Nodup)
    (enough : (entriesText numerals key value rest).length < fuel) :
    parseEntries maps numerals fuel entries (entriesText numerals key value rest ++ 125 :: tail) =
      .ok (.object (maps.iterate (entries ++
        ((key, value) :: rest).map fun entry => (entry.1, entry.2.reread maps))), tail) := by
  induction rest generalizing key value entries fuel with
  | nil =>
    cases fuel with
    | zero => cases enough
    | succ fuel =>
      have fresh : key ∉ entries.map (·.1) := fun member =>
        disjoint_of_nodup_append distinct member mem_cons_self
      have text : entriesText numerals key value [] ++ 125 :: tail =
          34 :: (Json.escapeString key ++ 34 :: 58 :: (value.dump numerals ++ 125 :: tail)) := by
        simp [entriesText, Json.dumpEntries]
      simp only [entriesText, length_cons, length_append] at enough
      have read := each (key, value) mem_cons_self fuel (125 :: tail) (.inr (by simp))
        (by dsimp only; omega)
      rw [text, parseEntries_step read rfl, if_pos rfl, Json.assign_of_notMem fresh]
      rfl
  | cons second rest ih =>
    obtain ⟨name, other⟩ := second
    cases fuel with
    | zero => cases enough
    | succ fuel =>
      have fresh : key ∉ entries.map (·.1) := fun member =>
        disjoint_of_nodup_append distinct member mem_cons_self
      have text : entriesText numerals key value ((name, other) :: rest) ++ 125 :: tail =
          34 :: (Json.escapeString key ++ 34 :: 58 :: (value.dump numerals ++
            44 :: (entriesText numerals name other rest ++ 125 :: tail))) := by
        rw [entriesText, dumpEntries_cons]
        simp
      rw [entriesText, dumpEntries_cons] at enough
      simp only [length_cons, length_append] at enough
      have read := each (key, value) mem_cons_self fuel
        (44 :: (entriesText numerals name other rest ++ 125 :: tail)) (.inr (by simp))
        (by dsimp only; omega)
      have moved : ((entries ++ [(key, value.reread maps)]).map (·.1) ++
          name :: rest.map (·.1)).Nodup := by
        rw [map_append, append_assoc]
        exact distinct
      have further := ih (forall_mem_cons.mp each).2
        (entries ++ [(key, value.reread maps)]) fuel moved (by omega)
      rw [text, parseEntries_step read rfl, if_neg (by decide), if_neg (by decide),
        Json.assign_of_notMem fresh, further, append_assoc]
      rfl

variable (fuel : Nat)

theorem parseValue_string (value tail : Bytes) :
    parseValue maps numerals (fuel + 1) (34 :: (Json.escapeString value ++ 34 :: tail)) =
      .ok (.string value, tail) := by
  have body := stringBody_escapeString [] value tail
  rw [parseValue, skipSpace_cons rfl]
  simp only [body, if_true, bind, Except.bind, pure, Except.pure, nil_append]

variable (others : Bytes)

theorem parseValue_number (starts : first = 45 ∨ isDigit first = true) :
    parseValue maps numerals (fuel + 1) (first :: others) =
      parseNumber numerals (first :: others) := by
  have apart : isSpace first = false ∧ first ≠ 34 ∧ first ≠ 123 ∧ first ≠ 91 ∧
      first ≠ 116 ∧ first ≠ 102 ∧ first ≠ 110 := by
    rcases starts with rfl | digit
    · decide
    · have bounds := isDigit_iff.mp digit
      obtain ⟨visible, _, _, quote, brace, bracket⟩ := isSpace_of_isDigit digit
      refine ⟨visible, quote, brace, bracket, ?_, ?_, ?_⟩
      all_goals
        rintro rfl
        exact absurd bounds.2 (by decide)
  obtain ⟨visible, quote, brace, bracket, letterT, letterF, letterN⟩ := apart
  have literal : ∀ (head : UInt8) (rest : Bytes), first ≠ head →
      consume (head :: rest) (first :: others) = none := by
    intro head rest differs
    have unequal : (head == first) = false := beq_eq_false_iff_ne.mpr differs.symm
    simp [consume, isPrefixOf, unequal]
  have noTrue : consume (ascii "true") (first :: others) = none := literal 116 _ letterT
  have noFalse : consume (ascii "false") (first :: others) = none := literal 102 _ letterF
  have noNull : consume (ascii "null") (first :: others) = none := literal 110 _ letterN
  rw [parseValue, skipSpace_cons visible]
  simp only [quote, brace, bracket, if_false, noTrue, noFalse, noNull, starts, if_true]

theorem parseValue_items (visible : isSpace first = false) (differs : first ≠ 93) :
    parseValue maps numerals (fuel + 1) (91 :: first :: others) =
      parseItems maps numerals fuel [] (first :: others) := by
  rw [parseValue, skipSpace_cons rfl]
  dsimp only
  rw [if_neg (by decide), if_neg (by decide), if_pos rfl, skipSpace_cons visible]
  split
  · rename_i same
    exact absurd (cons.inj same).1 differs
  · rfl

theorem parseValue_integer (sign : Bytes) (signs : sign = [] ∨ sign = [45]) (value : Nat)
    {tail : Bytes} (follows : Follows tail) {result : Json}
    (read : numberValue numerals (sign ++ stdToString value) false = .ok result) :
    parseValue maps numerals (fuel + 1) (sign ++ stdToString value ++ tail) =
      .ok (result, tail) := by
  have whole := parseNumber_print numerals sign signs value follows
  rw [read] at whole
  have starts : ∃ first others, sign ++ stdToString value ++ tail = first :: others ∧
      (first = 45 ∨ isDigit first = true) := by
    rcases signs with rfl | rfl
    · obtain ⟨first, others, split, digit, _⟩ := print_head value
      exact ⟨first, others ++ tail, by rw [split]; rfl, .inr digit⟩
    · exact ⟨45, stdToString value ++ tail, rfl, .inl rfl⟩
  obtain ⟨first, others, split, begins⟩ := starts
  rw [split] at whole ⊢
  rw [parseValue_number fuel others begins, whole]
  rfl

/-- Reading a value takes at least one round. -/
theorem ReadsBack.of_succ (plain : json.noDouble = true)
    (reads : ∀ fuel tail, Follows tail → (json.dump numerals).length ≤ fuel + 1 →
      parseValue maps numerals (fuel + 1) (json.dump numerals ++ tail) =
        .ok (json.reread maps, tail)) : ReadsBack maps numerals json := by
  intro fuel tail follows enough
  cases fuel with
  | zero =>
    obtain ⟨first, others, split, _⟩ := @dump_head numerals json plain
    rw [split] at enough
    cases enough
  | succ fuel => exact reads fuel tail follows enough

theorem parseValue_dump (plain : json.noDouble = true) (distinct : json.distinctKeys = true) :
    ReadsBack maps numerals json := by
  refine .of_succ plain fun fuel tail follows enough => ?_
  induction json using Json.induction generalizing fuel tail with
  | null => rfl
  | boolean value => cases value <;> rfl
  | int64 value =>
    have read := numberValue_signed numerals value
    show parseValue maps numerals (fuel + 1) (stdToStringSigned value.toInt ++ tail) = _
    unfold stdToStringSigned at read ⊢
    split
    · rename_i negative
      rw [if_pos negative] at read
      exact parseValue_integer fuel [45] (.inr rfl) _ follows read
    · rename_i positive
      rw [if_neg positive] at read
      exact parseValue_integer fuel [] (.inl rfl) _ follows read
  | uint64 value =>
    exact parseValue_integer fuel [] (.inl rfl) _ follows (numberValue_unsigned numerals value)
  | double bits => cases plain
  | string value =>
    have text : (Json.string value).dump numerals ++ tail =
        34 :: (Json.escapeString value ++ 34 :: tail) := by
      simp [Json.dump, ascii]
    rw [text]
    exact parseValue_string fuel value tail
  | array values ih =>
    have plainItems := (Json.all_array.mp plain).2
    have distinctItems := (Json.all_array.mp distinct).2
    cases values with
    | nil => rfl
    | cons first rest =>
      have text : (Json.array (first :: rest)).dump numerals =
          91 :: (first.dump numerals ++ Json.dumpItems numerals false rest ++ [93]) := rfl
      obtain ⟨head, others, split, visible, differs, _⟩ :=
        @dump_head numerals first (plainItems first mem_cons_self)
      have loop := parseItems_dump (fun item member => .of_succ (plainItems item member)
        (ih item member (plainItems item member) (distinctItems item member))) [] fuel tail (by
            rw [text] at enough
            simp only [length_cons, length_append, length_nil] at enough ⊢
            omega)
      rw [text, cons_append, append_assoc, singleton_append]
      rw [split, cons_append, cons_append] at loop ⊢
      rw [parseValue_items fuel _ visible differs, loop, nil_append, Json.reread,
        Json.rereadItems_eq]
  | object values ih =>
    have plainItems := (Json.all_object.mp plain).2
    obtain ⟨keys, distinctItems⟩ := Json.all_object.mp distinct
    cases values with
    | nil =>
      show Except.ok (Json.object [], tail) = .ok (.object (maps.iterate []), tail)
      rw [maps.iterate_nil]
    | cons entry rest =>
      obtain ⟨key, value⟩ := entry
      have text : (Json.object ((key, value) :: rest)).dump numerals =
          123 :: (entriesText numerals key value rest ++ [125]) := by
        rw [Json.dump, dumpEntries_cons]
        rfl
      have loop := parseEntries_dump (fun entry member => .of_succ (plainItems entry member)
        (ih entry member (plainItems entry member) (distinctItems entry member))) [] fuel tail
          (of_decide_eq_true keys) (by
            rw [text] at enough
            simp only [length_cons, length_append, length_nil] at enough
            omega)
      rw [text, cons_append, append_assoc, singleton_append]
      rw [entriesText, cons_append] at loop ⊢
      change parseEntries maps numerals fuel [] (34 :: _) = _
      rw [loop, nil_append, Json.reread, Json.rereadEntries_eq]

end JsonParser

end Gungnir.Http
