import Gungnir.Core.Text

/-!
# JSON values

`http::Json`. An object lists its entries in the iteration order of its map, which
has every key once.
-/

namespace Gungnir.Http

open Gungnir.Core

inductive Json where
  | null
  | boolean (value : Bool)
  | int64 (value : Int64)
  | uint64 (value : UInt64)
  | double (bits : UInt64)
  | string (value : Bytes)
  | array (values : List Json)
  | object (values : List (Bytes × Json))
  deriving Repr

namespace Json

def isNull : Json → Bool
  | .null => true
  | _ => false

def isBoolean : Json → Bool
  | .boolean _ => true
  | _ => false

def isInteger : Json → Bool
  | .int64 _ | .uint64 _ => true
  | _ => false

def isNumber : Json → Bool
  | .int64 _ | .uint64 _ | .double _ => true
  | _ => false

def isString : Json → Bool
  | .string _ => true
  | _ => false

def isArray : Json → Bool
  | .array _ => true
  | _ => false

def isObject : Json → Bool
  | .object _ => true
  | _ => false

/-- Neither null nor a container. -/
def isScalar : Json → Bool
  | .null | .array _ | .object _ => false
  | _ => true

def get (json : Json) (key : Bytes) : Option Json :=
  match json with
  | .object values => values.lookup key
  | _ => none

/-- `insert_or_assign` on the entries of an object. -/
def assign (entries : List (Bytes × Json)) (key : Bytes) (value : Json) : List (Bytes × Json) :=
  match entries with
  | [] => [(key, value)]
  | (name, other) :: rest =>
    if name = key then (key, value) :: rest else (name, other) :: assign rest key value

theorem lookup_assign (entries : List (Bytes × Json)) (key other : Bytes) (value : Json) :
    (assign entries key value).lookup other =
      if other = key then some value else entries.lookup other := by
  induction entries with
  | nil =>
    by_cases same : other = key
    · simp [assign, same]
    · simp [assign, same]
  | cons entry rest ih =>
    obtain ⟨name, stored⟩ := entry
    by_cases found : name = key
    · subst found
      by_cases same : other = name
      · simp [assign, same]
      · have differs : (other == name) = false := by simpa using same
        simp [assign, List.lookup_cons, same, differs]
    · by_cases same : other = key
      · have differs : (other == name) = false := by
          rw [same]
          simpa using fun equal : key = name => found equal.symm
        simp only [assign, found, if_false, List.lookup_cons, differs, ih]
      · by_cases here : other = name
        · simp [assign, found, here]
        · have differs : (other == name) = false := by simpa using here
          simp only [assign, found, if_false, List.lookup_cons, differs, ih]

/-! ## Trees -/

/-- A property holds of every value if each container has it when its members have it. -/
theorem induction {motive : Json → Prop} (null : motive .null)
    (boolean : ∀ value, motive (.boolean value)) (int64 : ∀ value, motive (.int64 value))
    (uint64 : ∀ value, motive (.uint64 value)) (double : ∀ bits, motive (.double bits))
    (string : ∀ value, motive (.string value))
    (array : ∀ values, (∀ item ∈ values, motive item) → motive (.array values))
    (object : ∀ values, (∀ entry ∈ values, motive entry.2) → motive (.object values))
    (json : Json) : motive json := by
  refine @Json.rec motive (fun values => ∀ item ∈ values, motive item)
    (fun values => ∀ entry ∈ values, motive entry.2) (fun entry => motive entry.2)
    null boolean int64 uint64 double string array object ?_ ?_ ?_ ?_ ?_ json
  · simp
  · exact fun item rest first others => List.forall_mem_cons.mpr ⟨first, others⟩
  · simp
  · exact fun entry rest first others => List.forall_mem_cons.mpr ⟨first, others⟩
  · intro key value holds
    exact holds

mutual

/-- A test passes on a value and on everything inside it. -/
def all (test : Json → Bool) : Json → Bool
  | .array values => test (.array values) && allItems test values
  | .object values => test (.object values) && allEntries test values
  | other => test other

def allItems (test : Json → Bool) : List Json → Bool
  | [] => true
  | item :: rest => all test item && allItems test rest

def allEntries (test : Json → Bool) : List (Bytes × Json) → Bool
  | [] => true
  | (_, item) :: rest => all test item && allEntries test rest

end

theorem all_array {test : Json → Bool} {values : List Json} :
    all test (.array values) = true ↔
      test (.array values) = true ∧ ∀ item ∈ values, all test item = true := by
  have items : ∀ values, allItems test values = true ↔ ∀ item ∈ values, all test item = true := by
    intro values
    induction values with
    | nil => simp [allItems]
    | cons item rest ih => simp [allItems, ih]
  rw [all, Bool.and_eq_true, items]

theorem all_object {test : Json → Bool} {values : List (Bytes × Json)} :
    all test (.object values) = true ↔
      test (.object values) = true ∧ ∀ entry ∈ values, all test entry.2 = true := by
  have items : ∀ values, allEntries test values = true ↔
      ∀ entry ∈ values, all test entry.2 = true := by
    intro values
    induction values with
    | nil => simp [allEntries]
    | cons entry rest ih => simp [allEntries, ih]
  rw [all, Bool.and_eq_true, items]

/-! ## Text -/

/-- What `escape_string` writes for a character. -/
def escapeCharacter (character : UInt8) : Bytes :=
  if character = 34 then ascii "\\\""
  else if character = 92 then ascii "\\\\"
  else if character = 8 then ascii "\\b"
  else if character = 12 then ascii "\\f"
  else if character = 10 then ascii "\\n"
  else if character = 13 then ascii "\\r"
  else if character = 9 then ascii "\\t"
  else if character < 32 then
    ascii "\\u00" ++ [hexDigit (character.toNat / 16), hexDigit (character.toNat % 16)]
  else [character]

def escapeString (value : Bytes) : Bytes := value.flatMap escapeCharacter

/-- `Json::string` on a value that is no container. -/
def scalarText (numerals : Numerals) : Json → Bytes
  | .boolean value => if value then ascii "true" else ascii "false"
  | .int64 value => stdToStringSigned value.toInt
  | .uint64 value => stdToString value.toNat
  | .double bits => numerals.printDouble 17 bits
  | .string value => value
  | _ => []

def dumpNumber (text : Bytes) : Bytes :=
  if text.any (fun c => c == 46 || c == 101 || c == 69) then text else text ++ ascii ".0"

mutual

/-- `dump_json`. -/
def dump (numerals : Numerals) : Json → Bytes
  | .null => ascii "null"
  | .string value => ascii "\"" ++ escapeString value ++ ascii "\""
  | .double bits => dumpNumber (numerals.printDouble 17 bits)
  | .boolean value => scalarText numerals (.boolean value)
  | .int64 value => scalarText numerals (.int64 value)
  | .uint64 value => scalarText numerals (.uint64 value)
  | .array values => ascii "[" ++ dumpItems numerals true values ++ ascii "]"
  | .object values => ascii "\x7b" ++ dumpEntries numerals true values ++ ascii "\x7d"

def dumpItems (numerals : Numerals) : Bool → List Json → Bytes
  | _, [] => []
  | first, item :: rest =>
    (if first then [] else ascii ",") ++ dump numerals item ++ dumpItems numerals false rest

def dumpEntries (numerals : Numerals) : Bool → List (Bytes × Json) → Bytes
  | _, [] => []
  | first, (key, item) :: rest =>
    (if first then [] else ascii ",") ++ ascii "\"" ++ escapeString key ++ ascii "\":" ++
      dump numerals item ++ dumpEntries numerals false rest

end

/-- `Json::string`. -/
def text (numerals : Numerals) (json : Json) : Bytes :=
  match json with
  | .array _ | .object _ => dump numerals json
  | _ => scalarText numerals json

/-! ## Equality -/

mutual

/-- `Json::operator==`. -/
def same : Json → Json → Bool
  | .null, .null => true
  | .boolean first, .boolean second => first == second
  | .int64 first, .int64 second => first == second
  | .uint64 first, .uint64 second => first == second
  | .double first, .double second => Double.value first == Double.value second
  | .string first, .string second => first == second
  | .array first, .array second => sameItems first second
  | .object first, .object second => first.length == second.length && sameEntries first second
  | _, _ => false

def sameItems : List Json → List Json → Bool
  | [], [] => true
  | first :: rest, second :: others => same first second && sameItems rest others
  | _, _ => false

def sameEntries : List (Bytes × Json) → List (Bytes × Json) → Bool
  | [], _ => true
  | (key, value) :: rest, others =>
    (match others.lookup key with
      | some other => same value other
      | none => false) && sameEntries rest others

end

end Json

end Gungnir.Http
