import Gungnir.Language.Lexer
import Gungnir.Library.Fallible
import Mathlib.Data.List.TakeWhile
import Mathlib.Tactic.FinCases

/-!
# String literals

A string token is decoded by `string_value`, written into the C++ source by one of two
functions `quote` and read again by the C++ compiler. Object keys and metadata are given as
pointers without a size, so they end at the first null byte.
-/

namespace Gungnir.Language

open Gungnir.Core List
open Gungnir.Library (bind_eq_ok)

/-! ## The value of a token -/

/-- The text and code of a diagnostic. -/
structure Failure where
  message : String
  code : String
  deriving DecidableEq, Repr

def utf8 (code : Nat) : Bytes :=
  if code ≤ 0x7f then [.ofNat code]
  else if code ≤ 0x7ff then [.ofNat (0xc0 + code / 64), .ofNat (0x80 + code % 64)]
  else if code ≤ 0xffff then
    [.ofNat (0xe0 + code / 4096), .ofNat (0x80 + code / 64 % 64), .ofNat (0x80 + code % 64)]
  else
    [.ofNat (0xf0 + code / 262144), .ofNat (0x80 + code / 4096 % 64),
      .ofNat (0x80 + code / 64 % 64), .ofNat (0x80 + code % 64)]

def hexDigit (c : UInt8) : Option Nat :=
  if 48 ≤ c ∧ c ≤ 57 then some (c.toNat - 48)
  else if 97 ≤ c ∧ c ≤ 102 then some (c.toNat - 87)
  else if 65 ≤ c ∧ c ≤ 70 then some (c.toNat - 55)
  else none

/-- `std::from_chars` with base 16, for a range without a rest. -/
def fromHex (digits : Bytes) : Option Nat :=
  digits.foldlM (fun total c => (hexDigit c).map (16 * total + ·)) 0

/-- The bytes of an escape with a letter `c`, and how many bytes of the text behind it belong
to it. -/
def escape (c : UInt8) (behind : Bytes) : Except Failure (Bytes × Nat) :=
  if c = 110 then .ok ([10], 0)
  else if c = 114 then .ok ([13], 0)
  else if c = 116 then .ok ([9], 0)
  else if c = 98 then .ok ([8], 0)
  else if c = 102 then .ok ([12], 0)
  else if c = 48 then .ok ([0], 0)
  else if c ∈ ascii "\\'\"/" then .ok ([c], 0)
  else if c = 117 ∨ c = 85 then
    let count := if c = 117 then 4 else 8
    if behind.length ≤ count then .error ⟨"Incomplete Unicode escape", "GNR2002"⟩
    else
      match fromHex (behind.take count) with
      | some code =>
        if 0x10ffff < code ∨ (0xd800 ≤ code ∧ code ≤ 0xdfff) then
          .error ⟨"Invalid Unicode scalar escape", "GNR2002"⟩
        else .ok (utf8 code, count)
      | none => .error ⟨"Invalid Unicode scalar escape", "GNR2002"⟩
  else .error ⟨"Unsupported string escape", "GNR2002"⟩

/-- The loop over a quoted token: the bytes still to be skipped, and the text up to the
closing quote. -/
def unescape : Nat → Bytes → Except Failure Bytes
  | skip + 1, _ :: rest => unescape skip rest
  | 0, c :: d :: rest => do
    if c = 92 then
      let (bytes, skip) ← escape d rest
      return bytes ++ (← unescape (skip + 1) (d :: rest))
    else return c :: (← unescape 0 (d :: rest))
  | _, _ => .ok []

def stringValue (text : Bytes) : Except Failure Bytes :=
  if ascii "R\"" <+: text then
    let opening := (text.takeWhile (· ≠ 40)).length
    let delimiter := (text.take opening).drop 2
    .ok ((text.drop (opening + 1)).take (text.length - opening - delimiter.length - 3))
  else unescape 0 (text.drop 1)

/-! ## The emitted literal -/

def quoteByte (c : UInt8) : Bytes :=
  if c = 92 ∨ c = 34 then [92, c]
  else if c = 10 then ascii "\\n"
  else if c = 13 then ascii "\\r"
  else if c = 9 then ascii "\\t"
  else if c < 32 then [92, 48 + c / 64, 48 + c / 8 % 8, 48 + c % 8]
  else [c]

/-- `quote` of the renderer. -/
def quote (value : Bytes) : Bytes := 34 :: (value.flatMap quoteByte ++ [34])

/-- A byte under `std::quoted`. -/
def quotedByte (c : UInt8) : Bytes := if c = 92 ∨ c = 34 then [92, c] else [c]

/-- `quote` of the emitter. -/
def emitterQuote (value : Bytes) : Bytes := 34 :: (value.flatMap quotedByte ++ [34])

/-- An emitted literal, and the size that stands beside it. -/
structure CppString where
  literal : Bytes
  size : Option Nat
  deriving DecidableEq

/-! ## Where a value goes -/

def reserved : List String := [
  "alignas", "alignof", "and", "asm", "auto", "bitand", "bitor", "bool", "case", "catch",
  "char", "class", "compl", "concept", "const", "consteval", "constexpr", "constinit",
  "continue", "co_await", "co_return", "co_yield", "decltype", "default", "delete", "do",
  "double", "else", "enum", "explicit", "export", "extern", "false", "float", "for", "friend",
  "goto", "if", "inline", "int", "long", "mutable", "namespace", "new", "noexcept", "not",
  "nullptr", "operator", "or", "private", "protected", "public", "register", "requires",
  "return", "short", "signed", "sizeof", "static", "struct", "switch", "template", "this",
  "thread_local", "throw", "true", "try", "typedef", "typeid", "typename", "union",
  "unsigned", "using", "virtual", "void", "volatile", "while", "xor"]

def validIdentifier (name : Bytes) : Bool :=
  match name with
  | [] => false
  | first :: _ =>
    (isAlpha first || first = 95) && name.all (fun c => isAlnum c || c = 95) &&
      name ∉ reserved.map ascii && !(ascii "gnr_").isPrefixOf name

/-- The casts that `model_cast_type` knows. -/
def modelCasts : List String := ["bool", "boolean", "int", "integer", "int64", "uint64", "double",
  "float", "real", "decimal", "json", "array", "object", "string", "date", "datetime"]

/-- The loop over a `dateFormat`: whether a backslash stands in front, and the text. -/
def supportedFormat : Bool → Bytes → Bool
  | escape, [] => !escape
  | true, _ :: rest => supportedFormat false rest
  | false, c :: rest =>
    if c = 92 then supportedFormat true rest
    else (!isAlpha c || c ∈ ascii "YymdHisuUv") && supportedFormat false rest

/-- The relationships of each model with the model that they lead to, along a dotted name. Only
`with` follows more than one. -/
def knownRelation (models : List (List (Bytes × Nat))) (nested : Bool) : Nat → List Bytes → Bool
  | owner, [part] => ((models.getD owner []).lookup part).isSome
  | owner, part :: rest =>
    nested && ((models.getD owner []).lookup part).any (knownRelation models nested · rest)
  | _, [] => false

/-- Where the value of a token goes: into an expression, a key of an object, the metadata of a
model (its names of attributes become fields, unless they name an accessor or count a
relationship), a relationship or a route. -/
inductive Place where
  | expression
  | objectKey
  | table
  | connection
  | primaryKey
  | createdAt
  | updatedAt
  | dateFormat
  | listed (accessors relations : List Bytes)
  | castAttribute (accessors relations : List Bytes)
  | castType
  | defaultAttribute
  | loaded (metadata : String) (models : List (List (Bytes × Nat))) (owner : Nat)
  | relationshipKey
  | route
  deriving DecidableEq

def require (accepted : Bool) (failure : Failure) : Except Failure Unit :=
  if accepted then .ok () else .error failure

/-- A diagnostic about metadata. -/
def misused (message : String) : Failure := ⟨message, "GNR2308"⟩

def checkField (accessors relations : List Bytes) (name : Bytes) : Except Failure Unit :=
  require (name ∈ accessors || name ∈ relations.map (· ++ ascii "_count") || validIdentifier name)
    ⟨"Field name is not a valid native identifier", "GNR2201"⟩

/-- The checks of a value. Those of a list as a whole, and the further ones of `withCount` and
`touches`, refuse more. -/
def Place.check : Place → Bytes → Except Failure Unit
  | expression, _ | objectKey, _ => .ok ()
  | table, value => require (value ≠ []) (misused "table metadata cannot be empty")
  | connection, value => require (value ≠ []) (misused "connection metadata cannot be empty")
  | primaryKey, value =>
    require (validIdentifier value) (misused "primaryKey must name a valid model attribute")
  | createdAt, value | updatedAt, value =>
    require (validIdentifier value) (misused "Timestamp columns must name valid model attributes")
  | dateFormat, value =>
    require (value ≠ [] && supportedFormat false value) (misused "Unsupported or empty dateFormat")
  | listed accessors relations, value =>
    if value = ascii "*" then .ok () else checkField accessors relations value
  | castAttribute accessors relations, value => checkField accessors relations value
  | castType, value => require (value ∈ modelCasts.map ascii) (misused "Unknown model cast")
  | defaultAttribute, value =>
    require (validIdentifier value) (misused "Invalid or duplicate default attribute")
  | loaded metadata models owner, value =>
    require (knownRelation models (metadata = "with") owner (value.splitOn 46))
      (misused ("Unknown or unsupported relationship in " ++ metadata))
  | relationshipKey, value =>
    require (validIdentifier value)
      ⟨"Relationship keys must be constant attribute/table identifiers", "GNR2310"⟩
  | route, value =>
    require (value.all fun c => 32 ≤ c && c ≠ 127)
      ⟨"Route strings cannot contain control characters", "GNR2320"⟩

/-- Only a string expression is given its size. -/
def Place.literal : Place → Bytes → CppString
  | expression, value => ⟨quote value, some value.length⟩
  | route, value => ⟨emitterQuote value, none⟩
  | _, value => ⟨quote value, none⟩

def Place.emit (place : Place) (value : Bytes) : Except Failure CppString := do
  place.check value
  return place.literal value

/-! ## The compiler -/

def isOctal (c : UInt8) : Bool := 48 ≤ c && c ≤ 55

/-- The escapes of C++ that are one letter. -/
def simpleEscape (c : UInt8) : Option UInt8 :=
  if c ∈ ascii "'\"?\\" then some c
  else ([(97, 7), (98, 8), (102, 12), (110, 10), (114, 13), (116, 9), (118, 11)] :
    List (UInt8 × UInt8)).lookup c

/-- The characters of a literal behind its opening quote. An octal escape takes up to three
digits; hexadecimal escapes, which neither function writes, are left out. -/
def readCharacters : Nat → Bytes → Option Bytes
  | skip + 1, _ :: rest => readCharacters skip rest
  | 0, [34] => some []
  | 0, 92 :: c :: rest =>
    if isOctal c then
      let more := (rest.take 2).takeWhile isOctal
      let code := (c :: more).foldl (fun total d => 8 * total + (d.toNat - 48)) 0
      if code < 256 then
        (readCharacters (more.length + 1) (c :: rest)).map (.ofNat code :: ·)
      else none
    else (simpleEscape c).bind fun byte => (readCharacters 1 (c :: rest)).map (byte :: ·)
  | 0, c :: rest =>
    if c = 34 ∨ c = 92 ∨ c = 10 ∨ c = 13 then none else (readCharacters 0 rest).map (c :: ·)
  | _, [] => none

def readLiteral : Bytes → Option Bytes
  | 34 :: rest => readCharacters 0 rest
  | _ => none

/-- The string that the compiled program holds: with a size, that many bytes of the array,
and otherwise those in front of the first null byte. -/
def CppString.bytes (cpp : CppString) : Option Bytes :=
  (readLiteral cpp.literal).map fun characters =>
    match cpp.size with
    | some size => (characters ++ [0]).take size
    | none => characters.takeWhile (· ≠ 0)

/-! ## Reading back -/

variable {value : Bytes} {c : UInt8}

theorem readCharacters_plain (plain : c ≠ 34 ∧ c ≠ 92 ∧ c ≠ 10 ∧ c ≠ 13) (rest : Bytes) :
    readCharacters 0 (c :: rest) = (readCharacters 0 rest).map (c :: ·) := by
  obtain ⟨quote, slash, newline, carriage⟩ := plain
  rw [readCharacters, if_neg (by simp [quote, slash, newline, carriage])]
  · exact fun same => absurd same quote
  · exact fun _ _ same => absurd same slash

theorem readCharacters_escaped (escaped : c = 92 ∨ c = 34) (rest : Bytes) :
    readCharacters 0 ([92, c] ++ rest) = (readCharacters 0 rest).map (c :: ·) := by
  rcases escaped with rfl | rfl <;> rfl

theorem readCharacters_control (k : Fin 32) (rest : Bytes) :
    readCharacters 0 (quoteByte (.ofNat k) ++ rest) =
      (readCharacters 0 rest).map (.ofNat k :: ·) := by
  fin_cases k <;> rfl

theorem ne_of_visible (visible : 32 ≤ c) : c ≠ 10 ∧ c ≠ 13 ∧ c ≠ 9 := by
  refine ⟨?_, ?_, ?_⟩ <;> rintro rfl <;> exact absurd visible (by decide)

theorem readCharacters_quoteByte (c : UInt8) (rest : Bytes) :
    readCharacters 0 (quoteByte c ++ rest) = (readCharacters 0 rest).map (c :: ·) := by
  by_cases control : c < 32
  · have cast := readCharacters_control ⟨c.toNat, control⟩ rest
    rwa [UInt8.ofNat_toNat] at cast
  · by_cases escaped : c = 92 ∨ c = 34
    · rw [quoteByte, if_pos escaped]
      exact readCharacters_escaped escaped rest
    · have large := ne_of_visible (UInt8.not_lt.mp control)
      rw [quoteByte, if_neg escaped, if_neg large.1, if_neg large.2.1, if_neg large.2.2,
        if_neg control]
      exact readCharacters_plain
        ⟨fun same => escaped (.inr same), fun same => escaped (.inl same), large.1, large.2.1⟩ rest

theorem readCharacters_quotedByte (visible : 32 ≤ c) (rest : Bytes) :
    readCharacters 0 (quotedByte c ++ rest) = (readCharacters 0 rest).map (c :: ·) := by
  have same : quotedByte c = quoteByte c := by
    have control : ¬ c < 32 := UInt8.not_lt.mpr visible
    simp [quotedByte, quoteByte, ne_of_visible visible, control]
  rw [same]
  exact readCharacters_quoteByte c rest

/-- Bytes that are read back one by one are read back together. -/
theorem readCharacters_flatMap {write : UInt8 → Bytes}
    (reads : ∀ c ∈ value, ∀ rest,
      readCharacters 0 (write c ++ rest) = (readCharacters 0 rest).map (c :: ·)) :
    readCharacters 0 (value.flatMap write ++ [34]) = some value := by
  induction value with
  | nil => rfl
  | cons c rest ih =>
    obtain ⟨first, later⟩ := forall_mem_cons.mp reads
    rw [flatMap_cons, append_assoc, first, ih later]
    rfl

theorem readLiteral_quote (value : Bytes) : readLiteral (quote value) = some value :=
  readCharacters_flatMap fun c _ => readCharacters_quoteByte c

theorem readLiteral_emitterQuote (visible : ∀ c ∈ value, 32 ≤ c) :
    readLiteral (emitterQuote value) = some value :=
  readCharacters_flatMap fun c member => readCharacters_quotedByte (visible c member)

/-! ## Fidelity -/

theorem takeWhile_nonzero : value.takeWhile (· ≠ 0) = value ↔ 0 ∉ value := by
  rw [takeWhile_eq_self_iff]
  exact ⟨fun nonzero zero => of_decide_eq_true (nonzero 0 zero) rfl,
    fun absent c member => decide_eq_true fun zero => absent (zero ▸ member)⟩

theorem accepted_of_require {accepted : Bool} {failure : Failure}
    (passed : require accepted failure = .ok ()) : accepted = true := by
  cases accepted with
  | true => rfl
  | false => cases passed

/-- What the compiled program holds of a value. -/
theorem Place.emit_bytes {place : Place} {cpp : CppString} (emitted : place.emit value = .ok cpp) :
    cpp.bytes = some (if place = .expression then value else value.takeWhile (· ≠ 0)) := by
  obtain ⟨⟨⟩, checked, written⟩ := bind_eq_ok.mp emitted
  cases written
  cases place with
  | route =>
    have printable : (value.all fun c => 32 ≤ c && c ≠ 127) = true := accepted_of_require checked
    have visible : ∀ c ∈ value, 32 ≤ c := by
      intro c member
      have both := all_eq_true.mp printable c member
      rw [Bool.and_eq_true, decide_eq_true_iff] at both
      exact both.1
    simp [literal, CppString.bytes, readLiteral_emitterQuote visible]
  | _ => simp [literal, CppString.bytes, readLiteral_quote]

/-- The program holds the bytes of the token exactly when a size is given or no byte is
null. -/
theorem emitted_bytes_iff {token : Bytes} {place : Place} {cpp : CppString}
    (_read : stringValue token = .ok value) (emitted : place.emit value = .ok cpp) :
    cpp.bytes = some value ↔ place = .expression ∨ 0 ∉ value := by
  rw [Place.emit_bytes emitted, Option.some.injEq]
  split
  · simp [*]
  · rw [takeWhile_nonzero]
    simp [*]

/-- A route with an escaped quote. -/
theorem emitted_route : (⟨ascii "\"/a\\\"b\"", none⟩ : CppString).bytes = some (ascii "/a\"b") :=
  (@emitted_bytes_iff (ascii "/a\"b") (ascii "\"/a\\\"b\"") .route _ (by decide) (by decide)).mpr
    (.inr (by decide))

/-- An object key with a null byte in the middle ends there. -/
theorem key_cut :
    ∃ value cpp, stringValue (ascii "\"a\\0b\"") = .ok value ∧
      Place.objectKey.emit value = .ok cpp ∧ value = [97, 0, 98] ∧ cpp.bytes = some [97] := by
  refine ⟨_, _, rfl, rfl, ?_, ?_⟩ <;> decide

end Gungnir.Language
