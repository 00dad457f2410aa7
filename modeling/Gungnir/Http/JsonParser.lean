import Gungnir.Http.Json

/-!
# The parser of JSON texts

`Parser` of `http::Json`. The cursor is kept as the part of the source that is still
to be read. A map that is built by insertions iterates in an order of its own, which is
a parameter.
-/

namespace Gungnir.Http

open Gungnir.Core

/-- The order in which an `std::unordered_map` iterates, by the order in which its keys
were inserted. -/
structure MapOrder where
  order : List Bytes → List Bytes
  perm : ∀ keys, (order keys).Perm keys

namespace MapOrder

/-- The entries of a map in the order of iteration. -/
def iterate {α : Type} (maps : MapOrder) (entries : List (Bytes × α)) : List (Bytes × α) :=
  (maps.order (entries.map (·.1))).filterMap fun key =>
    (entries.lookup key).map fun value => (key, value)

end MapOrder

namespace JsonParser

def isSpace (character : UInt8) : Bool :=
  character == 32 || character == 10 || character == 13 || character == 9

def skipSpace (source : Bytes) : Bytes := source.dropWhile isSpace

def consume (text source : Bytes) : Option Bytes :=
  if text.isPrefixOf source then some (source.drop text.length) else none

/-! ## Strings -/

def appendUtf8 (codepoint : Nat) : Bytes :=
  if codepoint ≤ 0x7F then [.ofNat codepoint]
  else if codepoint ≤ 0x7FF then
    [.ofNat (0xC0 + codepoint / 64), .ofNat (0x80 + codepoint % 64)]
  else if codepoint ≤ 0xFFFF then
    [.ofNat (0xE0 + codepoint / 4096), .ofNat (0x80 + codepoint / 64 % 64),
      .ofNat (0x80 + codepoint % 64)]
  else
    [.ofNat (0xF0 + codepoint / 262144), .ofNat (0x80 + codepoint / 4096 % 64),
      .ofNat (0x80 + codepoint / 64 % 64), .ofNat (0x80 + codepoint % 64)]

def hexValue (digit : UInt8) : Except Exception Nat :=
  if 48 ≤ digit ∧ digit ≤ 57 then .ok (digit.toNat - 48)
  else if 97 ≤ digit ∧ digit ≤ 102 then .ok (digit.toNat - 97 + 10)
  else if 65 ≤ digit ∧ digit ≤ 70 then .ok (digit.toNat - 65 + 10)
  else .error (.invalidArgument "Invalid JSON unicode escape")

/-- The character behind a backslash, if it is no `u`. -/
def simpleEscape (escaped : UInt8) : Except Exception UInt8 :=
  if escaped = 34 then .ok 34
  else if escaped = 92 then .ok 92
  else if escaped = 47 then .ok 47
  else if escaped = 98 then .ok 8
  else if escaped = 102 then .ok 12
  else if escaped = 110 then .ok 10
  else if escaped = 114 then .ok 13
  else if escaped = 116 then .ok 9
  else .error (.invalidArgument "Invalid JSON escape")

/-- The loop of `parse_string` behind the opening quote. -/
def stringBody (output : Bytes) : Bytes → Except Exception (Bytes × Bytes)
  | [] => .error (.invalidArgument "Unterminated JSON string")
  | current :: rest =>
    if current = 34 then .ok (output, rest)
    else if current ≠ 92 then
      if current < 32 then .error (.invalidArgument "Invalid control character in JSON string")
      else stringBody (output ++ [current]) rest
    else
      match rest with
      | [] => .error (.invalidArgument "Incomplete JSON escape")
      | 117 :: first :: second :: third :: fourth :: tail => do
        let a ← hexValue first
        let b ← hexValue second
        let c ← hexValue third
        let d ← hexValue fourth
        stringBody (output ++ appendUtf8 (((a * 16 + b) * 16 + c) * 16 + d)) tail
      | escaped :: tail =>
        if escaped = 117 then .error (.invalidArgument "Incomplete JSON unicode escape")
        else do
          let character ← simpleEscape escaped
          stringBody (output ++ [character]) tail

/-! ## Numbers -/

def isDigit (character : UInt8) : Bool := 48 ≤ character && character ≤ 57

/-- A token so far and the source behind it. -/
abbrev Scanned := Bytes × Bytes

def scanSign : Bytes → Scanned
  | 45 :: rest => ([45], rest)
  | source => ([], source)

variable (scanned : Scanned)

def scanInteger : Except Exception Scanned :=
  match scanned with
  | (_, []) => .error (.invalidArgument "Invalid JSON number")
  | (token, current :: rest) =>
    if current = 48 then .ok (token ++ [48], rest)
    else if current < 49 ∨ 57 < current then .error (.invalidArgument "Invalid JSON number")
    else .ok (token ++ (current :: rest).takeWhile isDigit, (current :: rest).dropWhile isDigit)

/-- The digits of a fraction or an exponent, of which there must be one. -/
def scanDigits (message : String) (scanned : Scanned) : Except Exception Scanned :=
  if scanned.2.takeWhile isDigit = [] then .error (.invalidArgument message)
  else .ok (scanned.1 ++ scanned.2.takeWhile isDigit, scanned.2.dropWhile isDigit)

/-- The fraction, and whether there is one. -/
def scanFraction : Except Exception (Scanned × Bool) :=
  match scanned with
  | (token, 46 :: rest) => do
    return (← scanDigits "Invalid JSON fraction" (token ++ [46], rest), true)
  | _ => .ok (scanned, false)

def scanExponentSign : Scanned :=
  match scanned with
  | (token, 43 :: rest) => (token ++ [43], rest)
  | (token, 45 :: rest) => (token ++ [45], rest)
  | _ => scanned

def scanExponent : Except Exception (Scanned × Bool) :=
  match scanned with
  | (token, current :: rest) =>
    if current = 101 ∨ current = 69 then do
      return (← scanDigits "Invalid JSON exponent" (scanExponentSign (token ++ [current], rest)),
        true)
    else .ok (scanned, false)
  | _ => .ok (scanned, false)

/-- `std::from_chars` for an `Int64` that takes the whole token. -/
def fromCharsInt64 : Bytes → Option Int64
  | 45 :: digits => (fromChars (2 ^ 63 + 1) digits).map fun value : Nat => Int64.ofInt (-value)
  | digits => (fromChars (2 ^ 63) digits).map fun value : Nat => Int64.ofInt value

def numberValue (numerals : Numerals) (token : Bytes) (floating : Bool) : Except Exception Json :=
  let integer :=
    if floating then none
    else
      match fromCharsInt64 token with
      | some value => some (.int64 value)
      | none =>
        if token ≠ [] ∧ token.head? ≠ some 45 then
          (fromChars sizeBound token).map fun value => Json.uint64 (.ofNat value)
        else none
  match integer with
  | some value => .ok value
  | none =>
    match numerals.readDouble token with
    | some bits => .ok (.double bits)
    | none => .error (.invalidArgument "JSON number is out of range")

def parseNumber (numerals : Numerals) (source : Bytes) : Except Exception (Json × Bytes) := do
  let scanned ← scanInteger (scanSign source)
  let (scanned, fraction) ← scanFraction scanned
  let (scanned, exponent) ← scanExponent scanned
  return (← numberValue numerals scanned.1 (fraction || exponent), scanned.2)

/-! ## Values -/

mutual

/-- `parse_value`. Fuel that is at least the length of the source is enough. -/
def parseValue (maps : MapOrder) (numerals : Numerals) :
    Nat → Bytes → Except Exception (Json × Bytes)
  | 0, _ => .error .undefinedBehavior
  | fuel + 1, source =>
    match skipSpace source with
    | [] => .error (.invalidArgument "Unexpected end of JSON")
    | current :: rest =>
      if current = 34 then do
        let (text, rest) ← stringBody [] rest
        return (.string text, rest)
      else if current = 123 then
        match skipSpace rest with
        | 125 :: rest => .ok (.object [], rest)
        | source => parseEntries maps numerals fuel [] source
      else if current = 91 then
        match skipSpace rest with
        | 93 :: rest => .ok (.array [], rest)
        | source => parseItems maps numerals fuel [] source
      else
        match consume (ascii "true") (current :: rest), consume (ascii "false") (current :: rest),
            consume (ascii "null") (current :: rest) with
        | some rest, _, _ => .ok (.boolean true, rest)
        | none, some rest, _ => .ok (.boolean false, rest)
        | none, none, some rest => .ok (.null, rest)
        | none, none, none =>
          if current = 45 ∨ isDigit current then parseNumber numerals (current :: rest)
          else .error (.invalidArgument "Invalid JSON value")

/-- The loop of `parse_object`. -/
def parseEntries (maps : MapOrder) (numerals : Numerals) :
    Nat → List (Bytes × Json) → Bytes → Except Exception (Json × Bytes)
  | 0, _, _ => .error .undefinedBehavior
  | fuel + 1, entries, source =>
    match skipSpace source with
    | 34 :: rest => do
      let (key, rest) ← stringBody [] rest
      match skipSpace rest with
      | 58 :: rest =>
        let (value, rest) ← parseValue maps numerals fuel rest
        match skipSpace rest with
        | [] => .error (.invalidArgument "Unterminated JSON object")
        | current :: rest =>
          if current = 125 then
            .ok (.object (maps.iterate (Json.assign entries key value)), rest)
          else if current ≠ 44 then
            .error (.invalidArgument "JSON object is missing ','")
          else parseEntries maps numerals fuel (Json.assign entries key value) rest
      | _ => .error (.invalidArgument "JSON object is missing ':'")
    | _ => .error (.invalidArgument "JSON object key must be a string")

/-- The loop of `parse_array`. -/
def parseItems (maps : MapOrder) (numerals : Numerals) :
    Nat → List Json → Bytes → Except Exception (Json × Bytes)
  | 0, _, _ => .error .undefinedBehavior
  | fuel + 1, items, source => do
    let (item, rest) ← parseValue maps numerals fuel source
    match skipSpace rest with
    | [] => .error (.invalidArgument "Unterminated JSON array")
    | current :: rest =>
      if current = 93 then .ok (.array (items ++ [item]), rest)
      else if current ≠ 44 then .error (.invalidArgument "JSON array is missing ','")
      else parseItems maps numerals fuel (items ++ [item]) rest

end

end JsonParser

def Json.parse (maps : MapOrder) (numerals : Numerals) (source : Bytes) : Except Exception Json := do
  let (value, rest) ←
    JsonParser.parseValue maps numerals (source.length + 1) (JsonParser.skipSpace source)
  if JsonParser.skipSpace rest ≠ [] then
    throw (.invalidArgument "Unexpected data after JSON value")
  return value

end Gungnir.Http
