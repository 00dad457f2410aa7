import Gungnir.Http.Json
import Gungnir.Library.Search

/-!
# Formats and validation rules

The tests of the scalar rules on texts (numbers and their exact comparison, names of
hosts, addresses, dates), and the rule language of `definition.hpp`: a field path, and
rules separated by bars with arguments behind a colon. A path is kept as the list of its
parts.
-/

namespace Gungnir.Validation

open Gungnir.Core Gungnir.Library
open Gungnir.Http (Json)

def isAlpha (c : UInt8) : Bool := (97 ≤ c && c ≤ 122) || (65 ≤ c && c ≤ 90)

def isDigit (c : UInt8) : Bool := 48 ≤ c && c ≤ 57

/-! ## Numbers -/

section Numbers

variable (numerals : Numerals) (text : Bytes)

def isNumeric : Bool := decide (text ≠ []) && (numerals.readDouble text).isSome

/-- The rule `integer` on a text: one of the two 64-bit types can hold it. -/
def isInteger : Bytes → Bool
  | [] => false
  | 45 :: digits => (fromChars (2 ^ 63 + 1) digits).isSome
  | text => (fromChars (2 ^ 64) text).isSome

/-- `std::from_chars` into an `int` that is 0, with its answer ignored. -/
def leadingInt : Int :=
  match text with
  | 45 :: rest => -(((fromChars (2 ^ 31 + 1) (rest.takeWhile isDigit)).getD 0 : Nat) : Int)
  | _ => ((fromChars (2 ^ 31) (text.takeWhile isDigit)).getD 0 : Nat)

/-- `std::from_chars` into a `std::size_t` that is 0, with its answer ignored. -/
def leadingIndex : Nat :=
  (fromChars sizeBound (text.takeWhile isDigit)).getD 0

/-- The file's `Decimal`. -/
structure Decimal where
  negative : Bool
  magnitude : Int
  digits : Bytes
  deriving DecidableEq, Repr

def isExponentMark (c : UInt8) : Bool := c == 101 || c == 69

def dropPlus : Bytes → Bytes
  | 43 :: rest => rest
  | text => text

def decimal (value : Bytes) : Decimal :=
  let negative := value.head? == some 45
  let value := if negative then value.tail else value
  let mantissa := value.takeWhile fun c => !isExponentMark c
  let power := dropPlus (value.drop (mantissa.length + 1))
  let whole := mantissa.takeWhile (· != 46)
  let digits := mantissa.filter (· != 46)
  let zeros := (digits.takeWhile (· == 48)).length
  if zeros = digits.length then ⟨false, 0, []⟩
  else
    let exponent := if power = [] then 0 else leadingInt power
    ⟨negative, (whole.length : Int) + exponent - zeros,
      ((digits.drop zeros).reverse.dropWhile (· == 48)).reverse⟩

/-- The first difference of two digit strings, where the shorter one is filled up with
zeros. -/
def compareDigits : Bytes → Bytes → Int
  | [], [] => 0
  | [], y :: others => if 48 = y then compareDigits [] others else if (48 : UInt8) < y then -1 else 1
  | x :: rest, [] => if x = 48 then compareDigits rest [] else if x < 48 then -1 else 1
  | x :: rest, y :: others => if x = y then compareDigits rest others else if x < y then -1 else 1

def compare (left right : Bytes) : Int :=
  let a := decimal left
  let b := decimal right
  if a.digits = [] ∧ b.digits = [] then 0
  else if a.negative ≠ b.negative then (if a.negative then -1 else 1)
  else
    let order :=
      if a.digits = [] then -1
      else if b.digits = [] then 1
      else if a.magnitude ≠ b.magnitude then (if a.magnitude < b.magnitude then -1 else 1)
      else compareDigits a.digits b.digits
    if a.negative then -order else order

/-- The file's `equal`. -/
def equal (a b : Json) : Bool :=
  if a.isNumber ∧ b.isNumber then
    isNumeric numerals (a.text numerals) && isNumeric numerals (b.text numerals) &&
      compare (a.text numerals) (b.text numerals) == 0
  else a.same b

end Numbers

/-! ## Words -/

def booleanTexts : List Bytes :=
  ["true", "false", "1", "0", "yes", "no", "on", "off"].map ascii

def acceptedTexts : List Bytes := ["true", "1", "yes", "on"].map ascii

/-! ## Hosts -/

variable (c : UInt8)

def isAlphanumeric : Bool := isAlpha c || isDigit c

variable (text : Bytes)

def label : Bool :=
  decide (text ≠ []) && decide (text.length ≤ 63) && text.head? != some 45 &&
    text.getLast? != some 45 && text.all fun c => isAlphanumeric c || c == 45

def domain (host : Bytes) : Bool :=
  decide (host ≠ []) && decide (host.length ≤ 253) && (host.splitOn 46).all label

def localCharacter : Bool :=
  isAlphanumeric c || c ∈ ascii ".!#$%&'*+-/=?^_`\x7b|\x7d~"

def email : Bool :=
  let before := text.takeWhile (· != 64)
  let host := text.drop (before.length + 1)
  decide (text.length ≤ 254) && text.all (fun c => 33 ≤ c && c < 127) &&
    (before.length != 0 && decide (64 ∈ text) && decide (before.length ≤ 64) && decide (64 ∉ host)) &&
    (before.head? != some 46 && before.getLast? != some 46 &&
      (find (ascii "..") before).isNone && before.all localCharacter) &&
    (decide (46 ∈ host) && domain host)

def hex : Bool := isDigit c || (97 ≤ c && c ≤ 102) || (65 ≤ c && c ≤ 70)

def uuid : Bool :=
  text.length == 36 && text.zipIdx.all fun (c, i) =>
    if i = 8 ∨ i = 13 ∨ i = 18 ∨ i = 23 then c == 45 else hex c

def octet (token : Bytes) : Bool :=
  decide (token ≠ []) && !(decide (1 < token.length) && token.head? == some 48) &&
    (fromChars unsignedBound token).any (· ≤ 255)

def ipv4 (host : Bytes) : Bool := (host.splitOn 46).all octet && (host.splitOn 46).length == 4

/-- The number of groups in a list of tokens, where an IPv4 address at its end counts
as two. -/
def groupCount : List Bytes → Option Nat
  | [] => some 0
  | token :: rest =>
    if 46 ∈ token then (if rest = [] ∧ ipv4 token then some 2 else none)
    else if token = [] ∨ 4 < token.length ∨ !token.all hex then none
    else (groupCount rest).map (· + 1)

/-- The lambda `count` of `ipv6`. -/
def groups (part : Bytes) : Option Nat := if part = [] then some 0 else groupCount (part.splitOn 58)

def ipv6 (host : Bytes) : Bool :=
  match find (ascii "::") host with
  | none => groups host == some 8
  | some compressed =>
    if (find (ascii "::") (host.drop (compressed + 2))).isSome then false
    else if 46 ∈ host.take compressed then false
    else
      match groups (host.take compressed), groups (host.drop (compressed + 2)) with
      | some left, some right => decide (left + right < 8)
      | _, _ => false

def lower : UInt8 := if 65 ≤ c && c ≤ 90 then c + 32 else c

def portText (port : Bytes) : Bool := (fromChars unsignedBound port).any (· ≤ 65535)

/-- The authority of a URL: a host in brackets or not, with a port that is not empty. -/
def authority : Bool :=
  if text.head? = some 91 then
    let close := text.takeWhile (· != 93)
    decide (93 ∈ text) && ipv6 close.tail &&
      match text.drop (close.length + 1) with
      | [] => true
      | 58 :: port => decide (port ≠ []) && portText port
      | _ => false
  else
    let host := text.takeWhile (· != 58)
    decide (host ≠ []) &&
      (if host.all (fun c => isDigit c || c == 46) then ipv4 host else domain host) &&
      match text.drop host.length with
      | [] => true
      | _ :: port => decide (port ≠ []) && portText port

def urlCharacter : Bool := isAlphanumeric c || c ∈ ascii "-._~!$&'()*+,;=:@/?"

/-- The loop of `url` over path, query and fragment. -/
def urlTail : Bool → Bytes → Bool
  | _, [] => true
  | fragment, 35 :: rest => !fragment && urlTail true rest
  | fragment, 37 :: first :: second :: rest => hex first && hex second && urlTail fragment rest
  | fragment, c :: rest => c != 37 && urlCharacter c && urlTail fragment rest

def url : Bool :=
  let length := (find (ascii "://") text).getD text.length
  let scheme := (text.take length).map lower
  let rest := text.drop (length + 3)
  let host := rest.takeWhile fun c => !(c == 47 || c == 63 || c == 35)
  (scheme == ascii "http" || scheme == ascii "https") && (text.drop length).take 3 == ascii "://" &&
    (decide (host ≠ []) && decide (64 ∉ host)) && authority host && urlTail false (rest.drop host.length)

/-! ## Dates -/

/-- The file's `digits`. -/
def digits : Option Nat :=
  if text ≠ [] ∧ text.all isDigit then some ((fromChars (2 ^ 31) text).getD 0) else none

def monthDays (month : Nat) : Nat :=
  [31, 28, 31, 30, 31, 30, 31, 31, 30, 31, 30, 31].getD (month - 1) 0

def date : Bool :=
  text.length == 10 && text[4]? == some 45 && text[7]? == some 45 &&
    match digits (text.take 4), digits ((text.drop 5).take 2), digits ((text.drop 8).take 2) with
    | some year, some month, some day =>
      decide (1 ≤ year) && decide (1 ≤ month) && decide (month ≤ 12) && decide (1 ≤ day) &&
        decide (day ≤ monthDays month +
          if month = 2 ∧ year % 4 = 0 ∧ (year % 100 ≠ 0 ∨ year % 400 = 0) then 1 else 0)
    | _, _, _ => false

/-- The zone behind a time. -/
def zone : Bool :=
  text == ascii "Z" || text == ascii "z" ||
    (text.length == 6 && (text[0]? == some 43 || text[0]? == some 45) && text[3]? == some 58 &&
      (digits ((text.drop 1).take 2)).any (· ≤ 23) && (digits ((text.drop 4).take 2)).any (· ≤ 59))

/-- The part of a time behind its seconds. -/
def timeEnd : Bytes → Bool
  | 46 :: rest => (rest.head?.any isDigit) && zone (rest.dropWhile isDigit)
  | rest => zone rest

def datetime : Bool :=
  decide (20 ≤ text.length) && date (text.take 10) &&
    (text[10]? == some 84 || text[10]? == some 116) && text[13]? == some 58 && text[16]? == some 58 &&
    (digits ((text.drop 11).take 2)).any (· ≤ 23) && (digits ((text.drop 14).take 2)).any (· ≤ 59) &&
    (digits ((text.drop 17).take 2)).any (· ≤ 59) && timeEnd (text.drop 19)

/-! ## Rules -/

/-- A field path as the parts between its dots. -/
abbrev Path := List Bytes

def pathOf : Path := text.splitOn 46

def pathText (path : Path) : Bytes := [46].intercalate path

structure ParsedRule where
  name : Bytes
  arguments : List Bytes
  deriving DecidableEq, Repr

/-- An entry of `Rules`. -/
structure Rule where
  field : Bytes
  expression : Bytes
  deriving DecidableEq, Repr

def isBlank (c : UInt8) : Bool := c == 32 || c == 9 || c == 13 || c == 10

def ruleTrim : Bytes := ((text.dropWhile isBlank).reverse.dropWhile isBlank).reverse

def ruleIdentifier : Bool :=
  text.head?.any (fun c => isAlpha c || c == 95) && text.all fun c => isAlpha c || c == 95 || isDigit c

/-- A part of a path: a star, or characters that mean nothing in a rule. -/
def rulePart (part : Bytes) : Bool :=
  part ≠ [] && (part == ascii "*" || part.all fun c =>
    32 < c && c != 127 && c != 42 && c != 124 && c != 58 && c != 44)

def rulePath : Bool := text ≠ [] && (pathOf text).all rulePart

/-! ## Names -/

def flagNames : List Bytes :=
  ["required", "present", "nullable", "sometimes", "bail", "string", "integer", "numeric",
    "boolean", "email", "accepted", "array", "object", "uuid", "url", "date", "datetime", "file",
    "image", "confirmed"].map ascii

def sizeNames : List Bytes := ["min", "max", "size", "length"].map ascii

def listNames : List Bytes := ["in", "notIn", "mimes", "mimetypes", "extensions"].map ascii

def otherNames : List Bytes := ["same", "different", "custom"].map ascii

def databaseNames : List Bytes := ["unique", "exists"].map ascii

/-- The names that have two spellings. -/
def ruleName (name : Bytes) : Bytes :=
  if name = ascii "not_in" then ascii "notIn"
  else if name = ascii "required_if" then ascii "requiredIf"
  else if name = ascii "dateTime" then ascii "datetime"
  else name

def knownName (name : Bytes) : Bool :=
  name ∈ flagNames || name ∈ sizeNames || name ∈ listNames || name ∈ otherNames ||
    name ∈ databaseNames || name == ascii "requiredIf"

def argumentCount (name : Bytes) (count : Nat) : Bool :=
  !((name ∈ flagNames && count != 0) || ((name ∈ sizeNames || name ∈ otherNames) && count != 1) ||
    (name ∈ listNames && count == 0) || (name == ascii "requiredIf" && count < 2) ||
    (name ∈ databaseNames && (count < 1 || (if name = ascii "unique" then 4 else 2) < count)))

/-! ## Arguments -/

def logicError : Exception := ⟨.logicError, text⟩

/-- Throws if the condition fails. -/
def require (condition : Bool) (message : Bytes) : Except Exception Unit :=
  if condition then .ok () else .error (logicError message)

variable (numerals : Numerals)

def checkSize (name argument : Bytes) : Except Exception Unit := do
  require (numerals.readDouble argument).isSome
    (ascii "Validation size arguments must be finite numbers")
  require (name != ascii "length" || (fromChars (2 ^ 64) argument).isSome)
    (ascii "Validation length requires a non-negative 64-bit integer")

def checkDatabase (field : Bytes) : List Bytes → Bool
  | [table] => ruleIdentifier table && ruleIdentifier field
  | [table, column] => ruleIdentifier table && ruleIdentifier column
  | [table, column, _] => ruleIdentifier table && ruleIdentifier column
  | table :: column :: _ :: key :: _ =>
    ruleIdentifier table && ruleIdentifier column && ruleIdentifier key
  | [] => false

def uploadFormats : List Bytes :=
  ["png", "jpeg", "jpg", "gif", "webp", "pdf", "txt", "bin"].map ascii

def mediaToken (part : Bytes) : Bool :=
  part ≠ [] && part.all fun c => isAlpha c || isDigit c || c ∈ ascii "!#$%&'*+-.^_`|~"

def mediaName (media : Bytes) : Bool :=
  (47 ∈ media) && mediaToken (media.takeWhile (· != 47)) &&
    mediaToken (media.drop ((media.takeWhile (· != 47)).length + 1))

/-- The checks of a parsed rule on its arguments. -/
def checkArguments (field : Bytes) (rule : ParsedRule) :
    Except Exception Unit := do
  let name := rule.name
  let first := rule.arguments.headD []
  require (knownName name) (ascii "Unknown validation rule '" ++ name ++ ascii "'")
  require (argumentCount name rule.arguments.length)
    (ascii "Invalid argument count for validation rule '" ++ name ++ ascii "'")
  if name ∈ sizeNames then checkSize numerals name first
  require (!(name == ascii "same" || name == ascii "different" || name == ascii "requiredIf") ||
    rulePath first) (ascii "Invalid validation comparison path")
  require (name != ascii "custom" || ruleIdentifier first)
    (ascii "Invalid custom validation rule name")
  require (!(decide (name ∈ databaseNames)) || checkDatabase field rule.arguments)
    (ascii "Invalid database validation identifier")
  if name = ascii "mimes" then
    rule.arguments.forM fun format => require (decide (format ∈ uploadFormats))
      (ascii "Unsupported upload format '" ++ format ++ ascii "'")
  require (name != ascii "mimetypes" || rule.arguments.all mediaName)
    (ascii "Invalid upload media type")
  require (name != ascii "extensions" || rule.arguments.all fun extension =>
    extension.all fun c => (97 ≤ c && c ≤ 122) || isDigit c)
    (ascii "Upload extensions must be lower-case letters or digits")

/-! ## Expressions -/

def parseArguments : Except Exception (List Bytes) :=
  (text.splitOn 44).mapM fun argument => do
    require (decide (ruleTrim argument ≠ []))
      (ascii "Validation rule arguments must not be empty")
    return ruleTrim argument

/-- One rule between bars. -/
def parseRule (field token : Bytes) : Except Exception ParsedRule := do
  let token := ruleTrim token
  require (decide (token ≠ [])) (ascii "Validation rules must not contain empty entries")
  let before := token.takeWhile (· != 58)
  let arguments ← if 58 ∈ token then parseArguments (token.drop (before.length + 1)) else pure []
  let rule : ParsedRule := ⟨ruleName (ruleTrim before), arguments⟩
  checkArguments numerals field rule
  return rule

def parseRuleExpression (field expression : Bytes) :
    Except Exception (List ParsedRule) := do
  require (rulePath field) (ascii "Invalid validation field path")
  (expression.splitOn 124).mapM (parseRule numerals field)

end Gungnir.Validation
