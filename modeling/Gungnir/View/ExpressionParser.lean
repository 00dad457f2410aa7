import Gungnir.View.Template
import Gungnir.Library.Stateful

/-!
# The expressions of Spear

The tokens of an expression and the recursive descent of `ExpressionParser`. The
parser reads one range of the template, which starts at a given offset, and it
counts the nodes of the whole template.
-/

namespace Gungnir.View

open Gungnir.Core

/-! ## Characters -/

def wordStart (c : UInt8) : Bool :=
  (97 ≤ c && c ≤ 122) || (65 ≤ c && c ≤ 90) || c == 95

def isDigit (c : UInt8) : Bool := 48 ≤ c && c ≤ 57

def wordPart (c : UInt8) : Bool := wordStart c || isDigit c

/-- `std::isspace` in the classic locale. -/
def blank (c : UInt8) : Bool := c == 32 || (9 ≤ c && c ≤ 13)

/-! ## Places in the template -/

/-- `Syntax` without its count, which is part of the state. -/
structure Syntax where
  name : Bytes
  lines : List Nat

def lineStarts : Nat → Bytes → List Nat
  | _, [] => []
  | offset, c :: rest => if c = 10 then (offset + 1) :: lineStarts (offset + 1) rest
      else lineStarts (offset + 1) rest

namespace Syntax

def create (name source : Bytes) : Syntax := ⟨name, 0 :: lineStarts 0 source⟩

def location (file : Syntax) (offset : Nat) : Location :=
  let line := (file.lines.filter (· ≤ offset)).length
  ⟨line, offset - file.lines.getD (line - 1) 0 + 1⟩

def error (file : Syntax) (offset : Nat) (message : Bytes) : ViewException :=
  located file.name (file.location offset) message

/-- `Syntax::node` on the count of nodes so far. -/
def node (file : Syntax) (count offset depth : Nat) : Except ViewException Nat :=
  if 64 < depth then .error (file.error offset (ascii "Spear syntax nesting limit exceeded"))
  else if 100000 < count + 1 then
    .error (file.error offset (ascii "Spear syntax node limit exceeded"))
  else .ok (count + 1)

end Syntax

/-! ## Tokens -/

inductive TokenKind where
  | ending
  | identifier
  | string
  | number
  | symbol
  deriving DecidableEq, Repr

structure Token where
  kind : TokenKind
  text : Bytes
  offset : Nat
  deriving DecidableEq, Repr

/-- The rest of a string literal behind its quote: its text and what follows it. -/
def readString (quote : UInt8) (text : Bytes) : Bytes → Except String (Bytes × Bytes)
  | [] => .error "Unclosed Spear string literal"
  | value :: rest =>
    if value = quote then .ok (text, rest)
    else if value = 92 then
      match rest with
      | [] => .error "Unclosed string escape"
      | 110 :: rest => readString quote (text ++ [10]) rest
      | 114 :: rest => readString quote (text ++ [13]) rest
      | 116 :: rest => readString quote (text ++ [9]) rest
      | escaped :: rest =>
        if escaped = 92 ∨ escaped = 39 ∨ escaped = 34 then
          readString quote (text ++ [escaped]) rest
        else .error "Unsupported string escape"
    else readString quote (text ++ [value]) rest

def skipDigits (bytes : Bytes) : Bytes := bytes.dropWhile isDigit

def skipFraction : Bytes → Bytes
  | 46 :: rest => skipDigits rest
  | bytes => bytes

def skipSign : Bytes → Bytes
  | 43 :: rest => rest
  | 45 :: rest => rest
  | bytes => bytes

def skipExponent : Bytes → Bytes
  | 101 :: rest => skipDigits (skipSign rest)
  | 69 :: rest => skipDigits (skipSign rest)
  | bytes => bytes

def symbols : List Bytes :=
  ["===", "!==", "??", "&&", "||", "==", "!=", "<=", ">=", "=>", "->"].map ascii

/-- The token at the start of a text without leading blanks, and what follows it. -/
def readToken (offset : Nat) : Bytes → Except String (Token × Bytes)
  | [] => .ok (⟨.ending, [], offset⟩, [])
  | c :: rest =>
    if c = 36 then
      match rest with
      | [] => .error "Expected a variable after '$'"
      | first :: _ =>
        if wordStart first then
          .ok (⟨.identifier, rest.takeWhile wordPart, offset⟩, rest.dropWhile wordPart)
        else .error "Expected a variable after '$'"
    else if wordStart c then
      .ok (⟨.identifier, (c :: rest).takeWhile wordPart, offset⟩, (c :: rest).dropWhile wordPart)
    else if c = 39 ∨ c = 34 then
      (readString c [] rest).map fun (text, after) => (⟨.string, text, offset⟩, after)
    else if isDigit c then
      let after := skipExponent (skipFraction (skipDigits rest))
      .ok (⟨.number, (c :: rest).take ((c :: rest).length - after.length), offset⟩, after)
    else
      match symbols.find? (·.isPrefixOf (c :: rest)) with
      | some text => .ok (⟨.symbol, text, offset⟩, (c :: rest).drop text.length)
      | none => .ok (⟨.symbol, [c], offset⟩, rest)

/-! ## The parser -/

/-- The members of `ExpressionParser` that change, with the count of the template's
nodes. What is left of the range stands for the position. -/
structure ExpressionState where
  rest : Bytes
  token : Token
  count : Nat

abbrev Parsing := StateT ExpressionState (Except ViewException)

/-- The range that is read: where it starts in the template and how long it is. -/
structure Range where
  file : Syntax
  numerals : Numerals
  start : Nat
  length : Nat

namespace Range

variable (range : Range)

/-- `next()` on the rest of the range. -/
def read (rest : Bytes) : Except ViewException (Token × Bytes) :=
  let left := rest.dropWhile blank
  let offset := range.start + (range.length - left.length)
  match readToken offset left with
  | .ok read => .ok read
  | .error message => .error (range.file.error offset (ascii message))

def next : Parsing Unit := fun state =>
  match range.read state.rest with
  | .ok (token, rest) => .ok ((), ⟨rest, token, state.count⟩)
  | .error raised => .error raised

def token : Parsing Token := fun state => .ok (state.token, state)

def error {α : Type} (message : Bytes) : Parsing α := fun state =>
  .error (range.file.error state.token.offset message)

/-- Whether the token is this symbol, which is then read. -/
def take (symbol : String) : Parsing Bool := do
  let current ← token
  if current.text = ascii symbol ∧ current.kind = .symbol then
    range.next
    return true
  else return false

def expect (symbol : String) : Parsing Unit := do
  if ← range.take symbol then return ()
  else range.error (ascii "Expected '" ++ ascii symbol ++ ascii "'")

/-- `make`: the node is counted, and its location is returned. -/
def make (offset depth : Nat) : Parsing Location := fun state =>
  match range.file.node state.count offset depth with
  | .ok count => .ok (range.file.location offset, { state with count })
  | .error raised => .error raised

/-- `seal`. -/
def sealed (node : Expression) : Parsing Expression :=
  if 64 < node.height then
    throw (located range.file.name node.location
      (ascii "Spear expression AST depth limit exceeded"))
  else return node

def precedence (operator : Bytes) : Nat :=
  if operator = ascii "??" then 1
  else if operator = ascii "||" then 2
  else if operator = ascii "&&" then 3
  else if operator = ascii "==" ∨ operator = ascii "!=" ∨ operator = ascii "===" ∨
    operator = ascii "!==" then 4
  else if operator = ascii "<" ∨ operator = ascii ">" ∨ operator = ascii "<=" ∨
    operator = ascii ">=" then 5
  else 0

def numberLiteral (text : Bytes) : Parsing Value :=
  if text.any (fun c => c == 46 || c == 101 || c == 69) then
    match range.numerals.readDouble text with
    | some bits => return .double bits
    | none => range.error (ascii "Invalid or out-of-range number")
  else
    match fromChars (2 ^ 64) text with
    | some value => return .uint64 (UInt64.ofNat value)
    | none => range.error (ascii "Invalid or out-of-range integer")

def identifier (location : Location) (text : Bytes) : Expression :=
  if text = ascii "true" then .literal location (.boolean true)
  else if text = ascii "false" then .literal location (.boolean false)
  else if text = ascii "null" then .literal location .null
  else .variableName location text

/-- The exception for a recursion that outlives its fuel; the parser has none. -/
def stopped {α : Type} : Parsing α := throw .stopped

mutual

def conditional : Nat → Nat → Parsing Expression
  | 0, _ => stopped
  | fuel + 1, depth => do
    let result ← binary fuel 1 (depth + 1)
    if ← range.take "?" then
      let location ← range.make (← token).offset depth
      let yes ← conditional fuel (depth + 1)
      range.expect ":"
      let no ← conditional fuel (depth + 1)
      range.sealed (.conditional location result yes no)
    else return result

def binary : Nat → Nat → Nat → Parsing Expression
  | 0, _, _ => stopped
  | fuel + 1, minimum, depth => do
    let result ← unary fuel (depth + 1)
    binaryLoop fuel minimum depth result

/-- The loop of `binary`. -/
def binaryLoop : Nat → Nat → Nat → Expression → Parsing Expression
  | 0, _, _, _ => stopped
  | fuel + 1, minimum, depth, result => do
    let operator ← token
    if operator.kind = .symbol ∧ minimum ≤ precedence operator.text then
      range.next
      let location ← range.make operator.offset depth
      let tighter := if operator.text = ascii "??" then 0 else 1
      let right ← binary fuel (precedence operator.text + tighter) (depth + 1)
      let result ← range.sealed (.binary location operator.text result right)
      binaryLoop fuel minimum depth result
    else return result

def unary : Nat → Nat → Parsing Expression
  | 0, _ => stopped
  | fuel + 1, depth => do
    let operator ← token
    -- the text alone decides, so a string literal with this text counts too
    if operator.text = ascii "!" ∨ operator.text = ascii "-" then
      range.next
      let location ← range.make operator.offset depth
      let operand ← unary fuel (depth + 1)
      range.sealed (.unary location operator.text operand)
    else
      let result ← primary fuel (depth + 1)
      accessLoop fuel depth result

/-- The loop of `unary` over members, indices and calls. -/
def accessLoop : Nat → Nat → Expression → Parsing Expression
  | 0, _, _ => stopped
  | fuel + 1, depth, result => do
    let operator ← token
    if operator.text = ascii "." ∨ operator.text = ascii "->" then
      range.next
      let location ← range.make operator.offset depth
      let property ← token
      if property.kind ≠ .identifier then range.error (ascii "Expected a property name")
      range.next
      let result ← range.sealed (.member location property.text result)
      accessLoop fuel depth result
    else if operator.text = ascii "[" then
      range.next
      let location ← range.make operator.offset depth
      let key ← conditional fuel (depth + 1)
      range.expect "]"
      let result ← range.sealed (.index location result key)
      accessLoop fuel depth result
    else if operator.text = ascii "(" then
      range.next
      match result with
      | .variableName _ name =>
        let location ← range.make operator.offset depth
        let arguments ← items fuel ")" depth
        let result ← range.sealed (.helper location name arguments)
        accessLoop fuel depth result
      | _ => range.error (ascii "Only registered view helpers are callable")
    else return result

/-- The expressions up to a closing symbol, which is read. -/
def items : Nat → String → Nat → Parsing (List Expression)
  | 0, _, _ => stopped
  | fuel + 1, close, depth => do
    if ← range.take close then return []
    else
      let read ← itemLoop fuel depth
      range.expect close
      return read

/-- One expression and, behind each comma, another one. -/
def itemLoop : Nat → Nat → Parsing (List Expression)
  | 0, _ => stopped
  | fuel + 1, depth => do
    let first ← conditional fuel (depth + 1)
    if ← range.take "," then
      let more ← itemLoop fuel depth
      return first :: more
    else return [first]

/-- The entries of an object literal, with the keys that came before. -/
def entryLoop : Nat → Nat → List Bytes → Parsing (List (Bytes × Expression))
  | 0, _, _ => stopped
  | fuel + 1, depth, before => do
    let key ← token
    if key.kind ≠ .identifier ∧ key.kind ≠ .string then
      range.error (ascii "Object keys must be names or strings")
    if key.text ∈ before then range.error (ascii "Duplicate object key")
    range.next
    range.expect ":"
    let value ← conditional fuel (depth + 1)
    if ← range.take "," then
      let more ← entryLoop fuel depth (before ++ [key.text])
      return (key.text, value) :: more
    else return [(key.text, value)]

def primary : Nat → Nat → Parsing Expression
  | 0, _ => stopped
  | fuel + 1, depth => do
    let current ← token
    let location ← range.make current.offset depth
    if current.kind = .string then
      range.next
      return .literal location (.string current.text)
    else if current.kind = .number then
      let value ← range.numberLiteral current.text
      range.next
      return .literal location value
    else if current.kind = .identifier then
      range.next
      return identifier location current.text
    else if ← range.take "(" then
      let result ← conditional fuel (depth + 1)
      range.expect ")"
      return result
    else if ← range.take "[" then
      let read ← items fuel "]" depth
      range.sealed (.array location read)
    else if ← range.take "\x7b" then
      if ← range.take "\x7d" then
        range.sealed (.object location [] [])
      else
        let read ← entryLoop fuel depth []
        range.expect "\x7d"
        range.sealed (.object location (read.map Prod.fst) (read.map Prod.snd))
    else range.error (ascii "Expected a Spear expression")

end

/-- Every recursive call is one level of nesting further in, of which there are less
than seventy with four calls each, or it follows the reading of a token. -/
def fuel : Nat := range.length + 300

def expression : Parsing Expression := do
  let result ← range.conditional range.fuel 0
  if (← token).kind ≠ .ending then range.error (ascii "Unexpected token in Spear expression")
  return result

def arguments : Parsing (List Expression) := do
  if (← token).kind = .ending then return []
  else
    let result ← argumentLoop range.fuel
    if (← token).kind ≠ .ending then
      range.error (ascii "Expected ',' between directive arguments")
    return result
where
  argumentLoop : Nat → Parsing (List Expression)
    | 0 => stopped
    | fuel + 1 => do
      let first ← range.conditional (fuel + 300) 0
      if ← range.take "," then
        let more ← argumentLoop fuel
        return first :: more
      else return [first]

/-- `variable()`. -/
def loopVariable : Parsing Bytes := do
  let name ← token
  if name.kind ≠ .identifier then range.error (ascii "Expected a loop variable name")
  if name.text = ascii "loop" ∨ name.text = ascii "this" ∨ name.text = ascii "true" ∨
      name.text = ascii "false" ∨ name.text = ascii "null" then
    range.error (ascii "Reserved loop variable name")
  range.next
  return name.text

/-- `loop()`: the collection, the key, which may be empty, and the variable. -/
def loopHeader : Parsing (Expression × Bytes × Bytes) := do
  let collection ← range.conditional range.fuel 0
  let word ← token
  if word.kind ≠ .identifier ∨ word.text ≠ ascii "as" then
    range.error (ascii "Loop requires 'collection as item'")
  range.next
  let first ← range.loopVariable
  let names ←
    if ← range.take "=>" then do
      let second ← range.loopVariable
      pure (first, second)
    else pure ([], first)
  if names.1 = names.2 then
    range.error (ascii "Loop key and value must use different names")
  if (← token).kind ≠ .ending then range.error (ascii "Unexpected token after loop variable")
  return (collection, names)

/-- A parser on the text of the range, started as the constructor of
`ExpressionParser` does. The result is returned with the count of nodes. -/
def parse {α : Type} (parser : Parsing α) (text : Bytes) (count : Nat) :
    Except ViewException (α × Nat) := do
  let (token, rest) ← range.read text
  let (result, after) ← parser ⟨rest, token, count⟩
  return (result, after.count)

end Range

end Gungnir.View
