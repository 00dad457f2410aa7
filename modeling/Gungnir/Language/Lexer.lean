import Gungnir.Core.Text
import Gungnir.Library.Search

/-!
# The lexer of the language

`Lexer::tokenize`. Each form of a token is given by the bytes that its loops advance over
behind the first one; a loop ends where the text ends. Diagnostics are left out: no token
depends on them.
-/

namespace Gungnir.Language

open Gungnir.Core List
open Gungnir.Library (find)

inductive TokenKind where
  | identifier
  | keyword
  | number
  | stringLiteral
  | characterLiteral
  | whitespace
  | comment
  | symbol
  | endOfSource
  deriving DecidableEq, Repr

structure Token where
  kind : TokenKind
  lexeme : Bytes
  offset : Nat
  line : Nat
  column : Nat
  deriving DecidableEq, Repr

/-! ## Forms of tokens -/

def keyword (value : Bytes) : Bool :=
  value ∈ ["async", "await", "bool", "boolean", "connection", "controller", "double", "event",
    "float", "inject", "int", "int64", "integer", "listener", "mail", "middleware", "migration",
    "model", "notification", "policy", "softDeletes", "string", "table", "timestamps", "uint64",
    "validation"].map ascii

variable (byte : UInt8)

def isSpace : Bool := (9 ≤ byte && byte ≤ 13) || byte = 32

def isDigit : Bool := 48 ≤ byte && byte ≤ 57

def isAlpha : Bool := (65 ≤ byte && byte ≤ 90) || (97 ≤ byte && byte ≤ 122)

def isAlnum : Bool := isAlpha byte || isDigit byte

/-- A directive goes on behind a newline that a backslash precedes. -/
def directiveLength (previous : UInt8) : Bytes → Nat
  | [] => 0
  | current :: rest =>
    if current = 10 ∧ previous ≠ 92 then 0 else 1 + directiveLength current rest

/-- A block comment behind its opening. -/
def blockLength : Bytes → Nat
  | [] => 0
  | 42 :: 47 :: _ => 2
  | _ :: rest => 1 + blockLength rest

/-- A raw string behind its quote. -/
def rawLength (text : Bytes) : Nat :=
  let delimiter := text.takeWhile (· ≠ 40)
  match text.drop delimiter.length with
  | [] => delimiter.length
  | _ :: body =>
    let closing := ascii ")" ++ delimiter ++ ascii "\""
    delimiter.length + 1 +
      match find closing body with
      | none => body.length
      | some position => position + closing.length

def quotedLength (quote : UInt8) (escaped : Bool) : Bytes → Nat
  | [] => 0
  | value :: rest =>
    1 +
      if escaped then quotedLength quote false rest
      else if value = 92 then quotedLength quote true rest
      else if value = 10 ∨ value = 13 ∨ value = quote then 0
      else quotedLength quote false rest

def numberLength (hexadecimal : Bool) (previous : UInt8) : Bytes → Nat
  | [] => 0
  | value :: rest =>
    if isAlnum value ∨ value = 95 ∨ value = 46 ∨
        ((value = 43 ∨ value = 45) ∧ (previous = 101 ∨ previous = 69) ∧ !hexadecimal) then
      1 + numberLength hexadecimal value rest
    else 0

variable (consumed : Bytes)

/-- Only blanks stand between the last newline and the end. -/
def beginsLine : Bool :=
  (consumed.reverse.takeWhile (· ≠ 10)).all fun byte => byte = 32 || byte = 9 || byte = 13

/-- The kind of the next token and how much of the rest it takes. -/
def scan (singleQuotedStrings : Bool) (consumed : Bytes) (current : UInt8) (rest : Bytes) :
    TokenKind × Nat :=
  if current = 35 ∧ beginsLine consumed then (.comment, directiveLength current rest)
  else if isSpace current then (.whitespace, (rest.takeWhile isSpace).length)
  else if current = 47 ∧ rest.head? = some 47 then
    (.comment, 1 + ((rest.drop 1).takeWhile (· ≠ 10)).length)
  else if current = 47 ∧ rest.head? = some 42 then (.comment, 1 + blockLength (rest.drop 1))
  else if current = 82 ∧ rest.head? = some 34 then (.stringLiteral, 1 + rawLength (rest.drop 1))
  else if current = 34 ∨ current = 39 then
    (if current = 34 ∨ singleQuotedStrings then .stringLiteral else .characterLiteral,
      quotedLength current false rest)
  else if isAlpha current ∨ current = 95 then
    let tail := rest.takeWhile fun value => isAlnum value || value = 95
    (if keyword (current :: tail) then .keyword else .identifier, tail.length)
  else if isDigit current ∨ (current = 46 ∧ rest.head?.any isDigit) then
    let hexadecimal := current = 48 ∧ (rest.head? = some 120 ∨ rest.head? = some 88)
    (.number, numberLength hexadecimal current rest)
  else (.symbol, 0)

/-! ## The loop -/

structure Cursor where
  index : Nat
  line : Nat
  column : Nat

def Cursor.advance (cursor : Cursor) (current : UInt8) : Cursor :=
  if current = 10 then ⟨cursor.index + 1, cursor.line + 1, 1⟩
  else ⟨cursor.index + 1, cursor.line, cursor.column + 1⟩

def tokenizeFrom (singleQuotedStrings : Bool) (size : Nat) (consumed : Bytes) (cursor : Cursor)
    (text : Bytes) : List Token :=
  match text with
  | [] => [⟨.endOfSource, [], size, cursor.line, cursor.column⟩]
  | current :: rest =>
    let (kind, length) := scan singleQuotedStrings consumed current rest
    let lexeme := current :: rest.take length
    ⟨kind, lexeme, cursor.index, cursor.line, cursor.column⟩ ::
      tokenizeFrom singleQuotedStrings size (consumed ++ lexeme)
        (lexeme.foldl Cursor.advance cursor)
        (rest.drop length)
termination_by text.length
decreasing_by
  rw [length_drop, length_cons]
  omega

def tokenize (source : Bytes) (singleQuotedStrings : Bool) : List Token :=
  tokenizeFrom singleQuotedStrings source.length [] ⟨0, 1, 1⟩ source

/-! ## Positions -/

/-- The cursor behind a text: lines and columns count from one. -/
def place : Cursor :=
  ⟨consumed.length, 1 + consumed.count 10, 1 + (consumed.reverse.takeWhile (· ≠ 10)).length⟩

theorem place_append (lexeme : Bytes) :
    lexeme.foldl Cursor.advance (place consumed) = place (consumed ++ lexeme) := by
  induction lexeme generalizing consumed with
  | nil => rw [append_nil, foldl_nil]
  | cons current rest ih =>
    have step : (place consumed).advance current = place (consumed ++ [current]) := by
      unfold Cursor.advance place
      split
      next newline => simp [newline, Nat.add_assoc]
      next other => simp [other, Nat.add_comm]
    rw [foldl_cons, step, ih, append_assoc, singleton_append]

/-- Tokens of the text behind a consumed one. -/
structure Lossless (consumed text : Bytes) (tokens : List Token) : Prop where
  joined : tokens.flatMap Token.lexeme = text
  ended : ∃ body line column,
    tokens = body ++ [⟨.endOfSource, [], (consumed ++ text).length, line, column⟩] ∧
      ∀ token ∈ body, token.lexeme ≠ []
  placed : ∀ before token after, tokens = before ++ token :: after →
    ⟨token.offset, token.line, token.column⟩ = place (consumed ++ before.flatMap Token.lexeme)

theorem Lossless.cons {consumed text : Bytes} {tokens : List Token} {kind : TokenKind}
    {lexeme : Bytes} (nonempty : lexeme ≠ []) (later : Lossless (consumed ++ lexeme) text tokens) :
    Lossless consumed (lexeme ++ text)
      (⟨kind, lexeme, (place consumed).index, (place consumed).line, (place consumed).column⟩ ::
        tokens) where
  joined := by rw [flatMap_cons, later.joined]
  ended := by
    obtain ⟨body, line, column, whole, full⟩ := later.ended
    rw [append_assoc] at whole
    exact ⟨_ :: body, line, column, by rw [whole, cons_append],
      forall_mem_cons.mpr ⟨nonempty, full⟩⟩
  placed before token after split := by
    cases before with
    | nil =>
      cases split
      rw [flatMap_nil, append_nil]
    | cons first before =>
      injection split with same rest
      subst same
      rw [later.placed before token after rest, flatMap_cons, append_assoc]

theorem Lossless.nil :
    Lossless consumed [] [⟨.endOfSource, [], (consumed ++ []).length, (place consumed).line,
      (place consumed).column⟩] where
  joined := rfl
  ended := ⟨[], _, _, rfl, nofun⟩
  placed before token after split := by
    cases before with
    | nil =>
      cases split
      rw [flatMap_nil, append_nil]
      rfl
    | cons first before => exact absurd (congrArg length split) (by simp)

theorem tokenizeFrom_lossless (singleQuotedStrings : Bool) (consumed text : Bytes) :
    Lossless consumed text (tokenizeFrom singleQuotedStrings (consumed ++ text).length consumed
      (place consumed) text) := by
  -- Each token takes a byte, so the rest is shorter.
  induction bound : text.length using Nat.strong_induction_on generalizing consumed text with
  | h size ih =>
    cases text with
    | nil =>
      rw [tokenizeFrom]
      exact .nil consumed
    | cons current rest =>
      rw [tokenizeFrom]
      generalize scan singleQuotedStrings consumed current rest = scanned
      obtain ⟨kind, length⟩ := scanned
      have whole : (current :: rest.take length) ++ rest.drop length = current :: rest := by
        rw [cons_append, take_append_drop]
      have shorter : (rest.drop length).length < size := by
        rw [← bound, length_drop, length_cons]
        omega
      have later := ih _ shorter (consumed ++ current :: rest.take length) (rest.drop length) rfl
      rw [append_assoc, whole, ← place_append] at later
      have joined := @Lossless.cons _ _ _ kind _ (cons_ne_nil _ _) later
      rw [whole] at joined
      exact joined

end Gungnir.Language
