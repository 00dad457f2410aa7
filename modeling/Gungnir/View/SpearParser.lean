import Gungnir.View.ExpressionParser
import Gungnir.Library.Search

/-!
# The Spear parser

`Parser::sequence` cuts a template into text, interpolations and directives; the
expressions in them are read by `ExpressionParser`. Directives that open a block
read the block by a nested call, which ends at one of its stops.
-/

namespace Gungnir.View

open Gungnir.Core

structure ParserState where
  position : Nat
  count : Nat

abbrev Scanning := StateT ParserState (Except ViewException)

/-- The template that is parsed. -/
structure Parser where
  file : Syntax
  source : Bytes
  numerals : Numerals

namespace Parser

variable (parser : Parser)

/-! ## The position -/

def position : Scanning Nat := fun state => .ok (state.position, state)

def advance (count : Nat) : Scanning Unit := fun state =>
  .ok ((), { state with position := state.position + count })

def moveTo (position : Nat) : Scanning Unit := fun state => .ok ((), { state with position })

/-- `source_.substr(position_)`. -/
def remaining : Scanning Bytes := fun state => .ok (parser.source.drop state.position, state)

def error {α : Type} (offset : Nat) (message : Bytes) : Scanning α :=
  throw (parser.file.error offset message)

/-- `Syntax::node`. -/
def node (offset depth : Nat) : Scanning Unit := fun state =>
  match parser.file.node state.count offset depth with
  | .ok count => .ok ((), { state with count })
  | .error raised => .error raised

/-- The end of the search for a text, as an offset into the template. -/
def find (needle : String) (start : Nat) : Option Nat :=
  (Library.find (ascii needle) (parser.source.drop start)).map (start + ·)

/-! ## Directives -/

/-- The name of the directive that a text starts with, empty if there is none. -/
def directiveOf : Bytes → Bytes
  | 64 :: rest =>
    if (rest.takeWhile wordPart).head?.any wordStart ∧
        (rest.dropWhile wordPart).head? ≠ some 46 then rest.takeWhile wordPart
    else []
  | _ => []

def directive : Scanning Bytes := directiveOf <$> parser.remaining

/-- The opening delimiter for a closing one. -/
def opening (close : UInt8) : UInt8 := if close = 41 then 40 else if close = 93 then 91 else 123

/-- The loop of `delimited` over what is left: the offset of the closing text. -/
def closingOffset (start : Nat) (close : Bytes) :
    Nat → List UInt8 → Option UInt8 → Bytes → Except (Nat × String) Nat
  | _, _, _, [] => .error (start, "Unclosed Spear expression or directive")
  | offset, delimiters, some quote, c :: rest =>
    if c = 92 then
      match rest with
      | [] => .error (start, "Unclosed Spear expression or directive")
      | _ :: rest => closingOffset start close (offset + 2) delimiters (some quote) rest
    else
      closingOffset start close (offset + 1) delimiters
        (if c = quote then none else some quote) rest
  | offset, delimiters, none, c :: rest =>
    if delimiters = [] ∧ close.isPrefixOf (c :: rest) then .ok offset
    else if c = 39 ∨ c = 34 then
      closingOffset start close (offset + 1) delimiters (some c) rest
    else if c = 40 ∨ c = 91 ∨ c = 123 then
      if 64 < delimiters.length + 1 then
        .error (offset, "Spear expression delimiter limit exceeded")
      else closingOffset start close (offset + 1) (c :: delimiters) none rest
    else if c = 41 ∨ c = 93 ∨ c = 125 then
      match delimiters with
      | [] => .error (offset, "Mismatched Spear expression delimiter")
      | last :: before =>
        if last ≠ opening c then .error (offset, "Mismatched Spear expression delimiter")
        else closingOffset start close (offset + 1) before none rest
    else closingOffset start close (offset + 1) delimiters none rest

/-- `delimited`: the range up to the closing text, and where it starts. -/
def delimited (close : Bytes) : Scanning (Bytes × Nat) := do
  let start ← position
  match closingOffset start close start [] none (parser.source.drop start) with
  | .ok offset =>
    moveTo (offset + close.length)
    return ((parser.source.drop start).take (offset - start), start)
  | .error (offset, message) => parser.error offset (ascii message)

def header (name : Bytes) : Scanning (Bytes × Nat) := do
  advance (name.length + 1)
  advance ((← parser.remaining).takeWhile blank).length
  if (← parser.remaining).head? ≠ some 40 then
    parser.error (← position) (ascii "@" ++ name ++ ascii " requires parentheses")
  advance 1
  parser.delimited (ascii ")")

/-- A parser for expressions on a range of the template. -/
def parseRange {α : Type} (read : Range → Parsing α) (text : Bytes) (start : Nat) : Scanning α :=
  fun state =>
    let range : Range := ⟨parser.file, parser.numerals, start, text.length⟩
    match range.parse (read range) text state.count with
    | .ok (result, count) => .ok (result, { state with count })
    | .error raised => .error raised

def params (name : Bytes) (minimum maximum : Nat) : Scanning (List Expression) := do
  let (text, start) ← parser.header name
  let result ← parser.parseRange Range.arguments text start
  if result.length < minimum ∨ maximum < result.length then
    parser.error start (ascii "Wrong number of @" ++ name ++ ascii " arguments")
  return result

/-- `params(name, 1, 1)`. -/
def param (name : Bytes) : Scanning Expression := do
  match ← parser.params name 1 1 with
  | [single] => return single
  | _ => throw .stopped

/-- `params(name, 1, 2)`. -/
def oneOrTwo (name : Bytes) : Scanning (Expression × Option Expression) := do
  match ← parser.params name 1 2 with
  | [first] => return (first, none)
  | [first, second] => return (first, some second)
  | _ => throw .stopped

def close (name : String) : Scanning Unit := do
  if (← parser.directive) ≠ ascii name then
    parser.error (← position) (ascii "Expected @" ++ ascii name)
  advance ((ascii name).length + 1)
  if (← parser.remaining).head? = some 40 then
    parser.error (← position) (ascii "@" ++ ascii name ++ ascii " does not accept arguments")

/-! ## Sequences -/

/-- The local variables of `sequence`. -/
structure Sequence where
  nodes : List Node
  text : Bytes
  textStart : Nat

def flush (depth : Nat) (sequence : Sequence) : Scanning Sequence := do
  if sequence.text = [] then return sequence
  else
    parser.node sequence.textStart depth
    let piece := Node.text (parser.file.location sequence.textStart) sequence.text
    return { sequence with nodes := sequence.nodes ++ [piece], text := [] }

def push (depth : Nat) (sequence : Sequence) (node : Node) : Scanning Sequence := do
  let flushed ← parser.flush depth sequence
  let here ← position
  return { flushed with nodes := flushed.nodes ++ [node], textStart := here }

/-- What one round of the loop decides: the block has ended, or it goes on. -/
inductive Round where
  | ended (sequence : Sequence)
  | continued (sequence : Sequence)

def cssNames : List Bytes :=
  ["media", "supports", "container", "scope", "layer", "document"].map ascii

def comment (depth : Nat) (sequence : Sequence) : Scanning Round := do
  let start ← position
  let flushed ← parser.flush depth sequence
  match parser.find "--\x7d\x7d" (start + 4) with
  | none => parser.error start (ascii "Unclosed Spear comment")
  | some found =>
    moveTo (found + 4)
    return .continued { flushed with textStart := found + 4 }

/-- An interpolation that an at sign turns into text. -/
def escapedInterpolation (sequence : Sequence) : Scanning Round := do
  let start ← position
  match parser.find "\x7d\x7d" (start + 3) with
  | none => parser.error start (ascii "Unclosed escaped interpolation")
  | some found =>
    moveTo (found + 2)
    let shown := (parser.source.drop (start + 1)).take (found + 2 - start - 1)
    return .continued { sequence with text := sequence.text ++ shown }

def interpolation (raw : Bool) (depth : Nat) (sequence : Sequence) : Scanning Round := do
  let start ← position
  let flushed ← parser.flush depth sequence
  parser.node start depth
  advance (if raw then 3 else 2)
  let (text, offset) ← parser.delimited (if raw then ascii "!!\x7d" else ascii "\x7d\x7d")
  let location := parser.file.location start
  let expression ← parser.parseRange Range.expression text offset
  let node := if raw then Node.raw location expression else Node.escaped location expression
  .continued <$> parser.push depth flushed node

def verbatim (name : Bytes) (sequence : Sequence) : Scanning Round := do
  let start ← position
  advance (name.length + 1)
  let body ← position
  match parser.find "@endverbatim" body with
  | none => parser.error start (ascii "Unclosed @verbatim block")
  | some found =>
    moveTo (found + 12)
    let shown := (parser.source.drop body).take (found - body)
    return .continued { sequence with text := sequence.text ++ shown }

/-- A character of the text. -/
def character (sequence : Sequence) : Scanning Round := do
  let rest ← parser.remaining
  advance 1
  return .continued { sequence with text := sequence.text ++ rest.take 1 }

/-- Other words behind an at sign are text, except for what looks like a directive. -/
def otherWord (name : Bytes) (sequence : Sequence) : Scanning Round := do
  let start ← position
  let after := (parser.source.drop (start + name.length + 1)).dropWhile blank
  if name ∉ cssNames ∧ after.head? = some 40 then
    parser.error start (ascii "Unknown Spear directive: @" ++ name)
  parser.character sequence

/-- A block reader: the nodes up to one of the stops, at a depth. -/
abbrev BlockReader := List String → Nat → Scanning (List Node)

def conditionStops : List String := ["elseif", "else", "endif", "endunless"]

/-- The branches behind `@elseif`. -/
def elseIfs (block : BlockReader) (depth : Nat) :
    Nat → Scanning (List (Option Expression) × List (List Node))
  | 0 => throw .stopped
  | fuel + 1 => do
    if (← parser.directive) = ascii "elseif" then
      let expression ← parser.param (ascii "elseif")
      let branch ← block conditionStops (depth + 1)
      let (expressions, branches) ← elseIfs block depth fuel
      return (some expression :: expressions, branch :: branches)
    else return ([], [])

variable (block : BlockReader)

/-- `@if` and `@unless`. -/
def conditionBlock (name : Bytes) (depth : Nat) (sequence : Sequence) : Scanning Round := do
  let start ← position
  let flushed ← parser.flush depth sequence
  parser.node start depth
  let location := parser.file.location start
  let argument ← parser.param name
  let condition :=
    if name = ascii "unless" then Expression.unary location (ascii "!") argument else argument
  let first ← block conditionStops (depth + 1)
  let (expressions, branches) ← parser.elseIfs block depth (parser.source.length + 1)
  let (lastExpressions, lastBranches) ←
    if (← parser.directive) = ascii "else" then do
      parser.close "else"
      let last ← block ["endif", "endunless"] (depth + 1)
      pure ([none], [last])
    else pure ([], [])
  parser.close (if name = ascii "if" then "endif" else "endunless")
  .continued <$> parser.push depth flushed (.condition location
    (some condition :: (expressions ++ lastExpressions)) (first :: (branches ++ lastBranches)))

/-- `@foreach` and `@forelse`. -/
def loopBlock (name : Bytes) (depth : Nat) (sequence : Sequence) : Scanning Round := do
  let start ← position
  let flushed ← parser.flush depth sequence
  parser.node start depth
  let location := parser.file.location start
  let (text, offset) ← parser.header name
  let (collection, key, item) ← parser.parseRange Range.loopHeader text offset
  let children ← block ["empty", "endforeach", "endforelse"] (depth + 1)
  let otherwise ←
    if (← parser.directive) = ascii "empty" ∧ name = ascii "forelse" then do
      parser.close "empty"
      block ["endforelse"] (depth + 1)
    else pure []
  parser.close (if name = ascii "foreach" then "endforeach" else "endforelse")
  .continued <$> parser.push depth flushed (.loop location collection key item children otherwise)

/-- `@include`, `@yield`, `@extends` and `@section`. -/
def composition (name : Bytes) (depth : Nat) (sequence : Sequence) : Scanning Round := do
  let start ← position
  let flushed ← parser.flush depth sequence
  parser.node start depth
  let location := parser.file.location start
  if name = ascii "extends" then
    let layout ← parser.param name
    if depth ≠ 0 then parser.error start (ascii "@extends must be at template scope")
    .continued <$> parser.push depth flushed (.extendsLayout location layout)
  else
    let (first, second) ← parser.oneOrTwo name
    if name = ascii "include" then
      .continued <$> parser.push depth flushed (.includeFile location first second)
    else if name = ascii "yield" then
      .continued <$> parser.push depth flushed (.yieldSection location first second)
    else
      if depth ≠ 0 then parser.error start (ascii "@section must be at template scope")
      let children ←
        if second.isNone then do
          let children ← block ["endsection"] (depth + 1)
          parser.close "endsection"
          pure children
        else pure []
      .continued <$> parser.push depth flushed (.sectionBody location first second children)

def directiveRound (stops : List String) (name : Bytes) (depth : Nat) (sequence : Sequence) :
    Scanning Round := do
  let start ← position
  if name ∈ stops.map ascii then .ended <$> parser.flush depth sequence
  else if name = ascii "else" ∨ name = ascii "elseif" ∨ name = ascii "empty" ∨
      (ascii "end").isPrefixOf name then
    parser.error start (ascii "Unexpected @" ++ name)
  else if name = ascii "verbatim" then parser.verbatim name sequence
  else if name = ascii "if" ∨ name = ascii "unless" then
    parser.conditionBlock block name depth sequence
  else if name = ascii "foreach" ∨ name = ascii "forelse" then
    parser.loopBlock block name depth sequence
  else if name = ascii "include" ∨ name = ascii "yield" ∨ name = ascii "extends" ∨
      name = ascii "section" then
    parser.composition block name depth sequence
  else parser.otherWord name sequence

/-- One round of the loop of `sequence` on what is left of the template. -/
def round (stops : List String) (depth : Nat) (rest : Bytes) (sequence : Sequence) :
    Scanning Round := do
  if (ascii "\x7b\x7b--").isPrefixOf rest then parser.comment depth sequence
  else if (ascii "@@").isPrefixOf rest then
    advance 2
    return .continued { sequence with text := sequence.text ++ ascii "@" }
  else if (ascii "@\x7b\x7b").isPrefixOf rest then parser.escapedInterpolation sequence
  else if (ascii "\x7b!!").isPrefixOf rest then parser.interpolation true depth sequence
  else if (ascii "\x7b\x7b").isPrefixOf rest then parser.interpolation false depth sequence
  else if directiveOf rest ≠ [] then
    parser.directiveRound block stops (directiveOf rest) depth sequence
  else parser.character sequence

/-- What follows the loop of `sequence`. -/
def finish (stops : List String) (depth : Nat) (sequence : Sequence) : Scanning (List Node) := do
  let flushed ← parser.flush depth sequence
  if stops ≠ [] then parser.error (← position) (ascii "Unclosed Spear directive block")
  return flushed.nodes

mutual

def sequence : Nat → BlockReader
  | 0, _, _ => throw .stopped
  | fuel + 1, stops, depth => do
    if 64 < depth then
      parser.error (← position) (ascii "Spear template nesting limit exceeded")
    let start ← position
    sequenceLoop fuel stops depth ⟨[], [], start⟩

def sequenceLoop : Nat → List String → Nat → Sequence → Scanning (List Node)
  | 0, _, _, _ => throw .stopped
  | fuel + 1, stops, depth, state => do
    let rest ← parser.remaining
    if rest = [] then parser.finish stops depth state
    else
      match ← parser.round (sequence fuel) stops depth rest state with
      | .ended last => return last.nodes
      | .continued next => sequenceLoop fuel stops depth next

end

/-- Every round of a loop reads a character, and blocks nest to a depth of 64. -/
def fuel : Nat := parser.source.length + 100

/-- The checks of `parse` on the nodes at template scope. -/
def checkLayout (nodes : List Node) : Except ViewException (List Node) :=
  match nodes.filter isExtends with
  | [] => .ok nodes
  | [_] =>
    match nodes.find? (fun node => !isAllowed node) with
    | some node => .error (located parser.file.name node.location
        (ascii "Extended templates must place output in sections"))
    | none => .ok nodes
  | _ :: second :: _ => .error (located parser.file.name second.location
      (ascii "A Spear template can extend only one layout"))
where
  isExtends : Node → Bool
    | .extendsLayout _ _ => true
    | _ => false
  isAllowed : Node → Bool
    | .extendsLayout _ _ => true
    | .sectionBody _ _ _ _ => true
    | .text _ text => text.all blank
    | _ => false

def parse : Except ViewException (List Node) := do
  let (nodes, _) ← parser.sequence parser.fuel [] 0 ⟨0, 0⟩
  parser.checkLayout nodes

end Parser

def sourceLimit : Nat := 2 * 1024 * 1024

/-- `detail::compile`. -/
def compile (numerals : Numerals) (name source : Bytes) (spear : Bool) :
    Except ViewException Template :=
  if sourceLimit < source.length then
    .error (located name ⟨1, 1⟩ (ascii "View source limit exceeded"))
  else if spear then do
    let nodes ← (⟨Syntax.create name source, source, numerals⟩ : Parser).parse
    return ⟨name, source, spear, nodes⟩
  else .ok ⟨name, source, spear, []⟩

end Gungnir.View
