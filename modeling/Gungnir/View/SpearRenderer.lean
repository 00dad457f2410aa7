import Gungnir.View.SpearParser

/-!
# The Spear renderer

`Session` renders a template: it evaluates expressions, keeps the sections that
templates define, and follows includes and layouts. Exceptions end the whole
render, so the state of a session is only that of a render which goes on.
-/

namespace Gungnir.View

open Gungnir.Core

def outputLimit : Nat := 8 * 1024 * 1024

/-! ## Escaping -/

/-- What `escape` writes for a character. -/
def encoded (c : UInt8) : Bytes :=
  if c = 38 then ascii "&amp;"
  else if c = 60 then ascii "&lt;"
  else if c = 62 then ascii "&gt;"
  else if c = 39 then ascii "&#39;"
  else if c = 34 then ascii "&quot;"
  else [c]

def outputLimitExceeded : ViewException := .message (ascii "View output limit exceeded")

def escape (source : Bytes) : Except ViewException Bytes :=
  if outputLimit < source.length then .error outputLimitExceeded
  else source.foldlM (fun result c =>
    if outputLimit < (result ++ encoded c).length then .error outputLimitExceeded
    else .ok (result ++ encoded c)) []

/-! ## The engine -/

/-- A template file: its path, its content and whether its extension is `.spear`. -/
structure SourceFile where
  key : Bytes
  source : Bytes
  spear : Bool

abbrev Sections := AList fun _ : Bytes => Bytes

/-- The members of `Session` that change. -/
structure Session where
  stack : List Bytes
  remaining : Nat
  operations : Nat

abbrev Rendering := StateT Session (Except ViewException)

/-- An engine: the files that names resolve to, the registered helpers and the
renderer of templates that are not Spear templates. A helper may answer
differently from call to call; the operations left tell its calls apart. -/
structure Engine where
  numerals : Numerals
  files : Bytes → Except ViewException SourceFile
  helpers : Bytes → Option (Nat → List Value → Except ViewException Value)
  renderLegacy : Bytes → Data → Option Value → Sections → Nat → Rendering (Bytes × Sections)

namespace Engine

variable (engine : Engine)

/-- `Engine::load`, for files that do not change. -/
def load (name : Bytes) : Except ViewException Template := do
  let file ← engine.files name
  compile engine.numerals file.key file.source file.spear

def call (name : Bytes) (arguments : List Value) : Rendering Value := fun session =>
  match engine.helpers name with
  | none => .error (.message (ascii "Unknown view helper: " ++ name))
  | some callback => (callback session.operations arguments).map fun value => (value, session)

end Engine

namespace Session

def initial : Session := ⟨[], outputLimit, 1000000⟩

def step : Rendering Unit := fun session =>
  match session.operations with
  | 0 => .error (.message (ascii "View operation limit exceeded"))
  | operations + 1 => .ok ((), { session with operations })

def append (output value : Bytes) : Rendering Bytes := fun session =>
  if session.remaining < value.length then .error outputLimitExceeded
  else .ok (output ++ value, { session with remaining := session.remaining - value.length })

def fail {α : Type} (file : Template) (location : Location) (message : Bytes) : Rendering α :=
  throw (View.located file.name location message)

/-- The handlers around a node: exceptions that name no template get the node's place. -/
def guarded {α : Type} (file : Template) (location : Location) (missing invalid : String)
    (body : Rendering α) : Rendering α :=
  tryCatch body fun raised =>
    match raised with
    | .syntaxError error =>
      if error.templateName ≠ [] then throw raised else fail file location error.what
    | .notFound _ => fail file location (ascii missing)
    | .invalidPath _ => fail file location (ascii invalid)
    | other => throw other

/-! ## Expressions -/

mutual

/-- The file's `equal`. -/
def equal (numerals : Numerals) : Value → Value → Nat → Rendering Bool
  | left, right, depth => do
    step
    if 64 < depth then
      throw (.message (ascii "Spear value comparison nesting limit exceeded"))
    if left.isNumber ∧ right.isNumber then
      return left.isFinite && right.isFinite && numericOrder left right == 0
    else if left.index ≠ right.index then return false
    else
      match left, right with
      | .null, _ => return true
      | .array first, .array second =>
        if first.length ≠ second.length then return false
        else equalItems numerals first second depth
      | .object first, .object second =>
        if first.length ≠ second.length then return false
        else equalEntries numerals first second depth
      | left, right => return left.text numerals == right.text numerals

def equalItems (numerals : Numerals) : List Value → List Value → Nat → Rendering Bool
  | first :: rest, second :: others, depth => do
    if ← equal numerals first second (depth + 1) then equalItems numerals rest others depth
    else return false
  | _, _, _ => return true

def equalEntries (numerals : Numerals) :
    List (Bytes × Value) → List (Bytes × Value) → Nat → Rendering Bool
  | (key, value) :: rest, others, depth => do
    match others.lookup key with
    | none => return false
    | some other =>
      if ← equal numerals value other (depth + 1) then
        equalEntries numerals rest others depth
      else return false
  | [], _, _ => return true

end

variable (file : Template) (location : Location)

/-- `-value`. -/
def negated : Value → Rendering Value
  | .int64 value =>
    if value = Int64.minValue then fail file location (ascii "Integer negation overflow")
    else return .int64 (-value)
  | .uint64 value =>
    if 2 ^ 63 < value.toNat then fail file location (ascii "Integer negation overflow")
    else return .int64 (Int64.ofInt (-value.toNat))
  | .double bits =>
    if Double.isFinite bits then return .double (Double.negate bits)
    else fail file location (ascii "Unary '-' requires a finite number")
  | _ => fail file location (ascii "Unary '-' requires a finite number")

/-- `std::string::compare`, up to its magnitude. -/
def compareText : Bytes → Bytes → Int
  | [], [] => 0
  | [], _ :: _ => -1
  | _ :: _, [] => 1
  | first :: rest, second :: others =>
    if first < second then -1 else if second < first then 1 else compareText rest others

/-- The order of two operands of a comparison. -/
def comparison (left right : Value) : Rendering Int :=
  if left.isNumber ∧ right.isNumber ∧ left.isFinite ∧ right.isFinite then
    return numericOrder left right
  else
    match left, right with
    | .string first, .string second => return compareText first second
    | .string _, _ =>
      fail file location (ascii "Comparison requires two numbers or two strings")
    | _, _ =>
      fail file location (ascii "Comparison requires two finite numbers or two strings")

/-- `object[key]`. -/
def indexed (object key : Value) : Value :=
  match object, key with
  | .array values, key => ((key.arrayIndex.bind (values[·]?))).getD .null
  | .object values, .string name => (values.lookup name).getD .null
  | _, _ => .null

/-- A binary operator that evaluates both operands. -/
def strict (numerals : Numerals) (file : Template) (location : Location) (operator : Bytes)
    (left right : Value) : Rendering Value := do
  if operator = ascii "==" ∨ operator = ascii "===" ∨ operator = ascii "!=" ∨
      operator = ascii "!==" then
    let same ← equal numerals left right 0
    return .boolean (if operator = ascii "!=" ∨ operator = ascii "!==" then !same else same)
  else
    let order ← comparison file location left right
    return .boolean (if operator = ascii "<" then decide (order < 0)
      else if operator = ascii ">" then decide (0 < order)
      else if operator = ascii "<=" then decide (order ≤ 0)
      else decide (0 ≤ order))

/-- The handlers around the call of a helper. -/
def helperGuarded (name : Bytes) (body : Rendering Value) : Rendering Value :=
  tryCatch body fun raised =>
    match raised with
    | .syntaxError error =>
      if error.templateName ≠ [] then throw raised else fail file location error.what
    | _ => fail file location (ascii "View helper failed: " ++ name)

/-- What every evaluation starts with. -/
def enter (depth : Nat) : Rendering Unit := do
  step
  if 64 < depth then
    fail file location (ascii "Spear expression evaluation nesting limit exceeded")

mutual

/-- `Session::evaluate`. -/
def evaluate (engine : Engine) (file : Template) (data : Data) :
    Expression → Nat → Rendering Value
  | .literal location value, depth => do
    enter file location depth
    return value
  | .variableName location text, depth => do
    enter file location depth
    return (data.get text).getD .null
  | .member location text object, depth => do
    enter file location depth
    let object ← evaluate engine file data object (depth + 1)
    return (object.get text).getD .null
  | .index location object key, depth => do
    enter file location depth
    let object ← evaluate engine file data object (depth + 1)
    let key ← evaluate engine file data key (depth + 1)
    return indexed object key
  | .array location items, depth => do
    enter file location depth
    return .array (← evaluateAll engine file data items (depth + 1))
  | .object location keys items, depth => do
    enter file location depth
    return .object (keys.zip (← evaluateAll engine file data items (depth + 1)))
  | .helper location text arguments, depth => do
    enter file location depth
    let values ← evaluateAll engine file data arguments (depth + 1)
    helperGuarded file location text (engine.call text values)
  | .unary location text operand, depth => do
    enter file location depth
    let value ← evaluate engine file data operand (depth + 1)
    if text = ascii "!" then return .boolean (!value.truthy)
    else negated file location value
  | .binary location text left right, depth => do
    enter file location depth
    let first ← evaluate engine file data left (depth + 1)
    if text = ascii "&&" then
      if first.truthy then
        return .boolean (← evaluate engine file data right (depth + 1)).truthy
      else return .boolean false
    else if text = ascii "||" then
      if first.truthy then return .boolean true
      else return .boolean (← evaluate engine file data right (depth + 1)).truthy
    else if text = ascii "??" then
      if first.isNull then evaluate engine file data right (depth + 1)
      else return first
    else
      let second ← evaluate engine file data right (depth + 1)
      strict engine.numerals file location text first second
  | .conditional location condition yes no, depth => do
    enter file location depth
    if (← evaluate engine file data condition (depth + 1)).truthy then
      evaluate engine file data yes (depth + 1)
    else evaluate engine file data no (depth + 1)

def evaluateAll (engine : Engine) (file : Template) (data : Data) :
    List Expression → Nat → Rendering (List Value)
  | [], _ => return []
  | first :: rest, depth => do
    let value ← evaluate engine file data first depth
    let values ← evaluateAll engine file data rest depth
    return value :: values

end

/-! ## Nodes -/

/-- What is rendered one level deeper: a list of nodes of a template, and a template.
The sections that come in and go out are those of the reference parameter. -/
structure Level where
  nodes : Template → List Node → Data → Sections → Rendering (Bytes × Sections)
  render : Bytes → Data → Option Value → Sections → Rendering (Bytes × Sections)

/-- The local variables of `nodes` and its sections. -/
structure Progress where
  output : Bytes
  sections : Sections
  defined : List Bytes

section Nodes

variable (engine : Engine) (deeper : Level) (file : Template)

def textOf (data : Data) (expression : Expression) : Rendering Bytes := do
  let value ← evaluate engine file data expression 0
  return value.text engine.numerals

def escapedText (data : Data) (expression : Expression) : Rendering Bytes := do
  escape (← textOf engine file data expression)

/-- A nested list of nodes, appended to the output. -/
def nested (data : Data) (nodes : List Node) (progress : Progress) : Rendering Progress := do
  let (body, sections) ← deeper.nodes file nodes data progress.sections
  let output ← append progress.output body
  return { progress with output, sections }

def branches (data : Data) :
    List (Option Expression) → List (List Node) → Progress → Rendering Progress
  | none :: _, branch :: _, progress => nested deeper file data branch progress
  | some expression :: expressions, branch :: rest, progress => do
    if (← evaluate engine file data expression 0).truthy then
      nested deeper file data branch progress
    else branches data expressions rest progress
  | _, _, progress => return progress

def loopValue (index count depth : Nat) (parent : Option Value) : Value :=
  .object [(ascii "index", .uint64 (.ofNat index)), (ascii "iteration", .uint64 (.ofNat (index + 1))),
    (ascii "remaining", .uint64 (.ofNat (count - index - 1))), (ascii "count", .uint64 (.ofNat count)),
    (ascii "first", .boolean (index = 0)), (ascii "last", .boolean (index + 1 = count)),
    (ascii "depth", .uint64 (.ofNat depth)), (ascii "parent", parent.getD .null)]

/-- The items of a collection with the values of the key variable: arrays in their
order, objects by their sorted keys. -/
def loopItems : Value → List (Value × Value)
  | .array values => values.zipIdx.map fun (item, index) => (.uint64 (.ofNat index), item)
  | .object values =>
    (values.mergeSort fun first second => compareText first.1 second.1 ≤ 0).map
      fun (key, item) => (.string key, item)
  | _ => []

/-- The depth of a loop inside of another one. -/
def loopDepth (parent : Option Value) : Nat :=
  match parent.bind (·.get (ascii "depth")) with
  | some (.uint64 depth) => (depth + 1).toNat
  | _ => 1

variable (data : Data)

def loopData (key variableName : Bytes) (count : Nat) (item : (Value × Value) × Nat) : Data :=
  let bound := (data.put variableName item.1.2).put (ascii "this") item.1.2
  let keyed := if key = [] then bound else bound.put key item.1.1
  keyed.put (ascii "loop") (loopValue item.2 count (loopDepth (data.get (ascii "loop")))
    (data.get (ascii "loop")))

def isCollection : Value → Bool
  | .null | .array _ | .object _ => true
  | _ => false

variable (location : Location)

def loopNode (collection : Expression) (key variableName : Bytes) (children otherwise : List Node)
    (progress : Progress) : Rendering Progress := do
  let collection ← evaluate engine file data collection 0
  if !isCollection collection then
    fail file location (ascii "Spear loops require an array, object, or null")
  let items := loopItems collection
  if 1000000 < items.length then fail file location (ascii "View iteration limit exceeded")
  if items = [] then nested deeper file data otherwise progress
  else
    items.zipIdx.foldlM (fun progress item => do
      step
      nested deeper file (loopData data key variableName items.length item) children progress)
      progress

def includeData : Option Expression → Rendering Data
  | none => return data
  | some props => do
    match ← evaluate engine file data props 0 with
    | .object entries => return data.putAll entries
    | _ => fail file location (ascii "@include data must be an object")

def includeNode (name : Expression) (props : Option Expression) (progress : Progress) :
    Rendering Progress := do
  let child ← includeData engine file data location props
  let name ← textOf engine file data name
  -- the sections of the included template are a copy
  let (body, _) ← deeper.render name child none progress.sections
  let output ← append progress.output body
  return { progress with output }

def sectionNode (name : Expression) (value : Option Expression) (children : List Node)
    (progress : Progress) : Rendering Progress := do
  let name ← textOf engine file data name
  if name = [] then fail file location (ascii "Section name cannot be empty")
  if name ∈ progress.defined then
    fail file location (ascii "Duplicate section definition: " ++ name)
  let progress := { progress with defined := name :: progress.defined }
  if name ∈ progress.sections then return progress
  else
    match value with
    | some expression => do
      let body ← escapedText engine file data expression
      return { progress with sections := progress.sections.insert name body }
    | none => do
      let (body, sections) ← deeper.nodes file children data progress.sections
      -- `emplace` keeps a section that the children have defined
      let sections := if name ∈ sections then sections else sections.insert name body
      return { progress with sections }

def yieldNode (name : Expression) (value : Option Expression) (progress : Progress) :
    Rendering Progress := do
  let name ← textOf engine file data name
  match progress.sections.lookup name, value with
  | some body, _ => do
    let output ← append progress.output body
    return { progress with output }
  | none, some expression => do
    let output ← append progress.output (← escapedText engine file data expression)
    return { progress with output }
  | none, none => return progress

/-- The switch of `nodes`. -/
def nodeBody (progress : Progress) : Node → Rendering Progress
  | .text _ text => do
    let output ← append progress.output text
    return { progress with output }
  | .escaped _ expression => do
    let output ← append progress.output (← escapedText engine file data expression)
    return { progress with output }
  | .raw _ expression => do
    let output ← append progress.output (← textOf engine file data expression)
    return { progress with output }
  | .extendsLayout _ _ => return progress
  | .condition _ expressions alternatives =>
    branches engine deeper file data expressions alternatives progress
  | .loop location collection key variableName children otherwise =>
    loopNode engine deeper file data location collection key variableName children otherwise
      progress
  | .includeFile location name props =>
    includeNode engine deeper file data location name props progress
  | .sectionBody location name value children =>
    sectionNode engine deeper file data location name value children progress
  | .yieldSection _ name value => yieldNode engine file data name value progress

def node (progress : Progress) (node : Node) : Rendering Progress := do
  step
  guarded file node.location "Included template or layout was not found"
    "Included template or layout path is invalid" (nodeBody engine deeper file data progress node)

/-- `Session::nodes` below the check of its depth. -/
def nodesWithin (source : List Node) (data : Data) (sections : Sections) :
    Rendering (Bytes × Sections) := do
  let progress ← source.foldlM (node engine deeper file data) ⟨[], sections, []⟩
  return (progress.output, progress.sections)

/-- The layout of a template: its first `@extends` node. -/
def layoutOf : List Node → Option (Location × Expression)
  | [] => none
  | .extendsLayout location layout :: _ => some (location, layout)
  | _ :: rest => layoutOf rest

/-- `Session::spear`, with its own level and the next one. -/
def spear (nodes : List Node → Data → Sections → Rendering (Bytes × Sections))
    (data : Data) (sections : Sections) : Rendering (Bytes × Sections) := do
  let (result, sections) ← nodes file.nodes data sections
  match layoutOf file.nodes with
  | none => return (result, sections)
  | some (location, layout) =>
    guarded file location "Layout template was not found" "Layout path is invalid" do
      let name ← textOf engine file data layout
      deeper.render name data none sections

end Nodes

/-- The data of a template that is rendered for a current value. -/
def adapted (data : Data) : Option Value → Data
  | none => data
  | some current =>
    let spread :=
      match current with
      | .object entries => data.putAll entries
      | _ => data
    spread.put (ascii "this") current

/-- `Session::render` below the check of its depth. -/
def renderWithin (engine : Engine) (deeper : Level) (depth : Nat) (name : Bytes) (data : Data)
    (current : Option Value) (sections : Sections) : Rendering (Bytes × Sections) := do
  step
  let file ← engine.load name
  let session ← get
  if file.name ∈ session.stack then
    throw (View.located file.name ⟨1, 1⟩ (ascii "Cyclic view composition"))
  set { session with stack := file.name :: session.stack }
  let result ←
    if !file.spear then engine.renderLegacy file.source data current sections depth
    else
      spear engine deeper file (nodesWithin engine deeper file) (adapted data current) sections
  modify fun session => { session with stack := session.stack.tail }
  return result

/-- The levels of nesting from the deepest one, where composition is refused: `left`
more levels may follow, so the depth of the source is `65 - left`. -/
def level (engine : Engine) : Nat → Level
  | 0 =>
    { nodes := fun file _ _ _ => throw (View.located file.name ⟨1, 1⟩
        (ascii "View composition nesting limit exceeded"))
      render := fun _ _ _ _ =>
        throw (.message (ascii "View composition nesting limit exceeded")) }
  | left + 1 =>
    let deeper := level engine left
    { nodes := nodesWithin engine deeper
      render := renderWithin engine deeper (64 - left) }

end Session

namespace Engine

variable (engine : Engine)

def render (name : Bytes) (data : Data) : Except ViewException Bytes :=
  ((Session.level engine 65).render name data none ∅ Session.initial).map fun result => result.1.1

def renderSpearText (source : Bytes) (data : Data) (name : Bytes) :
    Except ViewException Bytes := do
  let file ← compile engine.numerals name source true
  let result ← Session.spear engine (Session.level engine 64) file
    ((Session.level engine 65).nodes file) data ∅ Session.initial
  return result.1.1

end Engine

end Gungnir.View
