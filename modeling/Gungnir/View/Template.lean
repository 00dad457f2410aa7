import Gungnir.Core.Text
import Mathlib.Data.List.AList

/-!
# Values and parsed templates

`view::Value` and `view::Data`, with the exact comparison of numbers of different types,
the syntax tree of the Spear templates and the exceptions of the view engine. An
expression or a node holds the children that its kind has; the parser builds no others.
-/

namespace Gungnir.View

open Gungnir.Core

/-! ## Values -/

/-- The alternatives of `Value::Storage`. An object lists its entries in the
iteration order of the map. -/
inductive Value where
  | null
  | boolean (value : Bool)
  | int64 (value : Int64)
  | uint64 (value : UInt64)
  | double (bits : UInt64)
  | string (value : Bytes)
  | array (values : List Value)
  | object (values : List (Bytes × Value))
  deriving Repr

/-! ## Numbers -/

/-- `std::trunc` as an integer. -/
def trunc (number : Rat) : Int := if number < 0 then number.ceil else number.floor

/-- The overload `order(UInt64, double)`. -/
def orderUnsigned (left : UInt64) (right : Rat) : Int :=
  if right < 0 then 1
  else if (2 ^ 64 : Nat) ≤ right then -1
  else if (left.toNat : Int) < trunc right then -1
  else if trunc right < (left.toNat : Int) then 1
  else if right = trunc right then 0 else -1

/-- The overload `order(Int64, double)`. -/
def orderSigned (left : Int64) (right : Rat) : Int :=
  if right < -(2 ^ 63 : Nat) then 1
  else if (2 ^ 63 : Nat) ≤ right then -1
  else if left.toInt < trunc right then -1
  else if trunc right < left.toInt then 1
  else if right = trunc right then 0
  else if right < 0 then 1 else -1

/-- The sign of a difference. -/
def orderIntegers (left right : Int) : Int :=
  if left < right then -1 else if right < left then 1 else 0

def orderDoubles (left right : Rat) : Int :=
  if left < right then -1 else if right < left then 1 else 0

def numericOrder : Value → Value → Int
  | .double left, .double right => orderDoubles (Double.value left) (Double.value right)
  | .double left, .int64 right => -orderSigned right (Double.value left)
  | .double left, .uint64 right => -orderUnsigned right (Double.value left)
  | .int64 left, .double right => orderSigned left (Double.value right)
  | .uint64 left, .double right => orderUnsigned left (Double.value right)
  | .int64 left, .int64 right => orderIntegers left.toInt right.toInt
  | .int64 left, .uint64 right => orderIntegers left.toInt right.toNat
  | .uint64 left, .int64 right => orderIntegers left.toNat right.toInt
  | .uint64 left, .uint64 right => orderIntegers left.toNat right.toNat
  | _, _ => 0

/-! ## Values -/

namespace Value

def isNull : Value → Bool
  | .null => true
  | _ => false

def isObject : Value → Bool
  | .object _ => true
  | _ => false

def isNumber : Value → Bool
  | .int64 _ | .uint64 _ | .double _ => true
  | _ => false

def isFinite : Value → Bool
  | .double bits => Double.isFinite bits
  | _ => true

/-- The index of the alternative that is held. -/
def index : Value → Nat
  | .null => 0
  | .boolean _ => 1
  | .int64 _ => 2
  | .uint64 _ => 3
  | .double _ => 4
  | .string _ => 5
  | .array _ => 6
  | .object _ => 7

def truthy : Value → Bool
  | .null => false
  | .boolean value => value
  | .int64 value => decide (value ≠ 0)
  | .uint64 value => decide (value ≠ 0)
  | .double bits => Double.isNonzero bits
  | .string value => !value.isEmpty
  | .array values => !values.isEmpty
  | .object values => !values.isEmpty

def get (value : Value) (key : Bytes) : Option Value :=
  match value with
  | .object values => values.lookup key
  | _ => none

/-- `Value::string`. -/
def text (numerals : Numerals) : Value → Bytes
  | .null => []
  | .boolean value => if value then ascii "true" else ascii "false"
  | .int64 value => stdToStringSigned value.toInt
  | .uint64 value => stdToString value.toNat
  | .double bits => numerals.printDouble 6 bits
  | .string value => value
  | .array _ => []
  | .object _ => []

/-- The file's `array_index`; `std::size_t` has 64 bits. -/
def arrayIndex : Value → Option Nat
  | .int64 value => if 0 ≤ value.toInt then some value.toInt.toNat else none
  | .uint64 value => some value.toNat
  | _ => none

end Value

/-! ## Data -/

abbrev Data := AList fun _ : Bytes => Value

namespace Data

def get (data : Data) (key : Bytes) : Option Value := data.lookup key

/-- `Data::with`. -/
def put (data : Data) (key : Bytes) (value : Value) : Data := data.insert key value

/-- One `with` for every entry. -/
def putAll (data : Data) (entries : List (Bytes × Value)) : Data :=
  entries.foldl (fun data entry => put data entry.1 entry.2) data

end Data

/-! ## Exceptions -/

/-- `SyntaxError`, with an empty name where it has none. -/
structure SyntaxError where
  what : Bytes
  templateName : Bytes
  line : Nat
  column : Nat
  deriving DecidableEq, Repr

inductive ViewException where
  | syntaxError (error : SyntaxError)
  | notFound (name : Bytes)
  | invalidPath (name : Bytes)
  /-- Another exception of the file system or of a helper. -/
  | failure (what : Bytes)
  /-- Not an exception of the source: a recursion of the model has used up its fuel. -/
  | stopped
  deriving DecidableEq, Repr

def ViewException.message (text : Bytes) : ViewException := .syntaxError ⟨text, [], 0, 0⟩

structure Location where
  line : Nat
  column : Nat
  deriving DecidableEq, Repr

/-- What `fail` throws for the template of this name. -/
def located (name : Bytes) (location : Location) (message : Bytes) : ViewException :=
  .syntaxError ⟨name ++ ascii ":" ++ stdToString location.line ++ ascii ":" ++
    stdToString location.column ++ ascii ": " ++ message, name, location.line, location.column⟩

/-! ## Syntax trees -/

inductive Expression where
  | literal (location : Location) (value : Value)
  | variableName (location : Location) (text : Bytes)
  | member (location : Location) (text : Bytes) (object : Expression)
  | index (location : Location) (object key : Expression)
  | helper (location : Location) (text : Bytes) (arguments : List Expression)
  | unary (location : Location) (text : Bytes) (operand : Expression)
  | binary (location : Location) (text : Bytes) (left right : Expression)
  | conditional (location : Location) (condition yes no : Expression)
  | array (location : Location) (items : List Expression)
  | object (location : Location) (keys : List Bytes) (items : List Expression)

def Expression.location : Expression → Location
  | .literal location _ | .variableName location _ | .member location _ _ | .index location _ _
  | .helper location _ _ | .unary location _ _ | .binary location _ _ _
  | .conditional location _ _ _ | .array location _ | .object location _ _ => location

mutual

/-- The field `height`, as `seal` sets it. -/
def Expression.height : Expression → Nat
  | .literal _ _ => 1
  | .variableName _ _ => 1
  | .member _ _ object => max 1 (object.height + 1)
  | .index _ object key => max (max 1 (object.height + 1)) (key.height + 1)
  | .helper _ _ arguments => heightOver 1 arguments
  | .unary _ _ operand => max 1 (operand.height + 1)
  | .binary _ _ left right => max (max 1 (left.height + 1)) (right.height + 1)
  | .conditional _ condition yes no =>
    max (max (max 1 (condition.height + 1)) (yes.height + 1)) (no.height + 1)
  | .array _ items => heightOver 1 items
  | .object _ _ items => heightOver 1 items

def heightOver (height : Nat) : List Expression → Nat
  | [] => height
  | item :: rest => heightOver (max height (item.height + 1)) rest

end

/-- A node of a template. The branches of a condition stand beside their
conditions, and `@else` has none. -/
inductive Node where
  | text (location : Location) (text : Bytes)
  | escaped (location : Location) (expression : Expression)
  | raw (location : Location) (expression : Expression)
  | condition (location : Location) (expressions : List (Option Expression))
      (branches : List (List Node))
  | loop (location : Location) (collection : Expression) (key variableName : Bytes)
      (children otherwise : List Node)
  | includeFile (location : Location) (name : Expression) (props : Option Expression)
  | sectionBody (location : Location) (name : Expression) (value : Option Expression)
      (children : List Node)
  | yieldSection (location : Location) (name : Expression) (value : Option Expression)
  | extendsLayout (location : Location) (layout : Expression)

def Node.location : Node → Location
  | .text location _ | .escaped location _ | .raw location _ | .condition location _ _
  | .loop location _ _ _ _ _ | .includeFile location _ _ | .sectionBody location _ _ _
  | .yieldSection location _ _ | .extendsLayout location _ => location

/-- `detail::Template`; the estimate of its memory is left out. -/
structure Template where
  name : Bytes
  source : Bytes
  spear : Bool
  nodes : List Node

/-! ## What a tree contains -/

mutual

/-- The text nodes in a tree. -/
def Node.texts : Node → List Bytes
  | .text _ text => [text]
  | .condition _ _ branches => branchTexts branches
  | .loop _ _ _ _ children otherwise => nodeTexts children ++ nodeTexts otherwise
  | .sectionBody _ _ _ children => nodeTexts children
  | _ => []

def nodeTexts : List Node → List Bytes
  | [] => []
  | node :: rest => node.texts ++ nodeTexts rest

def branchTexts : List (List Node) → List Bytes
  | [] => []
  | branch :: rest => nodeTexts branch ++ branchTexts rest

end

mutual

/-- There is no raw interpolation in the tree. -/
def Node.rawFree : Node → Bool
  | .raw _ _ => false
  | .condition _ _ branches => rawFreeBranches branches
  | .loop _ _ _ _ children otherwise => rawFreeNodes children && rawFreeNodes otherwise
  | .sectionBody _ _ _ children => rawFreeNodes children
  | _ => true

def rawFreeNodes : List Node → Bool
  | [] => true
  | node :: rest => node.rawFree && rawFreeNodes rest

def rawFreeBranches : List (List Node) → Bool
  | [] => true
  | branch :: rest => rawFreeNodes branch && rawFreeBranches rest

end

theorem nodeTexts_of_mem {nodes : List Node} {node : Node} (member : node ∈ nodes) {text : Bytes}
    (inside : text ∈ node.texts) : text ∈ nodeTexts nodes := by
  induction nodes with
  | nil => cases member
  | cons head rest ih =>
    rw [nodeTexts, List.mem_append]
    rcases List.mem_cons.mp member with rfl | later
    · exact .inl inside
    · exact .inr (ih later)

theorem branchTexts_of_mem {branches : List (List Node)} {branch : List Node}
    (member : branch ∈ branches) {text : Bytes} (inside : text ∈ nodeTexts branch) :
    text ∈ branchTexts branches := by
  induction branches with
  | nil => cases member
  | cons head rest ih =>
    rw [branchTexts, List.mem_append]
    rcases List.mem_cons.mp member with rfl | later
    · exact .inl inside
    · exact .inr (ih later)

theorem rawFreeNodes_iff {nodes : List Node} :
    rawFreeNodes nodes = true ↔ ∀ node ∈ nodes, node.rawFree = true := by
  induction nodes with
  | nil => simp [rawFreeNodes]
  | cons head rest ih => simp [rawFreeNodes, ih]

theorem rawFreeBranches_iff {branches : List (List Node)} :
    rawFreeBranches branches = true ↔ ∀ branch ∈ branches, rawFreeNodes branch = true := by
  induction branches with
  | nil => simp [rawFreeBranches]
  | cons head rest ih => simp [rawFreeBranches, ih]

end Gungnir.View
