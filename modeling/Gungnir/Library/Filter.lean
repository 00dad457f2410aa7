import Gungnir.Library.Json
import Gungnir.Library.Sql.Condition

/-!
# Document filters

The query language of a document store, as far as it tests fields against values:
conjunctions, disjunctions, operators on a field and comparisons of two fields. A
filter that the store would reject has no value.

Unlike in SQL a test always has an answer: NULL equals NULL and nothing else, and an
order comparison of NULL with another value fails. The comparison of two fields uses
the order of all values, in which NULL comes first.
-/

namespace Gungnir.Library.Filter

open Sql (Connective Engine Operator)

variable {V : Type} (engine : Engine V)

/-! ## Tests of one value -/

def equals (left right : V) : Bool :=
  if engine.isNull left || engine.isNull right then engine.isNull left && engine.isNull right
  else engine.compares .equal left right

variable (operator : Operator)

/-- An order comparison of a field with an operand; `orEqual` says whether equal values pass. -/
def ordered (orEqual : Bool) (left right : V) : Bool :=
  if engine.isNull left || engine.isNull right then
    orEqual && engine.isNull left && engine.isNull right
  else engine.compares operator left right

def matchesPattern (left right : V) : Bool :=
  !engine.isNull left && !engine.isNull right && engine.compares .like left right

/-- The operators that take one operand. -/
def test (left right : V) : Bool :=
  match operator with
  | .equal => equals engine left right
  | .notEqual => !equals engine left right
  | .less => ordered engine .less false left right
  | .lessOrEqual => ordered engine .lessOrEqual true left right
  | .greater => ordered engine .greater false left right
  | .greaterOrEqual => ordered engine .greaterOrEqual true left right
  | .like => matchesPattern engine left right

/-- The comparison of two fields. There is none by pattern. -/
def compareFields (left right : V) : Option Bool :=
  match operator with
  | .equal => some (equals engine left right)
  | .notEqual => some !equals engine left right
  | .less =>
    some (if engine.isNull left || engine.isNull right then
      engine.isNull left && !engine.isNull right else engine.compares .less left right)
  | .lessOrEqual =>
    some (if engine.isNull left || engine.isNull right then engine.isNull left
      else engine.compares .lessOrEqual left right)
  | .greater =>
    some (if engine.isNull left || engine.isNull right then
      engine.isNull right && !engine.isNull left else engine.compares .greater left right)
  | .greaterOrEqual =>
    some (if engine.isNull left || engine.isNull right then engine.isNull right
      else engine.compares .greaterOrEqual left right)
  | .like => none

def operatorKey : Operator → List UInt8
  | .equal => ascii "$eq"
  | .notEqual => ascii "$ne"
  | .less => ascii "$lt"
  | .lessOrEqual => ascii "$lte"
  | .greater => ascii "$gt"
  | .greaterOrEqual => ascii "$gte"
  | .like => ascii "$regex"

def allOperators : List Operator :=
  [.equal, .notEqual, .less, .lessOrEqual, .greater, .greaterOrEqual, .like]

def operatorOf (key : List UInt8) : Option Operator :=
  allOperators.find? fun operator => operatorKey operator = key

theorem operatorOf_key : operatorOf (operatorKey operator) = some operator := by
  cases operator <;> rfl

/-! ## Evaluation -/

def boundValues : List (Json V) → Option (List V)
  | [] => some []
  | .value bound :: rest => (boundValues rest).map (bound :: ·)
  | _ :: _ => none

/-- One operator without nested operators. -/
def evalOperator (field : V) (key : List UInt8) (operand : Json V) : Option Bool :=
  match operand with
  | .value bound => (operatorOf key).map fun operator => test engine operator field bound
  | .null =>
    if key = ascii "$eq" then some (engine.isNull field)
    else if key = ascii "$ne" then some !engine.isNull field
    else none
  | .array items =>
    if key = ascii "$in" then (boundValues items).map fun values => values.any (equals engine field)
    else if key = ascii "$nin" then
      (boundValues items).map fun values => !values.any (equals engine field)
    else none
  | _ => none

def both (left right : Option Bool) : Option Bool := do return (← left) && (← right)

def either (left right : Option Bool) : Option Bool := do return (← left) || (← right)

theorem both_true (left : Option Bool) : both left (some true) = left := by
  rcases left with _ | _ | _ <;> rfl

def evalRange (field : V) : List (List UInt8 × Json V) → Option Bool
  | [] => some true
  | (key, operand) :: rest => both (evalOperator engine field key operand) (evalRange field rest)

/-- What a field has to meet: a value to equal, or operators. -/
def evalField (field : V) : Json V → Option Bool
  | .value bound => some (equals engine field bound)
  | .object [(key, .object operators)] =>
    if key = ascii "$not" then (evalRange engine field operators).map Bool.not else none
  | .object operators => evalRange engine field operators
  | _ => none

def evalExpression (document : List UInt8 → V) : Json V → Option Bool
  | .object [(key, .array [.text (36 :: left), .text (36 :: right)])] => do
    compareFields engine (← operatorOf key) (document left) (document right)
  | _ => none

mutual

def eval (document : List UInt8 → V) : Json V → Option Bool
  | .object fields => evalFields document fields
  | _ => none

def evalFields (document : List UInt8 → V) : List (List UInt8 × Json V) → Option Bool
  | [] => some true
  | (key, json) :: rest => both (evalKey document key json) (evalFields document rest)

def evalKey (document : List UInt8 → V) (key : List UInt8) : Json V → Option Bool
  | .array items =>
    if key = ascii "$and" then evalAll document items
    else if key = ascii "$or" then evalAny document items
    else none
  | json =>
    if key = ascii "$expr" then evalExpression engine document json
    else if key.head? = some 36 then none
    else evalField engine (document key) json

def evalAll (document : List UInt8 → V) : List (Json V) → Option Bool
  | [] => some true
  | json :: rest => both (eval document json) (evalAll document rest)

def evalAny (document : List UInt8 → V) : List (Json V) → Option Bool
  | [] => some false
  | json :: rest => either (eval document json) (evalAny document rest)

end

/-! ## Chains

A store's connectives take lists, so a chain of conditions is nested to the left. -/

def link (connective : Connective) (left right : Option Bool) : Option Bool :=
  match connective with
  | .and => both left right
  | .or => either left right

def chain (first : Option Bool) (rest : List (Connective × Option Bool)) : Option Bool :=
  rest.foldl (fun before next => link next.1 before next.2) first

theorem both_eq_true {left right : Option Bool} :
    both left right = some true ↔ left = some true ∧ right = some true := by
  rcases left with _ | _ | _ <;> rcases right with _ | _ | _ <;> decide

theorem chain_and {first : Option Bool} {rest : List (Connective × Option Bool)}
    (conjunctive : ∀ next ∈ rest, next.1 = .and) :
    chain first rest = some true ↔ first = some true ∧ ∀ next ∈ rest, next.2 = some true := by
  induction rest generalizing first with
  | nil => simp [chain]
  | cons next rest ih =>
    have same : chain first (next :: rest) = chain (both first next.2) rest := by
      rw [chain, List.foldl_cons, conjunctive next List.mem_cons_self]
      rfl
    rw [same, ih (List.forall_mem_cons.mp conjunctive).2,
      both_eq_true, List.forall_mem_cons, and_assoc]

end Gungnir.Library.Filter
