import Gungnir.Library.Sql.Lexer

/-!
# SQL conditions

The part of SQL's search conditions that a query builder emits: their syntax, their
truth for a row in three-valued logic, and a reader from tokens. AND binds tighter
than OR; parentheses group.

What a database does with values (their order, their patterns) is a parameter, an
`Engine`. A comparison with NULL is unknown, and a row is selected if the condition
is true for it.
-/

namespace Gungnir.Library.Sql

inductive Operator where
  | equal
  | notEqual
  | less
  | lessOrEqual
  | greater
  | greaterOrEqual
  | like
  deriving DecidableEq, Repr

abbrev Path := List (List UInt8)

inductive Operand (V : Type*) where
  | column (path : Path)
  | value (bound : V)
  | number (value : Nat)

inductive Test (V : Type*) where
  | compare (operator : Operator) (left right : Operand V)
  | among (negated : Bool) (column : Path) (items : List V)
  | between (negated : Bool) (column : Path) (lower upper : V)
  | isNull (negated : Bool) (column : Path)

inductive Condition (V : Type*) where
  | atom (test : Test V)
  | both (left right : Condition V)
  | either (left right : Condition V)

/-! ## Three-valued logic -/

/-- Unknown is `none`. -/
abbrev Truth := Option Bool

namespace Truth

def and : Truth → Truth → Truth
  | some true, right => right
  | some false, _ => some false
  | none, some false => some false
  | none, _ => none

def or : Truth → Truth → Truth
  | some false, right => right
  | some true, _ => some true
  | none, some true => some true
  | none, _ => none

def not (truth : Truth) : Truth := truth.map Bool.not

def negateIf (negated : Bool) (truth : Truth) : Truth := if negated then truth.not else truth

def any (truths : List Truth) : Truth := truths.foldr or (some false)

variable {left right : Truth}

theorem and_eq_true : left.and right = some true ↔ left = some true ∧ right = some true := by
  rcases left with _ | _ | _ <;> rcases right with _ | _ | _ <;> decide

theorem or_eq_true : left.or right = some true ↔ left = some true ∨ right = some true := by
  rcases left with _ | _ | _ <;> rcases right with _ | _ | _ <;> decide

theorem or_eq_false : left.or right = some false ↔ left = some false ∧ right = some false := by
  rcases left with _ | _ | _ <;> rcases right with _ | _ | _ <;> decide

theorem not_eq_true {truth : Truth} : truth.not = some true ↔ truth = some false := by
  rcases truth with _ | _ | _ <;> decide

theorem any_eq_true {truths : List Truth} : any truths = some true ↔ some true ∈ truths := by
  induction truths with
  | nil => simp [any]
  | cons truth rest ih =>
    rw [any, List.foldr_cons, or_eq_true, List.mem_cons, eq_comm, ← ih]
    rfl

theorem any_eq_false {truths : List Truth} :
    any truths = some false ↔ ∀ truth ∈ truths, truth = some false := by
  induction truths with
  | nil => simp [any]
  | cons truth rest ih =>
    rw [any, List.foldr_cons, or_eq_false, List.forall_mem_cons, ← ih]
    rfl

end Truth

/-! ## Truth for a row -/

structure Engine (V : Type*) where
  isNull : V → Bool
  /-- The comparison of two values that are not NULL. -/
  compares : Operator → V → V → Bool
  /-- The value of an integer literal. -/
  number : Nat → V
  number_not_null : ∀ value, isNull (number value) = false
  number_equal : ∀ first second, compares .equal (number first) (number second) = decide (first = second)
  compares_notEqual : ∀ left right, compares .notEqual left right = !compares .equal left right

section Truth

variable {V : Type*} (engine : Engine V) (row : Path → V)

def Engine.compare (operator : Operator) (left right : V) : Truth :=
  if engine.isNull left || engine.isNull right then none
  else some (engine.compares operator left right)

def Engine.between (value lower upper : V) : Truth :=
  (engine.compare .greaterOrEqual value lower).and (engine.compare .lessOrEqual value upper)

def Engine.among (value : V) (items : List V) : Truth :=
  Truth.any (items.map fun item => engine.compare .equal value item)

def Operand.eval : Operand V → V
  | .column path => row path
  | .value bound => bound
  | .number literal => engine.number literal

def Test.truth : Test V → Truth
  | .compare operator left right =>
    engine.compare operator (left.eval engine row) (right.eval engine row)
  | .among negated column items => (engine.among (row column) items).negateIf negated
  | .between negated column lower upper => (engine.between (row column) lower upper).negateIf negated
  | .isNull negated column => some (engine.isNull (row column) != negated)

def Condition.truth : Condition V → Truth
  | .atom test => test.truth engine row
  | .both left right => left.truth.and right.truth
  | .either left right => left.truth.or right.truth

/-- A WHERE clause keeps the rows for which its condition is true, not unknown. -/
def Condition.selects (condition : Condition V) : Prop := condition.truth engine row = some true

instance (condition : Condition V) : Decidable (condition.selects engine row) :=
  inferInstanceAs (Decidable (_ = _))

/-- A statement without WHERE keeps every row. -/
def whereSelects : Option (Condition V) → Prop
  | some condition => condition.selects engine row
  | none => True

instance : (clause : Option (Condition V)) → Decidable (whereSelects engine row clause)
  | some condition => inferInstanceAs (Decidable (condition.selects engine row))
  | none => .isTrue trivial

end Truth

/-! ## Precedence -/

inductive Connective where
  | and
  | or
  deriving DecidableEq, Repr

section Precedence

variable {V : Type*}

/-- A chain of conditions without parentheses: AND takes the next condition, OR all the
rest of the chain. -/
def precedence : Condition V → List (Connective × Condition V) → Condition V
  | current, [] => current
  | current, (.and, next) :: rest => precedence (.both current next) rest
  | current, (.or, next) :: rest => .either current (precedence next rest)

/-- The value of a chain whose links are true or not. -/
def chainHolds : Bool → List (Connective × Bool) → Bool
  | current, [] => current
  | current, (.and, next) :: rest => chainHolds (current && next) rest
  | current, (.or, next) :: rest => current || chainHolds next rest

theorem selects_precedence (engine : Engine V) (row : Path → V) (current : Condition V)
    (rest : List (Connective × Condition V)) :
    (precedence current rest).selects engine row ↔
      chainHolds (decide (current.selects engine row))
        (rest.map fun link => (link.1, decide (link.2.selects engine row))) = true := by
  induction rest generalizing current with
  | nil => simp [precedence, chainHolds]
  | cons link rest ih =>
    obtain ⟨connective, next⟩ := link
    cases connective with
    | and =>
      have split : (Condition.both current next).selects engine row ↔
          current.selects engine row ∧ next.selects engine row := Truth.and_eq_true
      rw [precedence, ih, List.map_cons, chainHolds]
      simp only [split, Bool.decide_and]
    | or =>
      have split : (Condition.either current (precedence next rest)).selects engine row ↔
          current.selects engine row ∨ (precedence next rest).selects engine row :=
        Truth.or_eq_true
      rw [precedence, split, ih, List.map_cons, chainHolds, Bool.or_eq_true, decide_eq_true_eq]

theorem chainHolds_and {current : Bool} {links : List (Connective × Bool)}
    (conjunctive : ∀ link ∈ links, link.1 = .and) :
    chainHolds current links = true ↔ current = true ∧ ∀ link ∈ links, link.2 = true := by
  induction links generalizing current with
  | nil => simp [chainHolds]
  | cons link links ih =>
    obtain ⟨connective, next⟩ := link
    cases conjunctive _ List.mem_cons_self
    rw [chainHolds, ih (List.forall_mem_cons.mp conjunctive).2]
    simp [and_assoc]

end Precedence

/-! ## Reading -/

section Reading

variable {V : Type*}

def wordAnd : List UInt8 := ascii "AND"
def wordOr : List UInt8 := ascii "OR"
def wordIn : List UInt8 := ascii "IN"
def wordNot : List UInt8 := ascii "NOT"
def wordIs : List UInt8 := ascii "IS"
def wordNull : List UInt8 := ascii "NULL"
def wordBetween : List UInt8 := ascii "BETWEEN"
def wordLike : List UInt8 := ascii "LIKE"

def operatorOf (text : List UInt8) : Option Operator :=
  if text = ascii "=" then some .equal
  else if text = ascii "<>" then some .notEqual
  else if text = ascii "<" then some .less
  else if text = ascii "<=" then some .lessOrEqual
  else if text = ascii ">" then some .greater
  else if text = ascii ">=" then some .greaterOrEqual
  else none

/-- A column path: quoted names, or stars, with dots between. -/
def readPath : List (Token V) → Option (Path × List (Token V))
  | .quoted name :: .mark 46 :: rest => (readPath rest).map fun (path, after) => (name :: path, after)
  | .quoted name :: rest => some ([name], rest)
  | .mark 42 :: .mark 46 :: rest => (readPath rest).map fun (path, after) => ([42] :: path, after)
  | .mark 42 :: rest => some ([[42]], rest)
  | _ => none

def readOperand : List (Token V) → Option (Operand V × List (Token V))
  | .value bound :: rest => some (.value bound, rest)
  | .number digits :: rest =>
    (Decimal.valueFrom 0 digits).map fun value => (.number value, rest)
  | tokens => (readPath tokens).map fun (path, after) => (.column path, after)

/-- The items of a list up to its closing bracket. -/
def readItems : List (Token V) → Option (List V × List (Token V))
  | .value bound :: .mark 44 :: rest =>
    (readItems rest).map fun (items, after) => (bound :: items, after)
  | .value bound :: .mark 41 :: rest => some ([bound], rest)
  | _ => none

def readBounds (negated : Bool) (column : Path) :
    List (Token V) → Option (Test V × List (Token V))
  | .value lower :: .word word :: .value upper :: rest =>
    if word = wordAnd then some (.between negated column lower upper, rest) else none
  | _ => none

def readAmong (negated : Bool) (column : Path) : List (Token V) → Option (Test V × List (Token V))
  | .mark 40 :: rest => (readItems rest).map fun (items, after) => (.among negated column items, after)
  | _ => none

def readRight (operator : Operator) (left : Operand V) (tokens : List (Token V)) :
    Option (Test V × List (Token V)) :=
  (readOperand tokens).map fun (right, after) => (.compare operator left right, after)

def readNull (column : Path) : List (Token V) → Option (Test V × List (Token V))
  | .word first :: rest =>
    if first = wordNull then some (.isNull false column, rest)
    else
      match rest with
      | .word second :: after =>
        if first = wordNot ∧ second = wordNull then some (.isNull true column, after) else none
      | _ => none
  | _ => none

/-- What follows a column, if it is not an operator sign. -/
def readWord (column : Path) (first : List UInt8) (rest : List (Token V)) :
    Option (Test V × List (Token V)) :=
  if first = wordLike then readRight .like (.column column) rest
  else if first = wordIs then readNull column rest
  else if first = wordIn then readAmong false column rest
  else if first = wordBetween then readBounds false column rest
  else
    match rest with
    | .word second :: after =>
      if first = wordNot ∧ second = wordIn then readAmong true column after
      else if first = wordNot ∧ second = wordBetween then readBounds true column after
      else none
    | _ => none

def readTail : Operand V → List (Token V) → Option (Test V × List (Token V))
  | left, .symbol text :: rest =>
    match operatorOf text with
    | some operator => readRight operator left rest
    | none => none
  | .column column, .word first :: rest => readWord column first rest
  | _, _ => none

def readTest (tokens : List (Token V)) : Option (Test V × List (Token V)) :=
  match readOperand tokens with
  | some (operand, rest) => readTail operand rest
  | none => none

mutual

def readPrimary : Nat → List (Token V) → Option (Condition V × List (Token V))
  | 0, _ => none
  | fuel + 1, .mark 40 :: rest => do
    let (condition, after) ← readExpression fuel rest
    match after with
    | .mark 41 :: remaining => some (condition, remaining)
    | _ => none
  | _ + 1, tokens => (readTest tokens).map fun (test, after) => (.atom test, after)

def readExpression : Nat → List (Token V) → Option (Condition V × List (Token V))
  | 0, _ => none
  | fuel + 1, tokens => do
    let (first, rest) ← readPrimary fuel tokens
    let (links, after) ← readLinks fuel rest
    some (precedence first links, after)

def readLinks : Nat → List (Token V) → Option (List (Connective × Condition V) × List (Token V))
  | 0, _ => none
  | fuel + 1, .word word :: rest =>
    if word = wordAnd then do
      let (next, after) ← readPrimary fuel rest
      let (links, remaining) ← readLinks fuel after
      some ((.and, next) :: links, remaining)
    else if word = wordOr then do
      let (next, after) ← readPrimary fuel rest
      let (links, remaining) ← readLinks fuel after
      some ((.or, next) :: links, remaining)
    else some ([], .word word :: rest)
  | _ + 1, tokens => some ([], tokens)

end

end Reading

end Gungnir.Library.Sql
