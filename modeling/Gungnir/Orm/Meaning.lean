import Gungnir.Orm.Selection
import Gungnir.Orm.Command

/-!
# What predicates mean

A predicate of a plan says something about the value of its column, or of two columns.
SQL gives it a truth value, the document store an answer. The tests that the two
compilers emit have this meaning, for every engine.
-/

namespace Gungnir.Orm

open Gungnir.Core Gungnir.Library Gungnir.Library.Sql

/-! ## In SQL -/

section Truth

variable (engine : Engine AttributeValue)

def Predicate.truth (predicate : Predicate) (column other : AttributeValue) : Truth :=
  match predicate.kind with
  | .comparison => engine.compare predicate.comparison.operator column (predicate.valueAt 0)
  | .columnComparison => engine.compare predicate.comparison.operator column other
  | .inList => engine.among column predicate.values
  | .notInList => (engine.among column predicate.values).not
  | .between => engine.between column (predicate.valueAt 0) (predicate.valueAt 1)
  | .notBetween => (engine.between column (predicate.valueAt 0) (predicate.valueAt 1)).not
  | .isNull => some (engine.isNull column)
  | .isNotNull => some !engine.isNull column

variable (plan : QueryPlan)

/-- Where a predicate of a plan finds its column: an automatic predicate of a plan with joins
is about the plan's own table. -/
def QueryPlan.columnOf (predicate : Predicate) : Path :=
  if predicate.automatic ∧ plan.joinedTable ≠ [] ∧ dot ∉ predicate.column then
    segments plan.table ++ [predicate.column]
  else segments predicate.column

variable (row : Path → AttributeValue) (predicate : Predicate)

/-- The truth of a plan's predicate for a row. -/
def QueryPlan.truth : Truth :=
  predicate.truth engine (row (plan.columnOf predicate)) (row (segments predicate.otherColumn))

theorem truth_number (first second : Nat) :
    (Test.compare .equal (.number first) (.number second)).truth engine row =
      some (decide (first = second)) := by
  simp [Test.truth, Operand.eval, Engine.compare, engine.number_not_null, engine.number_equal]

/-- The constants that stand for lists without values have the meaning of such lists. -/
theorem truth_test (row : Path → AttributeValue) :
    predicate.test.truth engine row = predicate.truth engine (row (segments predicate.column))
      (row (segments predicate.otherColumn)) := by
  unfold Predicate.test Predicate.truth
  cases predicate.kind with
  | comparison => rfl
  | columnComparison => rfl
  | inList | notInList =>
    dsimp only
    split
    · rename_i empty
      rw [truth_number, empty]
      rfl
    · rfl
  | between => rfl
  | notBetween => rfl
  | isNull => simp [Test.truth]
  | isNotNull => simp [Test.truth]

theorem QueryPlan.joinedTable_eq {plan : QueryPlan} (joined : plan.joinedTable ≠ []) :
    plan.joinedTable = plan.table := by
  unfold QueryPlan.joinedTable at joined ⊢
  split
  · rename_i none
    rw [if_pos none] at joined
    exact absurd rfl joined
  · rfl

theorem truth_qualify :
    (qualify plan.joinedTable predicate).test.truth engine row = plan.truth engine row predicate := by
  rw [truth_test, QueryPlan.truth, QueryPlan.columnOf, qualify]
  split
  · rename_i own
    have path : segments (plan.joinedTable ++ ascii "." ++ predicate.column) =
        segments plan.table ++ [predicate.column] := by
      rw [List.append_assoc, QueryPlan.joinedTable_eq own.2.1]
      exact segments_qualified plan.table own.2.2
    rw [← path]
    rfl
  · rfl

end Truth

/-! ## In documents -/

section Matches

variable (engine : Engine AttributeValue)

def Predicate.answer (predicate : Predicate) (column other : AttributeValue) : Option Bool :=
  match predicate.kind with
  | .comparison =>
    some (Filter.test engine predicate.comparison.operator column (predicate.valueAt 0))
  | .columnComparison => Filter.compareFields engine predicate.comparison.operator column other
  | .inList => some (predicate.values.any (Filter.equals engine column))
  | .notInList => some !predicate.values.any (Filter.equals engine column)
  | .between =>
    some (Filter.test engine .greaterOrEqual column (predicate.valueAt 0) &&
      Filter.test engine .lessOrEqual column (predicate.valueAt 1))
  | .notBetween =>
    some !(Filter.test engine .greaterOrEqual column (predicate.valueAt 0) &&
      Filter.test engine .lessOrEqual column (predicate.valueAt 1))
  | .isNull => some (engine.isNull column)
  | .isNotNull => some !engine.isNull column

theorem mongoOperator_operator (comparison : Comparison) :
    mongoOperator comparison = Filter.operatorKey comparison.operator := by
  cases comparison <;> rfl

theorem boundValues_map (items : List AttributeValue) :
    Filter.boundValues (items.map Json.value) = some items := by
  induction items with
  | nil => rfl
  | cons item items ih => rw [List.map_cons, Filter.boundValues, ih]; rfl

variable (document : Bytes → AttributeValue)

/-- A filter with one field tests that field. -/
theorem eval_field {key : Bytes} (plainKey : PlainKey key) (operators : List (Bytes × Document)) :
    Filter.eval engine document (.object [(key, .object operators)]) =
      Filter.evalField engine (document key) (.object operators) := by
  have noExpression : key ≠ ascii "$expr" := by
    rintro rfl
    exact plainKey.plain rfl
  rw [Filter.eval, Filter.evalFields, Filter.evalKey, if_neg noExpression, if_neg plainKey.plain,
    Filter.evalFields]
  · exact Filter.both_true _
  · exact nofun

theorem eval_fieldTest {column operator : Bytes} {operand : Document}
    (plainKey : PlainKey (mongoName column)) (simple : ∀ fields, operand ≠ .object fields) :
    Filter.eval engine document (fieldTest column operator operand) =
      Filter.evalOperator engine (document (mongoName column)) operator operand := by
  rw [fieldTest, eval_field engine document plainKey, Filter.evalField, Filter.evalRange,
    Filter.evalRange]
  · exact Filter.both_true _
  · intro name fields same
    cases same
    exact simple _ rfl

theorem evalRange_bounds (field lower upper : AttributeValue) :
    Filter.evalRange engine field
      [(ascii "$gte", .value lower), (ascii "$lte", .value upper)] =
      some (Filter.test engine .greaterOrEqual field lower &&
        Filter.test engine .lessOrEqual field upper) := by
  have least : Filter.evalOperator engine field (ascii "$gte") (.value lower) =
      some (Filter.test engine .greaterOrEqual field lower) := rfl
  have most : Filter.evalOperator engine field (ascii "$lte") (.value upper) =
      some (Filter.test engine .lessOrEqual field upper) := rfl
  simp [Filter.evalRange, least, most, Filter.both]

theorem eval_json {predicate : Predicate} (named : predicate.Named) :
    Filter.eval engine document predicate.json =
      predicate.answer engine (document (mongoName predicate.column))
        (document (mongoName predicate.otherColumn)) := by
  have column := named.column
  unfold Predicate.json Predicate.answer
  cases predicate.kind with
  | comparison =>
    rw [eval_fieldTest engine document column, mongoOperator_operator, Filter.evalOperator,
      Filter.operatorOf_key]
    · rfl
    · exact nofun
  | columnComparison =>
    rw [mongoOperator_operator, Filter.eval, Filter.evalFields, Filter.evalKey, if_pos rfl,
      Filter.evalExpression, Filter.operatorOf_key, Filter.evalFields]
    · exact Filter.both_true _
    · exact nofun
  | inList | notInList =>
    rw [eval_fieldTest engine document column, Filter.evalOperator, if_pos rfl, boundValues_map]
    · rfl
    · exact nofun
  | between =>
    rw [rangeJson, eval_field engine document column]
    exact evalRange_bounds engine _ _ _
  | notBetween =>
    dsimp only
    rw [fieldTest, rangeJson, eval_field engine document column, Filter.evalField, if_pos rfl,
      evalRange_bounds]
    rfl
  | isNull | isNotNull =>
    rw [eval_fieldTest engine document column]
    · rfl
    · exact nofun

def Predicate.answerIn (predicate : Predicate) : Option Bool :=
  predicate.answer engine (document (mongoName predicate.column))
    (document (mongoName predicate.otherColumn))

def answersIn (predicates : List Predicate) : List (Connective × Option Bool) :=
  predicates.map fun predicate =>
    (predicate.connector.connective, predicate.answerIn engine document)

theorem eval_pair (connector : BooleanConnector) (left right : Document) :
    Filter.eval engine document
      (pairJson (if connector = .and then ascii "$and" else ascii "$or") left right) =
      Filter.link connector.connective (Filter.eval engine document left)
        (Filter.eval engine document right) := by
  have closed : ∀ first second : Option Bool,
      Filter.both (Filter.both first (Filter.both second (some true))) (some true) =
        Filter.both first second := by
    intro first second
    rcases first with _ | _ | _ <;> rcases second with _ | _ | _ <;> rfl
  have opened : ∀ first second : Option Bool,
      Filter.both (Filter.either first (Filter.either second (some false))) (some true) =
        Filter.either first second := by
    intro first second
    rcases first with _ | _ | _ <;> rcases second with _ | _ | _ <;> rfl
  cases connector with
  | and =>
    exact closed _ _
  | or =>
    exact opened _ _

theorem eval_chain {first : Predicate} {rest : List Predicate} (named : first.Named)
    (allNamed : ∀ predicate ∈ rest, predicate.Named) :
    Filter.eval engine document (chainJson (first :: rest)) =
      Filter.chain (first.answerIn engine document) (answersIn engine document rest) := by
  -- The filter is nested to the left: the induction is on the links that are still to come.
  have loop : ∀ {expression : Document} {answer : Option Bool},
      Filter.eval engine document expression = answer →
      Filter.eval engine document (rest.foldl (fun expression predicate =>
        pairJson (mongoConnector predicate) expression predicate.json) expression) =
      Filter.chain answer (answersIn engine document rest) := by
    induction rest with
    | nil => exact fun evaluated => evaluated
    | cons predicate rest ih =>
      intro expression answer evaluated
      have stepped : Filter.eval engine document
          (pairJson (mongoConnector predicate) expression predicate.json) =
          Filter.link predicate.connector.connective answer (predicate.answerIn engine document) := by
        rw [mongoConnector, eval_pair, evaluated,
          eval_json engine document (allNamed predicate List.mem_cons_self)]
        rfl
      exact ih (List.forall_mem_cons.mp allNamed).2 stepped
  exact loop (eval_json engine document named)

end Matches

/-! ## What a query selects -/

/-- The WHERE clause of the query can be read, and the row meets it. -/
def CompiledQuery.selects (query : CompiledQuery) (backend : Backend)
    (engine : Engine AttributeValue) (row : Path → AttributeValue) : Prop :=
  match query.whereClause backend with
  | some clause => whereSelects engine row clause
  | none => False

instance (query : CompiledQuery) (backend : Backend) (engine : Engine AttributeValue)
    (row : Path → AttributeValue) : Decidable (query.selects backend engine row) :=
  match found : query.whereClause backend with
  | some clause => decidable_of_iff (whereSelects engine row clause) (by
      rw [CompiledQuery.selects, found])
  | none => .isFalse (by rw [CompiledQuery.selects, found]; exact id)

/-- The filter of the command can be read, and the document meets it. -/
def CompiledQuery.selectsDocument (query : CompiledQuery) (engine : Engine AttributeValue)
    (document : Bytes → AttributeValue) : Prop :=
  query.filter.bind (Filter.eval engine document) = some true

instance (query : CompiledQuery) (engine : Engine AttributeValue)
    (document : Bytes → AttributeValue) : Decidable (query.selectsDocument engine document) :=
  inferInstanceAs (Decidable (_ = _))

theorem selects_compileSql {plan : QueryPlan} {backend : Backend} {query : CompiledQuery}
    (done : compileSql plan backend = .ok query) (engine : Engine AttributeValue)
    (row : Path → AttributeValue) :
    query.selects backend engine row ↔
      whereSelects engine row (predicateClause plan.joinedTable plan.predicates).condition := by
  rw [CompiledQuery.selects, whereClause_compileSql done]

theorem selectsDocument_compileMongodb {plan : QueryPlan} {query : CompiledQuery}
    (done : compileMongodb plan = .ok query) (engine : Engine AttributeValue)
    (document : Bytes → AttributeValue) :
    query.selectsDocument engine document ↔
      Filter.eval engine document (filterJson plan.predicates) = some true := by
  rw [CompiledQuery.selectsDocument, filter_compileMongodb done]
  rfl

/-! ## An engine

Integers in their order, other values by equality. -/

def AttributeValue.isNull : AttributeValue → Bool
  | .monostate => true
  | .null => true
  | _ => false

def AttributeValue.less : AttributeValue → AttributeValue → Bool
  | .int64 left, .int64 right => left < right
  | _, _ => false

def integerEngine : Engine AttributeValue where
  isNull := AttributeValue.isNull
  compares := fun operator left right =>
    match operator with
    | .equal => left = right
    | .notEqual => left ≠ right
    | .less => left.less right
    | .lessOrEqual => left.less right || left = right
    | .greater => right.less left
    | .greaterOrEqual => right.less left || left = right
    | .like => left = right
  number := fun literal => .int64 literal
  number_not_null := fun _ => rfl
  number_equal := fun first second => by simp
  compares_notEqual := fun left right => by simp

end Gungnir.Orm
