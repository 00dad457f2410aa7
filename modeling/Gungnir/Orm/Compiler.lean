import Gungnir.Orm.Plan

/-!
# Compilation of query plans

`compile` turns a plan into a SQL text with placeholders or a MongoDB command with
`$bind` references, and the list of the bound values. The statement under
construction is passed from one part to the next; an exception discards it.

The bulk mutations have emitters of their own for predicates, which differ from the
ones here in two checks. Both are instances of one definition.
-/

namespace Gungnir.Orm

open Gungnir.Core

def sqlOperator : Comparison → Bytes
  | .equal => ascii "="
  | .notEqual => ascii "<>"
  | .lessThan => ascii "<"
  | .lessOrEqual => ascii "<="
  | .greaterThan => ascii ">"
  | .greaterOrEqual => ascii ">="
  | .like => ascii "LIKE"

def placeholder (backend : Backend) (index : Nat) : Bytes :=
  if backend = .postgresql then ascii "$" ++ stdToString (index + 1) else ascii "?"

def aggregateName : AggregateFunction → Bytes
  | .count => ascii "COUNT"
  | .sum => ascii "SUM"
  | .average => ascii "AVG"
  | .minimum => ascii "MIN"
  | .maximum => ascii "MAX"

def joinName : JoinType → Bytes
  | .inner => ascii "INNER JOIN"
  | .left => ascii "LEFT JOIN"
  | .right => ascii "RIGHT JOIN"
  | .cross => ascii "CROSS JOIN"

/-! ## Emission -/

variable (result : CompiledQuery)

def CompiledQuery.write (text : Bytes) : CompiledQuery :=
  { result with text := result.text ++ text }

variable (backend : Backend)

/-- A placeholder is written and its value is bound. -/
def CompiledQuery.place (value : AttributeValue) : CompiledQuery :=
  { result with
    text := result.text ++ placeholder backend result.bindings.length
    bindings := result.bindings ++ [value] }

def CompiledQuery.writePath (path : Bytes) : Except Exception CompiledQuery := do
  .ok (result.write (← quotePath backend path))

/-- The loop over a list that writes a separator in front of every item but the first. -/
def appendSeparated {α : Type} (separator : α → Bytes)
    (emit : CompiledQuery → α → Except Exception CompiledQuery) (result : CompiledQuery) :
    List α → Except Exception CompiledQuery
  | [] => .ok result
  | first :: rest => do
    rest.foldlM (fun result item => emit (result.write (separator item)) item)
      (← emit result first)

def appendPaths (paths : List Bytes) : Except Exception CompiledQuery :=
  appendSeparated (fun _ => ascii ", ") (fun result path => result.writePath backend path)
    result paths

def appendPlaceholders (values : List AttributeValue) : Except Exception CompiledQuery :=
  appendSeparated (fun _ => ascii ", ") (fun result value => .ok (result.place backend value))
    result values

/-! ## Predicates -/

/-- What an emitter does with a comparison that has no value, and with a column
comparison that has no second column. -/
structure PredicateChecks where
  missingValue : Exception
  missingColumn : Option Exception

def appendOperator (comparison : Comparison) : CompiledQuery :=
  result.write (ascii " " ++ sqlOperator comparison ++ ascii " ")

def appendPredicate (checks : PredicateChecks) (result : CompiledQuery) (backend : Backend)
    (predicate : Predicate) : Except Exception CompiledQuery :=
  if (predicate.kind = .inList ∨ predicate.kind = .notInList) ∧ predicate.values = [] then
    .ok (result.write (if predicate.kind = .inList then ascii "1 = 0" else ascii "1 = 1"))
  else do
    let result ← result.writePath backend predicate.column
    match predicate.kind with
    | .comparison =>
      match predicate.values with
      | [] => .error checks.missingValue
      | value :: _ => .ok ((appendOperator result predicate.comparison).place backend value)
    | .columnComparison =>
      match checks.missingColumn, predicate.otherColumn with
      | some missing, [] => .error missing
      | _, other => (appendOperator result predicate.comparison).writePath backend other
    | .inList => do
      let result ← appendPlaceholders (result.write (ascii " IN (")) backend predicate.values
      .ok (result.write (ascii ")"))
    | .notInList => do
      let result ← appendPlaceholders (result.write (ascii " NOT IN (")) backend predicate.values
      .ok (result.write (ascii ")"))
    | .between =>
      match predicate.values with
      | [lower, upper] =>
        .ok ((((result.write (ascii " BETWEEN ")).place backend lower).write
          (ascii " AND ")).place backend upper)
      | _ => .error (.logicError "ORM between predicate requires exactly two values")
    | .notBetween =>
      match predicate.values with
      | [lower, upper] =>
        .ok ((((result.write (ascii " NOT BETWEEN ")).place backend lower).write
          (ascii " AND ")).place backend upper)
      | _ => .error (.logicError "ORM between predicate requires exactly two values")
    | .isNull => .ok (result.write (ascii " IS NULL"))
    | .isNotNull => .ok (result.write (ascii " IS NOT NULL"))

def selectChecks : PredicateChecks :=
  ⟨.logicError "ORM comparison predicate requires a value",
    some (.logicError "ORM column comparison requires a second column")⟩

def appendSqlPredicate (predicate : Predicate) : Except Exception CompiledQuery :=
  appendPredicate selectChecks result backend predicate

def connectorText (predicate : Predicate) : Bytes :=
  if predicate.connector = .and then ascii " AND " else ascii " OR "

/-- An automatic predicate of a query with joins is about the plan's own table. -/
def qualify (joinedTable : Bytes) (predicate : Predicate) : Predicate :=
  if predicate.automatic ∧ joinedTable ≠ [] ∧ dot ∉ predicate.column then
    { predicate with column := joinedTable ++ ascii "." ++ predicate.column }
  else predicate

variable (predicates : List Predicate) (joinedTable : Bytes)

def appendPredicateList : Except Exception CompiledQuery :=
  appendSeparated connectorText
    (fun result predicate => appendSqlPredicate result backend (qualify joinedTable predicate))
    result predicates

/-- The source calls itself on the two parts of a mixed list. Neither part is mixed, so
both calls are the loop. -/
def appendPredicates : Except Exception CompiledQuery :=
  if isMixed predicates then do
    let result ← appendPredicateList result backend (protectedPart predicates) joinedTable
    if userPart predicates = [] then .ok result
    else do
      let result ← appendPredicateList (result.write (ascii " AND (")) backend
        (userPart predicates) joinedTable
      .ok (result.write (ascii ")"))
  else appendPredicateList result backend predicates joinedTable

/-! ## Select statements -/

def appendCountKey (column : Bytes) : Except Exception CompiledQuery :=
  if column = [] then .ok result
  else do
    let result ← result.writePath backend column
    let key ← quoteSegment backend (ascii "__gungnir_count_key")
    .ok (((result.write (ascii " AS ")).write key).write (ascii ", "))

def appendAggregated (column : Bytes) : Except Exception CompiledQuery :=
  if column = ascii "*" then .ok (result.write (ascii "*")) else result.writePath backend column

variable (plan : QueryPlan)

def appendSelection : Except Exception CompiledQuery :=
  match plan.aggregate with
  | some aggregate => do
    let result ← appendCountKey result backend plan.countGroupColumn
    let result := result.write (aggregateName aggregate.function ++ ascii "(")
    let result ← appendAggregated result backend aggregate.column
    let name ← quoteSegment backend (ascii "aggregate")
    .ok ((result.write (ascii ") AS ")).write name)
  | none =>
    if plan.columns = [] then .ok (result.write (ascii "*"))
    else appendPaths result backend plan.columns

def appendTableHint (lock : LockMode) : CompiledQuery :=
  if backend = .mssql then
    match lock with
    | .forUpdate => result.write (ascii " WITH (UPDLOCK, ROWLOCK)")
    | .shared => result.write (ascii " WITH (HOLDLOCK, ROWLOCK)")
    | .none => result
  else result

def appendJoin (result : CompiledQuery) (join : Join) : Except Exception CompiledQuery := do
  let result ←
    (result.write (ascii " " ++ joinName join.type ++ ascii " ")).writePath backend join.table
  if join.type = .cross then .ok result
  else do
    let result ← (result.write (ascii " ON ")).writePath backend join.first
    (appendOperator result join.comparison).writePath backend join.second

def appendWhere : Except Exception CompiledQuery :=
  if plan.predicates = [] then .ok result
  else
    appendPredicates (result.write (ascii " WHERE ")) backend plan.predicates
      (if plan.joins = [] then [] else plan.table)

def appendGroups (groups : List Bytes) : Except Exception CompiledQuery :=
  if groups = [] then .ok result
  else appendPaths (result.write (ascii " GROUP BY ")) backend groups

def appendHaving (having : List Predicate) : Except Exception CompiledQuery :=
  if having = [] then .ok result
  else appendPredicates (result.write (ascii " HAVING ")) backend having []

def appendOrder (result : CompiledQuery) (order : Order) : Except Exception CompiledQuery := do
  let result ← result.writePath backend order.column
  .ok (result.write (if order.direction = .asc then ascii " ASC" else ascii " DESC"))

def appendOrders (orders : List Order) : Except Exception CompiledQuery :=
  if orders = [] then .ok result
  else
    appendSeparated (fun _ => ascii ", ") (appendOrder backend)
      (result.write (ascii " ORDER BY ")) orders

/-- SQL Server accepts an offset only behind an ordering. -/
def appendNoOrder (orders : List Order) : CompiledQuery :=
  if orders = [] then result.write (ascii " ORDER BY (SELECT NULL)") else result

def appendLimit : CompiledQuery :=
  match plan.limit, plan.offset with
  | some limit, offset =>
    if backend = .mssql then
      (appendNoOrder result plan.orders).write
        (ascii " OFFSET " ++ stdToString (offset.getD 0) ++ ascii " ROWS FETCH NEXT " ++
          stdToString limit ++ ascii " ROWS ONLY")
    else
      let result := result.write (ascii " LIMIT " ++ stdToString limit)
      match offset with
      | some offset => result.write (ascii " OFFSET " ++ stdToString offset)
      | none => result
  | none, some offset =>
    if backend = .mssql then
      (appendNoOrder result plan.orders).write
        (ascii " OFFSET " ++ stdToString offset ++ ascii " ROWS")
    else
      let result := if backend = .sqlite then result.write (ascii " LIMIT -1") else result
      result.write (ascii " OFFSET " ++ stdToString offset)
  | none, none => result

def appendLock (lock : LockMode) : CompiledQuery :=
  if backend = .mssql then result
  else
    match lock with
    | .forUpdate => result.write (ascii " FOR UPDATE")
    | .shared => result.write (ascii " FOR SHARE")
    | .none => result

def compileSql (backend : Backend) : Except Exception CompiledQuery :=
  if backend = .sqlite ∧ plan.lock ≠ .none then
    .error (.logicError "SQLite does not support SQL row-lock clauses; use a transaction")
  else do
    let result : CompiledQuery := { kind := .sql, text := ascii "SELECT " }
    let result := if plan.distinct then result.write (ascii "DISTINCT ") else result
    let result ← appendSelection result backend plan
    let result ← (result.write (ascii " FROM ")).writePath backend plan.table
    let result := appendTableHint result backend plan.lock
    let result ← plan.joins.foldlM (appendJoin backend) result
    let result ← appendWhere result backend plan
    let result ← appendGroups result backend plan.groups
    let result ← appendHaving result backend plan.having
    let result ← appendOrders result backend plan.orders
    let result := appendLimit result backend plan
    let result := appendLock result backend plan.lock
    .ok (result.write (ascii ";"))

/-! ## MongoDB commands

The emitters return the text of a part and the bindings with those of the part
appended. -/

abbrev Bound (α : Type) := α × List AttributeValue

def mongoOperator : Comparison → Bytes
  | .equal => ascii "$eq"
  | .notEqual => ascii "$ne"
  | .lessThan => ascii "$lt"
  | .lessOrEqual => ascii "$lte"
  | .greaterThan => ascii "$gt"
  | .greaterOrEqual => ascii "$gte"
  | .like => ascii "$regex"

variable (bindings : List AttributeValue)

def mongoBind (value : AttributeValue) : Bound Bytes :=
  (ascii "\x7b\"$bind\":" ++ stdToString bindings.length ++ ascii "\x7d", bindings ++ [value])

/-- The loop over a list that writes a comma in front of every item but the first. -/
def joinCommas {α : Type} (emit : List AttributeValue → α → Except Exception (Bound Bytes))
    (bindings : List AttributeValue) : List α → Except Exception (Bound Bytes)
  | [] => .ok ([], bindings)
  | first :: rest => do
    rest.foldlM
      (fun result item => do
        let next ← emit result.2 item
        .ok (result.1 ++ ascii "," ++ next.1, next.2))
      (← emit bindings first)

def mongoTest (field operator operand : Bytes) : Bytes :=
  ascii "\x7b\"" ++ field ++ ascii "\":\x7b\"" ++ operator ++ ascii "\":" ++ operand ++
    ascii "\x7d\x7d"

def mongoRange (lower upper : Bytes) : Bytes :=
  ascii "\x7b\"$gte\":" ++ lower ++ ascii ",\"$lte\":" ++ upper ++ ascii "\x7d"

variable (missingValue : Exception)

def mongoPredicateWith (predicate : Predicate) (bindings : List AttributeValue) :
    Except Exception (Bound Bytes) :=
  match predicate.kind with
  | .inList => do
    let values ← joinCommas (fun bindings value => .ok (mongoBind bindings value)) bindings
      predicate.values
    let field ← mongoField predicate.column
    .ok (mongoTest field (ascii "$in") (ascii "[" ++ values.1 ++ ascii "]"), values.2)
  | .notInList => do
    let values ← joinCommas (fun bindings value => .ok (mongoBind bindings value)) bindings
      predicate.values
    let field ← mongoField predicate.column
    .ok (mongoTest field (ascii "$nin") (ascii "[" ++ values.1 ++ ascii "]"), values.2)
  | .between =>
    match predicate.values with
    | [first, second] => do
      let lower := mongoBind bindings first
      let upper := mongoBind lower.2 second
      let field ← mongoField predicate.column
      .ok (ascii "\x7b\"" ++ field ++ ascii "\":" ++ mongoRange lower.1 upper.1 ++
        ascii "\x7d", upper.2)
    | _ => .error (.logicError "ORM between predicate requires exactly two values")
  | .notBetween =>
    match predicate.values with
    | [first, second] => do
      let lower := mongoBind bindings first
      let upper := mongoBind lower.2 second
      let field ← mongoField predicate.column
      .ok (mongoTest field (ascii "$not") (mongoRange lower.1 upper.1), upper.2)
    | _ => .error (.logicError "ORM between predicate requires exactly two values")
  | .isNull => do
    let field ← mongoField predicate.column
    .ok (mongoTest field (ascii "$eq") (ascii "null"), bindings)
  | .isNotNull => do
    let field ← mongoField predicate.column
    .ok (mongoTest field (ascii "$ne") (ascii "null"), bindings)
  | .columnComparison => do
    let field ← mongoField predicate.column
    let other ← mongoField predicate.otherColumn
    .ok (ascii "\x7b\"$expr\":\x7b\"" ++ mongoOperator predicate.comparison ++ ascii "\":[\"$" ++
      field ++ ascii "\",\"$" ++ other ++ ascii "\"]\x7d\x7d", bindings)
  | .comparison =>
    match predicate.values with
    | [] => .error missingValue
    | value :: _ => do
      let field ← mongoField predicate.column
      let operand := mongoBind bindings value
      .ok (mongoTest field (mongoOperator predicate.comparison) operand.1, operand.2)

def mongoConnector (predicate : Predicate) : Bytes :=
  if predicate.connector = .and then ascii "$and" else ascii "$or"

def mongoPair (connector left right : Bytes) : Bytes :=
  ascii "\x7b\"" ++ connector ++ ascii "\":[" ++ left ++ ascii "," ++ right ++ ascii "]\x7d"

/-- The loop of the source: the expression so far and the next predicate become one
expression. -/
def mongoChain (predicates : List Predicate) (bindings : List AttributeValue) :
    Except Exception (Bound Bytes) :=
  match predicates with
  | [] => .ok (ascii "\x7b\x7d", bindings)
  | first :: rest => do
    rest.foldlM
      (fun expression predicate => do
        let next ← mongoPredicateWith missingValue predicate expression.2
        .ok (mongoPair (mongoConnector predicate) expression.1 next.1, next.2))
      (← mongoPredicateWith missingValue first bindings)

def mongoFilterWith (predicates : List Predicate) (bindings : List AttributeValue) :
    Except Exception (Bound Bytes) :=
  if isMixed predicates then do
    let scopes ← mongoChain missingValue (protectedPart predicates) bindings
    let filtered ← mongoChain missingValue (userPart predicates) scopes.2
    .ok (mongoPair (ascii "$and") scopes.1 filtered.1, filtered.2)
  else mongoChain missingValue predicates bindings

def mongoFilter : Except Exception (Bound Bytes) :=
  mongoFilterWith selectChecks.missingValue predicates bindings

def mongoFold (operator column : Bytes) : Except Exception Bytes := do
  let field ← mongoField column
  .ok (ascii "\x7b\"" ++ operator ++ ascii "\":\"$" ++ field ++ ascii "\"\x7d")

def mongoAccumulator (aggregate : Aggregate) : Except Exception Bytes :=
  match aggregate.function with
  | .count => .ok (ascii "\x7b\"$sum\":1\x7d")
  | .sum => mongoFold (ascii "$sum") aggregate.column
  | .average => mongoFold (ascii "$avg") aggregate.column
  | .minimum => mongoFold (ascii "$min") aggregate.column
  | .maximum => mongoFold (ascii "$max") aggregate.column

def mongoGroup (column : Bytes) : Except Exception Bytes :=
  if column = [] then .ok (ascii "null")
  else do
    let field ← mongoField column
    .ok (ascii "\"$" ++ field ++ ascii "\"")

def mongoAggregate (aggregate : Aggregate) (filter : Bound Bytes) :
    Except Exception CompiledQuery := do
  let accumulator ← mongoAccumulator aggregate
  let group ← mongoGroup plan.countGroupColumn
  let table ← jsonIdentifier plan.table
  let text := ascii "\x7b\"aggregate\":\"" ++ table ++ ascii "\",\"pipeline\":[\x7b\"$match\":" ++
    filter.1 ++ ascii "\x7d,\x7b\"$group\":\x7b\"_id\":" ++ group ++ ascii ",\"aggregate\":" ++
    accumulator ++ ascii "\x7d\x7d"
  let text :=
    if plan.countGroupColumn = [] then text
    else text ++ ascii
      ",\x7b\"$project\":\x7b\"__gungnir_count_key\":\"$_id\",\"aggregate\":1,\"_id\":0\x7d\x7d"
  .ok ⟨.mongodb, text ++ ascii "],\"cursor\":\x7b\x7d\x7d", filter.2⟩

/-- A part of the find command that stands for a list: nothing for the empty list. -/
def mongoSection {α : Type} (name : Bytes)
    (emit : List AttributeValue → α → Except Exception (Bound Bytes))
    (result : CompiledQuery) (items : List α) : Except Exception CompiledQuery :=
  if items = [] then .ok result
  else do
    let joined ← joinCommas emit result.bindings items
    .ok ⟨result.kind,
      result.text ++ ascii ",\"" ++ name ++ ascii "\":\x7b" ++ joined.1 ++ ascii "\x7d", joined.2⟩

def mongoProjected (column : Bytes) : Except Exception (Bound Bytes) := do
  let field ← mongoField column
  .ok (ascii "\"" ++ field ++ ascii "\":1", bindings)

def mongoSorted (order : Order) : Except Exception (Bound Bytes) := do
  let field ← mongoField order.column
  .ok (ascii "\"" ++ field ++ ascii "\":" ++
    (if order.direction = .asc then ascii "1" else ascii "-1"), bindings)

def mongoBound (name : Bytes) (bound : Option Nat) : CompiledQuery :=
  match bound with
  | some value => result.write (ascii ",\"" ++ name ++ ascii "\":" ++ stdToString value)
  | none => result

def mongoFind (filter : Bound Bytes) : Except Exception CompiledQuery := do
  let table ← jsonIdentifier plan.table
  let result : CompiledQuery :=
    ⟨.mongodb, ascii "\x7b\"find\":\"" ++ table ++ ascii "\",\"filter\":" ++ filter.1, filter.2⟩
  let result ← mongoSection (ascii "projection") mongoProjected result plan.columns
  let result ← mongoSection (ascii "sort") mongoSorted result plan.orders
  let result := mongoBound result (ascii "limit") plan.limit
  let result := mongoBound result (ascii "skip") plan.offset
  .ok (result.write (ascii "\x7d"))

def compileMongodb : Except Exception CompiledQuery :=
  if plan.lock ≠ .none then
    .error (.logicError "MongoDB document queries do not support SQL row-lock clauses")
  else if plan.joins ≠ [] then
    .error (.logicError
      "MongoDB queries do not support SQL join(); use model relationships and with()")
  else if (plan.groups ≠ [] ∧ plan.countGroupColumn = []) ∨ plan.having ≠ [] then
    .error (.logicError "MongoDB group_by/having is not part of the document query surface")
  else if plan.distinct ∧ plan.aggregate = none then
    .error (.logicError
      "MongoDB model queries do not support SQL-style distinct model hydration")
  else do
    let filter ← mongoFilter plan.predicates []
    match plan.aggregate with
    | some aggregate => mongoAggregate plan aggregate filter
    | none => mongoFind plan filter

def compile (backend : Backend) : Except Exception CompiledQuery :=
  if backend = .mongodb then compileMongodb plan else compileSql plan backend

end Gungnir.Orm
