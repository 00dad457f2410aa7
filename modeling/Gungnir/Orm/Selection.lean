import Gungnir.Orm.Statement

/-!
# Select statements

The pieces of a select statement. What `compileSql` returns is their rendering, and an
engine that reads the text with its bindings finds the WHERE clause of the plan.
-/

namespace Gungnir.Orm

open Gungnir.Core Gungnir.Library Gungnir.Library.Sql List

/-! ## Parts of the statement -/

def optionalPiece (present : Bool) (text : Bytes) : Pieces := if present then [.text text] else []

def countKeyPieces (column : Bytes) : Pieces :=
  if column = [] then []
  else pathPieces (segments column) ++
    [.text (ascii " AS "), .name (ascii "__gungnir_count_key"), .text (ascii ", ")]

def aggregatePieces (column : Bytes) (aggregate : Aggregate) : Pieces :=
  countKeyPieces column ++ .text (aggregateName aggregate.function ++ ascii "(") ::
    ((if aggregate.column = ascii "*" then [.text (ascii "*")]
      else pathPieces (segments aggregate.column)) ++
    [.text (ascii ") AS "), .name (ascii "aggregate")])

variable (plan : QueryPlan)

def selectionPieces : Pieces :=
  match plan.aggregate with
  | some aggregate => aggregatePieces plan.countGroupColumn aggregate
  | none => if plan.columns = [] then [.text (ascii "*")] else pathsPieces plan.columns

variable (backend : Backend)

def hintPieces (lock : LockMode) : Pieces :=
  if backend = .mssql then
    match lock with
    | .forUpdate => [.text (ascii " WITH (UPDLOCK, ROWLOCK)")]
    | .shared => [.text (ascii " WITH (HOLDLOCK, ROWLOCK)")]
    | .none => []
  else []

def operatorPiece (comparison : Comparison) : Piece AttributeValue :=
  .text (ascii " " ++ comparison.operator.text ++ ascii " ")

def joinPieces (join : Join) : Pieces :=
  .text (ascii " " ++ joinName join.type ++ ascii " ") :: (pathPieces (segments join.table) ++
    if join.type = .cross then []
    else .text (ascii " ON ") :: (pathPieces (segments join.first) ++
      operatorPiece join.comparison :: pathPieces (segments join.second)))

/-- The table that unqualified columns of automatic predicates belong to. -/
def QueryPlan.joinedTable : Bytes := if plan.joins = [] then [] else plan.table

def groupPieces (groups : List Bytes) : Pieces :=
  if groups = [] then [] else .text (ascii " GROUP BY ") :: pathsPieces groups

def havingPieces (having : List Predicate) : Pieces :=
  if having = [] then [] else .text (ascii " HAVING ") :: (predicateClause [] having).pieces

def orderPiece (order : Order) : Pieces :=
  pathPieces (segments order.column) ++
    [.text (if order.direction = .asc then ascii " ASC" else ascii " DESC")]

def orderPieces (orders : List Order) : Pieces :=
  if orders = [] then []
  else .text (ascii " ORDER BY ") :: separated (fun _ => ascii ", ") orderPiece orders

def noOrderPieces (orders : List Order) : Pieces :=
  optionalPiece (orders = []) (ascii " ORDER BY (SELECT NULL)")

def numberPieces (before : Bytes) (value : Nat) : Pieces := [.text before, .text (stdToString value)]

def limitPieces (plan : QueryPlan) : Pieces :=
  match plan.limit, plan.offset with
  | some limit, offset =>
    if backend = .mssql then
      noOrderPieces plan.orders ++ (numberPieces (ascii " OFFSET ") (offset.getD 0) ++
        (numberPieces (ascii " ROWS FETCH NEXT ") limit ++ [.text (ascii " ROWS ONLY")]))
    else
      numberPieces (ascii " LIMIT ") limit ++
        match offset with
        | some offset => numberPieces (ascii " OFFSET ") offset
        | none => []
  | none, some offset =>
    if backend = .mssql then
      noOrderPieces plan.orders ++ (numberPieces (ascii " OFFSET ") offset ++
        [.text (ascii " ROWS")])
    else
      optionalPiece (backend = .sqlite) (ascii " LIMIT -1") ++ numberPieces (ascii " OFFSET ") offset
  | none, none => []

def lockPieces (lock : LockMode) : Pieces :=
  if backend = .mssql then []
  else
    match lock with
    | .forUpdate => [.text (ascii " FOR UPDATE")]
    | .shared => [.text (ascii " FOR SHARE")]
    | .none => []

/-- What stands before the WHERE clause. -/
def fromPieces : Pieces :=
  .text (ascii "SELECT ") :: (optionalPiece plan.distinct (ascii "DISTINCT ") ++
    (selectionPieces plan ++ .text (ascii " FROM ") :: (pathPieces (segments plan.table) ++
      (hintPieces backend plan.lock ++ plan.joins.flatMap joinPieces))))

/-- What stands behind it. -/
def finalPieces : Pieces :=
  groupPieces plan.groups ++ (havingPieces plan.having ++ (orderPieces plan.orders ++
    (limitPieces backend plan ++ (lockPieces backend plan.lock ++ [.text (ascii ";")]))))

def selectPieces : Pieces :=
  fromPieces plan backend ++
    (wherePieces plan.joinedTable plan.predicates ++ finalPieces plan backend)

/-! ## The compiled statement -/

section Compiled

variable {result after : CompiledQuery} {backend : Backend} {plan : QueryPlan}

theorem appendCountKey_ok {column : Bytes} :
    Emits backend result (countKeyPieces column) (appendCountKey result backend column) := by
  refine .ite (fun _ => .done) fun _ => .bind writePath_ok fun _ => .write ?_
  exact .quoted (ascii "__gungnir_count_key") fun _ => .write .done

theorem appendAggregated_ok {column : Bytes} :
    Emits backend result
      (if column = ascii "*" then [.text (ascii "*")] else pathPieces (segments column))
      (appendAggregated result backend column) :=
  .ite (fun _ => .write .done) fun _ => writePath_ok

theorem appendSelection_ok :
    Emits backend result (selectionPieces plan) (appendSelection result backend plan) := by
  unfold appendSelection selectionPieces
  cases plan.aggregate with
  | some aggregate =>
    refine .bind appendCountKey_ok fun _ => .write (.bind appendAggregated_ok fun _ => .write ?_)
    exact .quoted (ascii "aggregate") fun _ => .done
  | none => exact .ite (fun _ => .write .done) fun _ => appendPaths_ok

theorem appendTableHint_eq (result : CompiledQuery) (backend : Backend) (lock : LockMode) :
    appendTableHint result backend lock = result.extend backend (hintPieces backend lock) := by
  unfold appendTableHint hintPieces
  split
  · cases lock with
    | none => exact (extend_nil _ _).symm
    | forUpdate | shared => exact write_eq_extend _ _ _
  · exact (extend_nil _ _).symm

theorem appendJoin_ok {join : Join} :
    Emits backend result (joinPieces join) (appendJoin backend result join) := by
  refine .write (.bind writePath_ok fun _ => .ite (fun _ => .done) fun _ => .write ?_)
  refine .bind writePath_ok fun middle => ?_
  rw [appendOperator_eq middle backend]
  exact .behind writePath_ok

theorem appendJoins_ok {joins : List Join} :
    Emits backend result (joins.flatMap joinPieces) (joins.foldlM (appendJoin backend) result) := by
  induction joins generalizing result with
  | nil => exact .done
  | cons join joins ih => exact .bind appendJoin_ok fun _ => ih

/-- A clause that the statement only has if there is something to put into it. -/
theorem Emits.clause {empty : Prop} [Decidable empty] {opening : Bytes} {pieces : Pieces}
    {written : Except Exception CompiledQuery}
    (filled : Emits backend (result.write opening) pieces written) :
    Emits backend result (if empty then [] else .text opening :: pieces)
      (if empty then .ok result else written) :=
  .ite (fun _ => .done) fun _ => .write filled

theorem appendWhere_ok :
    Emits backend result (wherePieces plan.joinedTable plan.predicates)
      (appendWhere result backend plan) :=
  .clause appendPredicates_ok

theorem appendGroups_ok {groups : List Bytes} :
    Emits backend result (groupPieces groups) (appendGroups result backend groups) :=
  .clause appendPaths_ok

theorem appendHaving_ok {having : List Predicate} :
    Emits backend result (havingPieces having) (appendHaving result backend having) :=
  .clause appendPredicates_ok

theorem appendOrder_ok {order : Order} :
    Emits backend result (orderPiece order) (appendOrder backend result order) :=
  .bind writePath_ok fun _ => .write .done

theorem appendOrders_ok {orders : List Order} :
    Emits backend result (orderPieces orders) (appendOrders result backend orders) :=
  .clause (.separated appendOrder_ok)

variable (result : CompiledQuery)

theorem appendNoOrder_eq (backend : Backend) (orders : List Order) :
    appendNoOrder result orders = result.extend backend (noOrderPieces orders) := by
  unfold appendNoOrder noOrderPieces optionalPiece
  by_cases empty : orders = []
  · simp only [empty, if_true, decide_true, write_eq_extend _ backend]
  · simp only [empty, if_false, decide_false, Bool.false_eq_true, extend_nil]

theorem appendLimit_eq (backend : Backend) (plan : QueryPlan) :
    appendLimit result backend plan = result.extend backend (limitPieces backend plan) := by
  unfold appendLimit limitPieces
  cases plan.limit with
  | some limit =>
    by_cases isMssql : backend = .mssql
    · simp only [isMssql, if_true]
      rw [appendNoOrder_eq _ .mssql, write_eq_extend _ .mssql, extend_extend]
      simp [CompiledQuery.extend, render_append, values_append, render, values, numberPieces]
    · simp only [isMssql, if_false]
      cases plan.offset with
      | none | some =>
        simp [write_eq_extend _ backend, CompiledQuery.extend, render, values, numberPieces]
  | none =>
    cases plan.offset with
    | none => exact (extend_nil _ _).symm
    | some offset =>
      by_cases isMssql : backend = .mssql
      · simp only [isMssql, if_true]
        rw [appendNoOrder_eq _ .mssql, write_eq_extend _ .mssql, extend_extend]
        simp [CompiledQuery.extend, render_append, values_append, render, values, numberPieces]
      · simp only [isMssql, if_false]
        by_cases isSqlite : backend = .sqlite <;>
          simp [isSqlite, write_eq_extend _ backend, CompiledQuery.extend, render, values,
            numberPieces, optionalPiece]

theorem appendLock_eq (backend : Backend) (lock : LockMode) :
    appendLock result backend lock = result.extend backend (lockPieces backend lock) := by
  unfold appendLock lockPieces
  split
  · exact (extend_nil _ _).symm
  · cases lock with
    | none => exact (extend_nil _ _).symm
    | forUpdate => exact write_eq_extend _ _ _
    | shared => exact write_eq_extend _ _ _

theorem compileSql_ok :
    Emits backend ⟨.sql, [], []⟩ (selectPieces plan backend) (compileSql plan backend) := by
  have start : ∀ distinct : Bool,
      (if distinct then (⟨.sql, ascii "SELECT ", []⟩ : CompiledQuery).write (ascii "DISTINCT ")
        else ⟨.sql, ascii "SELECT ", []⟩) =
      (⟨.sql, [], []⟩ : CompiledQuery).extend backend
        (.text (ascii "SELECT ") :: optionalPiece distinct (ascii "DISTINCT ")) := by
    intro distinct
    cases distinct <;> rfl
  unfold compileSql selectPieces fromPieces finalPieces
  split
  · exact .failed
  · simp only [start, appendTableHint_eq, appendLimit_eq _ backend, appendLock_eq, cons_append,
      append_assoc]
    refine .behind (.bind appendSelection_ok fun _ => .write ?_)
    refine .bind writePath_ok fun _ => .behind (.bind appendJoins_ok fun _ => ?_)
    refine .bind appendWhere_ok fun _ => .bind appendGroups_ok fun _ => ?_
    refine .bind appendHaving_ok fun _ => .bind appendOrders_ok fun _ => ?_
    exact .behind (.behind (.write .done))

end Compiled

/-! ## Reading the statement -/

section Reading

variable {words : List Bytes}

theorem plain_optional {fresh : Bool} {text : Bytes} (present : Bool)
    (check : plainText words fresh fresh text = true) :
    Plain words fresh fresh (optionalPiece present text) := by
  unfold optionalPiece
  split
  · exact Plain.text check
  · exact Plain.nil

theorem plain_paths (paths : List Bytes) : Plain words true false (pathsPieces paths) :=
  Plain.listed (fun _ => Plain.path _) paths

theorem plain_selection (plan : QueryPlan) : Plain clauseWords true false (selectionPieces plan) := by
  unfold selectionPieces
  split
  · rename_i aggregate _
    have keyed : Plain clauseWords true true (countKeyPieces plan.countGroupColumn) := by
      unfold countKeyPieces
      split
      · exact Plain.nil
      · exact (Plain.path _).append (((Plain.name _).append (Plain.text rfl)).lead rfl)
    have column : Plain clauseWords true false
        (if aggregate.column = ascii "*" then [.text (ascii "*")]
          else pathPieces (segments aggregate.column) : Pieces) := by
      split
      · exact Plain.text rfl
      · exact Plain.path _
    exact keyed.append ((column.append ((Plain.name _).lead rfl)).lead
      (by cases aggregate.function <;> decide))
  · split
    · exact Plain.text rfl
    · exact plain_paths _

theorem plain_hint (backend : Backend) (lock : LockMode) :
    Plain clauseWords false false (hintPieces backend lock) := by
  unfold hintPieces
  split
  · cases lock with
    | none => exact Plain.nil
    | forUpdate | shared => exact Plain.text rfl
  · exact Plain.nil

theorem plain_join (join : Join) : Plain clauseWords false false (joinPieces join) := by
  refine ((Plain.path _).append ?_).lead (by cases join.type <;> decide)
  split
  · exact Plain.nil
  · exact ((Plain.path _).append ((Plain.path _).lead (by cases join.comparison <;> decide))).lead
      (by decide)

theorem plain_from (plan : QueryPlan) (backend : Backend) :
    Plain clauseWords true false (fromPieces plan backend) := by
  refine ((plain_optional plan.distinct ?_).append ((plain_selection plan).append
    (((Plain.path _).append ((plain_hint backend plan.lock).append
      (Plain.flatMap plain_join _))).lead ?_))).lead ?_ <;> decide

theorem plain_clause {empty : Prop} [Decidable empty] {opening : Bytes} {pieces : Pieces}
    (plain : Plain words true false pieces) (check : plainText words false true opening = true) :
    Plain words false false (if empty then [] else .text opening :: pieces) := by
  split
  · exact Plain.nil
  · exact plain.lead check

theorem plain_where (joinedTable : Bytes) (predicates : List Predicate) :
    Plain [ascii "LIMIT", ascii "OFFSET", ascii "NEXT"] false false
      (wherePieces joinedTable predicates) :=
  plain_clause ((Plain.clause _).mono (by decide)) rfl

theorem plain_groups (groups : List Bytes) : Plain clauseWords false false (groupPieces groups) :=
  plain_clause (plain_paths _) rfl

theorem plain_having (having : List Predicate) :
    Plain clauseWords false false (havingPieces having) :=
  plain_clause (Plain.clause _) rfl

theorem plain_orders (orders : List Order) : Plain clauseWords false false (orderPieces orders) := by
  refine plain_clause (Plain.listed (fun order => ?_) orders) rfl
  exact (Plain.path _).append (Plain.text (by cases order.direction <;> decide))

theorem plain_number {before : Bytes} (value : Nat)
    (check : plainText words false true before = true) :
    Plain words false false (numberPieces before value) :=
  (Plain.digits value).lead check

theorem plain_limit (backend : Backend) (plan : QueryPlan) :
    Plain [wordWhere] false false (limitPieces backend plan) := by
  have unordered : Plain [wordWhere] false false (noOrderPieces plan.orders) :=
    plain_optional _ rfl
  have skipping : ∀ offset, Plain [wordWhere] false false (numberPieces (ascii " OFFSET ") offset) :=
    fun offset => plain_number offset rfl
  unfold limitPieces
  cases plan.limit with
  | some limit =>
    dsimp only
    split
    · refine unordered.append ((skipping _).append ((plain_number limit ?_).append
        (Plain.text ?_))) <;> decide
    · refine (plain_number limit (by decide)).append ?_
      cases plan.offset with
      | some offset => exact skipping offset
      | none => exact Plain.nil
  | none =>
    cases plan.offset with
    | none => exact Plain.nil
    | some offset =>
      dsimp only
      split
      · exact unordered.append ((skipping _).append (Plain.text rfl))
      · exact (plain_optional _ (by decide)).append (skipping _)

theorem plain_lock (backend : Backend) (lock : LockMode) :
    Plain clauseWords false false (lockPieces backend lock) := by
  unfold lockPieces
  split
  · exact Plain.nil
  · cases lock with
    | none => exact Plain.nil
    | forUpdate => exact Plain.text rfl
    | shared => exact Plain.text rfl

theorem whereOnly : [wordWhere] ⊆ clauseWords := by decide

theorem plain_final (plan : QueryPlan) (backend : Backend) :
    Plain [wordWhere] false false (finalPieces plan backend) :=
  ((plain_groups _).mono whereOnly).append (((plain_having _).mono whereOnly).append
    (((plain_orders _).mono whereOnly).append ((plain_limit backend plan).append
      (((plain_lock backend _).mono whereOnly).append (Plain.text rfl)))))

theorem plain_select (plan : QueryPlan) (backend : Backend) :
    Plain [] true false (selectPieces plan backend) :=
  ((plain_from plan backend).mono (nil_subset _)).append (((plain_where _ _).mono (nil_subset _)).append
    ((plain_final plan backend).mono (nil_subset _)))

variable (quotes : Quotes)

theorem endsWhere_limit (backend : Backend) (plan : QueryPlan) :
    EndsWhere quotes (limitPieces backend plan) := by
  have skipping : ∀ offset rest, EndsWhere quotes (numberPieces (ascii " OFFSET ") offset ++ rest) :=
    fun offset rest => endsWhere_text _
  have unordered : ∀ offset rest,
      EndsWhere quotes (noOrderPieces plan.orders ++ (numberPieces (ascii " OFFSET ") offset ++ rest)) := by
    intro offset rest
    unfold noOrderPieces optionalPiece
    split
    · exact endsWhere_text _
    · exact skipping offset rest
  unfold limitPieces
  cases plan.limit with
  | some limit =>
    dsimp only
    split
    · exact unordered _ _
    · exact endsWhere_text _
  | none =>
    cases plan.offset with
    | none => exact .inl rfl
    | some offset =>
      dsimp only
      split
      · exact unordered _ _
      · unfold optionalPiece
        split
        · exact endsWhere_text _
        · exact skipping offset []

theorem endsClause_final (plan : QueryPlan) (backend : Backend) :
    endsClause (tokens quotes (finalPieces plan backend)) = true := by
  have groups : EndsWhere quotes (groupPieces plan.groups) := (endsWhere_text _).unless
  have having : EndsWhere quotes (havingPieces plan.having) := (endsWhere_text _).unless
  have orders : EndsWhere quotes (orderPieces plan.orders) := (endsWhere_text _).unless
  have lock : EndsWhere quotes (lockPieces backend plan.lock) := by
    refine EndsWhere.unless ?_
    cases plan.lock with
    | none => exact .inl rfl
    | forUpdate | shared => exact endsWhere_text _
  apply groups.append (having.append (orders.append ((endsWhere_limit quotes backend plan).append
    (lock.append _))))
  cases quotes <;> rfl

end Reading

/-- The tokens an engine finds in a compiled query. -/
def CompiledQuery.read (query : CompiledQuery) (backend : Backend) :
    Option (List (Token AttributeValue)) :=
  Sql.read (quotesOf backend) query.text query.bindings

variable {backend : Backend}

theorem read_extend {pieces : Pieces} (spaced : Spaced (quotesOf backend) true false pieces) :
    ((⟨.sql, [], []⟩ : CompiledQuery).extend backend pieces).read backend =
      some (tokens (quotesOf backend) pieces) := by
  obtain ⟨last, spaced, _⟩ := spaced
  have dialectSpacing : spacing (dialectOf backend).quotes true pieces = some last := spaced
  exact read_render dialectSpacing

variable {query : CompiledQuery} {plan : QueryPlan}

theorem compileSql_read (done : compileSql plan backend = .ok query) :
    query.read backend = some (tokens (quotesOf backend) (selectPieces plan backend)) := by
  rw [compileSql_ok _ done]
  exact read_extend ((plain_select plan backend).spaced _)

/-- The WHERE clause of a compiled query: `some none` if there is none. -/
def CompiledQuery.whereClause (query : CompiledQuery) (backend : Backend) :
    Option (Option (Condition AttributeValue)) :=
  (query.read backend).bind readWhere

/-- A statement built from a beginning, the clause of some predicates and an end. -/
theorem whereClause_of_read {before after : Pieces} {joinedTable : Bytes}
    {predicates : List Predicate}
    (readable : query.read backend = some (tokens (quotesOf backend)
      (before ++ (wherePieces joinedTable predicates ++ after))))
    (beforeAbsent : Lacks [wordWhere] (quotesOf backend) before)
    (afterAbsent : Lacks [wordWhere] (quotesOf backend) after)
    (ended : endsClause (tokens (quotesOf backend) after) = true) :
    query.whereClause backend = some (predicateClause joinedTable predicates).condition := by
  rw [CompiledQuery.whereClause, readable, Option.bind_some]
  by_cases empty : predicates = []
  · subst empty
    have absent := beforeAbsent.append afterAbsent wordWhere mem_cons_self
    have unread := readWhere_append absent []
    rw [append_nil] at unread
    exact unread
  · have word : (textTokens (quotesOf backend) (ascii " WHERE ") : List (Token AttributeValue)) =
        [.word wordWhere] := by
      cases backend <;> rfl
    obtain ⟨condition, isCondition, read⟩ :=
      readWhere_clause (quotesOf backend) (wellFormed_clause joinedTable empty)
        (beforeAbsent wordWhere mem_cons_self) ended
    rw [wherePieces, if_neg empty, tokens_append, cons_append, tokens, tokens_append, word,
      singleton_append, read, isCondition]

theorem whereClause_compileSql (done : compileSql plan backend = .ok query) :
    query.whereClause backend =
      some (predicateClause plan.joinedTable plan.predicates).condition :=
  whereClause_of_read (compileSql_read done) (((plain_from plan backend).mono whereOnly).lacks _)
    ((plain_final plan backend).lacks _) (endsClause_final _ plan backend)

end Gungnir.Orm
