import Gungnir.Orm.Scope
import Gungnir.Orm.Alignment

/-!
# What a bulk mutation changes

A mutation and a select that are compiled from the same plan have the same predicates.
Only the select has the plan's limit and offset: the mutation changes every row that the
predicates select.
-/

namespace Gungnir.Orm

open Gungnir.Core Gungnir.Library Gungnir.Library.Sql

/-! ## Limit and offset of a statement -/

def CompiledQuery.window (query : CompiledQuery) (backend : Backend) : Option (Option Nat × Nat) :=
  (query.read backend).map readWindow

section Reading

variable (quotes : Quotes)

abbrev windowWords : List Bytes := [ascii "LIMIT", ascii "OFFSET", ascii "NEXT"]

/-- They stand nowhere else. -/
theorem lacks_before (plan : QueryPlan) (backend : Backend) :
    Lacks windowWords quotes
      (fromPieces plan backend ++ (wherePieces plan.joinedTable plan.predicates ++
        (groupPieces plan.groups ++ (havingPieces plan.having ++ orderPieces plan.orders)))) :=
  (((plain_from plan backend).mono (by decide)).append ((plain_where _ _).append
    (((plain_groups _).mono (by decide)).append (((plain_having _).mono (by decide)).append
      ((plain_orders _).mono (by decide)))))).lacks quotes

theorem lacks_after (plan : QueryPlan) (backend : Backend) :
    Lacks windowWords quotes (lockPieces backend plan.lock ++ [.text (ascii ";")]) :=
  (((plain_lock backend plan.lock).mono (by decide)).append
    (Plain.text rfl : Plain _ false false _)).lacks quotes

theorem tokens_number (before : Bytes) (value : Nat) :
    tokens quotes (numberPieces before value) =
      textTokens quotes before ++ [.number (Decimal.print value)] := by
  rw [numberPieces, tokens, tokens, stdToString, tokens_digits]
  rfl

theorem readWindow_append {before : Pieces} (lacks : Lacks windowWords quotes before)
    (rest : List (Token AttributeValue)) :
    readWindow (tokens quotes before ++ rest) = readWindow rest := by
  rw [readWindow, readBound_append (lacks (ascii "LIMIT") (by decide)),
    readBound_append (lacks (ascii "NEXT") (by decide)),
    readBound_append (lacks (ascii "OFFSET") (by decide))]
  rfl

/-- No more bounds follow. -/
structure Unbounded (rest : List (Token AttributeValue)) : Prop where
  limit : readBound (ascii "LIMIT") rest = none
  next : readBound (ascii "NEXT") rest = none
  offset : readBound (ascii "OFFSET") rest = none

theorem unbounded_of_lacks {pieces : Pieces} (lacks : Lacks windowWords quotes pieces) :
    Unbounded (tokens quotes pieces) :=
  ⟨readBound_absent (lacks _ (by decide)), readBound_absent (lacks _ (by decide)),
    readBound_absent (lacks _ (by decide))⟩

theorem tokens_limit (value : Nat) : tokens quotes (numberPieces (ascii " LIMIT ") value) =
    [.word (ascii "LIMIT"), .number (Decimal.print value)] := by
  rw [tokens_number]
  cases quotes <;> rfl

theorem tokens_offset (value : Nat) : tokens quotes (numberPieces (ascii " OFFSET ") value) =
    [.word (ascii "OFFSET"), .number (Decimal.print value)] := by
  rw [tokens_number]
  cases quotes <;> rfl

theorem tokens_fetch (value : Nat) : tokens quotes (numberPieces (ascii " ROWS FETCH NEXT ") value) =
    [.word (ascii "ROWS"), .word (ascii "FETCH"), .word (ascii "NEXT"), .number (Decimal.print value)] := by
  rw [tokens_number]
  cases quotes <;> rfl

theorem lacks_noOrder (orders : List Order) : Lacks windowWords quotes (noOrderPieces orders) :=
  (plain_optional _ rfl : Plain _ false false _).lacks quotes

theorem readWindow_limit (backend : Backend) (plan : QueryPlan)
    {rest : List (Token AttributeValue)} (ended : Unbounded rest) :
    readWindow (tokens quotes (limitPieces backend plan) ++ rest) =
      (plan.limit, plan.offset.getD 0) := by
  have rows : tokens quotes ([.text (ascii " ROWS ONLY")] : Pieces) =
      [.word (ascii "ROWS"), .word (ascii "ONLY")] := by
    cases quotes <;> rfl
  have row : tokens quotes ([.text (ascii " ROWS")] : Pieces) = [.word (ascii "ROWS")] := by
    cases quotes <;> rfl
  have unlimited : tokens quotes ([.text (ascii " LIMIT -1")] : Pieces) =
      [.word (ascii "LIMIT"), .symbol (ascii "-"), .number (ascii "1")] := by
    cases quotes <;> rfl
  unfold limitPieces
  cases plan.limit with
  | some limit =>
    dsimp only
    split
    · rw [tokens_append, List.append_assoc, readWindow_append quotes (lacks_noOrder quotes _),
        tokens_append, tokens_append, tokens_offset, tokens_fetch, rows]
      have skipped := readBound_number (ascii "OFFSET") (plan.offset.getD 0)
        ([.word (ascii "ROWS"), .word (ascii "FETCH"), .word (ascii "NEXT"),
          .number (Decimal.print limit), .word (ascii "ROWS"), .word (ascii "ONLY")] ++ rest)
      have taken := readBound_number (ascii "NEXT") limit
        ([.word (ascii "ROWS"), .word (ascii "ONLY")] ++ rest)
      exact @readWindow_eq _ _ none (some limit) (some (plan.offset.getD 0)) ended.limit taken skipped
    · cases plan.offset with
      | none =>
        rw [List.append_nil, tokens_limit]
        have taken := readBound_number (ascii "LIMIT") limit rest
        exact readWindow_eq taken ended.next ended.offset
      | some offset =>
        rw [tokens_append, tokens_limit, tokens_offset]
        have taken := readBound_number (ascii "LIMIT") limit
          ([.word (ascii "OFFSET"), .number (Decimal.print offset)] ++ rest)
        have skipped := readBound_number (ascii "OFFSET") offset rest
        exact readWindow_eq taken ended.next skipped
  | none =>
    cases plan.offset with
    | none => exact readWindow_eq ended.limit ended.next ended.offset
    | some offset =>
      have skipped : ∀ more : List (Token AttributeValue),
          readBound (ascii "OFFSET") (.word (ascii "OFFSET") :: .number (Decimal.print offset) ::
            more) = some offset := readBound_number (ascii "OFFSET") offset
      dsimp only
      split
      · rw [tokens_append, List.append_assoc, readWindow_append quotes (lacks_noOrder quotes _),
          tokens_append, tokens_offset, row]
        exact @readWindow_eq _ _ none none (some offset) ended.limit ended.next (skipped _)
      · unfold optionalPiece
        split
        · rw [tokens_append, unlimited, tokens_offset]
          have noLimit : readBound (ascii "LIMIT")
              ([.word (ascii "LIMIT"), .symbol (ascii "-"), .number (ascii "1")] ++
                [.word (ascii "OFFSET"), .number (Decimal.print offset)] ++ rest) = none := rfl
          exact readWindow_eq noLimit ended.next (skipped rest)
        · rw [List.nil_append, tokens_offset]
          exact @readWindow_eq _ _ none none (some offset) ended.limit ended.next (skipped _)

theorem window_compileSql {plan : QueryPlan} {backend : Backend} {query : CompiledQuery}
    (done : compileSql plan backend = .ok query) :
    query.window backend = some (plan.limit, plan.offset.getD 0) := by
  have parts : selectPieces plan backend = (fromPieces plan backend ++
      (wherePieces plan.joinedTable plan.predicates ++ (groupPieces plan.groups ++
        (havingPieces plan.having ++ orderPieces plan.orders)))) ++
      (limitPieces backend plan ++ (lockPieces backend plan.lock ++ [.text (ascii ";")])) := by
    simp only [selectPieces, finalPieces, List.append_assoc]
  rw [CompiledQuery.window, compileSql_read done, Option.map_some, parts, tokens_append,
    readWindow_append _ (lacks_before _ plan backend), tokens_append,
    readWindow_limit _ backend plan (unbounded_of_lacks _ (lacks_after _ plan backend))]

end Reading

/-! ## Limit and offset of a find command -/

/-- A limit of zero is none. -/
def Document.limit? : Document → Option Nat
  | .number (.ofNat (value + 1)) => some (value + 1)
  | _ => none

def Document.amount : Document → Nat
  | .number (.ofNat value) => value
  | _ => 0

def commandWindow (command : Document) : Option Nat × Nat :=
  ((command.field (ascii "limit")).bind Document.limit?,
    ((command.field (ascii "skip")).map Document.amount).getD 0)

variable (plan : QueryPlan)

theorem commandWindow_find :
    commandWindow (findJson plan) =
      (plan.limit.filter fun limit => limit ≠ 0, plan.offset.getD 0) := by
  have bounds : (findJson plan).field (ascii "limit") = plan.limit.map (fun limit => .number limit) ∧
      (findJson plan).field (ascii "skip") = plan.offset.map fun offset => .number offset := by
    unfold findJson projectionFields sortFields boundFields
    by_cases columns : plan.columns = [] <;> by_cases orders : plan.orders = [] <;>
      cases plan.limit <;> cases plan.offset <;> simp only [columns, orders, if_true, if_false] <;>
      exact ⟨rfl, rfl⟩
  rw [commandWindow, bounds.1, bounds.2]
  rcases plan.limit with _ | _ | limit <;> cases plan.offset <;> rfl

/-! ## The clauses of the mutations -/

/-- The mutations of the rows that a plan selects. -/
inductive BulkMutation where
  | update (assigned : AttributeMap)
  | delete
  | increment (column : Bytes) (amount : UInt64)

def compileBulk (backend : Backend) : BulkMutation → Except Exception CompiledQuery
  | .update assigned => compileUpdateWhere plan assigned backend
  | .delete => compileDeleteWhere plan backend
  | .increment column amount => compileIncrementWhere plan column amount backend

def BulkMutation.head : BulkMutation → Pieces
  | .update assigned => updateHead plan assigned
  | .delete => deleteHead plan
  | .increment column amount => incrementHead plan column amount

section Bulk

variable {plan : QueryPlan} {backend : Backend} {mutation : BulkMutation} {query : CompiledQuery}

theorem compileBulk_plain (done : compileBulk plan backend mutation = .ok query) :
    plan.joins = [] ∧ plan.aggregate = none := by
  have checked : ensureMutablePlan plan = .ok () := by
    cases mutation with
    | update assigned | delete | increment column amount =>
      obtain ⟨⟨⟩, checked, _⟩ := bind_eq_ok.mp done
      exact checked
  have plain := ensureMutablePlan_ok checked
  exact ⟨plain.1, plain.2.2.2⟩

theorem compileBulk_ok (sql : backend ≠ .mongodb)
    (done : compileBulk plan backend mutation = .ok query) :
    query.read backend = some (tokens (quotesOf backend)
      (mutation.head plan ++ (wherePieces [] plan.predicates ++ [.text (ascii ";")]))) ∧
      Lacks clauseWords (quotesOf backend) (mutation.head plan) := by
  cases mutation with
  | update assigned =>
    rw [compileUpdateWhere_ok sql _ done]
    exact ⟨read_extend ((plain_restricted (plain_updateHead _ _) plan).spaced _),
      (plain_updateHead _ _).lacks _⟩
  | delete =>
    rw [compileDeleteWhere_ok sql _ done]
    exact ⟨read_extend ((plain_restricted (plain_deleteHead _) plan).spaced _),
      (plain_deleteHead _).lacks _⟩
  | increment column amount =>
    rw [compileIncrementWhere_ok sql _ done]
    exact ⟨read_extend ((plain_restricted (plain_incrementHead _ _ _) plan).spaced _),
      (plain_incrementHead _ _ _).lacks _⟩

theorem whereClause_compileBulk (sql : backend ≠ .mongodb)
    (done : compileBulk plan backend mutation = .ok query) :
    query.whereClause backend = some (predicateClause [] plan.predicates).condition := by
  obtain ⟨readable, lacks⟩ := compileBulk_ok sql done
  apply whereClause_of_read readable
  · exact fun word member => lacks word (List.mem_cons.mpr (.inl (List.mem_singleton.mp member)))
  · exact (Plain.text rfl : Plain _ false false _).lacks _
  · cases quotesOf backend <;> rfl

theorem filter_compileBulk (done : compileBulk plan .mongodb mutation = .ok query) :
    query.filter = some (filterJson plan.predicates) := by
  unfold CompiledQuery.filter
  cases mutation with
  | update assigned =>
    rw [Json.parse_of_reads (compileUpdateWhere_mongo done)]
    rfl
  | delete =>
    rw [Json.parse_of_reads (compileDeleteWhere_mongo done)]
    rfl
  | increment column amount =>
    rw [Json.parse_of_reads (compileIncrementWhere_mongo done)]
    rfl

end Bulk

/-! ## Distinct results -/

def readDistinct : List (Token AttributeValue) → Bool
  | _ :: .word word :: _ => word = ascii "DISTINCT"
  | _ => false

def CompiledQuery.isDistinct (query : CompiledQuery) (backend : Backend) : Bool :=
  (query.read backend).any readDistinct

theorem lacks_distinct (quotes : Quotes) {plan : QueryPlan} (plain : plan.aggregate = none) :
    Lacks [ascii "DISTINCT"] quotes (selectionPieces plan) := by
  unfold selectionPieces
  rw [plain]
  dsimp only
  split
  · exact (Plain.text rfl : Plain _ true false _).lacks quotes
  · exact (plain_paths _).lacks quotes

theorem readDistinct_absent {first : Token AttributeValue} {selection rest : List (Token AttributeValue)}
    (absent : .word (ascii "DISTINCT") ∉ selection) :
    readDistinct (first :: (selection ++ .word (ascii "FROM") :: rest)) = false := by
  cases selection with
  | nil => rfl
  | cons second others =>
    cases second with
    | word word =>
      apply decide_eq_false
      rintro rfl
      exact absent List.mem_cons_self
    | _ => rfl

theorem isDistinct_compileSql {plan : QueryPlan} {backend : Backend} {query : CompiledQuery}
    (plain : plan.aggregate = none) (done : compileSql plan backend = .ok query) :
    query.isDistinct backend = plan.distinct := by
  have select : tokens (quotesOf backend) ([.text (ascii "SELECT ")] : Pieces) =
      [.word (ascii "SELECT")] := by
    cases quotesOf backend <;> rfl
  have from_ : tokens (quotesOf backend) ([.text (ascii " FROM ")] : Pieces) =
      [.word (ascii "FROM")] := by
    cases quotesOf backend <;> rfl
  have distinct : tokens (quotesOf backend) ([.text (ascii "DISTINCT ")] : Pieces) =
      [.word (ascii "DISTINCT")] := by
    cases quotesOf backend <;> rfl
  have parts : selectPieces plan backend = [.text (ascii "SELECT ")] ++
      (optionalPiece plan.distinct (ascii "DISTINCT ") ++ (selectionPieces plan ++
        ([.text (ascii " FROM ")] ++ (pathPieces (segments plan.table) ++
          (hintPieces backend plan.lock ++ (plan.joins.flatMap joinPieces ++
            (wherePieces plan.joinedTable plan.predicates ++ finalPieces plan backend))))))) := by
    simp only [selectPieces, fromPieces, List.append_assoc, List.cons_append, List.nil_append]
  rw [CompiledQuery.isDistinct, compileSql_read done, parts, tokens_append, tokens_append,
    tokens_append, tokens_append _ [.text (ascii " FROM ")], select, from_]
  cases plan.distinct with
  | true =>
    rw [optionalPiece, if_pos rfl, distinct]
    rfl
  | false =>
    exact readDistinct_absent (lacks_distinct _ plain _ List.mem_cons_self)

/-! ## Tables -/

/-- A stored row, as SQL and as the document store see it. -/
structure Stored where
  row : Path → AttributeValue
  document : Bytes → AttributeValue

/-- The predicates of a compiled query select a stored row. -/
def CompiledQuery.keeps (query : CompiledQuery) (backend : Backend) (engine : Engine AttributeValue)
    (stored : Stored) : Prop :=
  if backend = .mongodb then query.selectsDocument engine stored.document
  else query.selects backend engine stored.row

instance (query : CompiledQuery) (backend : Backend) (engine : Engine AttributeValue)
    (stored : Stored) : Decidable (query.keeps backend engine stored) := by
  unfold CompiledQuery.keeps
  infer_instance

/-- The predicates of a plan select a stored row. -/
def QueryPlan.keeps (plan : QueryPlan) (backend : Backend) (engine : Engine AttributeValue)
    (stored : Stored) : Prop :=
  if backend = .mongodb then
    Filter.eval engine stored.document (filterJson plan.predicates) = some true
  else whereSelects engine stored.row (predicateClause plan.joinedTable plan.predicates).condition

instance (plan : QueryPlan) (backend : Backend) (engine : Engine AttributeValue)
    (stored : Stored) : Decidable (plan.keeps backend engine stored) := by
  unfold QueryPlan.keeps
  infer_instance

/-- The positions of the rows of a table that a query's predicates select. -/
def CompiledQuery.positions (query : CompiledQuery) (backend : Backend)
    (engine : Engine AttributeValue) (table : List Stored) : List Nat :=
  (List.range table.length).filter fun position =>
    (table[position]?).any fun stored => query.keeps backend engine stored

def QueryPlan.positions (plan : QueryPlan) (backend : Backend) (engine : Engine AttributeValue)
    (table : List Stored) : List Nat :=
  (List.range table.length).filter fun position =>
    (table[position]?).any fun stored => plan.keeps backend engine stored

/-- Limit and offset of a compiled select. MySQL refuses the statement if it has an offset
and no limit. -/
def CompiledQuery.bounds (query : CompiledQuery) (backend : Backend) : Option (Option Nat × Nat) :=
  if backend = .mongodb then (Json.parse query.bindings query.text).map commandWindow
  else query.window backend

/-! ## Results -/

variable (bounds : Option Nat × Nat)

def cut {α : Type} (found : List α) : List α :=
  match bounds.1 with
  | some limit => (found.drop bounds.2).take limit
  | none => found.drop bounds.2

theorem cut_sublist {α : Type} (found : List α) : (cut bounds found).Sublist found := by
  unfold cut
  split
  · exact (List.take_sublist _ _).trans (List.drop_sublist _ _)
  · exact List.drop_sublist _ _

/-- A cut keeps everything if there is nothing, or no offset and no more than the limit. -/
theorem cut_length {α : Type} (limit : Option Nat) (offset : Nat) (found : List α) :
    found.length ≤ (cut (limit, offset) found).length ↔
      found = [] ∨ offset = 0 ∧ ∀ most, limit = some most → found.length ≤ most := by
  rw [← List.length_eq_zero_iff]
  cases limit with
  | none =>
    show found.length ≤ (found.drop offset).length ↔ _
    rw [List.length_drop]
    simp only [reduceCtorEq, false_implies, implies_true, and_true]
    omega
  | some limit =>
    show found.length ≤ ((found.drop offset).take limit).length ↔ _
    rw [List.length_take, List.length_drop]
    simp only [Option.some.injEq, forall_eq']
    omega

/-- The result that a row gives: the row itself or, in a distinct select, the values of the
selected columns. -/
inductive Found (κ : Type) where
  | row (position : Nat)
  | values (values : κ)
deriving DecidableEq

section Results

variable {κ : Type} [DecidableEq κ] (distinct : Bool) (values : Nat → κ)

def resultOf (position : Nat) : Found κ :=
  if distinct then .values (values position) else .row position

def results (positions : List Nat) : List (Found κ) :=
  (positions.map (resultOf distinct values)).dedup

/-- The positions of the rows that a select returns. The database may arrange its results
in any way, and `values` are those of the selected columns. -/
def CompiledQuery.returned (query : CompiledQuery) (backend : Backend)
    (engine : Engine AttributeValue) (values : Nat → κ)
    (arrange : List (Found κ) → List (Found κ)) (table : List Stored) : List Nat :=
  let distinct := decide (backend ≠ .mongodb) && query.isDistinct backend
  match query.bounds backend with
  | some bounds =>
    let shown := cut bounds (arrange (results distinct values (query.positions backend engine table)))
    (query.positions backend engine table).filter fun position =>
      decide (resultOf distinct values position ∈ shown)
  | none => []

theorem results_eq_nil {positions : List Nat} :
    results distinct values positions = [] ↔ positions = [] := by
  rw [results, List.dedup_eq_nil, List.map_eq_nil_iff]

/-- All rows are shown exactly if the cut keeps all results. -/
theorem shown_iff {arrange : List (Found κ) → List (Found κ)}
    (permutes : ∀ found, (arrange found).Perm found) (distinct : Bool) (values : Nat → κ)
    (positions : List Nat) :
    (∀ position ∈ positions, resultOf distinct values position ∈
        cut bounds (arrange (results distinct values positions))) ↔
      (results distinct values positions).length ≤
        (cut bounds (arrange (results distinct values positions))).length := by
  have unique : (results distinct values positions).Nodup := List.nodup_dedup _
  have part := cut_sublist bounds (arrange (results distinct values positions))
  constructor
  · intro shown
    apply (unique.subperm _).length_le
    intro result member
    obtain ⟨position, found, rfl⟩ := List.mem_map.mp (List.mem_dedup.mp member)
    exact shown position found
  · intro many position found
    rw [part.eq_of_length_le (by rwa [(permutes _).length_eq])]
    exact (permutes _).mem_iff.mpr (List.mem_dedup.mpr (List.mem_map_of_mem found))

end Results

/-! ## What is changed and what is returned -/

/-- The limit that a backend applies. -/
def QueryPlan.limitOn (plan : QueryPlan) (backend : Backend) : Option Nat :=
  if backend = .mongodb then plan.limit.filter fun limit => limit ≠ 0 else plan.limit

section Bounds

variable {plan : QueryPlan} {backend : Backend} {mutation : BulkMutation} {changed select : CompiledQuery}

theorem bounds_compile (plain : plan.aggregate = none)
    (selecting : compile plan backend = .ok select) :
    select.bounds backend = some (plan.limitOn backend, plan.offset.getD 0) := by
  unfold compile at selecting
  unfold CompiledQuery.bounds QueryPlan.limitOn
  split at selecting
  · rename_i isMongo
    rw [if_pos isMongo, if_pos isMongo, Json.parse_of_reads (compileMongodb_ok selecting), selectJson,
      plain]
    exact congrArg some (commandWindow_find plan)
  · rename_i isSql
    rw [if_neg isSql, if_neg isSql]
    exact window_compileSql selecting

theorem distinct_compile (plain : plan.aggregate = none)
    (selecting : compile plan backend = .ok select) :
    (decide (backend ≠ .mongodb) && select.isDistinct backend) = plan.distinct := by
  unfold compile at selecting
  split at selecting
  · rename_i isMongo
    rw [(compileMongodb_cases selecting).2.1 plain, decide_eq_false (not_not.mpr isMongo), Bool.false_and]
  · rename_i isSql
    rw [decide_eq_true isSql, Bool.true_and]
    exact isDistinct_compileSql plain selecting

theorem positions_bulk (mutating : compileBulk plan backend mutation = .ok changed)
    (engine : Engine AttributeValue) (table : List Stored) :
    changed.positions backend engine table = plan.positions backend engine table := by
  have same : ∀ stored, changed.keeps backend engine stored ↔ plan.keeps backend engine stored := by
    intro stored
    unfold CompiledQuery.keeps QueryPlan.keeps
    split
    · rename_i isMongo
      subst isMongo
      rw [CompiledQuery.selectsDocument, filter_compileBulk mutating]
      rfl
    · rename_i isSql
      have unjoined : plan.joinedTable = [] := if_pos (compileBulk_plain mutating).1
      rw [CompiledQuery.selects, whereClause_compileBulk isSql mutating, unjoined]
  simp only [CompiledQuery.positions, QueryPlan.positions, same]

theorem positions_compile (selecting : compile plan backend = .ok select)
    (engine : Engine AttributeValue) (table : List Stored) :
    select.positions backend engine table = plan.positions backend engine table := by
  have same : ∀ stored, select.keeps backend engine stored ↔ plan.keeps backend engine stored := by
    intro stored
    unfold compile at selecting
    unfold CompiledQuery.keeps QueryPlan.keeps
    split at selecting
    · rename_i isMongo
      rw [if_pos isMongo, if_pos isMongo, selectsDocument_compileMongodb selecting]
    · rename_i isSql
      rw [if_neg isSql, if_neg isSql, selects_compileSql selecting]
  simp only [CompiledQuery.positions, QueryPlan.positions, same]

/-- The rows that a bulk mutation changes are rows that the select of its plan returns
exactly if the plan's predicates select no row, or the plan has no offset and they give no
more results than its limit. -/
theorem bulk_mutation_bounds {κ : Type} [DecidableEq κ] {plan : QueryPlan} {backend : Backend}
    {mutation : BulkMutation} {changed select : CompiledQuery}
    (mutating : compileBulk plan backend mutation = .ok changed)
    (selecting : compile plan backend = .ok select) (engine : Engine AttributeValue)
    (table : List Stored) (values : Nat → κ) (arrange : List (Found κ) → List (Found κ))
    (permutes : ∀ found, (arrange found).Perm found) :
    changed.positions backend engine table ⊆ select.returned backend engine values arrange table ↔
      plan.positions backend engine table = [] ∨ plan.offset.getD 0 = 0 ∧
        ∀ most, plan.limitOn backend = some most →
          (results plan.distinct values (plan.positions backend engine table)).length ≤ most := by
  have plain := (compileBulk_plain mutating).2
  rw [CompiledQuery.returned, bounds_compile plain selecting, distinct_compile plain selecting,
    positions_compile selecting, positions_bulk mutating]
  generalize plan.positions backend engine table = positions
  have kept := cut_length (plan.limitOn backend) (plan.offset.getD 0)
    (arrange (results plan.distinct values positions))
  have empty : arrange (results plan.distinct values positions) = [] ↔ positions = [] := by
    rw [← results_eq_nil plan.distinct values]
    have same := permutes (results plan.distinct values positions)
    exact ⟨fun none => (none ▸ same.symm).eq_nil, fun none => (same.trans (none ▸ .refl _)).eq_nil⟩
  rw [(permutes _).length_eq, empty] at kept
  rw [← kept, ← shown_iff _ permutes]
  constructor
  · intro inside position found
    exact of_decide_eq_true (List.mem_filter.mp (inside found)).2
  · intro shown position found
    exact List.mem_filter.mpr ⟨found, decide_eq_true (shown position found)⟩

theorem mutationFilter_ok (mutating : compileBulk plan .mongodb mutation = .ok changed) :
    ∃ filter, mutationFilter plan = .ok filter := by
  cases mutation with
  | update assigned =>
    obtain ⟨⟨⟩, _, done⟩ := bind_eq_ok.mp mutating
    split at done
    · cases done
    · exact (bind_eq_ok.mp done).imp fun _ => And.left
  | delete | increment =>
    obtain ⟨⟨⟩, _, done⟩ := bind_eq_ok.mp mutating
    exact (bind_eq_ok.mp done).imp fun _ => And.left

/-- Whatever the caller adds to a plan, a row that a bulk mutation of it changes meets every
protected predicate of the plan. -/
theorem bulk_protected (mutating : compileBulk plan backend mutation = .ok changed)
    {engine : Engine AttributeValue} {stored : Stored} {scope : Predicate}
    (kept : changed.keeps backend engine stored) (member : scope ∈ plan.predicates)
    (isProtected : scope.isProtected = true) :
    if backend = .mongodb then scope.answerIn engine stored.document = some true
    else plan.truth engine stored.row scope = some true := by
  unfold CompiledQuery.keeps at kept
  split at kept
  · rename_i isMongo
    subst isMongo
    obtain ⟨filter, filtered⟩ := mutationFilter_ok mutating
    rw [CompiledQuery.selectsDocument, filter_compileBulk mutating] at kept
    exact filter_protected (fun _ found => (mongoFilterWith_each filtered found).2) kept member
      isProtected
  · rename_i isSql
    have unjoined : plan.joinedTable = [] := if_pos (compileBulk_plain mutating).1
    rw [CompiledQuery.selects, whereClause_compileBulk isSql mutating, ← unjoined] at kept
    rw [if_neg isSql]
    exact clause_protected kept member isProtected

theorem bulk_protected_tenant : tenantScope.answerIn integerEngine tenantPost = some true := by
  let deletion := (compileBulk tenantPlan .mongodb .delete).toOption.getD {}
  have deleting : compileBulk tenantPlan .mongodb .delete = .ok deletion := by decide +kernel
  have kept : deletion.keeps .mongodb integerEngine ⟨fun _ => .null, tenantPost⟩ := by
    decide +kernel
  exact bulk_protected deleting kept (by decide +kernel) rfl

def firstPlan : QueryPlan :=
  { table := ascii "posts"
    predicates := [{ column := ascii "state", values := [.string (ascii "open")] }]
    limit := some 1 }

def firstDelete : CompiledQuery :=
  ⟨.sql, ascii "DELETE FROM \"posts\" WHERE \"state\" = $1;", [.string (ascii "open")]⟩

def firstSelect : CompiledQuery :=
  ⟨.sql, ascii "SELECT * FROM \"posts\" WHERE \"state\" = $1 LIMIT 1;", [.string (ascii "open")]⟩

def openPost : Stored := ⟨fun _ => .string (ascii "open"), fun _ => .string (ascii "open")⟩

/-- A delete of one row deletes all of them. -/
theorem delete_ignores_limit :
    compileBulk firstPlan .postgresql .delete = .ok firstDelete ∧
    compile firstPlan .postgresql = .ok firstSelect ∧
    firstDelete.positions .postgresql integerEngine [openPost, openPost] = [0, 1] ∧
    firstSelect.returned .postgresql integerEngine (fun position => position) id
      [openPost, openPost] = [0] := by
  decide +kernel

def closedPost : Stored := ⟨fun _ => .string (ascii "closed"), fun _ => .string (ascii "closed")⟩

theorem bulk_mutation_bounds_sample :
    firstDelete.positions .postgresql integerEngine [closedPost, openPost, closedPost] ⊆
      firstSelect.returned .postgresql integerEngine (fun position => position) id
        [closedPost, openPost, closedPost] := by
  have deleting : compileBulk firstPlan .postgresql .delete = .ok firstDelete := by decide +kernel
  have selecting : compile firstPlan .postgresql = .ok firstSelect := by decide +kernel
  have found : firstPlan.positions .postgresql integerEngine [closedPost, openPost, closedPost] =
      [1] := by decide +kernel
  have bounds := bulk_mutation_bounds deleting selecting integerEngine
    [closedPost, openPost, closedPost] (fun position => position) id fun _ => List.Perm.refl _
  rw [found] at bounds
  exact bounds.mpr (Or.inr (by decide))

end Bounds

end Gungnir.Orm
