import Gungnir.Orm.Document

/-!
# Find and aggregate commands

The command of a select plan, and the proof that `compileMongodb` writes it. The
filter of a command is found again in what is read.
-/

namespace Gungnir.Orm

open Gungnir.Core Gungnir.Library List
open Gungnir.Library.Json (Reads Member Opened joined quoted)

/-! ## The command of a plan -/

def projectionFields (columns : List Bytes) : List (Bytes × Document) :=
  if columns = [] then []
  else [(ascii "projection", .object (columns.map fun column => (mongoName column, .number 1)))]

def sortFields (orders : List Order) : List (Bytes × Document) :=
  if orders = [] then []
  else [(ascii "sort", .object (orders.map fun order =>
    (mongoName order.column, .number (if order.direction = .asc then 1 else -1))))]

def boundFields (name : Bytes) (bound : Option Nat) : List (Bytes × Document) :=
  match bound with
  | some value => [(name, .number value)]
  | none => []

variable (plan : QueryPlan)

def findJson : Document :=
  .object ([(ascii "find", .text plan.table), (ascii "filter", filterJson plan.predicates)] ++
    projectionFields plan.columns ++ sortFields plan.orders ++
    boundFields (ascii "limit") plan.limit ++ boundFields (ascii "skip") plan.offset)

def reference (column : Bytes) : Document := .text (36 :: mongoName column)

variable (aggregate : Aggregate)

def accumulatorJson : Document :=
  match aggregate.function with
  | .count => .object [(ascii "$sum", .number 1)]
  | .sum => .object [(ascii "$sum", reference aggregate.column)]
  | .average => .object [(ascii "$avg", reference aggregate.column)]
  | .minimum => .object [(ascii "$min", reference aggregate.column)]
  | .maximum => .object [(ascii "$max", reference aggregate.column)]

def groupJson (column : Bytes) : Document := if column = [] then .null else reference column

def countKeyStage : Document :=
  .object [(ascii "$project", .object [(ascii "__gungnir_count_key", .text (ascii "$_id")),
    (ascii "aggregate", .number 1), (ascii "_id", .number 0)])]

def aggregateStages : List Document :=
  [.object [(ascii "$match", filterJson plan.predicates)],
    .object [(ascii "$group", .object [(ascii "_id", groupJson plan.countGroupColumn),
      (ascii "aggregate", accumulatorJson aggregate)])]] ++
  if plan.countGroupColumn = [] then [] else [countKeyStage]

def aggregateJson : Document :=
  .object [(ascii "aggregate", .text plan.table),
    (ascii "pipeline", .array (aggregateStages plan aggregate)), (ascii "cursor", .object [])]

def selectJson : Document :=
  match plan.aggregate with
  | some aggregate => aggregateJson plan aggregate
  | none => findJson plan

/-! ## What the compiler writes -/

section Written

variable {bindings : List AttributeValue} {written : Bytes} {json : Document}

theorem reads_table {table : Bytes} (named : jsonIdentifier table = .ok written) :
    Reads bindings (ascii "\"" ++ written ++ ascii "\"") (.text table) := by
  obtain ⟨rfl, printable⟩ := jsonIdentifier_ok named
  exact Json.reads_text printable

theorem reads_reference {column field : Bytes} (named : mongoField column = .ok field) :
    Reads bindings (ascii "\"$" ++ field ++ ascii "\"") (reference column) := by
  obtain ⟨rfl, plainKey⟩ := mongoField_ok named
  have printable : ∀ byte ∈ 36 :: mongoName column, 32 ≤ byte.toNat :=
    forall_mem_cons.mpr ⟨by decide, plainKey.printable⟩
  exact Json.reads_text printable

/-- A member whose key is a column. -/
theorem wrote_column {column field : Bytes} {out : Bound Bytes}
    (named : mongoField column = .ok field)
    (text : out.1 = ascii "\"" ++ field ++ ascii "\":" ++ written) (grown : bindings <+: out.2)
    (reads : Reads out.2 written json) : WroteMember bindings out (mongoName column, json) := by
  obtain ⟨rfl, plainKey⟩ := mongoField_ok named
  refine ⟨grown, ⟨mongoName column, written, json⟩, ?_, rfl, ⟨plainKey.printable, reads⟩,
    plainKey.unbound⟩
  rw [text, Member.text, quoted]
  simp only [append_assoc, cons_append]
  rfl

variable {members : List (Member AttributeValue)}

theorem mongoSection_ok {α : Type} {name : Bytes} (literal : LiteralKey name)
    (pair : α → Bytes × Document)
    {emit : List AttributeValue → α → Except Exception (Bound Bytes)} {items : List α}
    (each : ∀ bindings item out, emit bindings item = .ok out →
      WroteMember bindings out (pair item))
    {result after : CompiledQuery} (opened : Opened result.bindings result.text members)
    (done : mongoSection name emit result items = .ok after) :
    ∃ more : List (Member AttributeValue), Opened after.bindings after.text (members ++ more) ∧
      more.map Member.pair = if items = [] then [] else [(name, .object (items.map pair))] := by
  unfold mongoSection at done
  split at done
  · rename_i empty
    cases done
    exact ⟨[], by simpa using opened, by simp [empty]⟩
  · rename_i nonempty
    obtain ⟨list, listed, done⟩ := bind_eq_ok.mp done
    cases done
    have wrote := wrote_object each listed
    refine ⟨[⟨name, ascii "\x7b" ++ list.1 ++ ascii "\x7d", .object (items.map pair)⟩], ?_,
      by simp [nonempty, Member.pair]⟩
    have appended := opened.append wrote.grown (literal.plain wrote.reads)
    refine Eq.mp (congrArg (fun text => Opened _ text _) ?_) appended
    simp only [Member.text, quoted, literal.unescaped, append_assoc, cons_append]
    rfl

theorem mongoBound_ok (name : Bytes) (literal : LiteralKey name) {result : CompiledQuery}
    (opened : Opened result.bindings result.text members) (bound : Option Nat) :
    ∃ more : List (Member AttributeValue),
      Opened (mongoBound result name bound).bindings (mongoBound result name bound).text
        (members ++ more) ∧
      more.map Member.pair = boundFields name bound := by
  cases bound with
  | none => exact ⟨[], by simpa [mongoBound] using opened, rfl⟩
  | some value =>
    refine ⟨[⟨name, stdToString value, .number value⟩], ?_, rfl⟩
    have appended := opened.append (prefix_refl _) (literal.plain (Json.reads_number value))
    refine Eq.mp (congrArg (fun text => Opened _ text _) ?_) appended
    simp only [mongoBound, CompiledQuery.write, Member.text, quoted, literal.unescaped,
      append_assoc, cons_append]
    rfl

variable {plan : QueryPlan} {query : CompiledQuery}

theorem mongoFind_ok {filter : Bound Bytes}
    (reads : Reads filter.2 filter.1 (filterJson plan.predicates))
    (done : mongoFind plan filter = .ok query) :
    Reads query.bindings query.text (findJson plan) := by
  obtain ⟨table, named, done⟩ := bind_eq_ok.mp done
  obtain ⟨projected, projection, done⟩ := bind_eq_ok.mp done
  obtain ⟨sorted, sorting, done⟩ := bind_eq_ok.mp done
  cases done
  obtain ⟨fixed, nonempty, text, pairs, plain⟩ :=
    Fields.members (.cons (ascii "find") (by decide) (reads_table named)
      (.one (ascii "filter") (by decide) reads))
  have start : Opened filter.2
      (ascii "\x7b\"find\":\"" ++ table ++ ascii "\",\"filter\":" ++ filter.1) fixed := by
    refine ⟨nonempty, ?_, plain⟩
    rw [← text]
    simp only [append_assoc]
    rfl
  obtain ⟨columns, openColumns, sameColumns⟩ := mongoSection_ok (by decide)
    (fun column => (mongoName column, .number 1))
    (fun bindings column out emitted => by
      obtain ⟨field, fieldNamed, made⟩ := bind_eq_ok.mp emitted
      cases made
      exact wrote_column fieldNamed (append_assoc _ (ascii "\":") (ascii "1")).symm
        (prefix_refl _) (Json.reads_number 1))
    start projection
  obtain ⟨orders, openOrders, sameOrders⟩ := mongoSection_ok (by decide)
    (fun order : Order =>
      (mongoName order.column, .number (if order.direction = .asc then 1 else -1)))
    (fun bindings order out emitted => by
      obtain ⟨field, fieldNamed, made⟩ := bind_eq_ok.mp emitted
      cases made
      refine wrote_column fieldNamed rfl (prefix_refl _) ?_
      cases order.direction with
      | asc => exact Json.reads_number 1
      | desc => exact Json.reads_negative 1)
    openColumns sorting
  obtain ⟨limits, openLimits, sameLimits⟩ :=
    mongoBound_ok (ascii "limit") (by decide) openOrders plan.limit
  obtain ⟨skips, openSkips, sameSkips⟩ :=
    mongoBound_ok (ascii "skip") (by decide) openLimits plan.offset
  have closed := openSkips.close
  simp only [map_append, pairs, sameColumns, sameOrders, sameLimits, sameSkips] at closed
  exact closed

theorem reads_accumulator {aggregate : Aggregate}
    (done : mongoAccumulator aggregate = .ok written) :
    Reads bindings written (accumulatorJson aggregate) := by
  have folded : ∀ operator : Bytes, LiteralKey operator →
      mongoFold operator aggregate.column = .ok written →
      Reads bindings written (.object [(operator, reference aggregate.column)]) := by
    intro operator literal made
    obtain ⟨field, named, made⟩ := bind_eq_ok.mp made
    cases made
    have object := reads_fields (.one operator literal (reads_reference named : Reads bindings _ _))
    refine object.cast ?_
    simp only [append_assoc]
    rfl
  unfold mongoAccumulator at done
  unfold accumulatorJson
  cases function : aggregate.function with
  | count =>
    simp only [function] at done ⊢
    cases done
    exact reads_fields (.one (ascii "$sum") (by decide) (Json.reads_number 1))
  | sum | average | minimum | maximum =>
    exact folded _ (by decide) (by simpa only [function] using done)

theorem reads_group {column : Bytes} (done : mongoGroup column = .ok written) :
    Reads bindings written (groupJson column) := by
  unfold mongoGroup at done
  unfold groupJson
  split at done
  · rename_i empty
    cases done
    rw [if_pos empty]
    exact Json.reads_null
  · rename_i nonempty
    obtain ⟨field, named, done⟩ := bind_eq_ok.mp done
    cases done
    rw [if_neg nonempty]
    exact reads_reference named

def countKeyText : Bytes :=
  ascii "\x7b\"$project\":\x7b\"__gungnir_count_key\":\"$_id\",\"aggregate\":1,\"_id\":0\x7d\x7d"

theorem countKeyText_eq :
    ascii ",\x7b\"$project\":\x7b\"__gungnir_count_key\":\"$_id\",\"aggregate\":1,\"_id\":0\x7d\x7d" =
      44 :: countKeyText := by
  decide

theorem reads_countKey : Reads bindings countKeyText countKeyStage := by
  have key : ∀ byte ∈ ascii "$_id", 32 ≤ byte.toNat := Json.printable_of_all (by decide)
  have inner := reads_fields (.cons (ascii "__gungnir_count_key") (by decide)
    (Json.reads_text key : Reads bindings _ _)
    (.cons (ascii "aggregate") (by decide) (Json.reads_number 1)
      (.one (ascii "_id") (by decide) (Json.reads_number 0))))
  exact reads_fields (.one (ascii "$project") (by decide) inner)

theorem mongoAggregate_ok {aggregate : Aggregate} {filter : Bound Bytes}
    (reads : Reads filter.2 filter.1 (filterJson plan.predicates))
    (done : mongoAggregate plan aggregate filter = .ok query) :
    Reads query.bindings query.text (aggregateJson plan aggregate) := by
  obtain ⟨accumulator, accumulated, done⟩ := bind_eq_ok.mp done
  obtain ⟨group, grouped, done⟩ := bind_eq_ok.mp done
  obtain ⟨table, named, done⟩ := bind_eq_ok.mp done
  cases done
  have matching := reads_fields (.one (ascii "$match") (by decide) reads)
  have grouping := reads_fields (.one (ascii "$group") (by decide) (reads_fields
    (.cons (ascii "_id") (by decide) (reads_group grouped : Reads filter.2 _ _)
      (.one (ascii "aggregate") (by decide) (reads_accumulator accumulated)))))
  have whole : ∀ {texts : List Bytes} {stages : List Document},
      Forall₂ (Reads filter.2) texts stages → _ := fun {texts} {stages} each =>
    reads_fields (.cons (ascii "aggregate") (by decide) (reads_table named)
      (.cons (ascii "pipeline") (by decide) (Json.reads_list each)
        (.one (ascii "cursor") (by decide) Json.reads_empty)))
  unfold aggregateJson aggregateStages
  by_cases counted : plan.countGroupColumn = []
  · have command := whole (.cons matching (.cons grouping .nil))
    simp only [if_pos counted]
    refine command.cast ?_
    simp only [joined, flatMap_cons, flatMap_nil, append_assoc, cons_append,
      append_nil]
    rfl
  · have command := whole (.cons matching (.cons grouping (.cons reads_countKey .nil)))
    simp only [if_neg counted, countKeyText_eq]
    refine command.cast ?_
    generalize countKeyText = countKey
    simp only [joined, flatMap_cons, flatMap_nil, append_assoc, cons_append,
      append_nil]
    rfl

section

variable (done : compileMongodb plan = .ok query)
include done

/-- What `compileMongodb` refuses, and what it does. -/
theorem compileMongodb_cases :
    plan.joins = [] ∧ (plan.aggregate = none → plan.distinct = false) ∧
      ∃ filter, mongoFilter plan.predicates [] = .ok filter ∧
      (match plan.aggregate with
      | some aggregate => mongoAggregate plan aggregate filter
      | none => mongoFind plan filter) = .ok query := by
  unfold compileMongodb at done
  split at done
  · cases done
  · split at done
    · cases done
    · rename_i unjoined
      split at done
      · cases done
      · split at done
        · cases done
        · rename_i allowed
          exact ⟨Classical.not_not.mp unjoined, fun plain => Bool.eq_false_of_not_eq_true
            fun distinct => allowed ⟨distinct, plain⟩, bind_eq_ok.mp done⟩

/-- The compiled command is the command of the plan. -/
theorem compileMongodb_ok : Reads query.bindings query.text (selectJson plan) := by
  obtain ⟨_, _, filter, filtered, done⟩ := compileMongodb_cases done
  have reads := (mongoFilterWith_ok filtered).reads
  unfold selectJson
  split at done
  · exact mongoAggregate_ok reads done
  · exact mongoFind_ok reads done

/-- Every predicate of a compiled plan has its values, and its columns are field names. -/
theorem compileMongodb_each {predicate : Predicate} (member : predicate ∈ plan.predicates) :
    predicate.complete = true ∧ predicate.Named := by
  obtain ⟨_, _, filter, filtered, _⟩ := compileMongodb_cases done
  exact mongoFilterWith_each filtered member

end

/-! ## The filter of a command -/

/-- The part of a command that selects documents. The first field names the command. -/
def commandFilter (command : Document) : Option Document :=
  match command with
  | .object ((name, _) :: _) =>
    if name = ascii "find" then command.field (ascii "filter")
    else if name = ascii "aggregate" then do
      (← (← command.field (ascii "pipeline")).item 0).field (ascii "$match")
    else if name = ascii "update" then do
      (← (← command.field (ascii "updates")).item 0).field (ascii "q")
    else if name = ascii "delete" then do
      (← (← command.field (ascii "deletes")).item 0).field (ascii "q")
    else none
  | _ => none

def CompiledQuery.filter (query : CompiledQuery) : Option Document :=
  (Json.parse query.bindings query.text).bind commandFilter

theorem filter_compileMongodb (done : compileMongodb plan = .ok query) :
    query.filter = some (filterJson plan.predicates) := by
  rw [CompiledQuery.filter, Json.parse_of_reads (compileMongodb_ok done)]
  unfold selectJson
  split <;> rfl

end Written

end Gungnir.Orm
