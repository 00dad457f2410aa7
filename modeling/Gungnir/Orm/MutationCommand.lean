import Gungnir.Orm.Command
import Gungnir.Orm.MutationStatement

/-!
# Commands of the bulk mutations

The update, delete and insert commands of MongoDB with the values of the plan and of the
rows in their places, and the proof that the compilers write them.
-/

namespace Gungnir.Orm

open Gungnir.Core Gungnir.Library List
open Gungnir.Library.Json (Reads joined)

/-! ## Commands -/

def assignmentFields (row : AttributeMap) (keys : List Bytes) : List (Bytes × Document) :=
  keys.map fun key => (mongoName key, .value (cell row key))

/-- One update of all documents that a filter selects. -/
def updateCommand (table : Bytes) (filter update : Document) : Document :=
  .object [(ascii "update", .text table), (ascii "updates", .array [.object [(ascii "q", filter),
    (ascii "u", update), (ascii "multi", .flag true)]])]

def updateJson (plan : QueryPlan) (values : AttributeMap) : Document :=
  updateCommand plan.table (filterJson plan.predicates)
    (.object [(ascii "$set", .object (assignmentFields values (sortedKeys values)))])

def deleteJson (plan : QueryPlan) : Document :=
  .object [(ascii "delete", .text plan.table), (ascii "deletes", .array [.object [
    (ascii "q", filterJson plan.predicates), (ascii "limit", .number 0)]])]

def incrementJson (plan : QueryPlan) (column : Bytes) (amount : UInt64) : Document :=
  updateCommand plan.table (filterJson plan.predicates)
    (.object [(ascii "$inc", .object [(mongoName column, .value (.double amount))])])

def insertJson (table : Bytes) (rows : List AttributeMap) (keys : List Bytes) : Document :=
  .object [(ascii "insert", .text table), (ascii "documents",
    .array (rows.map fun row => .object (assignmentFields row keys)))]

def upsertKey (ignoreConflicts : Bool) : Bytes :=
  if ignoreConflicts then ascii "$setOnInsert" else ascii "$set"

def upsertRowJson (keys uniqueBy : List Bytes) (ignoreConflicts : Bool) (row : AttributeMap) : Document :=
  .object [(ascii "q", .object (assignmentFields row uniqueBy)),
    (ascii "u", .object [(upsertKey ignoreConflicts, .object (assignmentFields row keys))]),
    (ascii "upsert", .flag true), (ascii "multi", .flag false)]

def upsertJson (table : Bytes) (rows : List AttributeMap) (keys uniqueBy : List Bytes)
    (ignoreConflicts : Bool) : Document :=
  .object [(ascii "update", .text table), (ascii "updates",
    .array (rows.map (upsertRowJson keys uniqueBy ignoreConflicts)))]

/-! ## What the compilers write -/

section Written

variable {bindings : List AttributeValue} {row : AttributeMap} {out : Bound Bytes}

theorem mongoAssignment_ok {key : Bytes} (done : mongoAssignment row bindings key = .ok out) :
    WroteMember bindings out (mongoName key, .value (cell row key)) ∧ row.lookup key ≠ none := by
  obtain ⟨field, named, done⟩ := bind_eq_ok.mp done
  obtain ⟨value, found, done⟩ := bind_eq_ok.mp done
  cases done
  obtain ⟨rfl, present⟩ := valueAt_ok found
  have wrote := wrote_mongoBind bindings (cell row key)
  exact ⟨wrote_column named rfl wrote.grown wrote.reads, present⟩

theorem mongoAssignments_ok {keys : List Bytes}
    (done : mongoAssignments row bindings keys = .ok out) :
    Wrote bindings (ascii "\x7b" ++ out.1 ++ ascii "\x7d", out.2)
      (.object (assignmentFields row keys)) := by
  have each : ∀ bindings key out, mongoAssignment row bindings key = .ok out →
      WroteMember bindings out (mongoName key, .value (cell row key)) :=
    fun _ _ _ emitted => (mongoAssignment_ok emitted).1
  exact wrote_object each done

theorem reads_update {table filter update plainTable : Bytes} {filtered updated : Document}
    (named : jsonIdentifier plainTable = .ok table) (readsFilter : Reads bindings filter filtered)
    (readsUpdate : Reads bindings update updated) :
    Reads bindings (mongoUpdate table filter update) (updateCommand plainTable filtered updated) := by
  have one := reads_fields (.cons (ascii "q") (by decide) readsFilter
    (.cons (ascii "u") (by decide) readsUpdate (.one (ascii "multi") (by decide) Json.reads_true)))
  have command := reads_fields (.cons (ascii "update") (by decide) (reads_table named)
    (.one (ascii "updates") (by decide) (Json.reads_list (.cons one .nil))))
  refine command.cast ?_
  simp only [mongoUpdate, joined, flatMap_nil, append_assoc, cons_append,
    append_nil]
  rfl

end Written

section Compiled

variable {plan : QueryPlan} {query : CompiledQuery}

theorem compileUpdateWhere_mongo {values : AttributeMap}
    (done : compileUpdateWhere plan values .mongodb = .ok query) :
    Reads query.bindings query.text (updateJson plan values) := by
  obtain ⟨⟨⟩, _, done⟩ := bind_eq_ok.mp done
  split at done
  · cases done
  · obtain ⟨filter, filtered, done⟩ := bind_eq_ok.mp done
    obtain ⟨table, named, done⟩ := bind_eq_ok.mp done
    obtain ⟨fields, assigned, done⟩ := bind_eq_ok.mp done
    cases done
    have set := mongoAssignments_ok assigned
    have update := reads_fields (.one (ascii "$set") (by decide) set.reads)
    have command := reads_update named ((mongoFilterWith_ok filtered).reads.mono set.grown) update
    refine Eq.mp (congrArg (fun text => Reads _ (mongoUpdate table filter.1 text) _) ?_) command
    simp only [append_assoc]
    rfl

theorem compileDeleteWhere_mongo (done : compileDeleteWhere plan .mongodb = .ok query) :
    Reads query.bindings query.text (deleteJson plan) := by
  obtain ⟨⟨⟩, _, done⟩ := bind_eq_ok.mp done
  obtain ⟨filter, filtered, done⟩ := bind_eq_ok.mp done
  obtain ⟨table, named, done⟩ := bind_eq_ok.mp done
  cases done
  have one := reads_fields (.cons (ascii "q") (by decide) (mongoFilterWith_ok filtered).reads
    (.one (ascii "limit") (by decide) (Json.reads_number 0)))
  have command := reads_fields (.cons (ascii "delete") (by decide) (reads_table named)
    (.one (ascii "deletes") (by decide) (Json.reads_list (.cons one .nil))))
  refine command.cast ?_
  simp only [joined, flatMap_nil, append_assoc, cons_append, append_nil]
  rfl

theorem compileIncrementWhere_mongo {column : Bytes} {amount : UInt64}
    (done : compileIncrementWhere plan column amount .mongodb = .ok query) :
    Reads query.bindings query.text (incrementJson plan column amount) := by
  obtain ⟨⟨⟩, _, done⟩ := bind_eq_ok.mp done
  obtain ⟨filter, filtered, done⟩ := bind_eq_ok.mp done
  obtain ⟨table, named, done⟩ := bind_eq_ok.mp done
  obtain ⟨field, columnNamed, done⟩ := bind_eq_ok.mp done
  cases done
  have bound := wrote_mongoBind filter.2 (.double amount)
  have update := reads_fields (.one (ascii "$inc") (by decide) (reads_column columnNamed bound.reads))
  have command := reads_update named ((mongoFilterWith_ok filtered).reads.mono bound.grown) update
  refine Eq.mp (congrArg (fun text => Reads _ (mongoUpdate table filter.1 text) _) ?_) command
  simp only [append_assoc]
  rfl

variable {table : Bytes} {rows : List AttributeMap}

theorem insertMongo_ok {keys : List Bytes} (done : insertMongo table rows keys = .ok query) :
    Reads query.bindings query.text (insertJson table rows keys) := by
  obtain ⟨written, named, done⟩ := bind_eq_ok.mp done
  obtain ⟨documents, listed, done⟩ := bind_eq_ok.mp done
  cases done
  have array : Wrote [] _ (.array (rows.map fun row => .object (assignmentFields row keys))) :=
    wrote_array (fun bindings row out emitted => by
      obtain ⟨fields, assigned, made⟩ := bind_eq_ok.mp emitted
      cases made
      exact mongoAssignments_ok assigned) listed
  have command := reads_fields (.cons (ascii "insert") (by decide) (reads_table named)
    (.one (ascii "documents") (by decide) array.reads))
  refine command.cast ?_
  simp only [append_assoc]
  rfl

variable {uniqueBy : List Bytes} {ignoreConflicts : Bool}

theorem mongoUpsertRow_ok {keys : List Bytes} {bindings : List AttributeValue} {row : AttributeMap}
    {out : Bound Bytes}
    (done : mongoUpsertRow keys uniqueBy ignoreConflicts bindings row = .ok out) :
    Wrote bindings out (upsertRowJson keys uniqueBy ignoreConflicts row) := by
  obtain ⟨unique, uniqueWritten, done⟩ := bind_eq_ok.mp done
  obtain ⟨fields, fieldsWritten, done⟩ := bind_eq_ok.mp done
  cases done
  have selects := mongoAssignments_ok uniqueWritten
  have assigns := mongoAssignments_ok fieldsWritten
  refine ⟨selects.grown.trans assigns.grown, ?_⟩
  have key : LiteralKey (upsertKey ignoreConflicts) := by
    cases ignoreConflicts <;> decide
  have object := reads_fields (.cons (ascii "q") (by decide) (selects.reads.mono assigns.grown)
    (.cons (ascii "u") (by decide) (reads_fields (.one _ key assigns.reads))
      (.cons (ascii "upsert") (by decide) Json.reads_true
        (.one (ascii "multi") (by decide) Json.reads_false))))
  refine object.cast ?_
  cases ignoreConflicts with
  | true =>
    simp only [upsertKey, if_true, append_assoc]
    rfl
  | false =>
    simp only [upsertKey, Bool.false_eq_true, if_false, append_assoc]
    rfl

theorem upsertMongo_ok {keys : List Bytes}
    (done : upsertMongo table rows keys uniqueBy ignoreConflicts = .ok query) :
    Reads query.bindings query.text (upsertJson table rows keys uniqueBy ignoreConflicts) := by
  obtain ⟨written, named, done⟩ := bind_eq_ok.mp done
  obtain ⟨updates, listed, done⟩ := bind_eq_ok.mp done
  cases done
  have array : Wrote [] _ (.array (rows.map (upsertRowJson keys uniqueBy ignoreConflicts))) :=
    wrote_array (fun bindings row out emitted => mongoUpsertRow_ok emitted) listed
  have command := reads_fields (.cons (ascii "update") (by decide) (reads_table named)
    (.one (ascii "updates") (by decide) array.reads))
  refine command.cast ?_
  simp only [append_assoc]
  rfl

end Compiled

end Gungnir.Orm
