import Gungnir.Orm.Selection

/-!
# Statements of the bulk mutations

The pieces of updates, deletions, increments, insertions and upserts, with the values of
the plan and of the rows in their places. What the compilers return is the rendering of
these pieces.
-/

namespace Gungnir.Orm

open Gungnir.Core Gungnir.Library Gungnir.Library.Sql List

/-! ## Pieces -/

def cell (row : AttributeMap) (key : Bytes) : AttributeValue := (row.lookup key).getD .null

def assignmentPieces (values : AttributeMap) (key : Bytes) : Pieces :=
  pathPieces (segments key) ++ [.text (ascii " = "), .value (cell values key)]

def tablePieces (opening table : Bytes) : Pieces := .text opening :: pathPieces (segments table)

variable (plan : QueryPlan)

/-- The WHERE clause of a mutation, and the end of its statement. -/
def restrictedPieces : Pieces :=
  wherePieces [] plan.predicates ++ [.text (ascii ";")]

def updateHead (values : AttributeMap) : Pieces :=
  tablePieces (ascii "UPDATE ") plan.table ++ .text (ascii " SET ") ::
    separated (fun _ => ascii ", ") (assignmentPieces values) (sortedKeys values)

def deleteHead : Pieces := tablePieces (ascii "DELETE FROM ") plan.table

variable (column : Bytes)

def incrementHead (amount : UInt64) : Pieces :=
  tablePieces (ascii "UPDATE ") plan.table ++ .text (ascii " SET ") ::
    (pathPieces (segments column) ++ .text (ascii " = ") :: (pathPieces (segments column) ++
      [.text (ascii " + "), .value (.double amount)]))

def updatePieces (values : AttributeMap) : Pieces :=
  updateHead plan values ++ restrictedPieces plan

def deletePieces : Pieces := deleteHead plan ++ restrictedPieces plan

def incrementPieces (amount : UInt64) : Pieces :=
  incrementHead plan column amount ++ restrictedPieces plan

def rowPieces (keys : List Bytes) (row : AttributeMap) : Pieces :=
  .text (ascii "(") :: (separated (fun _ => ascii ", ") (fun key => [.value (cell row key)]) keys ++
    [.text (ascii ")")])

def rowsPieces (keys : List Bytes) (rows : List AttributeMap) : Pieces :=
  separated (fun _ => ascii ", ") (rowPieces keys) rows

variable (table : Bytes) (rows : List AttributeMap) (keys : List Bytes)

/-- An insertion without the end of its statement. -/
def insertHead : Pieces :=
  tablePieces (ascii "INSERT INTO ") table ++ .text (ascii " (") :: (pathsPieces keys ++
    .text (ascii ") VALUES ") :: rowsPieces keys rows)

def insertPieces : Pieces :=
  insertHead table rows keys ++ [.text (ascii ";")]

def targetSourcePieces : Pieces :=
  .text (ascii "target.") :: (pathPieces (segments column) ++ .text (ascii " = source.") ::
    pathPieces (segments column))

def sourcePieces : Pieces :=
  .text (ascii "source.") :: pathPieces (segments column)

def matchedPieces (updates : List Bytes) (ignoreConflicts : Bool) : Pieces :=
  if ignoreConflicts = false ∧ updates ≠ [] then
    .text (ascii " WHEN MATCHED THEN UPDATE SET ") ::
      separated (fun _ => ascii ", ") targetSourcePieces updates
  else []

def mergePieces (uniqueBy updates : List Bytes) (ignoreConflicts : Bool) : Pieces :=
  tablePieces (ascii "MERGE INTO ") table ++ .text (ascii " AS target USING (VALUES ") ::
    (rowsPieces keys rows ++ .text (ascii ") AS source (") :: (pathsPieces keys ++
      .text (ascii ") ON ") :: (separated (fun _ => ascii " AND ") targetSourcePieces uniqueBy ++
        (matchedPieces updates ignoreConflicts ++
          .text (ascii " WHEN NOT MATCHED THEN INSERT (") :: (pathsPieces keys ++
            .text (ascii ") VALUES (") :: (separated (fun _ => ascii ", ") sourcePieces keys ++
              [.text (ascii ");")]))))))

def fromRowPieces (row column : Bytes) : Pieces :=
  pathPieces (segments column) ++ .text (ascii " = " ++ row ++ ascii ".") ::
    pathPieces (segments column)

def conflictPieces (uniqueBy updates : List Bytes) (ignoreConflicts : Bool) : Pieces :=
  .text (ascii " ON CONFLICT (") :: (pathsPieces uniqueBy ++
    if ignoreConflicts = true ∨ updates = [] then [.text (ascii ") DO NOTHING;")]
    else .text (ascii ") DO UPDATE SET ") ::
      (separated (fun _ => ascii ", ") (fromRowPieces (ascii "EXCLUDED")) updates ++
        [.text (ascii ";")]))

def duplicatePieces (uniqueBy updates : List Bytes) (ignoreConflicts : Bool) : Pieces :=
  if ignoreConflicts = true ∨ updates = [] then
    .text (ascii " ON DUPLICATE KEY UPDATE ") :: (pathPieces (segments (uniqueBy.headD [])) ++
      .text (ascii " = ") :: (pathPieces (segments (uniqueBy.headD [])) ++ [.text (ascii ";")]))
  else
    .text (ascii " AS gungnir_new ON DUPLICATE KEY UPDATE ") ::
      (separated (fun _ => ascii ", ") (fromRowPieces (ascii "gungnir_new")) updates ++
        [.text (ascii ";")])

/-- The columns of the first row, in their order. -/
def rowKeys : List Bytes := sortedKeys (rows.headD ∅)

def upsertPieces (uniqueBy updateColumns : List Bytes) (backend : Backend)
    (ignoreConflicts : Bool) : Pieces :=
  let keys := rowKeys rows
  let updates := upsertUpdates keys uniqueBy updateColumns ignoreConflicts
  if backend = .mssql then mergePieces table rows keys uniqueBy updates ignoreConflicts
  else
    insertHead table rows keys ++
      if backend = .postgresql ∨ backend = .sqlite then
        conflictPieces uniqueBy updates ignoreConflicts
      else duplicatePieces uniqueBy updates ignoreConflicts

/-! ## The compiled statements -/

section Compiled

variable {result after : CompiledQuery} {backend : Backend} {row : AttributeMap} {key : Bytes}

theorem valueAt_ok {value : AttributeValue} (done : valueAt row key = .ok value) :
    value = cell row key ∧ row.lookup key ≠ none := by
  unfold valueAt at done
  unfold cell
  split at done
  · rename_i found given
    cases done
    rw [given]
    exact ⟨rfl, Option.some_ne_none _⟩
  · cases done

theorem Emits.valued {next : AttributeValue → Except Exception CompiledQuery} {pieces : Pieces}
    (rest : Emits backend result pieces (next (cell row key))) :
    Emits backend result pieces (valueAt row key >>= next) := by
  intro after done
  obtain ⟨value, found, continued⟩ := bind_eq_ok.mp done
  rw [(valueAt_ok found).1] at continued
  exact rest after continued

theorem appendAssignment_ok {values : AttributeMap} :
    Emits backend result (assignmentPieces values key)
      (appendAssignment backend values result key) :=
  .bind writePath_ok fun _ => .valued (.write (.place .done))

variable {keys : List Bytes} {rows : List AttributeMap}

theorem appendRow_ok :
    Emits backend result (rowPieces keys row) (appendRow backend keys result row) :=
  .write (.bind (.separated (.valued (.place .done))) fun _ => .write .done)

theorem appendRows_ok :
    Emits backend result (rowsPieces keys rows) (appendRows result backend keys rows) :=
  .separated appendRow_ok

theorem Emits.start {text : Bytes} {more : Pieces} {written : Except Exception CompiledQuery}
    (emits : Emits backend { kind := .sql, text := text } more written) :
    Emits backend ⟨.sql, [], []⟩ (.text text :: more) written := by
  refine @Emits.behind _ _ _ _ [.text text] ?_
  simpa [CompiledQuery.extend, render, values] using emits

theorem Emits.checked {check : Except Exception Unit} {next : Unit → Except Exception CompiledQuery}
    {pieces : Pieces} (rest : Emits backend result pieces (next ())) :
    Emits backend result pieces (check >>= next) := by
  intro after done
  obtain ⟨⟨⟩, _, continued⟩ := bind_eq_ok.mp done
  exact rest after continued

variable {query : CompiledQuery} {table : Bytes}

theorem insertSql_ok :
    Emits backend ⟨.sql, [], []⟩ (insertPieces table rows keys)
      (insertSql table rows keys backend) := by
  simp only [insertPieces, insertHead, tablePieces, append_assoc, cons_append]
  refine .start (.bind writePath_ok fun _ => .write ?_)
  refine .bind appendPaths_ok fun _ => .write (.bind appendRows_ok fun _ => ?_)
  exact .write .done

variable {column : Bytes}

theorem appendTargetSource_ok :
    Emits backend result (targetSourcePieces column) (appendTargetSource backend result column) :=
  .write (.bind writePath_ok fun _ => .write writePath_ok)

theorem appendSourceColumn_ok :
    Emits backend result (sourcePieces column) (appendSourceColumn backend result column) :=
  .write writePath_ok

variable {ignoreConflicts : Bool} {updates : List Bytes}

theorem appendMatched_ok :
    Emits backend result (matchedPieces updates ignoreConflicts)
      (appendMatched result backend updates ignoreConflicts) :=
  .ite (fun _ => .write (.separated appendTargetSource_ok)) fun _ => .done

variable {uniqueBy : List Bytes}

theorem upsertMssql_ok :
    Emits .mssql ⟨.sql, [], []⟩ (mergePieces table rows keys uniqueBy updates ignoreConflicts)
      (upsertMssql table rows keys uniqueBy updates ignoreConflicts) := by
  refine .start (.bind writePath_ok fun _ => .write ?_)
  refine .bind appendRows_ok fun _ => .write (.bind appendPaths_ok fun _ => .write ?_)
  refine .bind (.separated appendTargetSource_ok) fun _ => .bind appendMatched_ok fun _ => ?_
  refine .write (.bind appendPaths_ok fun _ => .write ?_)
  exact .bind (.separated appendSourceColumn_ok) fun _ => .write .done

theorem appendFromRow_ok {row : Bytes} :
    Emits backend result (fromRowPieces row column) (appendFromRow backend row result column) :=
  .bind writePath_ok fun _ => .write writePath_ok

theorem upsertConflict_ok :
    Emits backend result (conflictPieces uniqueBy updates ignoreConflicts)
      (upsertConflict result backend uniqueBy updates ignoreConflicts) := by
  refine .write (.bind appendPaths_ok fun _ => .ite (fun _ => .write .done) fun _ => .write ?_)
  exact .bind (.separated appendFromRow_ok) fun _ => .write .done

theorem upsertDuplicate_ok :
    Emits backend result (duplicatePieces uniqueBy updates ignoreConflicts)
      (upsertDuplicate result backend uniqueBy updates ignoreConflicts) := by
  refine .ite (fun _ => ?_) fun _ => .write (.bind (.separated appendFromRow_ok) fun _ => ?_)
  · cases uniqueBy with
    | nil => exact .failed
    | cons key others =>
      refine .write (.bind writePath_ok fun _ => .write ?_)
      exact .bind writePath_ok fun _ => .write .done
  · exact .write .done

variable {plan : QueryPlan}

/-- What a plan that may be mutated does not have. -/
theorem ensureMutablePlan_ok (done : ensureMutablePlan plan = .ok ()) :
    plan.joins = [] ∧ plan.groups = [] ∧ plan.having = [] ∧ plan.aggregate = none := by
  unfold ensureMutablePlan at done
  split at done
  · cases done
  · rename_i plain
    simpa only [not_or, not_not] using plain

/-- What `compileInsertMany` refuses, and what it does. -/
theorem compileInsertMany_cases (done : compileInsertMany table rows backend = .ok query) :
    rows ≠ [] ∧ sameAttributes rows (rowKeys rows) = true ∧
      (if backend = .mongodb then insertMongo table rows (rowKeys rows)
        else insertSql table rows (rowKeys rows) backend) = .ok query := by
  unfold compileInsertMany at done
  cases rows with
  | nil => cases done
  | cons first rest =>
    dsimp only at done
    split at done
    · rename_i same
      exact ⟨cons_ne_nil _ _, same, done⟩
    · cases done

/-- The semicolon that an upsert takes away is the one of its insertion. -/
theorem dropSemicolon_extend (backend : Backend) (pieces : Pieces) :
    dropSemicolon ((⟨.sql, [], []⟩ : CompiledQuery).extend backend (pieces ++ [.text (ascii ";")])) =
      (⟨.sql, [], []⟩ : CompiledQuery).extend backend pieces := by
  have semicolon : ascii ";" = [59] := by decide
  simp only [dropSemicolon, CompiledQuery.extend, render_append, values_append, render, values,
    semicolon, append_nil, nil_append]
  rw [getLast?_concat, if_pos rfl, dropLast_concat]

variable {updateColumns : List Bytes}

/-- What `compileUpsert` refuses. -/
theorem compileUpsert_cases
    (done : compileUpsert table rows uniqueBy updateColumns backend ignoreConflicts = .ok query) :
    rows ≠ [] ∧ uniqueBy ≠ [] ∧ sameAttributes rows (rowKeys rows) = true ∧
      (∀ key ∈ uniqueBy, key ∈ (rows.headD ∅).keys) ∧
      (match backend with
      | .mongodb => upsertMongo table rows (rowKeys rows) uniqueBy ignoreConflicts
      | .mssql => upsertMssql table rows (rowKeys rows) uniqueBy
          (upsertUpdates (rowKeys rows) uniqueBy updateColumns ignoreConflicts) ignoreConflicts
      | _ => upsertInsert table rows uniqueBy
          (upsertUpdates (rowKeys rows) uniqueBy updateColumns ignoreConflicts) backend
          ignoreConflicts) = .ok query := by
  unfold compileUpsert at done
  cases rows with
  | nil => cases done
  | cons first rest =>
    dsimp only at done
    split at done
    · cases done
    · rename_i keyed
      split at done
      · cases done
      · rename_i same
        split at done
        · cases done
        · rename_i present
          have agreed : sameAttributes (first :: rest) (sortedKeys first) = true := by
            simpa using same
          refine ⟨cons_ne_nil _ _, keyed, agreed, fun key member => ?_, done⟩
          by_contra absent
          exact present (any_eq_true.mpr ⟨key, member, decide_eq_true absent⟩)

section

variable (sql : backend ≠ .mongodb)
include sql

theorem compileUpdateWhere_ok {assigned : AttributeMap} :
    Emits backend ⟨.sql, [], []⟩ (updatePieces plan assigned)
      (compileUpdateWhere plan assigned backend) := by
  simp only [updatePieces, updateHead, restrictedPieces, tablePieces, append_assoc, cons_append]
  refine .checked ?_
  split
  · exact .failed
  · refine .start (.bind writePath_ok fun _ => .write ?_)
    refine .bind (.separated appendAssignment_ok) fun _ => .bind appendWhereSql_ok fun _ => ?_
    exact .write .done

theorem compileDeleteWhere_ok :
    Emits backend ⟨.sql, [], []⟩ (deletePieces plan) (compileDeleteWhere plan backend) := by
  refine .checked ?_
  rw [if_neg sql]
  refine .start (.bind writePath_ok fun _ => .bind appendWhereSql_ok fun _ => ?_)
  exact .write .done

theorem compileIncrementWhere_ok {amount : UInt64} :
    Emits backend ⟨.sql, [], []⟩ (incrementPieces plan column amount)
      (compileIncrementWhere plan column amount backend) := by
  simp only [incrementPieces, incrementHead, restrictedPieces, tablePieces, append_assoc,
    cons_append, nil_append]
  refine .checked ?_
  rw [if_neg sql]
  refine .start (.bind writePath_ok fun _ => .write ?_)
  refine .bind writePath_ok fun _ => .write (.bind writePath_ok fun _ => .write ?_)
  exact .place (.bind appendWhereSql_ok fun _ => .write .done)

theorem compileInsertMany_ok :
    Emits backend ⟨.sql, [], []⟩ (insertPieces table rows (rowKeys rows))
      (compileInsertMany table rows backend) := by
  intro query done
  obtain ⟨_, _, inserted⟩ := compileInsertMany_cases done
  rw [if_neg sql] at inserted
  exact insertSql_ok _ inserted

theorem upsertInsert_ok :
    Emits backend ⟨.sql, [], []⟩ (insertHead table rows (rowKeys rows) ++
        if backend = .postgresql ∨ backend = .sqlite then
          conflictPieces uniqueBy updates ignoreConflicts
        else duplicatePieces uniqueBy updates ignoreConflicts)
      (upsertInsert table rows uniqueBy updates backend ignoreConflicts) := by
  intro query done
  obtain ⟨insertion, inserting, written⟩ := bind_eq_ok.mp done
  rw [compileInsertMany_ok sql _ inserting, insertPieces, dropSemicolon_extend] at written
  refine Emits.behind ?_ query written
  exact .ite (fun _ => upsertConflict_ok) fun _ => upsertDuplicate_ok

theorem compileUpsert_ok :
    Emits backend ⟨.sql, [], []⟩
      (upsertPieces table rows uniqueBy updateColumns backend ignoreConflicts)
      (compileUpsert table rows uniqueBy updateColumns backend ignoreConflicts) := by
  intro query done
  obtain ⟨_, _, _, _, upserted⟩ := compileUpsert_cases done
  cases backend with
  | mongodb => exact absurd rfl sql
  | mssql => exact upsertMssql_ok _ upserted
  | sqlite | postgresql | mysql => exact upsertInsert_ok sql _ upserted

end

end Compiled

/-! ## Reading the statements -/

section Reading

theorem plain_table {words : List Bytes} {opening : Bytes} (table : Bytes)
    (check : plainText words true true opening = true) :
    Plain words true false (tablePieces opening table) :=
  (Plain.path _).lead check

theorem plain_restricted {head : Pieces} (plain : Plain clauseWords true false head)
    (plan : QueryPlan) : Plain [] true false (head ++ restrictedPieces plan) :=
  (plain.mono (nil_subset _)).append
    (((plain_where [] plan.predicates).mono (nil_subset _)).append (Plain.text rfl))

variable (plan : QueryPlan)

theorem plain_updateHead (values : AttributeMap) :
    Plain clauseWords true false (updateHead plan values) := by
  refine (plain_table _ ?_).append ((Plain.listed (fun key => (Plain.path _).append
    ((Plain.value (cell values key)).lead ?_)) (sortedKeys values)).lead ?_) <;> decide

theorem plain_deleteHead : Plain clauseWords true false (deleteHead plan) :=
  plain_table _ rfl

theorem plain_incrementHead (column : Bytes) (amount : UInt64) :
    Plain clauseWords true false (incrementHead plan column amount) := by
  refine (plain_table _ ?_).append (((Plain.path _).append (((Plain.path _).append
    ((Plain.value (AttributeValue.double amount)).lead ?_)).lead ?_)).lead ?_) <;> decide

theorem plain_row (keys : List Bytes) (row : AttributeMap) : Plain [] true false (rowPieces keys row) :=
  ((Plain.listed (fun key => Plain.value (cell row key)) keys).append (Plain.text rfl)).lead rfl

variable (table : Bytes) (rows : List AttributeMap)

theorem plain_insertHead (keys : List Bytes) :
    Plain [] true false (insertHead table rows keys) := by
  refine (plain_table _ ?_).append (((plain_paths keys).append
    ((Plain.listed (plain_row keys) rows).lead ?_)).lead ?_) <;> decide

theorem plain_targetSource (column : Bytes) : Plain [] true false (targetSourcePieces column) :=
  ((Plain.path _).append ((Plain.path _).lead (by decide))).lead rfl

theorem plain_matched (updates : List Bytes) (ignoreConflicts : Bool) :
    Plain [] false false (matchedPieces updates ignoreConflicts) := by
  unfold matchedPieces
  split
  · exact (Plain.listed plain_targetSource updates).lead rfl
  · exact Plain.nil

theorem plain_merge (keys uniqueBy updates : List Bytes) (ignoreConflicts : Bool) :
    Plain [] true false (mergePieces table rows keys uniqueBy updates ignoreConflicts) := by
  have source : ∀ column : Bytes, Plain [] true false (sourcePieces column) :=
    fun column => (Plain.path _).lead rfl
  have inserted : Plain [] false false (.text (ascii " WHEN NOT MATCHED THEN INSERT (") ::
      (pathsPieces keys ++ .text (ascii ") VALUES (") ::
        (separated (fun _ => ascii ", ") sourcePieces keys ++ [.text (ascii ");")]))) := by
    refine ((plain_paths keys).append (((Plain.listed source keys).append
      (Plain.text ?_)).lead ?_)).lead ?_ <;> decide
  refine (plain_table _ ?_).append (((Plain.listed (plain_row keys) rows).append
    (((plain_paths keys).append (((Plain.separated plain_targetSource uniqueBy fun _ => ?_).append
      ((plain_matched updates ignoreConflicts).append inserted)).lead ?_)).lead ?_)).lead ?_) <;> decide

theorem plain_fromRow {row : Bytes} (column : Bytes)
    (check : plainText [] false true (ascii " = " ++ row ++ ascii ".") = true) :
    Plain [] true false (fromRowPieces row column) :=
  (Plain.path _).append ((Plain.path _).lead check)

theorem plain_conflict (uniqueBy updates : List Bytes) (ignoreConflicts : Bool) :
    Plain [] false false (conflictPieces uniqueBy updates ignoreConflicts) := by
  refine ((plain_paths uniqueBy).append ?_).lead rfl
  split
  · exact Plain.text rfl
  · refine ((Plain.listed (fun column => plain_fromRow column ?_) updates).append
      (Plain.text ?_)).lead ?_ <;> decide

theorem plain_duplicate (uniqueBy updates : List Bytes) (ignoreConflicts : Bool) :
    Plain [] false false (duplicatePieces uniqueBy updates ignoreConflicts) := by
  unfold duplicatePieces
  split
  · refine ((Plain.path _).append (((Plain.path _).append (Plain.text ?_)).lead ?_)).lead ?_ <;>
      decide
  · refine ((Plain.listed (fun column => plain_fromRow column ?_) updates).append
      (Plain.text ?_)).lead ?_ <;> decide

theorem plain_upsert (uniqueBy updateColumns : List Bytes) (backend : Backend)
    (ignoreConflicts : Bool) :
    Plain [] true false (upsertPieces table rows uniqueBy updateColumns backend ignoreConflicts) := by
  unfold upsertPieces
  split
  · exact plain_merge _ _ _ _ _ _
  · refine (plain_insertHead _ _ _).append ?_
    split
    · exact plain_conflict _ _ _
    · exact plain_duplicate _ _ _

end Reading

end Gungnir.Orm
