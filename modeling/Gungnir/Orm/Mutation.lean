import Gungnir.Orm.Compiler

/-!
# Compilation of bulk mutations

Updates, deletions and increments of the rows a plan selects, insertion of many rows,
and upserts. The emitters of predicates read the first value of a comparison without
looking whether there is one; a call without a value is undefined and stops the model.
The operands of one string concatenation are evaluated from left to right here; the
language leaves their order open, and with it only which of two exceptions is thrown
and which of two bindings comes first.
-/

namespace Gungnir.Orm

open Gungnir.Core

def mutationChecks : PredicateChecks := ⟨.undefinedBehavior, none⟩

variable (plan : QueryPlan)

def ensureMutablePlan : Except Exception Unit :=
  if plan.joins ≠ [] ∨ plan.groups ≠ [] ∨ plan.having ≠ [] ∨ plan.aggregate ≠ none then
    .error (.logicError
      "Bulk mutation cannot be combined with joins, groups, having, or aggregates")
  else .ok ()

variable (result : CompiledQuery) (backend : Backend) (predicates : List Predicate)

def appendWhereList : Except Exception CompiledQuery :=
  appendSeparated connectorText
    (fun result predicate => appendPredicate mutationChecks result backend predicate)
    (result.write (ascii " WHERE ")) predicates

/-- The user's part is emitted into a statement of its own, which continues the bindings,
and is copied without its leading ` WHERE `. -/
def appendWhereSql (backend : Backend) : Except Exception CompiledQuery :=
  if predicates = [] then .ok result
  else if isMixed predicates then do
    let result ← appendWhereList result backend (protectedPart predicates)
    if userPart predicates = [] then .ok result
    else do
      let nested ← appendWhereList { bindings := result.bindings } backend (userPart predicates)
      .ok { result with
        text := result.text ++ (ascii " AND (" ++ nested.text.drop 7 ++ ascii ")")
        bindings := nested.bindings }
  else appendWhereList result backend predicates

def mutationFilter : Except Exception (Bound Bytes) :=
  mongoFilterWith mutationChecks.missingValue plan.predicates []

variable (row : AttributeMap)

def sortedKeys : List Bytes := row.keys.insertionSort (· ≤ ·)

/-- `std::unordered_map::at`. -/
def valueAt (key : Bytes) : Except Exception AttributeValue :=
  match row.lookup key with
  | some value => .ok value
  | none => .error (.outOfRange "unordered_map::at")

def mongoAssignment (bindings : List AttributeValue) (key : Bytes) :
    Except Exception (Bound Bytes) := do
  let field ← mongoField key
  let value ← valueAt row key
  let operand := mongoBind bindings value
  .ok (ascii "\"" ++ field ++ ascii "\":" ++ operand.1, operand.2)

def mongoAssignments (bindings : List AttributeValue) (keys : List Bytes) :
    Except Exception (Bound Bytes) :=
  joinCommas (mongoAssignment row) bindings keys

/-! ## Mutations of selected rows -/

variable (table : Bytes)

/-- The update command around its filter and its update document. -/
def mongoUpdate (filter update : Bytes) : Bytes :=
  ascii "\x7b\"update\":\"" ++ table ++ ascii "\",\"updates\":[\x7b\"q\":" ++ filter ++
    ascii ",\"u\":" ++ update ++ ascii ",\"multi\":true\x7d]\x7d"

def appendAssignment (values : AttributeMap) (result : CompiledQuery) (key : Bytes) :
    Except Exception CompiledQuery := do
  let result ← result.writePath backend key
  let value ← valueAt values key
  .ok ((result.write (ascii " = ")).place backend value)

def compileUpdateWhere (values : AttributeMap) (backend : Backend) :
    Except Exception CompiledQuery := do
  ensureMutablePlan plan
  if values.keys = [] then .error (.invalidArgument "ORM bulk update requires at least one value")
  else if backend = .mongodb then do
    let filter ← mutationFilter plan
    let table ← jsonIdentifier plan.table
    let fields ← mongoAssignments values filter.2 (sortedKeys values)
    .ok ⟨.mongodb, mongoUpdate table filter.1
      (ascii "\x7b\"$set\":\x7b" ++ fields.1 ++ ascii "\x7d\x7d"), fields.2⟩
  else do
    let result : CompiledQuery := { kind := .sql, text := ascii "UPDATE " }
    let result ← result.writePath backend plan.table
    let result ← appendSeparated (fun _ => ascii ", ") (appendAssignment backend values)
      (result.write (ascii " SET ")) (sortedKeys values)
    let result ← appendWhereSql result plan.predicates backend
    .ok (result.write (ascii ";"))

def compileDeleteWhere (backend : Backend) : Except Exception CompiledQuery := do
  ensureMutablePlan plan
  if backend = .mongodb then do
    let filter ← mutationFilter plan
    let table ← jsonIdentifier plan.table
    .ok ⟨.mongodb, ascii "\x7b\"delete\":\"" ++ table ++ ascii "\",\"deletes\":[\x7b\"q\":" ++
      filter.1 ++ ascii ",\"limit\":0\x7d]\x7d", filter.2⟩
  else do
    let result : CompiledQuery := { kind := .sql, text := ascii "DELETE FROM " }
    let result ← result.writePath backend plan.table
    let result ← appendWhereSql result plan.predicates backend
    .ok (result.write (ascii ";"))

/-- The amount is a double, kept as its bit pattern. -/
def compileIncrementWhere (column : Bytes) (amount : UInt64) (backend : Backend) :
    Except Exception CompiledQuery := do
  ensureMutablePlan plan
  if backend = .mongodb then do
    let filter ← mutationFilter plan
    let table ← jsonIdentifier plan.table
    let field ← mongoField column
    let operand := mongoBind filter.2 (.double amount)
    .ok ⟨.mongodb, mongoUpdate table filter.1
      (ascii "\x7b\"$inc\":\x7b\"" ++ field ++ ascii "\":" ++ operand.1 ++ ascii "\x7d\x7d"),
      operand.2⟩
  else do
    let result : CompiledQuery := { kind := .sql, text := ascii "UPDATE " }
    let result ← result.writePath backend plan.table
    let result ← (result.write (ascii " SET ")).writePath backend column
    let result ← (result.write (ascii " = ")).writePath backend column
    let result := (result.write (ascii " + ")).place backend (.double amount)
    let result ← appendWhereSql result plan.predicates backend
    .ok (result.write (ascii ";"))

/-! ## Insertion of rows -/

variable (rows : List AttributeMap) (keys : List Bytes)

def sameAttributes : Bool :=
  rows.all fun row => sortedKeys row = keys

def mongoDocument (bindings : List AttributeValue) (row : AttributeMap) :
    Except Exception (Bound Bytes) := do
  let fields ← mongoAssignments row bindings keys
  .ok (ascii "\x7b" ++ fields.1 ++ ascii "\x7d", fields.2)

def appendCell (result : CompiledQuery) (key : Bytes) : Except Exception CompiledQuery := do
  let value ← valueAt row key
  .ok (result.place backend value)

def appendRow (result : CompiledQuery) (row : AttributeMap) : Except Exception CompiledQuery := do
  let result ← appendSeparated (fun _ => ascii ", ") (appendCell backend row)
    (result.write (ascii "(")) keys
  .ok (result.write (ascii ")"))

def appendRows (rows : List AttributeMap) : Except Exception CompiledQuery :=
  appendSeparated (fun _ => ascii ", ") (appendRow backend keys) result rows

def insertMongo : Except Exception CompiledQuery := do
  let table ← jsonIdentifier table
  let documents ← joinCommas (mongoDocument keys) [] rows
  .ok ⟨.mongodb, ascii "\x7b\"insert\":\"" ++ table ++ ascii "\",\"documents\":[" ++ documents.1 ++
    ascii "]\x7d", documents.2⟩

def insertSql (backend : Backend) : Except Exception CompiledQuery := do
  let result : CompiledQuery := { kind := .sql, text := ascii "INSERT INTO " }
  let result ← result.writePath backend table
  let result ← appendPaths (result.write (ascii " (")) backend keys
  let result ← appendRows (result.write (ascii ") VALUES ")) backend keys rows
  .ok (result.write (ascii ";"))

def compileInsertMany (backend : Backend) : Except Exception CompiledQuery :=
  match rows with
  | [] => .error (.invalidArgument "ORM bulk insert requires at least one row")
  | first :: _ =>
    let keys := sortedKeys first
    if sameAttributes rows keys then
      if backend = .mongodb then insertMongo table rows keys else insertSql table rows keys backend
    else .error (.invalidArgument "ORM bulk insert rows must have the same attributes")

/-! ## Upserts -/

variable (uniqueBy : List Bytes) (updateColumns : List Bytes) (ignoreConflicts : Bool)

/-- Without explicit columns an upsert updates all that are not unique keys. -/
def upsertUpdates : List Bytes :=
  if updateColumns = [] ∧ ignoreConflicts = false then keys.filter fun key => key ∉ uniqueBy
  else updateColumns

def mongoUpsertRow (bindings : List AttributeValue) (row : AttributeMap) :
    Except Exception (Bound Bytes) := do
  let unique ← mongoAssignments row bindings uniqueBy
  let fields ← mongoAssignments row unique.2 keys
  .ok (ascii "\x7b\"q\":\x7b" ++ unique.1 ++
    (if ignoreConflicts then ascii "\x7d,\"u\":\x7b\"$setOnInsert\":\x7b"
    else ascii "\x7d,\"u\":\x7b\"$set\":\x7b") ++
    fields.1 ++ ascii "\x7d\x7d,\"upsert\":true,\"multi\":false\x7d", fields.2)

def upsertMongo : Except Exception CompiledQuery := do
  let table ← jsonIdentifier table
  let updates ← joinCommas (mongoUpsertRow keys uniqueBy ignoreConflicts) [] rows
  .ok ⟨.mongodb, ascii "\x7b\"update\":\"" ++ table ++ ascii "\",\"updates\":[" ++ updates.1 ++
    ascii "]\x7d", updates.2⟩

/-- A column of the merge target set to, or compared with, the one of the source. -/
def appendTargetSource (result : CompiledQuery) (column : Bytes) :
    Except Exception CompiledQuery := do
  let result ← (result.write (ascii "target.")).writePath backend column
  (result.write (ascii " = source.")).writePath backend column

def appendSourceColumn (result : CompiledQuery) (column : Bytes) : Except Exception CompiledQuery :=
  (result.write (ascii "source.")).writePath backend column

variable (updates : List Bytes) (ignoreConflicts : Bool)

def appendMatched : Except Exception CompiledQuery :=
  if ignoreConflicts = false ∧ updates ≠ [] then
    appendSeparated (fun _ => ascii ", ") (appendTargetSource backend)
      (result.write (ascii " WHEN MATCHED THEN UPDATE SET ")) updates
  else .ok result

def upsertMssql : Except Exception CompiledQuery := do
  let backend : Backend := .mssql
  let result : CompiledQuery := { kind := .sql, text := ascii "MERGE INTO " }
  let result ← result.writePath backend table
  let result ← appendRows (result.write (ascii " AS target USING (VALUES ")) backend keys rows
  let result ← appendPaths (result.write (ascii ") AS source (")) backend keys
  let result ← appendSeparated (fun _ => ascii " AND ") (appendTargetSource backend)
    (result.write (ascii ") ON ")) uniqueBy
  let result ← appendMatched result backend updates ignoreConflicts
  let result ← appendPaths (result.write (ascii " WHEN NOT MATCHED THEN INSERT (")) backend keys
  let result ← appendSeparated (fun _ => ascii ", ") (appendSourceColumn backend)
    (result.write (ascii ") VALUES (")) keys
  .ok (result.write (ascii ");"))

def dropSemicolon : CompiledQuery :=
  if result.text.getLast? = some 59 then { result with text := result.text.dropLast } else result

/-- A column set to the one of the row that was to be inserted. -/
def appendFromRow (row : Bytes) (result : CompiledQuery) (column : Bytes) :
    Except Exception CompiledQuery := do
  let result ← result.writePath backend column
  (result.write (ascii " = " ++ row ++ ascii ".")).writePath backend column

def upsertConflict : Except Exception CompiledQuery := do
  let result ← appendPaths (result.write (ascii " ON CONFLICT (")) backend uniqueBy
  if ignoreConflicts = true ∨ updates = [] then .ok (result.write (ascii ") DO NOTHING;"))
  else do
    let result ← appendSeparated (fun _ => ascii ", ") (appendFromRow backend (ascii "EXCLUDED"))
      (result.write (ascii ") DO UPDATE SET ")) updates
    .ok (result.write (ascii ";"))

/-- MySQL has no form that does nothing on a conflict. Assigning a key to itself keeps
the existing row. -/
def upsertDuplicate : Except Exception CompiledQuery :=
  if ignoreConflicts = true ∨ updates = [] then
    match uniqueBy with
    | [] => .error .undefinedBehavior
    | key :: _ => do
      let result ← (result.write (ascii " ON DUPLICATE KEY UPDATE ")).writePath backend key
      let result ← (result.write (ascii " = ")).writePath backend key
      .ok (result.write (ascii ";"))
  else do
    let result ← appendSeparated (fun _ => ascii ", ") (appendFromRow backend (ascii "gungnir_new"))
      (result.write (ascii " AS gungnir_new ON DUPLICATE KEY UPDATE ")) updates
    .ok (result.write (ascii ";"))

def upsertInsert (backend : Backend) (ignoreConflicts : Bool) : Except Exception CompiledQuery := do
  let inserted ← compileInsertMany table rows backend
  let result := dropSemicolon inserted
  if backend = .postgresql ∨ backend = .sqlite then
    upsertConflict result backend uniqueBy updates ignoreConflicts
  else upsertDuplicate result backend uniqueBy updates ignoreConflicts

def compileUpsert (backend : Backend) (ignoreConflicts : Bool) : Except Exception CompiledQuery :=
  match rows with
  | [] => .error (.invalidArgument "ORM upsert requires at least one row")
  | first :: _ =>
    let keys := sortedKeys first
    if uniqueBy = [] then
      .error (.invalidArgument "ORM upsert requires at least one unique key")
    else if sameAttributes rows keys = false then
      .error (.invalidArgument "ORM upsert rows must have the same attributes")
    else if uniqueBy.any fun key => key ∉ first.keys then
      .error (.invalidArgument "ORM upsert unique key is missing from row attributes")
    else
      let updates := upsertUpdates keys uniqueBy updateColumns ignoreConflicts
      match backend with
      | .mongodb => upsertMongo table rows keys uniqueBy ignoreConflicts
      | .mssql => upsertMssql table rows keys uniqueBy updates ignoreConflicts
      | _ => upsertInsert table rows uniqueBy updates backend ignoreConflicts

end Gungnir.Orm
