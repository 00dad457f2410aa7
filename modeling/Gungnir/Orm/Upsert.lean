import Gungnir.Library.Merge
import Gungnir.Orm.Meaning
import Gungnir.Orm.Alignment

/-!
# What an upsert does to a table

The compilers write one of four statements: an insertion with a conflict clause, one with
a duplicate-key clause, a merge, or a list of document updates. Each is given the meaning
that its engine documents, on a table with one unique set of columns.
-/

namespace Gungnir.Orm

open Gungnir.Core Gungnir.Library Gungnir.Library.Sql

/-! ## Statements -/

/-- Rows of values for some columns. -/
structure Insertion where
  columns : List Bytes
  tuples : List (List AttributeValue)

inductive UpsertStatement where
  /-- `INSERT … ON CONFLICT (target) DO UPDATE SET …`, or `DO NOTHING` if nothing is assigned. -/
  | onConflict (insertion : Insertion) (target assigned : List Bytes)
  /-- `INSERT … ON DUPLICATE KEY UPDATE …` from the new row. -/
  | onDuplicate (insertion : Insertion) (assigned : List Bytes)
  /-- `INSERT … ON DUPLICATE KEY UPDATE key = key`. -/
  | onDuplicateKeep (insertion : Insertion) (key : Bytes)
  /-- `MERGE … ON target …`, without an update if nothing is assigned. -/
  | merge (source : Insertion) (target assigned : List Bytes)

def tuplePieces (tuple : List AttributeValue) : Pieces :=
  .text (ascii "(") :: (separated (fun _ => ascii ", ") (fun value => [.value value]) tuple ++
    [.text (ascii ")")])

variable (insertion : Insertion)

def Insertion.valuesPieces : Pieces :=
  separated (fun _ => ascii ", ") tuplePieces insertion.tuples

def Insertion.headPieces (table : Bytes) (insertion : Insertion) : Pieces :=
  tablePieces (ascii "INSERT INTO ") table ++ .text (ascii " (") :: (pathsPieces insertion.columns ++
    .text (ascii ") VALUES ") :: insertion.valuesPieces)

/-- The text of a statement. -/
def UpsertStatement.pieces (table : Bytes) : UpsertStatement → Pieces
  | .onConflict insertion target assigned =>
    insertion.headPieces table ++ conflictPieces target assigned false
  | .onDuplicate insertion assigned =>
    insertion.headPieces table ++ (.text (ascii " AS gungnir_new ON DUPLICATE KEY UPDATE ") ::
      (separated (fun _ => ascii ", ") (fromRowPieces (ascii "gungnir_new")) assigned ++
        [.text (ascii ";")]))
  | .onDuplicateKeep insertion key =>
    insertion.headPieces table ++ (.text (ascii " ON DUPLICATE KEY UPDATE ") ::
      (pathPieces (segments key) ++ .text (ascii " = ") ::
        (pathPieces (segments key) ++ [.text (ascii ";")])))
  | .merge source target assigned =>
    tablePieces (ascii "MERGE INTO ") table ++ .text (ascii " AS target USING (VALUES ") ::
      (source.valuesPieces ++ .text (ascii ") AS source (") :: (pathsPieces source.columns ++
        .text (ascii ") ON ") :: (separated (fun _ => ascii " AND ") targetSourcePieces target ++
          (matchedPieces assigned false ++
            .text (ascii " WHEN NOT MATCHED THEN INSERT (") :: (pathsPieces source.columns ++
              .text (ascii ") VALUES (") ::
                (separated (fun _ => ascii ", ") sourcePieces source.columns ++
                  [.text (ascii ");")]))))))

variable (rows : List AttributeMap)

def insertionOf : Insertion :=
  ⟨rowKeys rows, rows.map fun row => (rowKeys rows).map (cell row)⟩

/-- The columns that an upsert updates in an existing row. -/
def updatedColumns (uniqueBy updateColumns : List Bytes) (ignoreConflicts : Bool) : List Bytes :=
  if ignoreConflicts then [] else upsertUpdates (rowKeys rows) uniqueBy updateColumns ignoreConflicts

def upsertStatement (uniqueBy updateColumns : List Bytes) (ignoreConflicts : Bool)
    (backend : Backend) : UpsertStatement :=
  let updated := updatedColumns rows uniqueBy updateColumns ignoreConflicts
  match backend with
  | .mssql => .merge (insertionOf rows) uniqueBy updated
  | .mysql =>
    if updated = [] then .onDuplicateKeep (insertionOf rows) (uniqueBy.headD [])
    else .onDuplicate (insertionOf rows) updated
  | _ => .onConflict (insertionOf rows) uniqueBy updated

section Text

variable {table : Bytes} {rows : List AttributeMap} {uniqueBy updateColumns : List Bytes}
  {ignoreConflicts : Bool} {backend : Backend}

theorem valuesPieces_insertionOf : (insertionOf rows).valuesPieces = rowsPieces (rowKeys rows) rows := by
  unfold Insertion.valuesPieces insertionOf rowsPieces
  rw [separated_map]
  congr 1
  funext row
  show tuplePieces ((rowKeys rows).map (cell row)) = rowPieces (rowKeys rows) row
  rw [tuplePieces, separated_map]
  rfl

theorem headPieces_insertionOf :
    (insertionOf rows).headPieces table = insertHead table rows (rowKeys rows) := by
  rw [Insertion.headPieces, valuesPieces_insertionOf]
  rfl

theorem pieces_upsertStatement (sql : backend ≠ .mongodb) :
    (upsertStatement rows uniqueBy updateColumns ignoreConflicts backend).pieces table =
      upsertPieces table rows uniqueBy updateColumns backend ignoreConflicts := by
  have conflicts : ∀ updates, conflictPieces uniqueBy (if ignoreConflicts then [] else updates) false =
      conflictPieces uniqueBy updates ignoreConflicts := by
    intro updates
    cases ignoreConflicts with
    | true => rfl
    | false => rfl
  have matched : ∀ updates, matchedPieces (if ignoreConflicts then [] else updates) false =
      matchedPieces updates ignoreConflicts := by
    intro updates
    cases ignoreConflicts with
    | true => rfl
    | false => rfl
  unfold upsertStatement upsertPieces updatedColumns
  cases backend with
  | mongodb => exact absurd rfl sql
  | mssql =>
    simp only [UpsertStatement.pieces, valuesPieces_insertionOf, matched]
    rfl
  | sqlite | postgresql =>
    simp only [UpsertStatement.pieces, headPieces_insertionOf, conflicts]
    rfl
  | mysql =>
    have head := @headPieces_insertionOf table rows
    cases ignoreConflicts with
    | true => exact congrArg (· ++ _) head
    | false =>
      by_cases none : upsertUpdates (rowKeys rows) uniqueBy updateColumns false = []
      · simp only [none, duplicatePieces, Bool.false_eq_true, reduceCtorEq, or_self, or_true,
          if_false, if_true]
        exact congrArg (· ++ _) head
      · simp only [none, duplicatePieces, Bool.false_eq_true, reduceCtorEq, or_self, if_false]
        exact congrArg (· ++ _) head

end Text

/-! ## Tables -/

abbrev Row := Bytes → AttributeValue

/-- The values given for some columns. -/
abbrev Given := List (Bytes × AttributeValue)

/-- What a table stores in the columns that are not given. -/
abbrev Defaults := Given → Row

variable (defaults : Defaults)

def storedRow (given : Given) : Row :=
  fun column => (given.lookup column).getD (defaults given column)

/-- A given row has the key of a stored one. No key is equal to `NULL`. -/
def sameKey (unique : List Bytes) (first second : Row) : Bool :=
  unique.all fun column => !(first column).isNull && first column = second column

def assignColumns (assigned : List Bytes) (given : Given) (old : Row) : Row :=
  fun column => if column ∈ assigned then storedRow defaults given column else old column

def Insertion.givens : List Given :=
  insertion.tuples.map insertion.columns.zip

/-- The rows of an insertion one after the other. -/
def Insertion.execute (defaults : Defaults) (unique assigned : List Bytes)
    (content : List Row) : List Row :=
  insertion.givens.foldl (Merge.put (fun given => sameKey unique (storedRow defaults given))
    (storedRow defaults) (assignColumns defaults assigned)) content

/-- The effect of a statement on a table with one unique set of columns; `none` if the
engine refuses it. SQLite finds no unique set for a target that lists a column twice,
PostgreSQL and SQL Server refuse two assignments of one column, and a merge can only use
the columns of its source. -/
def UpsertStatement.execute (backend : Backend) (defaults : Defaults) (unique : List Bytes)
    (content : List Row) : UpsertStatement → Option (List Row)
  | .onConflict insertion target assigned =>
    if backend = .sqlite ∧ ¬ target.Nodup ∨ backend = .postgresql ∧ ¬ assigned.Nodup then none
    else some (insertion.execute defaults target assigned content)
  | .onDuplicate insertion assigned => some (insertion.execute defaults unique assigned content)
  | .onDuplicateKeep insertion _ => some (insertion.execute defaults unique [] content)
  | .merge source target assigned =>
    if assigned.Nodup ∧ assigned ⊆ source.columns ∧ target ⊆ source.columns then
      some (Merge.merge (fun given => sameKey target (storedRow defaults given))
        (storedRow defaults) (assignColumns defaults assigned) content source.givens)
    else none

/-! ## Collections -/

/-- A collection is seen as a table: the field `_id` is the column `id`. -/
def columnOf (field : Bytes) : Bytes := if field = ascii "_id" then ascii "id" else field

def Document.givens : Document → Given
  | .object fields => fields.filterMap fun field =>
    match field.2 with
    | .value bound => some (columnOf field.1, bound)
    | _ => none
  | _ => []

structure DocumentUpdate where
  filter : Given
  onInsert : Bool
  fields : Given

def documentUpdate (command : Document) : Option DocumentUpdate := do
  let filter ← command.field (ascii "q")
  let update ← command.field (ascii "u")
  match update.field (ascii "$set"), update.field (ascii "$setOnInsert") with
  | some fields, none => some ⟨Document.givens filter, false, Document.givens fields⟩
  | none, some fields => some ⟨Document.givens filter, true, Document.givens fields⟩
  | _, _ => none

variable (update : DocumentUpdate)

/-- A null selects the documents without the field too. -/
def DocumentUpdate.meets (old : Row) : Bool :=
  update.filter.all fun field =>
    decide (old field.1 = field.2) || (field.2.isNull && (old field.1).isNull)

def DocumentUpdate.make : Row := fun column =>
  ((update.fields.lookup column).or (update.filter.lookup column)).getD
    (defaults update.fields column)

/-- The field `_id` of a document cannot be changed. -/
def DocumentUpdate.change (old : Row) : Option Row :=
  if update.onInsert then some old
  else if (update.fields.lookup (ascii "id")).any (· ≠ old (ascii "id")) then none
  else some fun column => (update.fields.lookup column).getD (old column)

def DocumentUpdate.givenId : Option AttributeValue :=
  (update.fields.lookup (ascii "id")).or (update.filter.lookup (ascii "id"))

/-- The update would add a document with the `_id` of another one. -/
def DocumentUpdate.collides (content : List Row) : Bool :=
  !content.any update.meets && content.any fun old => update.givenId = some (old (ascii "id"))

/-- An update changes the first document that it selects, or adds one. -/
def DocumentUpdate.apply (content : List Row) : Option (List Row) :=
  if update.collides content then none
  else Merge.putFirst DocumentUpdate.meets (DocumentUpdate.make defaults) DocumentUpdate.change
    content update

/-- The effect of a command on a collection. -/
def executeUpdates (command : Document) (content : List Row) : Option (List Row) := do
  let updates ← match command.field (ascii "updates") with
    | some (.array updates) => updates.mapM documentUpdate
    | _ => none
  updates.foldlM (fun content update => update.apply defaults content) content

/-- The effect of an upsert on the unique columns. -/
def executeUpsert (table : Bytes) (rows : List AttributeMap) (uniqueBy updateColumns : List Bytes)
    (ignoreConflicts : Bool) (defaults : Defaults) (backend : Backend) (content : List Row) :
    Option (List Row) :=
  if backend = .mongodb then
    executeUpdates defaults (upsertJson table rows (rowKeys rows) uniqueBy ignoreConflicts) content
  else
    (upsertStatement rows uniqueBy updateColumns ignoreConflicts backend).execute backend defaults
      uniqueBy content

/-! ## What an upsert is for -/

def cells (columns : List Bytes) (row : AttributeMap) : Given :=
  columns.map fun column => (column, cell row column)

/-- A row whose key is absent is inserted, a row whose key is present is changed in the
updated columns. -/
def upserted (rows : List AttributeMap) (uniqueBy updated : List Bytes) (defaults : Defaults)
    (content : List Row) : List Row :=
  Merge.merge (fun row => sameKey uniqueBy (storedRow defaults (cells (rowKeys rows) row)))
    (fun row => storedRow defaults (cells (rowKeys rows) row))
    (fun row => assignColumns defaults updated (cells (rowKeys rows) row)) content rows

def UniqueKeys (uniqueBy : List Bytes) (content : List Row) : Prop :=
  content.Pairwise fun first second => sameKey uniqueBy first second = false

end Gungnir.Orm
