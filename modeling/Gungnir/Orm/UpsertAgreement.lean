import Gungnir.Orm.Upsert

/-!
# Where the backends agree on an upsert

The SQL statements change the updated columns of an existing row. The document updates
set all columns that are given, whatever columns are to be updated, and refuse to set
another `_id` or to give one `_id` to two documents.
-/

namespace Gungnir.Orm

open Gungnir.Core Gungnir.Library List

/-! ## Given rows -/

theorem lookup_cells (columns : List Bytes) (row : AttributeMap) (column : Bytes) :
    (cells columns row).lookup column = if column ∈ columns then some (cell row column) else none := by
  induction columns with
  | nil => rfl
  | cons first rest ih =>
    rw [cells, map_cons, lookup_cons]
    by_cases same : column = first
    · subst same
      rw [if_pos mem_cons_self, beq_self_eq_true]
    · rw [beq_false_of_ne same]
      have others : (column ∈ first :: rest) ↔ column ∈ rest := by simp [same]
      simp only [others]
      exact ih

section Stored

variable (defaults : Defaults) {columns : List Bytes} {column : Bytes} (row : AttributeMap)

theorem storedRow_of_mem (given : column ∈ columns) :
    storedRow defaults (cells columns row) column = cell row column := by
  rw [storedRow, lookup_cells, if_pos given, Option.getD_some]

theorem givens_insertionOf (rows : List AttributeMap) :
    (insertionOf rows).givens = rows.map (cells (rowKeys rows)) := by
  rw [insertionOf, Insertion.givens, map_map]
  apply map_congr_left
  intro row _
  exact map_prod_left_eq_zip.symm

end Stored

theorem sameKey_iff {unique : List Bytes} {first second : Row} :
    sameKey unique first second = true ↔
      ∀ column ∈ unique, (first column).isNull = false ∧ first column = second column := by
  simp [sameKey, all_eq_true]

/-- What an upsert is given: rows that have the conflict columns and differ in them, and no
column under the name by which documents store `id`. -/
structure DistinctRows (rows : List AttributeMap) (uniqueBy : List Bytes) : Prop where
  given : uniqueBy ⊆ rowKeys rows
  distinct : rows.Pairwise fun first second =>
    ∃ column ∈ uniqueBy, cell first column ≠ cell second column
  plain : ∀ column ∈ rowKeys rows, segments column = [column] ∧ column ≠ ascii "_id"

section Sql

variable {rows : List AttributeMap} {uniqueBy : List Bytes} (valid : DistinctRows rows uniqueBy)
  (defaults : Defaults)

include valid

theorem meets_iff (row : AttributeMap) (old : Row) :
    sameKey uniqueBy (storedRow defaults (cells (rowKeys rows) row)) old = true ↔
      ∀ column ∈ uniqueBy, (cell row column).isNull = false ∧ cell row column = old column := by
  rw [sameKey_iff]
  constructor
  · intro same column member
    have here := same column member
    rwa [storedRow_of_mem defaults row (valid.given member)] at here
  · intro same column member
    rw [storedRow_of_mem defaults row (valid.given member)]
    exact same column member

/-- Rows with different keys meet different rows. -/
theorem apart_rows (assigned : List Bytes) :
    Merge.Apart (fun row => sameKey uniqueBy (storedRow defaults (cells (rowKeys rows) row)))
      (fun row => storedRow defaults (cells (rowKeys rows) row))
      (fun row => assignColumns defaults assigned (cells (rowKeys rows) row)) rows where
  once := by
    refine valid.distinct.imp fun {first second} different old met => ?_
    obtain ⟨column, member, different⟩ := different
    apply Bool.eq_false_of_not_eq_true
    intro again
    exact different (((meets_iff valid defaults first old).mp met column member).2.trans
      ((meets_iff valid defaults second old).mp again column member).2.symm)
  made := by
    refine valid.distinct.imp fun {first second} different => ?_
    obtain ⟨column, member, different⟩ := different
    apply Bool.eq_false_of_not_eq_true
    intro met
    have same := ((meets_iff valid defaults second _).mp met column member).2
    rw [storedRow_of_mem defaults first (valid.given member)] at same
    exact different same.symm
  kept := by
    intro new _ other _ old met
    have keeps : ∀ column ∈ uniqueBy,
        assignColumns defaults assigned (cells (rowKeys rows) new) old column = old column := by
      intro column member
      unfold assignColumns
      split
      · rw [storedRow_of_mem defaults new (valid.given member)]
        exact ((meets_iff valid defaults new old).mp met column member).2
      · rfl
    apply Bool.eq_iff_iff.mpr
    rw [meets_iff valid, meets_iff valid]
    exact forall₂_congr fun column member => by rw [keeps column member]

theorem execute_insertionOf (assigned : List Bytes) (content : List Row) :
    (insertionOf rows).execute defaults uniqueBy assigned content =
      upserted rows uniqueBy assigned defaults content := by
  rw [Insertion.execute, givens_insertionOf, foldl_map]
  exact Merge.foldl_put (apart_rows valid defaults assigned) content

theorem execute_merge {assigned : List Bytes} (once : assigned.Nodup)
    (within : assigned ⊆ rowKeys rows) (backend : Backend) (content : List Row) :
    (UpsertStatement.merge (insertionOf rows) uniqueBy assigned).execute backend defaults uniqueBy
      content = some (upserted rows uniqueBy assigned defaults content) := by
  have columns : (insertionOf rows).columns = rowKeys rows := rfl
  rw [UpsertStatement.execute, columns, if_pos ⟨once, within, valid.given⟩, givens_insertionOf,
    Merge.merge_map]
  rfl

theorem execute_upsertStatement {updateColumns : List Bytes} {ignoreConflicts : Bool}
    (target : uniqueBy.Nodup)
    (once : (updatedColumns rows uniqueBy updateColumns ignoreConflicts).Nodup)
    (within : updatedColumns rows uniqueBy updateColumns ignoreConflicts ⊆ rowKeys rows)
    (backend : Backend) (content : List Row) :
    (upsertStatement rows uniqueBy updateColumns ignoreConflicts backend).execute backend defaults
      uniqueBy content = some (upserted rows uniqueBy
        (updatedColumns rows uniqueBy updateColumns ignoreConflicts) defaults content) := by
  have conflict : (UpsertStatement.onConflict (insertionOf rows) uniqueBy
      (updatedColumns rows uniqueBy updateColumns ignoreConflicts)).execute backend defaults
        uniqueBy content = some (upserted rows uniqueBy
          (updatedColumns rows uniqueBy updateColumns ignoreConflicts) defaults content) := by
    rw [UpsertStatement.execute, if_neg, execute_insertionOf valid]
    rintro (⟨_, twice⟩ | ⟨_, twice⟩)
    · exact twice target
    · exact twice once
  unfold upsertStatement
  cases backend with
  | mssql => exact execute_merge valid defaults once within _ content
  | mysql =>
    dsimp only
    split
    · rename_i nothing
      rw [UpsertStatement.execute, execute_insertionOf valid, nothing]
    · rw [UpsertStatement.execute, execute_insertionOf valid]
  | sqlite | postgresql | mongodb => exact conflict

end Sql

/-! ## Document updates -/

def updateOf (rows : List AttributeMap) (uniqueBy : List Bytes) (ignoreConflicts : Bool)
    (row : AttributeMap) : DocumentUpdate :=
  ⟨cells uniqueBy row, ignoreConflicts, cells (rowKeys rows) row⟩

/-- The columns that the document updates assign. -/
def documentColumns (rows : List AttributeMap) (ignoreConflicts : Bool) : List Bytes :=
  if ignoreConflicts then [] else rowKeys rows

theorem columnOf_mongoName {column : Bytes} (plain : column ≠ ascii "_id") :
    columnOf (mongoName column) = column := by
  unfold columnOf mongoName
  split <;> simp_all

theorem givens_assignmentFields {columns : List Bytes} (row : AttributeMap)
    (plain : ∀ column ∈ columns, column ≠ ascii "_id") :
    Document.givens (.object (assignmentFields row columns)) = cells columns row := by
  rw [Document.givens, assignmentFields, filterMap_map, cells, ← filterMap_eq_map]
  apply filterMap_congr
  intro column member
  show some (columnOf (mongoName column), cell row column) = some (column, cell row column)
  rw [columnOf_mongoName (plain column member)]

section Documents

variable {rows : List AttributeMap} {uniqueBy : List Bytes} (valid : DistinctRows rows uniqueBy)
  (defaults : Defaults) {ignoreConflicts : Bool}

include valid

theorem documentUpdate_upsertRowJson (row : AttributeMap) :
    documentUpdate (upsertRowJson (rowKeys rows) uniqueBy ignoreConflicts row) =
      some (updateOf rows uniqueBy ignoreConflicts row) := by
  have unique := givens_assignmentFields row fun column member =>
    (valid.plain column (valid.given member)).2
  have fields := givens_assignmentFields row fun column member => (valid.plain column member).2
  unfold updateOf
  rw [← unique, ← fields]
  cases ignoreConflicts <;> rfl

theorem executeUpdates_upsertJson (table : Bytes) (content : List Row) :
    executeUpdates defaults (upsertJson table rows (rowKeys rows) uniqueBy ignoreConflicts) content =
      rows.foldlM (fun content row => (updateOf rows uniqueBy ignoreConflicts row).apply defaults
        content) content := by
  have updates : (rows.map (upsertRowJson (rowKeys rows) uniqueBy ignoreConflicts)).mapM
      documentUpdate = some (rows.map (updateOf rows uniqueBy ignoreConflicts)) := by
    have each : documentUpdate ∘ upsertRowJson (rowKeys rows) uniqueBy ignoreConflicts =
        fun row => pure (updateOf rows uniqueBy ignoreConflicts row) :=
      funext (documentUpdate_upsertRowJson valid)
    rw [mapM_map, each, mapM_pure]
    rfl
  show ((rows.map (upsertRowJson (rowKeys rows) uniqueBy ignoreConflicts)).mapM documentUpdate).bind
    _ = _
  rw [updates, Option.bind_some]
  show (rows.map (updateOf rows uniqueBy ignoreConflicts)).foldlM _ content = _
  rw [foldlM_map]

variable {row : AttributeMap}

omit valid in
theorem meets_updateOf_iff {old : Row} :
    (updateOf rows uniqueBy ignoreConflicts row).meets old = true ↔
      ∀ column ∈ uniqueBy, old column = cell row column ∨
        (cell row column).isNull = true ∧ (old column).isNull = true := by
  rw [DocumentUpdate.meets, updateOf, cells, all_map, all_eq_true]
  simp

/-- Without nulls an update selects the rows with the key of its row. -/
theorem meets_updateOf (present : ∀ column ∈ uniqueBy, (cell row column).isNull = false) :
    (updateOf rows uniqueBy ignoreConflicts row).meets =
      sameKey uniqueBy (storedRow defaults (cells (rowKeys rows) row)) := by
  funext old
  apply Bool.eq_iff_iff.mpr
  rw [meets_iff valid, meets_updateOf_iff]
  refine forall₂_congr fun column member => ?_
  simp [present column member, @eq_comm _ (old column)]

/-- The key of a row gives no further columns. -/
theorem lookup_updateOf (row : AttributeMap) (column : Bytes) :
    ((cells (rowKeys rows) row).lookup column).or ((cells uniqueBy row).lookup column) =
      (cells (rowKeys rows) row).lookup column := by
  rw [lookup_cells, lookup_cells]
  by_cases given : column ∈ rowKeys rows
  · rw [if_pos given, Option.some_or]
  · rw [if_neg given, if_neg fun member => given (valid.given member), Option.none_or]

theorem make_updateOf (row : AttributeMap) :
    (updateOf rows uniqueBy ignoreConflicts row).make defaults =
      storedRow defaults (cells (rowKeys rows) row) := by
  funext column
  rw [DocumentUpdate.make, updateOf, lookup_updateOf valid]
  rfl

omit valid in
theorem assign_updateOf (row : AttributeMap) (old : Row) :
    (fun column => ((cells (rowKeys rows) row).lookup column).getD (old column)) =
      assignColumns defaults (rowKeys rows) (cells (rowKeys rows) row) old := by
  funext column
  rw [lookup_cells, assignColumns]
  split
  · rename_i given
    rw [storedRow_of_mem defaults row given, Option.getD_some]
  · rfl

theorem givenId_updateOf (row : AttributeMap) :
    (updateOf rows uniqueBy ignoreConflicts row).givenId =
      if ascii "id" ∈ rowKeys rows then some (cell row (ascii "id")) else none := by
  rw [DocumentUpdate.givenId, updateOf, lookup_updateOf valid, lookup_cells]

section

variable (fixed : ascii "id" ∈ rowKeys rows → uniqueBy = [ascii "id"])
include fixed

/-- If the `_id` is the whole key, a document with the same one is selected. -/
theorem collides_updateOf (row : AttributeMap) (content : List Row) :
    (updateOf rows uniqueBy ignoreConflicts row).collides content = false := by
  apply Bool.eq_false_of_not_eq_true
  intro collides
  rw [DocumentUpdate.collides, Bool.and_eq_true, Bool.not_eq_true', givenId_updateOf valid] at collides
  obtain ⟨unmet, taken⟩ := collides
  obtain ⟨old, member, same⟩ := any_eq_true.mp taken
  split at same
  · rename_i given
    have same := Option.some.inj (of_decide_eq_true same)
    refine Bool.eq_false_iff.mp unmet (any_eq_true.mpr ⟨old, member, meets_updateOf_iff.mpr ?_⟩)
    intro column inUnique
    rw [fixed given, mem_singleton] at inUnique
    exact Or.inl (inUnique ▸ same.symm)
  · cases of_decide_eq_true same

theorem apply_updateOf (present : ∀ column ∈ uniqueBy, (cell row column).isNull = false)
    (content : List Row) :
    (updateOf rows uniqueBy ignoreConflicts row).apply defaults content =
      Merge.putFirst (fun row => sameKey uniqueBy (storedRow defaults (cells (rowKeys rows) row)))
        (fun row => storedRow defaults (cells (rowKeys rows) row))
        (fun row => (updateOf rows uniqueBy ignoreConflicts row).change) content row := by
  rw [DocumentUpdate.apply, collides_updateOf valid fixed, if_neg Bool.false_ne_true,
    Merge.putFirst_image]
  exact Merge.putFirst_congr (meets_updateOf valid defaults present) (make_updateOf valid defaults row)
    _ content

theorem change_updateOf {old : Row}
    (met : sameKey uniqueBy (storedRow defaults (cells (rowKeys rows) row)) old = true) :
    (updateOf rows uniqueBy ignoreConflicts row).change old = some (assignColumns defaults
      (documentColumns rows ignoreConflicts) (cells (rowKeys rows) row) old) := by
  unfold DocumentUpdate.change updateOf documentColumns
  cases ignoreConflicts with
  | true => rfl
  | false =>
    rw [if_neg Bool.false_ne_true, if_neg, assign_updateOf defaults]
    · rfl
    · rw [lookup_cells]
      split
      · rename_i given
        have same := (meets_iff valid defaults row old).mp met (ascii "id")
          (fixed given ▸ mem_singleton_self _)
        simp [same.2]
      · exact Bool.false_ne_true

omit valid fixed in
theorem single_of_uniqueKeys {content : List Row} (unique : UniqueKeys uniqueBy content) (key : Row) :
    Merge.Single (sameKey uniqueBy) content key := by
  refine Pairwise.imp (fun {first second} different met => ?_) unique
  apply Bool.eq_false_of_not_eq_true
  intro again
  apply Bool.eq_false_iff.mp different
  rw [sameKey_iff] at met again ⊢
  intro column member
  rw [← (met column member).2, ← (again column member).2]
  exact ⟨(met column member).1, rfl⟩

/-- The document updates change all the columns that are given. -/
theorem executeUpdates_eq
    (present : ∀ row ∈ rows, ∀ column ∈ uniqueBy, (cell row column).isNull = false)
    (table : Bytes) {content : List Row} (unique : UniqueKeys uniqueBy content) :
    executeUpdates defaults (upsertJson table rows (rowKeys rows) uniqueBy ignoreConflicts) content =
      some (upserted rows uniqueBy (documentColumns rows ignoreConflicts) defaults content) := by
  rw [executeUpdates_upsertJson valid,
    Merge.foldlM_congr fun row member => apply_updateOf valid defaults fixed (present row member)]
  apply Merge.foldlM_putFirst (apart_rows valid defaults _)
  · exact fun row _ old met => change_updateOf valid defaults fixed met
  · exact fun row _ => single_of_uniqueKeys unique _

end

end Documents

/-! ## Agreement -/

/-- No key has a null or names a column twice, what is given beside the key is what is
updated, and an `_id` is the whole key. -/
structure UpsertAgreeable (rows : List AttributeMap) (uniqueBy updateColumns : List Bytes)
    (ignoreConflicts : Bool) : Prop where
  present : ∀ row ∈ rows, ∀ column ∈ uniqueBy, (cell row column).isNull = false
  target : uniqueBy.Nodup
  once : (updatedColumns rows uniqueBy updateColumns ignoreConflicts).Nodup
  within : updatedColumns rows uniqueBy updateColumns ignoreConflicts ⊆ rowKeys rows
  covered : ignoreConflicts = false → ∀ column ∈ rowKeys rows,
    column ∈ uniqueBy ∨ column ∈ updatedColumns rows uniqueBy updateColumns ignoreConflicts
  fixed : ascii "id" ∈ rowKeys rows → uniqueBy = [ascii "id"]

section Agreement

variable {table : Bytes} {rows : List AttributeMap} {uniqueBy updateColumns : List Bytes}
  {ignoreConflicts : Bool} (valid : DistinctRows rows uniqueBy) (defaults : Defaults)

include valid

section

variable (agreeable : UpsertAgreeable rows uniqueBy updateColumns ignoreConflicts)
include agreeable

theorem upserted_documentColumns (content : List Row) :
    upserted rows uniqueBy (documentColumns rows ignoreConflicts) defaults content =
      upserted rows uniqueBy (updatedColumns rows uniqueBy updateColumns ignoreConflicts) defaults
        content := by
  refine Merge.merge_congr (fun row _ old met => ?_) content
  funext column
  unfold assignColumns documentColumns
  cases ignoreConflicts with
  | true => rfl
  | false =>
    rw [if_neg Bool.false_ne_true]
    by_cases updated : column ∈ updatedColumns rows uniqueBy updateColumns false
    · rw [if_pos updated, if_pos (agreeable.within updated)]
    · split
      · rename_i given
        have key := (agreeable.covered rfl column given).resolve_right updated
        rw [storedRow_of_mem defaults row given]
        exact ((meets_iff valid defaults row old).mp met column key).2
      · rfl

theorem executeUpsert_of_agreeable (backend : Backend) {content : List Row}
    (unique : UniqueKeys uniqueBy content) :
    executeUpsert table rows uniqueBy updateColumns ignoreConflicts defaults backend content =
      some (upserted rows uniqueBy (updatedColumns rows uniqueBy updateColumns ignoreConflicts)
        defaults content) := by
  unfold executeUpsert
  split
  · rw [executeUpdates_eq valid defaults agreeable.fixed agreeable.present table unique,
      upserted_documentColumns valid defaults agreeable]
  · exact execute_upsertStatement valid defaults agreeable.target agreeable.once agreeable.within
      backend content

end

end Agreement

def titledPost : AttributeMap :=
  (AList.singleton (ascii "id") (.int64 1)).insert (ascii "title") (.string (ascii "new")) |>.insert
    (ascii "views") (.int64 0)

def readPost : Row := fun column =>
  if column = ascii "id" then .int64 1
  else if column = ascii "views" then .int64 5 else .string (ascii "old")

def freshPost : AttributeMap := titledPost.insert (ascii "id") (.int64 2)

end Gungnir.Orm
