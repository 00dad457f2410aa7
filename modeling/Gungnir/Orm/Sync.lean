import Gungnir.Orm.Window

/-!
# Relation sync

`sync` on a many-to-many relation compares the desired keys with those of the pivot table as
variants: a key that the database returns in another representation is detached and attached
again by every call. Tables are lists of rows, of which only the two keys are modelled; the
compiled statements select them by their WHERE clauses.
-/

namespace Gungnir.Orm

open Gungnir.Core Gungnir.Library.Sql List
open Gungnir.Library (bind_eq_ok)

/-! ## Pivot tables -/

/-- A column of keys: the representation in which it returns a value, by which the database
compares. -/
structure KeyColumn (engine : Engine AttributeValue) where
  name : Bytes
  plain : segments name = [name]
  store : AttributeValue → AttributeValue
  store_store : ∀ value, store (store value) = store value
  isNull_store : ∀ value, engine.isNull (store value) = engine.isNull value
  compares : ∀ left right, engine.compares .equal (store left) right = true ↔ store left = store right

structure Pivot where
  foreign : AttributeValue
  related : AttributeValue
  deriving DecidableEq

/-- The relation: the two columns, the constraints of the table and the backend. -/
structure Relation (engine : Engine AttributeValue) where
  pivotTable : Bytes
  foreign : KeyColumn engine
  related : KeyColumn engine
  distinct : related.name ≠ foreign.name
  rejects : List Pivot → Option Exception
  backend : Backend

structure PivotSyncResult where
  attached : List AttributeValue
  detached : List AttributeValue
  deriving DecidableEq, Repr

def uniqueValues (values : List AttributeValue) : List AttributeValue :=
  values.foldl (fun result value => if value ∈ result then result else result ++ [value]) []

section Statements

variable {engine : Engine AttributeValue} (relation : Relation engine) (parentKey : AttributeValue)
  (relatedKeys : List AttributeValue) (table : List Pivot)

def Relation.row (pivot : Pivot) : Path → AttributeValue := fun path =>
  if path = [relation.foreign.name] then relation.foreign.store pivot.foreign
  else if path = [relation.related.name] then relation.related.store pivot.related
  else .null

def Relation.ofParent : Predicate :=
  { column := relation.foreign.name, values := [parentKey] }

def Relation.currentPlan : QueryPlan :=
  { table := relation.pivotTable
    columns := [relation.related.name]
    predicates := [relation.ofParent parentKey] }

def Relation.detachPlan : QueryPlan :=
  { table := relation.pivotTable
    predicates := [relation.ofParent parentKey,
      { kind := .inList, column := relation.related.name, values := relatedKeys }] }

def Relation.currentPivotKeys : Except Exception (List AttributeValue) := do
  let compiled ← compile (relation.currentPlan parentKey) relation.backend
  let rows := table.filter fun pivot => compiled.selects relation.backend engine (relation.row pivot)
  return uniqueValues (rows.map fun pivot => relation.related.store pivot.related)

def Relation.detachPivot : Except Exception (List Pivot) :=
  if relatedKeys = [] then return table
  else do
    let compiled ← compileDeleteWhere (relation.detachPlan parentKey relatedKeys) relation.backend
    return table.filter fun pivot =>
      ¬ compiled.selects relation.backend engine (relation.row pivot)

def Relation.pivotRow (relatedKey : AttributeValue) : AttributeMap :=
  (AList.singleton relation.foreign.name parentKey).insert relation.related.name relatedKey

/-- The insert, which a constraint of the table may reject. -/
def Relation.attachPivot : Except Exception (List Pivot) :=
  if relatedKeys = [] then return table
  else do
    let rows := relatedKeys.map (relation.pivotRow parentKey)
    let _ ← compileInsertMany relation.pivotTable rows relation.backend
    let after := table ++ rows.map fun row =>
      ⟨cell row relation.foreign.name, cell row relation.related.name⟩
    match relation.rejects after with
    | some raised => throw raised
    | none => return after

def Relation.sync (parentKey : Option AttributeValue) (relatedKeys : List AttributeValue)
    (table : List Pivot) : Except Exception (PivotSyncResult × List Pivot) :=
  let desired := uniqueValues relatedKeys
  match parentKey with
  | none => .error ⟨.runtimeError, ascii
      "Cannot mutate a many-to-many relation without an initialized parent key"⟩
  | some key =>
    if relation.backend = .mongodb then
      .error ⟨.runtimeError, ascii
        "Many-to-many pivot sync requires a relational database backend"⟩
    else do
      let current ← relation.currentPivotKeys key table
      let attached := desired.filter (· ∉ current)
      let detached := current.filter (· ∉ desired)
      let remaining ← (if detached = [] then .ok table
        else relation.detachPivot key detached table)
      let after ← (if attached = [] then .ok remaining
        else relation.attachPivot key attached remaining)
      return (⟨attached, detached⟩, after)

/-! ## What a sync is for -/

def Relation.Owned (pivot : Pivot) : Prop :=
  relation.foreign.store pivot.foreign = relation.foreign.store parentKey

instance : DecidablePred (relation.Owned parentKey) := fun _ => inferInstanceAs (Decidable (_ = _))

/-- The keys that are attached to the parent. -/
def Relation.pivotKeys : List AttributeValue :=
  (table.filter fun pivot => relation.Owned parentKey pivot).map fun pivot =>
    relation.related.store pivot.related

/-- The table without the detached keys, of which a NULL is never found, and with the
attached ones. -/
def Relation.changed (changes : PivotSyncResult) : List Pivot :=
  (table.filter fun pivot => ¬ (relation.Owned parentKey pivot ∧
    engine.isNull pivot.related = false ∧
      relation.related.store pivot.related ∈ changes.detached.map relation.related.store)) ++
    changes.attached.map (Pivot.mk parentKey)

/-- The parent has the desired keys, no other parent is touched, the result tells what has
changed, and a second call changes nothing. -/
structure Synced (after : List Pivot) (result : PivotSyncResult) : Prop where
  keys : ∀ key, key ∈ relation.pivotKeys parentKey after ↔ key ∈ relatedKeys.map relation.related.store
  others : (after.filter fun pivot => ¬ relation.Owned parentKey pivot) =
    table.filter fun pivot => ¬ relation.Owned parentKey pivot
  disjoint : ∀ attached ∈ result.attached, ∀ detached ∈ result.detached,
    relation.related.store attached ≠ relation.related.store detached
  attached : ∀ key, key ∈ result.attached.map relation.related.store ↔
    key ∈ relatedKeys.map relation.related.store ∧ key ∉ relation.pivotKeys parentKey table
  detached : ∀ key, key ∈ result.detached.map relation.related.store ↔
    key ∈ relation.pivotKeys parentKey table ∧ key ∉ relatedKeys.map relation.related.store
  again : relation.sync (some parentKey) relatedKeys after = .ok (⟨[], []⟩, after)

/-- Every desired key has the representation in which the column returns it, and a NULL that
is attached to the parent is desired. -/
structure Syncable : Prop where
  canonical : ∀ key ∈ relatedKeys, relation.related.store key = key
  nulls : ∀ key ∈ relation.pivotKeys parentKey table, engine.isNull key = true → key ∈ relatedKeys

end Statements

theorem mem_uniqueValues {values : List AttributeValue} {value : AttributeValue} :
    value ∈ uniqueValues values ↔ value ∈ values := by
  have fold : ∀ result, value ∈ values.foldl (fun result value =>
      if value ∈ result then result else result ++ [value]) result ↔
        value ∈ result ∨ value ∈ values := by
    induction values with
    | nil => simp
    | cons first rest ih =>
      intro result
      rw [foldl_cons, ih]
      split
      next known =>
        simp only [mem_cons]
        exact ⟨Or.imp_right .inr, fun either => either.elim .inl (Or.elim · (· ▸ .inl known) .inr)⟩
      next => simp [or_assoc]
  simpa [uniqueValues] using fold []

/-! ## The statements -/

section Executed

variable {engine : Engine AttributeValue} {relation : Relation engine} {parentKey : AttributeValue}
  {relatedKeys current detached : List AttributeValue} {table after : List Pivot}
  {pivot : Pivot} {result : PivotSyncResult}

/-- A comparison with NULL is never true. -/
theorem compare_key (column : KeyColumn engine) (key value : AttributeValue) :
    engine.compare .equal (column.store key) value = some true ↔
      engine.isNull key = false ∧ column.store key = column.store value := by
  rw [Engine.compare, column.isNull_store]
  cases keyNull : engine.isNull key with
  | true => simp
  | false =>
    cases valueNull : engine.isNull value with
    | true =>
      have other : column.store key ≠ column.store value := by
        intro same
        have null := column.isNull_store value
        rw [← same, column.isNull_store, keyNull, valueNull] at null
        cases null
      simp [other]
    | false => simp [column.compares]

theorem row_foreign (plan : QueryPlan) :
    relation.row pivot (plan.columnOf (relation.ofParent parentKey)) =
      relation.foreign.store pivot.foreign := by
  have path : plan.columnOf (relation.ofParent parentKey) = [relation.foreign.name] :=
    (if_neg fun own => Bool.false_ne_true own.1).trans relation.foreign.plain
  rw [path, Relation.row, if_pos rfl]

section Initialized

variable (initialized : engine.isNull parentKey = false)
include initialized

/-- A comparison with the parent's key is true for the rows of the parent. -/
theorem truth_ofParent (plan : QueryPlan) :
    plan.truth engine (relation.row pivot) (relation.ofParent parentKey) = some true ↔
      relation.Owned parentKey pivot := by
  rw [QueryPlan.truth, row_foreign]
  show engine.compare .equal _ parentKey = _ ↔ _
  rw [compare_key]
  constructor
  · exact And.right
  · intro own
    rw [← relation.foreign.isNull_store, own, relation.foreign.isNull_store]
    exact ⟨initialized, rfl⟩

/-- Whether the statement compiles does not depend on the table. -/
theorem currentPivotKeys_ok (sql : relation.backend ≠ .mongodb)
    (found : relation.currentPivotKeys parentKey table = .ok current) (other : List Pivot) :
    relation.currentPivotKeys parentKey other =
      .ok (uniqueValues (relation.pivotKeys parentKey other)) := by
  obtain ⟨compiled, compiling, _⟩ := bind_eq_ok.mp found
  refine bind_eq_ok.mpr ⟨compiled, compiling, ?_⟩
  rw [compile, if_neg sql] at compiling
  have same : (other.filter fun pivot =>
      compiled.selects relation.backend engine (relation.row pivot)) =
        other.filter fun pivot => relation.Owned parentKey pivot := by
    refine filter_congr fun pivot _ => decide_eq_decide.mpr ?_
    rw [selects_compileSql compiling]
    refine (clause_and (cons_ne_nil _ _) fun predicate member => ?_).trans ?_
    · rw [mem_singleton.mp member]
      rfl
    · show (∀ predicate ∈ [relation.ofParent parentKey], _) ↔ _
      rw [forall_mem_singleton, truth_ofParent initialized]
  rw [same]
  rfl

/-- A delete removes the rows of the parent whose keys are listed and not NULL. -/
theorem detachPivot_ok (sql : relation.backend ≠ .mongodb)
    (deleted : relation.detachPivot parentKey detached table = .ok after) :
    after = table.filter fun pivot => ¬ (relation.Owned parentKey pivot ∧
      engine.isNull pivot.related = false ∧
        relation.related.store pivot.related ∈ detached.map relation.related.store) := by
  unfold Relation.detachPivot at deleted
  split at deleted
  next none =>
    cases deleted
    simp [none]
  next =>
    obtain ⟨compiled, compiling, returned⟩ := bind_eq_ok.mp deleted
    cases returned
    refine filter_congr fun pivot _ => decide_eq_decide.mpr (not_congr ?_)
    have clause := @whereClause_compileBulk (relation.detachPlan parentKey detached)
      relation.backend .delete compiled sql compiling
    rw [CompiledQuery.selects, clause]
    refine (@clause_and _ _ _ (relation.detachPlan parentKey detached) (cons_ne_nil _ _) (by
      simp [Relation.ofParent])).trans ?_
    show (∀ predicate ∈ [relation.ofParent parentKey, _], _) ↔ _
    rw [forall_mem_cons, forall_mem_singleton, truth_ofParent initialized]
    refine and_congr Iff.rfl ?_
    show engine.among (relation.row pivot (segments relation.related.name)) detached = some true ↔ _
    rw [relation.related.plain, Relation.row, if_neg (by simpa using relation.distinct), if_pos rfl,
      Engine.among, Truth.any_eq_true, mem_map, mem_map]
    simp only [compare_key, @eq_comm _ (relation.related.store pivot.related)]
    exact ⟨fun ⟨value, listed, known, same⟩ => ⟨known, value, listed, same⟩,
      fun ⟨known, value, listed, same⟩ => ⟨value, listed, known, same⟩⟩

end Initialized

theorem attachPivot_ok (inserted : relation.attachPivot parentKey relatedKeys table = .ok after) :
    after = table ++ relatedKeys.map (Pivot.mk parentKey) := by
  have foreign : ∀ key, cell (relation.pivotRow parentKey key) relation.foreign.name = parentKey := by
    intro key
    have own : (AList.singleton relation.foreign.name parentKey : AttributeMap).lookup
        relation.foreign.name = some parentKey := dlookup_cons_eq _ _ _
    rw [cell, Relation.pivotRow, AList.lookup_insert_ne relation.distinct.symm, own, Option.getD_some]
  have related : ∀ key, cell (relation.pivotRow parentKey key) relation.related.name = key := by
    intro key
    rw [cell, Relation.pivotRow, AList.lookup_insert, Option.getD_some]
  unfold Relation.attachPivot at inserted
  split at inserted
  next none =>
    cases inserted
    rw [none, map_nil, append_nil]
  next =>
    obtain ⟨_, _, checked⟩ := bind_eq_ok.mp inserted
    simp only [map_map, Function.comp_def, foreign, related] at checked
    split at checked
    · cases checked
    · cases checked
      rfl

/-- What a call that succeeds does. -/
theorem sync_ok (initialized : engine.isNull parentKey = false)
    (done : relation.sync (some parentKey) relatedKeys table = .ok (result, after)) :
    relation.backend ≠ .mongodb ∧ ∃ current,
      relation.currentPivotKeys parentKey table = .ok current ∧
      result.attached = (uniqueValues relatedKeys).filter (· ∉ current) ∧
      result.detached = current.filter (· ∉ uniqueValues relatedKeys) ∧
      after = relation.changed parentKey table result := by
  unfold Relation.sync at done
  dsimp only at done
  split at done
  · cases done
  next sql =>
  obtain ⟨current, found, done⟩ := bind_eq_ok.mp done
  obtain ⟨remaining, detaching, done⟩ := bind_eq_ok.mp done
  obtain ⟨written, attaching, returned⟩ := bind_eq_ok.mp done
  cases returned
  refine ⟨sql, current, found, rfl, rfl, ?_⟩
  have left : relation.detachPivot parentKey (current.filter (· ∉ uniqueValues relatedKeys)) table =
      .ok remaining := by
    split at detaching
    next none => rw [none, ← detaching]; rfl
    next => exact detaching
  have added : relation.attachPivot parentKey ((uniqueValues relatedKeys).filter (· ∉ current))
      remaining = .ok after := by
    split at attaching
    next none => rw [none, ← attaching]; rfl
    next => exact attaching
  rw [attachPivot_ok added, detachPivot_ok initialized sql left]
  rfl

theorem sync_settled (sql : relation.backend ≠ .mongodb)
    (found : relation.currentPivotKeys parentKey table = .ok current)
    (same : ∀ value, value ∈ uniqueValues relatedKeys ↔ value ∈ current) :
    relation.sync (some parentKey) relatedKeys table = .ok (⟨[], []⟩, table) := by
  unfold Relation.sync
  dsimp only
  rw [if_neg sql]
  refine bind_eq_ok.mpr ⟨current, found, ?_⟩
  rw [filter_eq_nil_iff.mpr (by simp [same]), filter_eq_nil_iff.mpr (by simp [same])]
  rfl

theorem mem_pivotKeys_changed {key : AttributeValue} :
    key ∈ relation.pivotKeys parentKey (relation.changed parentKey table result) ↔
      (key ∈ relation.pivotKeys parentKey table ∧
        (engine.isNull key = true ∨ key ∉ result.detached.map relation.related.store)) ∨
        key ∈ result.attached.map relation.related.store := by
  have added : ((result.attached.map (Pivot.mk parentKey)).filter fun pivot =>
      relation.Owned parentKey pivot) = result.attached.map (Pivot.mk parentKey) :=
    filter_eq_self.mpr (forall_mem_map.mpr fun _ _ => decide_eq_true rfl)
  unfold Relation.pivotKeys Relation.changed
  rw [filter_append, map_append, mem_append, added, map_map, mem_map]
  refine or_congr ⟨?_, ?_⟩ Iff.rfl
  · rintro ⟨pivot, member, rfl⟩
    obtain ⟨listed, own⟩ := mem_filter.mp member
    obtain ⟨inTable, kept⟩ := mem_filter.mp listed
    have kept := of_decide_eq_true kept
    refine ⟨mem_map.mpr ⟨pivot, mem_filter.mpr ⟨inTable, own⟩, rfl⟩, ?_⟩
    rw [relation.related.isNull_store]
    cases known : engine.isNull pivot.related with
    | true => exact Or.inl rfl
    | false => exact Or.inr fun removed => kept ⟨of_decide_eq_true own, known, removed⟩
  · rintro ⟨held, kept⟩
    obtain ⟨pivot, member, rfl⟩ := mem_map.mp held
    obtain ⟨inTable, own⟩ := mem_filter.mp member
    refine ⟨pivot, mem_filter.mpr ⟨mem_filter.mpr ⟨inTable, decide_eq_true ?_⟩, own⟩, rfl⟩
    rintro ⟨_, known, removed⟩
    rw [relation.related.isNull_store, known] at kept
    exact kept.elim (absurd · Bool.false_ne_true) (absurd removed)

theorem others_changed :
    ((relation.changed parentKey table result).filter fun pivot => ¬ relation.Owned parentKey pivot) =
      table.filter fun pivot => ¬ relation.Owned parentKey pivot := by
  have added : ((result.attached.map (Pivot.mk parentKey)).filter fun pivot =>
      ¬ relation.Owned parentKey pivot) = [] :=
    filter_eq_nil_iff.mpr (forall_mem_map.mpr fun _ _ other => of_decide_eq_true other rfl)
  rw [Relation.changed, filter_append, added, append_nil, filter_filter]
  refine filter_congr fun pivot _ => ?_
  by_cases own : relation.Owned parentKey pivot <;> simp [own]

end Executed

/-- Integers are read as signed ones. -/
def signed : AttributeValue → AttributeValue
  | .uint64 value => .int64 value
  | value => value

def keyEngine : Engine AttributeValue where
  __ := integerEngine
  compares := fun operator left right =>
    if operator = .notEqual then signed left ≠ signed right else signed left = signed right
  number_equal := fun first second => by simp [integerEngine, signed]
  compares_notEqual := fun left right => by simp

def sampleColumn (name : Bytes) (plain : segments name = [name]) : KeyColumn keyEngine where
  name := name
  plain := plain
  store := signed
  store_store value := by cases value <;> rfl
  isNull_store value := by cases value <;> rfl
  compares left right := by cases left <;> exact decide_eq_true_iff

def sampleRelation : Relation keyEngine where
  pivotTable := ascii "post_tag"
  foreign := sampleColumn (ascii "post_id") (by decide)
  related := sampleColumn (ascii "tag_id") (by decide)
  distinct := by decide
  rejects := fun _ => none
  backend := .sqlite

def taggedPosts : List Pivot :=
  [⟨.int64 1, .int64 4⟩, ⟨.int64 1, .null⟩, ⟨.int64 2, .int64 4⟩]

def retaggedPosts : List Pivot :=
  [⟨.int64 1, .null⟩, ⟨.int64 2, .int64 4⟩, ⟨.int64 1, .int64 5⟩]

end Gungnir.Orm
