import Gungnir.Orm.MutationCommand

/-!
# Placeholders and bindings

Every statement and command that is compiled has as many placeholders as bindings, in
the same order, and each binding is the value that the plan, the assignment or the row
gives for the place of its placeholder: read with the bindings put in, the text is the
statement with the values in their places.
-/

namespace Gungnir.Orm

open Gungnir.Core Gungnir.Library Gungnir.Library.Sql List

/-! ## Predicates have their values -/

section Complete

variable {result after : CompiledQuery} {backend : Backend} {predicates : List Predicate}

/-- What both parts of a mixed list meet, the list meets, for what connectors do not change. -/
theorem forall_of_parts {Good : Predicate → Prop}
    (unlinked : ∀ predicate : Predicate, Good { predicate with connector := .and } → Good predicate)
    (scopes : ∀ predicate ∈ protectedPart predicates, Good predicate)
    (user : ∀ predicate ∈ userPart predicates, Good predicate) :
    ∀ predicate ∈ predicates, Good predicate := by
  intro predicate member
  by_cases isProtected : predicate.isProtected = true
  · apply unlinked
    exact scopes _ (mem_map.mpr ⟨predicate, mem_filter.mpr ⟨member, isProtected⟩, rfl⟩)
  · exact user predicate (mem_filter.mpr ⟨member, by simpa using isProtected⟩)

theorem appendChain_complete {checks : PredicateChecks} {separator : Predicate → Bytes}
    {joinedTable : Bytes}
    (done : appendSeparated separator
      (fun result predicate => appendPredicate checks result backend (qualify joinedTable predicate))
      result predicates = .ok after) :
    ∀ predicate ∈ predicates, predicate.complete = true := by
  intro predicate member
  obtain ⟨before, written, emitted⟩ := appendSeparated_each done member
  rw [← qualify_complete joinedTable]
  exact (appendPredicate_ok emitted).2

theorem appendPredicates_complete {joinedTable : Bytes}
    (done : appendPredicates result backend predicates joinedTable = .ok after) :
    ∀ predicate ∈ predicates, predicate.complete = true := by
  unfold appendPredicates at done
  split at done
  · obtain ⟨between, scopes, continued⟩ := bind_eq_ok.mp done
    refine forall_of_parts (fun _ => id) (appendChain_complete scopes) ?_
    split at continued
    · rename_i noUser
      rw [noUser]
      exact forall_mem_nil _
    · obtain ⟨filled, user, _⟩ := bind_eq_ok.mp continued
      exact appendChain_complete user
  · exact appendChain_complete done

theorem appendWhereList_complete (done : appendWhereList result backend predicates = .ok after) :
    ∀ predicate ∈ predicates, predicate.complete = true := by
  intro predicate member
  obtain ⟨before, written, emitted⟩ := appendSeparated_each done member
  exact (appendPredicate_ok emitted).2

theorem appendWhereSql_complete (done : appendWhereSql result predicates backend = .ok after) :
    ∀ predicate ∈ predicates, predicate.complete = true := by
  unfold appendWhereSql at done
  split at done
  · rename_i empty
    rw [empty]
    exact forall_mem_nil _
  · split at done
    · obtain ⟨between, scopes, continued⟩ := bind_eq_ok.mp done
      refine forall_of_parts (fun _ => id) (appendWhereList_complete scopes) ?_
      split at continued
      · rename_i noUser
        rw [noUser]
        exact forall_mem_nil _
      · obtain ⟨nested, user, _⟩ := bind_eq_ok.mp continued
        exact appendWhereList_complete user
    · exact appendWhereList_complete done

variable {plan : QueryPlan} {query : CompiledQuery}

theorem compileSql_complete (done : compileSql plan backend = .ok query) :
    ∀ predicate ∈ plan.predicates ++ plan.having, predicate.complete = true := by
  unfold compileSql at done
  split at done
  · cases done
  · obtain ⟨_, _, done⟩ := bind_eq_ok.mp done
    obtain ⟨_, _, done⟩ := bind_eq_ok.mp done
    obtain ⟨_, _, done⟩ := bind_eq_ok.mp done
    obtain ⟨_, restriction, done⟩ := bind_eq_ok.mp done
    obtain ⟨_, _, done⟩ := bind_eq_ok.mp done
    obtain ⟨_, having, _⟩ := bind_eq_ok.mp done
    rw [forall_mem_append]
    constructor
    · unfold appendWhere at restriction
      split at restriction
      · rename_i empty
        rw [empty]
        exact forall_mem_nil _
      · exact appendPredicates_complete restriction
    · unfold appendHaving at having
      split at having
      · rename_i empty
        rw [empty]
        exact forall_mem_nil _
      · exact appendPredicates_complete having

/-- A mutation of the rows that a plan selects has emitted the plan's predicates. -/
def Restricts (plan : QueryPlan) (backend : Backend) : Prop :=
  (∃ filter, mutationFilter plan = .ok filter) ∨
    ∃ result after, appendWhereSql result plan.predicates backend = .ok after

theorem Restricts.complete (restricts : Restricts plan backend) :
    ∀ predicate ∈ plan.predicates, predicate.complete = true := by
  rcases restricts with ⟨filter, filtered⟩ | ⟨before, written, restriction⟩
  · exact fun predicate member => (mongoFilterWith_each filtered member).1
  · exact appendWhereSql_complete restriction

theorem restricts_update {assigned : AttributeMap}
    (done : compileUpdateWhere plan assigned backend = .ok query) : Restricts plan backend := by
  obtain ⟨⟨⟩, _, done⟩ := bind_eq_ok.mp done
  split at done
  · cases done
  · split at done
    · obtain ⟨filter, filtered, _⟩ := bind_eq_ok.mp done
      exact .inl ⟨filter, filtered⟩
    · obtain ⟨_, _, done⟩ := bind_eq_ok.mp done
      obtain ⟨_, _, done⟩ := bind_eq_ok.mp done
      obtain ⟨_, restriction, _⟩ := bind_eq_ok.mp done
      exact .inr ⟨_, _, restriction⟩

theorem restricts_delete (done : compileDeleteWhere plan backend = .ok query) :
    Restricts plan backend := by
  obtain ⟨⟨⟩, _, done⟩ := bind_eq_ok.mp done
  split at done
  · obtain ⟨filter, filtered, _⟩ := bind_eq_ok.mp done
    exact .inl ⟨filter, filtered⟩
  · obtain ⟨_, _, done⟩ := bind_eq_ok.mp done
    obtain ⟨_, restriction, _⟩ := bind_eq_ok.mp done
    exact .inr ⟨_, _, restriction⟩

theorem restricts_increment {column : Bytes} {amount : UInt64}
    (done : compileIncrementWhere plan column amount backend = .ok query) :
    Restricts plan backend := by
  obtain ⟨⟨⟩, _, done⟩ := bind_eq_ok.mp done
  split at done
  · obtain ⟨filter, filtered, _⟩ := bind_eq_ok.mp done
    exact .inl ⟨filter, filtered⟩
  · obtain ⟨_, _, done⟩ := bind_eq_ok.mp done
    obtain ⟨_, _, done⟩ := bind_eq_ok.mp done
    obtain ⟨_, _, done⟩ := bind_eq_ok.mp done
    obtain ⟨_, restriction, _⟩ := bind_eq_ok.mp done
    exact .inr ⟨_, _, restriction⟩

end Complete

/-! ## Rows have their columns -/

theorem lookup_of_mem_sortedKeys {row : AttributeMap} {key : Bytes} (member : key ∈ sortedKeys row) :
    row.lookup key = some (cell row key) := by
  have present : key ∈ row := (mem_insertionSort _).mp member
  obtain ⟨value, found⟩ := Option.isSome_iff_exists.mp (AList.lookup_isSome.mpr present)
  rw [cell, found]
  rfl

variable {rows : List AttributeMap}

theorem lookup_of_sameAttributes {keys : List Bytes} (same : sameAttributes rows keys = true)
    {row : AttributeMap} (inRows : row ∈ rows) {key : Bytes} (member : key ∈ keys) :
    row.lookup key = some (cell row key) := by
  have sameKeys : sortedKeys row = keys := of_decide_eq_true (all_eq_true.mp same row inRows)
  exact lookup_of_mem_sortedKeys (sameKeys.symm ▸ member)

/-! ## Alignment -/

/-- A statement whose placeholders are bound to the values of some pieces. -/
structure Aligned (backend : Backend) (query : CompiledQuery) (pieces : Pieces) : Prop where
  bindings : query.bindings = values pieces
  /-- The placeholders of the text, outside of names and literals, are those of the bindings
  from the first to the last. -/
  placeholders : (lex (quotesOf backend) query.text).filter Lexeme.isPlaceholder =
    (range query.bindings.length).map (placeholderLexeme (dialectOf backend))
  /-- With the bindings put in, the text is read as the pieces. -/
  read : query.read backend = some (tokens (quotesOf backend) pieces)

theorem aligned_extend {backend : Backend} {pieces : Pieces}
    (spaced : Spaced (quotesOf backend) true false pieces) :
    Aligned backend ((⟨.sql, [], []⟩ : CompiledQuery).extend backend pieces) pieces := by
  refine ⟨nil_append _, ?_, read_extend spaced⟩
  obtain ⟨last, found, _⟩ := spaced
  have dialectSpacing : spacing (dialectOf backend).quotes true pieces = some last := found
  have placed := filter_lexemes dialectSpacing 0
  rw [← lex_render dialectSpacing, ← range_eq_range'] at placed
  exact placed

/-- A compiled mutation: an aligned statement, or a command that is read with all its
bindings as a given document. -/
def Placed (backend : Backend) (query : CompiledQuery) (pieces : Pieces) (command : Document) : Prop :=
  if backend = .mongodb then Json.parse query.bindings query.text = some command
  else Aligned backend query pieces

theorem placed_of {backend : Backend} {query : CompiledQuery} {pieces : Pieces} {command : Document}
    (reads : backend = .mongodb → Json.Reads query.bindings query.text command)
    (written : backend ≠ .mongodb → query = (⟨.sql, [], []⟩ : CompiledQuery).extend backend pieces)
    (spaced : ∀ quotes, Spaced quotes true false pieces) : Placed backend query pieces command := by
  unfold Placed
  split
  · rename_i isMongo
    exact Json.parse_of_reads (reads isMongo)
  · rename_i isSql
    rw [written isSql]
    exact aligned_extend (spaced _)

section Mutations

variable {plan : QueryPlan} {backend : Backend} {query : CompiledQuery}

theorem placed_update {assigned : AttributeMap}
    (done : compileUpdateWhere plan assigned backend = .ok query) :
    Placed backend query (updatePieces plan assigned) (updateJson plan assigned) := by
  apply placed_of
  · rintro rfl
    exact compileUpdateWhere_mongo done
  · exact fun sql => compileUpdateWhere_ok sql _ done
  · exact (plain_restricted (plain_updateHead _ _) plan).spaced

theorem placed_delete (done : compileDeleteWhere plan backend = .ok query) :
    Placed backend query (deletePieces plan) (deleteJson plan) := by
  apply placed_of
  · rintro rfl
    exact compileDeleteWhere_mongo done
  · exact fun sql => compileDeleteWhere_ok sql _ done
  · exact (plain_restricted (plain_deleteHead _) plan).spaced

theorem placed_increment {column : Bytes} {amount : UInt64}
    (done : compileIncrementWhere plan column amount backend = .ok query) :
    Placed backend query (incrementPieces plan column amount) (incrementJson plan column amount) := by
  apply placed_of
  · rintro rfl
    exact compileIncrementWhere_mongo done
  · exact fun sql => compileIncrementWhere_ok sql _ done
  · exact (plain_restricted (plain_incrementHead _ _ _) plan).spaced

theorem placed_insert {table : Bytes} (done : compileInsertMany table rows backend = .ok query) :
    Placed backend query (insertPieces table rows (rowKeys rows))
      (insertJson table rows (rowKeys rows)) := by
  apply placed_of
  · rintro rfl
    exact insertMongo_ok (compileInsertMany_cases done).2.2
  · exact fun sql => compileInsertMany_ok sql _ done
  · exact ((plain_insertHead _ _ _).append (Plain.text rfl)).spaced

theorem placed_upsert {table : Bytes} {uniqueBy updateColumns : List Bytes} {ignoreConflicts : Bool}
    (done : compileUpsert table rows uniqueBy updateColumns backend ignoreConflicts = .ok query) :
    Placed backend query (upsertPieces table rows uniqueBy updateColumns backend ignoreConflicts)
      (upsertJson table rows (rowKeys rows) uniqueBy ignoreConflicts) := by
  apply placed_of
  · rintro rfl
    exact upsertMongo_ok (compileUpsert_cases done).2.2.2.2
  · exact fun sql => compileUpsert_ok sql _ done
  · exact (plain_upsert _ _ _ _ _ _).spaced

end Mutations

/-- Placeholders and bindings of everything that is compiled. The pieces and the commands hold
the values of the plan, of the assignments and of the rows at their places; the last parts of
the statements say that these values were given. -/
theorem placeholder_alignment (plan : QueryPlan) (backend : Backend) :
    (∀ query, compileSql plan backend = .ok query →
      Aligned backend query (selectPieces plan backend) ∧
      ∀ predicate ∈ plan.predicates ++ plan.having, predicate.complete = true) ∧
    (∀ query, compileMongodb plan = .ok query →
      Json.parse query.bindings query.text = some (selectJson plan) ∧
      ∀ predicate ∈ plan.predicates, predicate.complete = true) ∧
    (∀ assigned query, compileUpdateWhere plan assigned backend = .ok query →
      Placed backend query (updatePieces plan assigned) (updateJson plan assigned) ∧
      (∀ predicate ∈ plan.predicates, predicate.complete = true) ∧
      ∀ key ∈ sortedKeys assigned, assigned.lookup key = some (cell assigned key)) ∧
    (∀ query, compileDeleteWhere plan backend = .ok query →
      Placed backend query (deletePieces plan) (deleteJson plan) ∧
      ∀ predicate ∈ plan.predicates, predicate.complete = true) ∧
    (∀ column amount query, compileIncrementWhere plan column amount backend = .ok query →
      Placed backend query (incrementPieces plan column amount) (incrementJson plan column amount) ∧
      ∀ predicate ∈ plan.predicates, predicate.complete = true) ∧
    (∀ table rows query, compileInsertMany table rows backend = .ok query →
      Placed backend query (insertPieces table rows (rowKeys rows))
        (insertJson table rows (rowKeys rows)) ∧
      ∀ row ∈ rows, ∀ key ∈ rowKeys rows, row.lookup key = some (cell row key)) ∧
    ∀ table rows uniqueBy updateColumns ignoreConflicts query,
      compileUpsert table rows uniqueBy updateColumns backend ignoreConflicts = .ok query →
      Placed backend query (upsertPieces table rows uniqueBy updateColumns backend ignoreConflicts)
        (upsertJson table rows (rowKeys rows) uniqueBy ignoreConflicts) ∧
      (∀ row ∈ rows, ∀ key ∈ rowKeys rows, row.lookup key = some (cell row key)) ∧
      ∀ key ∈ uniqueBy, key ∈ rowKeys rows := by
  refine ⟨?_, ?_, ?_, ?_, ?_, ?_, ?_⟩
  · intro query done
    refine ⟨?_, compileSql_complete done⟩
    rw [compileSql_ok _ done]
    exact aligned_extend ((plain_select plan backend).spaced _)
  · intro query done
    exact ⟨Json.parse_of_reads (compileMongodb_ok done),
      fun predicate member => (compileMongodb_each done member).1⟩
  · intro assigned query done
    exact ⟨placed_update done, (restricts_update done).complete,
      fun key member => lookup_of_mem_sortedKeys member⟩
  · intro query done
    exact ⟨placed_delete done, (restricts_delete done).complete⟩
  · intro column amount query done
    exact ⟨placed_increment done, (restricts_increment done).complete⟩
  · intro table rows query done
    exact ⟨placed_insert done, fun row inRows key member =>
      lookup_of_sameAttributes (compileInsertMany_cases done).2.1 inRows member⟩
  · intro table rows uniqueBy updateColumns ignoreConflicts query done
    obtain ⟨_, _, same, present, _⟩ := compileUpsert_cases done
    exact ⟨placed_upsert done, fun row inRows key member =>
      lookup_of_sameAttributes same inRows member,
      fun key member => (mem_insertionSort _).mpr (present key member)⟩

/-- Rows 3 to 9 of one tenant. -/
def rangePlan : QueryPlan :=
  { table := ascii "posts"
    predicates :=
      [{ kind := .between, column := ascii "id", values := [.int64 3, .int64 9] },
        { connector := .or, column := ascii "state", values := [.string (ascii "open")] },
        { column := ascii "tenant_id", values := [.int64 7], protectedScope := true }]
    limit := some 5 }

def rangeSql : CompiledQuery :=
  ⟨.sql, ascii "UPDATE \"posts\" SET \"state\" = $1 WHERE \"tenant_id\" = $2" ++
      ascii " AND (\"id\" BETWEEN $3 AND $4 OR \"state\" = $5);",
    [.string (ascii "done"), .int64 7, .int64 3, .int64 9, .string (ascii "open")]⟩

def doneState : AttributeMap := AList.singleton (ascii "state") (.string (ascii "done"))

theorem placeholder_alignment_sample :
    compileUpdateWhere rangePlan doneState .postgresql = .ok rangeSql ∧
    Placed .postgresql rangeSql (updatePieces rangePlan doneState) (updateJson rangePlan doneState) := by
  have compiled : compileUpdateWhere rangePlan doneState .postgresql = .ok rangeSql := by
    decide
  exact ⟨compiled, ((placeholder_alignment rangePlan .postgresql).2.2.1 doneState rangeSql compiled).1⟩

end Gungnir.Orm
