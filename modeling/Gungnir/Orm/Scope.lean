import Gungnir.Orm.Meaning

/-!
# Protected predicates hold for every row that a query selects

Soft-delete, tenant and relation scopes are predicates of the plan like the caller's,
in one flat list with AND and OR between. The compilers take them out of a list that
has an OR, and then no connective of the caller can get around them.
-/

namespace Gungnir.Orm

open Gungnir.Core Gungnir.Library Gungnir.Library.Sql List

/-! ## Lists without OR -/

variable {predicates : List Predicate} {scope : Predicate}

theorem connector_and (flat : isMixed predicates = false) (member : scope ∈ predicates)
    (isProtected : scope.isProtected = true) :
    ∀ predicate ∈ predicates, predicate.connector = .and := by
  rw [isMixed, Bool.and_eq_false_iff] at flat
  rcases flat with noScope | noOr
  · exact absurd isProtected (any_eq_false.mp noScope scope member)
  · intro predicate found
    have other := any_eq_false.mp noOr predicate found
    cases connector : predicate.connector with
    | and => rfl
    | or => exact absurd (decide_eq_true connector) other

theorem connector_protectedPart (predicates : List Predicate) :
    ∀ predicate ∈ protectedPart predicates, predicate.connector = .and := by
  intro predicate member
  obtain ⟨_, _, rfl⟩ := mem_map.mp member
  rfl

theorem mem_protectedPart (member : scope ∈ predicates) (isProtected : scope.isProtected = true) :
    { scope with connector := .and } ∈ protectedPart predicates :=
  mem_map.mpr ⟨scope, mem_filter.mpr ⟨member, isProtected⟩, rfl⟩

/-! ## SQL -/

section Clause

variable {engine : Engine AttributeValue} {row : Path → AttributeValue} {plan : QueryPlan}

theorem linksOf_and {joinedTable : Bytes}
    (conjunctive : ∀ predicate ∈ predicates, predicate.connector = .and) :
    ∀ link ∈ linksOf joinedTable predicates, link.1 = .and := by
  intro link member
  obtain ⟨predicate, found, rfl⟩ := mem_map.mp member
  rw [qualify_link, conjunctive predicate found]
  rfl

theorem forall_links :
    (∀ link ∈ linksOf plan.joinedTable predicates, link.2.truth engine row = some true) ↔
      ∀ predicate ∈ predicates, plan.truth engine row predicate = some true := by
  rw [linksOf, forall_mem_map]
  exact forall₂_congr fun predicate _ => by rw [← truth_qualify]; rfl

/-- The clause of predicates without OR selects the rows that meet all of them. -/
theorem clause_and (nonempty : predicates ≠ [])
    (conjunctive : ∀ predicate ∈ predicates, predicate.connector = .and) :
    whereSelects engine row (predicateClause plan.joinedTable predicates).condition ↔
      ∀ predicate ∈ predicates, plan.truth engine row predicate = some true := by
  obtain ⟨condition, isCondition⟩ :=
    Clause.exists_condition (wellFormed_clause plan.joinedTable nonempty).nonempty
  have flat : ¬ isMixed predicates = true := by
    rw [isMixed, Bool.and_eq_true, any_eq_true, any_eq_true]
    rintro ⟨_, predicate, member, isOr⟩
    cases (conjunctive predicate member).symm.trans (of_decide_eq_true isOr)
  rw [isCondition]
  rw [predicateClause, if_neg flat] at isCondition
  rw [whereSelects, Clause.selects_and isCondition (linksOf_and conjunctive), forall_links]
  exact and_iff_left fun first rest none => absurd none.symm (cons_ne_nil first rest)

/-- A row that the clause of a list of predicates selects meets the protected ones. -/
theorem clause_protected
    (selected : whereSelects engine row (predicateClause plan.joinedTable predicates).condition)
    (member : scope ∈ predicates) (isProtected : scope.isProtected = true) :
    plan.truth engine row scope = some true := by
  have nonempty : predicates ≠ [] := ne_nil_of_mem member
  by_cases mixed : isMixed predicates = true
  · have formed := wellFormed_clause plan.joinedTable nonempty
    obtain ⟨condition, isCondition⟩ := Clause.exists_condition formed.nonempty
    rw [isCondition] at selected
    rw [predicateClause, if_pos mixed] at isCondition
    have meets := (Clause.selects_and isCondition
      (linksOf_and (connector_protectedPart predicates))).mp selected
    have held := forall_links.mp meets.1 _ (mem_protectedPart member isProtected)
    exact held
  · have conjunctive := connector_and (Bool.not_eq_true _ ▸ mixed) member isProtected
    exact (clause_and nonempty conjunctive).mp selected scope member

end Clause

/-! ## Documents -/

section Filters

variable {engine : Engine AttributeValue} {document : Bytes → AttributeValue}

theorem answers_and (conjunctive : ∀ predicate ∈ predicates, predicate.connector = .and)
    (named : ∀ predicate ∈ predicates, predicate.Named)
    (selected : Filter.eval engine document (chainJson predicates) = some true)
    {predicate : Predicate} (member : predicate ∈ predicates) :
    predicate.answerIn engine document = some true := by
  cases predicates with
  | nil => cases member
  | cons first rest =>
    rw [forall_mem_cons] at conjunctive named
    have linked : ∀ next ∈ answersIn engine document rest, next.1 = .and := by
      intro next found
      obtain ⟨source, inRest, rfl⟩ := mem_map.mp found
      rw [conjunctive.2 source inRest]
      rfl
    rw [eval_chain engine document named.1 named.2, Filter.chain_and linked] at selected
    rcases mem_cons.mp member with rfl | inRest
    · exact selected.1
    · exact selected.2 _ (mem_map.mpr ⟨predicate, inRest, rfl⟩)

theorem filter_protected (named : ∀ predicate ∈ predicates, predicate.Named)
    (selected : Filter.eval engine document (filterJson predicates) = some true)
    (member : scope ∈ predicates) (isProtected : scope.isProtected = true) :
    scope.answerIn engine document = some true := by
  unfold filterJson at selected
  split at selected
  · have both := eval_pair engine document .and (chainJson (protectedPart predicates))
      (chainJson (userPart predicates))
    rw [if_pos rfl, selected] at both
    have scopesNamed : ∀ predicate ∈ protectedPart predicates, predicate.Named := by
      intro predicate found
      obtain ⟨source, inList, rfl⟩ := mem_map.mp found
      have sourceNamed := named source (mem_filter.mp inList).1
      exact ⟨sourceNamed.column, sourceNamed.other⟩
    have held := answers_and (connector_protectedPart predicates) scopesNamed
      (Filter.both_eq_true.mp both.symm).1 (mem_protectedPart member isProtected)
    exact held
  · rename_i flat
    exact answers_and (connector_and (Bool.not_eq_true _ ▸ flat) member isProtected) named selected
      member

end Filters

/-! ## Isolation -/

/-- Whatever the caller adds to a plan, a row or document that the compiled query selects
meets every protected predicate of the plan. -/
theorem protected_scope_isolation (plan : QueryPlan) :
    (∀ backend query, compileSql plan backend = .ok query →
      (query.whereClause backend).isSome = true ∧
      ∀ engine row, query.selects backend engine row →
        ∀ scope ∈ plan.predicates, scope.isProtected = true →
          plan.truth engine row scope = some true) ∧
    ∀ query, compileMongodb plan = .ok query →
      query.filter.isSome = true ∧
      ∀ engine document, query.selectsDocument engine document →
        ∀ scope ∈ plan.predicates, scope.isProtected = true →
          scope.answerIn engine document = some true := by
  constructor
  · intro backend query done
    constructor
    · rw [whereClause_compileSql done]
      rfl
    · intro engine row selected scope member isProtected
      rw [selects_compileSql done] at selected
      exact clause_protected selected member isProtected
  · intro query done
    constructor
    · rw [filter_compileMongodb done]
      rfl
    · intro engine document selected scope member isProtected
      rw [selectsDocument_compileMongodb done] at selected
      exact filter_protected (fun predicate found => (compileMongodb_each done found).2) selected
        member isProtected

/-- Open or new posts of one tenant: the scope stands behind an OR. -/
def tenantScope : Predicate :=
  { column := ascii "tenant_id", values := [.int64 7], protectedScope := true }

def tenantPlan : QueryPlan :=
  { table := ascii "posts"
    predicates :=
      [{ column := ascii "state", values := [.string (ascii "open")] },
        { connector := .or, column := ascii "state", values := [.string (ascii "new")] },
        tenantScope] }

def tenantSql : CompiledQuery :=
  ⟨.sql, ascii "SELECT * FROM \"posts\" WHERE \"tenant_id\" = $1 AND (\"state\" = $2 OR \"state\" = $3);",
    [.int64 7, .string (ascii "open"), .string (ascii "new")]⟩

def tenantPost (column : Bytes) : AttributeValue :=
  if column = ascii "tenant_id" then .int64 7 else .string (ascii "open")

theorem protected_scope_isolation_sample :
    compileSql tenantPlan .postgresql = .ok tenantSql ∧
    tenantPlan.truth integerEngine (fun path => tenantPost path.flatten) tenantScope = some true ∧
    tenantScope.answerIn integerEngine tenantPost = some true := by
  have compiled : compileSql tenantPlan .postgresql = .ok tenantSql := by decide +kernel
  have stored : compileMongodb tenantPlan = .ok ((compileMongodb tenantPlan).toOption.getD {}) := by
    decide +kernel
  refine ⟨compiled, ?_, ?_⟩
  · exact ((protected_scope_isolation tenantPlan).1 .postgresql tenantSql compiled).2 integerEngine
      (fun path => tenantPost path.flatten) (by decide +kernel) tenantScope (by decide +kernel) rfl
  · exact ((protected_scope_isolation tenantPlan).2 _ stored).2 integerEngine tenantPost
      (by decide +kernel) tenantScope (by decide +kernel) rfl

end Gungnir.Orm
