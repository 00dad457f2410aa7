import Gungnir.Orm.Agreement

/-!
# Plans on which SQL and MongoDB differ

For every shape that is not agreeable there is a plan whose SQL and whose command
select different rows. Its predicates are constants, lists without values, and
comparisons with NULL where the shape has a NULL hazard.
-/

namespace Gungnir.Orm

open Gungnir.Core Gungnir.Library Gungnir.Library.Sql List

/-! ## Assignments -/

variable (pair : Shape × Bool)

/-- The value that SQL gives to a predicate of a shape, and the one of a document store. -/
def lowerValue : Bool := !pair.1.nullHazard && pair.2

def upperValue : Bool := pair.1.nullHazard || pair.2

def pairProtected : Bool := pair.1.isProtected

def pairConnective : Connective := pair.1.connective

/-- An assignment of some items is one of all items, with the others true. -/
theorem exists_extension {ι : Type} (kept : ι → Bool) (items : List ι) {part : List (ι × Bool)}
    (assigned : part.map Prod.fst = items.filter kept) :
    ∃ whole : List (ι × Bool), whole.map Prod.fst = items ∧
      (whole.filter fun pair => kept pair.1) = part ∧
      ∀ pair ∈ whole, kept pair.1 = false → pair.2 = true := by
  induction items generalizing part with
  | nil =>
    refine ⟨[], rfl, ?_, nofun⟩
    exact (map_eq_nil_iff.mp assigned).symm
  | cons item items ih =>
    cases keeps : kept item with
    | true =>
      rw [filter_cons_of_pos keeps] at assigned
      obtain ⟨head, tail, rfl, same, rest⟩ := map_eq_cons_iff.mp assigned
      obtain ⟨whole, whole_items, filtered, others⟩ := ih rest
      refine ⟨head :: whole, by rw [map_cons, whole_items, same], ?_, ?_⟩
      · rw [filter_cons_of_pos (by rw [same]; exact keeps), filtered]
      · rintro pair member dropped
        rcases mem_cons.mp member with rfl | inRest
        · rw [same, keeps] at dropped
          cases dropped
        · exact others pair inRest dropped
    | false =>
      rw [filter_cons_of_neg (by rw [keeps]; decide)] at assigned
      obtain ⟨whole, whole_items, filtered, others⟩ := ih assigned
      refine ⟨(item, true) :: whole, by rw [map_cons, whole_items], ?_, ?_⟩
      · rw [filter_cons_of_neg (by simp [keeps]), filtered]
      · rintro pair member dropped
        rcases mem_cons.mp member with rfl | inRest
        · rfl
        · exact others pair inRest dropped

variable {assigned : List (Shape × Bool)} {shapes : List Shape}

theorem isMixedList_assigned (same : assigned.map Prod.fst = shapes) :
    isMixedList pairProtected pairConnective assigned =
      isMixedList Shape.isProtected Shape.connective shapes := by
  rw [← same]
  simp only [isMixedList, any_map]
  rfl

theorem chainValue_all {links : List (Connective × Bool)} (all : ∀ link ∈ links, link.2 = true) :
    chainValue leftHolds links = true := by
  cases links with
  | nil => rfl
  | cons first rest =>
    rw [forall_mem_cons] at all
    rw [chainValue, all.1]
    exact leftHolds_all all.2

/-- An assignment that tells the readings of a list apart. -/
theorem exists_scoped_split (apart : ¬ Agreeable shapes) :
    ∃ assigned : List (Shape × Bool), assigned.map Prod.fst = shapes ∧
      scopedValue pairProtected pairConnective lowerValue chainHolds assigned ≠
        scopedValue pairProtected pairConnective upperValue leftHolds assigned := by
  rw [agreeable_iff, freePart] at apart
  cases mixed : isMixedList Shape.isProtected Shape.connective shapes with
  | false =>
    rw [mixed] at apart
    obtain ⟨assigned, same, differ⟩ := exists_split Shape.connective Shape.nullHazard apart
    refine ⟨assigned, same, ?_⟩
    rw [scopedValue, scopedValue, isMixedList_assigned same, mixed]
    exact differ
  | true =>
    rw [mixed, if_pos rfl] at apart
    by_cases hazard : ∃ shape ∈ shapes, shape.isProtected = true ∧ shape.nullHazard = true
    · -- A protected predicate is false in SQL and all are true for documents.
      obtain ⟨shape, member, isProtected, isHazard⟩ := hazard
      have same : (shapes.map fun shape => (shape, true)).map Prod.fst = shapes := by
        rw [map_map]
        exact map_id _
      refine ⟨_, same, ?_⟩
      have allTrue : ∀ pair ∈ shapes.map fun shape => (shape, true), upperValue pair = true :=
        forall_mem_map.mpr fun _ _ => Bool.or_true _
      rw [scopedValue, scopedValue, isMixedList_assigned same, mixed, if_pos rfl, if_pos rfl]
      have lower : ((shapes.map fun shape => (shape, true)).filter pairProtected).all lowerValue =
          false := by
        rw [all_eq_false]
        refine ⟨(shape, true), mem_filter.mpr
          ⟨mem_map.mpr ⟨shape, member, rfl⟩, isProtected⟩, ?_⟩
        simp [lowerValue, isHazard]
      have upper : ((shapes.map fun shape => (shape, true)).filter pairProtected).all upperValue =
          true :=
        all_eq_true.mpr fun pair found => allTrue pair (mem_filter.mp found).1
      rw [lower, upper, chainValue_all]
      · exact Bool.false_ne_true
      · exact forall_mem_map.mpr fun pair inList => allTrue pair (mem_filter.mp inList).1
    · -- The protected predicates are true on both sides, and the others differ.
      have scopesSafe : ∀ shape ∈ shapes, shape.isProtected = true → shape.nullHazard = false :=
        fun shape member isProtected => Bool.eq_false_iff.mpr
          fun isHazard => hazard ⟨shape, member, isProtected, isHazard⟩
      have freeApart : ¬ ((∀ shape ∈ shapes.filter fun shape => !shape.isProtected,
          shape.nullHazard = false) ∧
          Ordered ((shapes.filter fun shape => !shape.isProtected).tail.map Shape.connective)) := by
        rintro ⟨safe, ordered⟩
        refine apart ⟨fun shape member => ?_, ordered⟩
        by_cases isProtected : shape.isProtected = true
        · exact scopesSafe shape member isProtected
        · exact safe shape (mem_filter.mpr ⟨member, by simpa using isProtected⟩)
      obtain ⟨part, partShapes, differ⟩ :=
        exists_split Shape.connective Shape.nullHazard freeApart
      obtain ⟨whole, same, filtered, others⟩ :=
        exists_extension (fun shape => !shape.isProtected) shapes partShapes
      have scopes : ∀ pair ∈ whole.filter pairProtected,
          lowerValue pair = true ∧ upperValue pair = true := by
        intro pair member
        obtain ⟨inWhole, isProtected⟩ := mem_filter.mp member
        have isScope : pair.1.isProtected = true := isProtected
        have assignedTrue := others pair inWhole (by simp [isScope])
        have inShapes : pair.1 ∈ shapes := by
          rw [← same]
          exact mem_map.mpr ⟨pair, inWhole, rfl⟩
        have safe := scopesSafe pair.1 inShapes isProtected
        simp [lowerValue, upperValue, assignedTrue, safe]
      refine ⟨whole, same, ?_⟩
      rw [scopedValue, scopedValue, isMixedList_assigned same, mixed, if_pos rfl, if_pos rfl,
        all_eq_true.mpr fun pair member => (scopes pair member).1,
        all_eq_true.mpr fun pair member => (scopes pair member).2, Bool.true_and, Bool.true_and]
      have free : (whole.filter fun pair => !pairProtected pair) = part := filtered
      rw [free]
      exact differ

/-! ## Plans -/

/-- A predicate of a given shape. Without a hazard it is a constant. -/
def Shape.predicate : Predicate :=
  if pair.1.nullHazard then
    { comparison := .notEqual, connector := pair.1.connector, column := ascii "c",
      values := [.null], protectedScope := pair.1.isProtected }
  else
    { kind := if pair.2 then .notInList else .inList, connector := pair.1.connector,
      column := ascii "c", protectedScope := pair.1.isProtected }

def planOf (assigned : List (Shape × Bool)) : QueryPlan :=
  { table := ascii "t", predicates := assigned.map Shape.predicate }

def constantRow : Path → AttributeValue := fun _ => .int64 1

def constantDocument : Bytes → AttributeValue := fun _ => .int64 1

theorem shape_predicate : (Shape.predicate pair).shape = pair.1 := by
  obtain ⟨⟨connector, isProtected, nullHazard⟩, value⟩ := pair
  cases nullHazard <;> cases value <;> simp [Shape.predicate, Predicate.shape, Predicate.isProtected,
    Predicate.nullHazard, Predicate.valueAt, AttributeValue.isNull]

theorem likeless_predicate : (Shape.predicate pair).Likeless := by
  obtain ⟨⟨connector, isProtected, nullHazard⟩, value⟩ := pair
  cases nullHazard <;> cases value <;> simp [Shape.predicate, Predicate.Likeless]

theorem holds_predicate (plan : QueryPlan) (pair : Shape × Bool) :
    plan.holds integerEngine constantRow (Shape.predicate pair) = lowerValue pair := by
  obtain ⟨⟨connector, isProtected, nullHazard⟩, value⟩ := pair
  cases nullHazard <;> cases value <;> rfl

theorem holdsIn_predicate :
    (Shape.predicate pair).holdsIn integerEngine constantDocument = upperValue pair := by
  obtain ⟨⟨connector, isProtected, nullHazard⟩, value⟩ := pair
  cases nullHazard <;> cases value <;> rfl

theorem stores_planOf (assigned : List (Shape × Bool)) :
    Stores integerEngine (planOf assigned).predicates constantRow constantDocument where
  same := fun _ _ => rfl
  present := fun _ _ => rfl
  sameOther := fun _ _ _ => rfl
  presentOther := fun _ _ _ => rfl

/-! ## Both compilers accept these plans -/

theorem appendSeparated_total {α : Type} {separator : α → Bytes}
    {emit : CompiledQuery → α → Except Exception CompiledQuery} {items : List α}
    (each : ∀ result, ∀ item ∈ items, ∃ after, emit result item = .ok after)
    (result : CompiledQuery) : ∃ after, appendSeparated separator emit result items = .ok after := by
  cases items with
  | nil => exact ⟨result, rfl⟩
  | cons first rest =>
    obtain ⟨start, emitted⟩ := each result first mem_cons_self
    have later : ∀ (state : CompiledQuery), ∀ item ∈ rest,
        ∃ after, emit (state.write (separator item)) item = .ok after :=
      fun state item member => each _ item (mem_cons_of_mem _ member)
    obtain ⟨last, looped⟩ := foldlM_total later start
    exact ⟨last, bind_eq_ok.mpr ⟨start, emitted, looped⟩⟩

section Accepted

variable (assigned : List (Shape × Bool))

theorem appendPredicate_shape (result : CompiledQuery) (pair : Shape × Bool) :
    ∃ after, appendSqlPredicate result .sqlite (Shape.predicate pair) = .ok after := by
  obtain ⟨⟨connector, isProtected, nullHazard⟩, value⟩ := pair
  cases nullHazard <;> cases value <;> exact ⟨_, rfl⟩

theorem mongoPredicate_shape (bindings : List AttributeValue) (pair : Shape × Bool) :
    ∃ out, mongoPredicateWith selectChecks.missingValue (Shape.predicate pair) bindings = .ok out := by
  obtain ⟨⟨connector, isProtected, nullHazard⟩, value⟩ := pair
  cases nullHazard <;> cases value <;> exact ⟨_, rfl⟩

/-- A predicate of some shape. It is emitted like the one of the list: the connector is not
read. -/
def Shaped (predicate : Predicate) : Prop :=
  ∃ pair, predicate = { Shape.predicate pair with connector := predicate.connector }

theorem shaped_list : ∀ predicate ∈ assigned.map Shape.predicate, Shaped predicate :=
  forall_mem_map.mpr fun pair _ => ⟨pair, rfl⟩

theorem shaped_user : ∀ predicate ∈ userPart (assigned.map Shape.predicate), Shaped predicate :=
  fun predicate member => shaped_list assigned predicate (mem_filter.mp member).1

theorem shaped_protected :
    ∀ predicate ∈ protectedPart (assigned.map Shape.predicate), Shaped predicate := by
  intro predicate member
  obtain ⟨source, found, rfl⟩ := mem_map.mp member
  obtain ⟨pair, _, rfl⟩ := mem_map.mp (mem_filter.mp found).1
  exact ⟨pair, rfl⟩

theorem appendPredicateList_total {part : List Predicate}
    (shaped : ∀ predicate ∈ part, Shaped predicate) (result : CompiledQuery) :
    ∃ after, appendPredicateList result .sqlite part [] = .ok after := by
  apply appendSeparated_total
  intro state predicate member
  obtain ⟨pair, same⟩ := shaped predicate member
  obtain ⟨after, emitted⟩ := appendPredicate_shape state pair
  rw [qualify_nil, same]
  exact ⟨after, emitted⟩

theorem appendPredicates_total (result : CompiledQuery) :
    ∃ after, appendPredicates result .sqlite (assigned.map Shape.predicate) [] = .ok after := by
  unfold appendPredicates
  split
  · obtain ⟨middle, scopes⟩ := appendPredicateList_total (shaped_protected assigned) result
    obtain ⟨last, user⟩ := appendPredicateList_total (shaped_user assigned)
      (middle.write (ascii " AND ("))
    by_cases none : userPart (assigned.map Shape.predicate) = []
    · exact ⟨middle, bind_eq_ok.mpr ⟨middle, scopes, if_pos none⟩⟩
    · refine ⟨last.write (ascii ")"), bind_eq_ok.mpr ⟨middle, scopes, ?_⟩⟩
      rw [if_neg none]
      exact bind_eq_ok.mpr ⟨last, user, rfl⟩
  · exact appendPredicateList_total (shaped_list assigned) result

theorem mongoChain_total {part : List Predicate}
    (shaped : ∀ predicate ∈ part, Shaped predicate) (bindings : List AttributeValue) :
    ∃ out, mongoChain selectChecks.missingValue part bindings = .ok out := by
  have emits : ∀ bindings, ∀ predicate ∈ part,
      ∃ out, mongoPredicateWith selectChecks.missingValue predicate bindings = .ok out := by
    intro bindings predicate member
    obtain ⟨pair, same⟩ := shaped predicate member
    rw [same]
    exact mongoPredicate_shape bindings pair
  cases part with
  | nil => exact ⟨_, rfl⟩
  | cons first rest =>
    obtain ⟨start, emitted⟩ := emits bindings first mem_cons_self
    have later : ∀ (expression : Bound Bytes), ∀ predicate ∈ rest, ∃ next, (do
        let next ← mongoPredicateWith selectChecks.missingValue predicate expression.2
        .ok (mongoPair (mongoConnector predicate) expression.1 next.1, next.2) :
          Except Exception (Bound Bytes)) = .ok next := by
      intro expression predicate member
      obtain ⟨out, wrote⟩ := emits expression.2 predicate (mem_cons_of_mem _ member)
      exact ⟨_, bind_eq_ok.mpr ⟨out, wrote, rfl⟩⟩
    obtain ⟨last, looped⟩ := foldlM_total later start
    exact ⟨last, bind_eq_ok.mpr ⟨start, emitted, looped⟩⟩

theorem mongoFilter_total : ∃ out, mongoFilter (assigned.map Shape.predicate) [] = .ok out := by
  unfold mongoFilter mongoFilterWith
  split
  · obtain ⟨scopes, wrote⟩ := mongoChain_total (shaped_protected assigned) []
    obtain ⟨filtered, user⟩ := mongoChain_total (shaped_user assigned) scopes.2
    exact ⟨_, bind_eq_ok.mpr ⟨scopes, wrote, bind_eq_ok.mpr ⟨filtered, user, rfl⟩⟩⟩
  · exact mongoChain_total (shaped_list assigned) []

theorem compileSql_planOf : ∃ query, compileSql (planOf assigned) .sqlite = .ok query := by
  have selected : ∀ result : CompiledQuery,
      ∃ after, appendWhere result .sqlite (planOf assigned) = .ok after := by
    intro result
    unfold appendWhere
    split
    · exact ⟨result, rfl⟩
    · exact appendPredicates_total assigned _
  obtain ⟨filtered, wrote⟩ := selected
    ⟨.sql, ascii "SELECT * FROM \"t\"", []⟩
  refine ⟨_, bind_eq_ok.mpr ⟨_, rfl, bind_eq_ok.mpr ⟨_, rfl, bind_eq_ok.mpr ⟨_, rfl,
    bind_eq_ok.mpr ⟨filtered, wrote, bind_eq_ok.mpr ⟨_, rfl, bind_eq_ok.mpr ⟨_, rfl,
      bind_eq_ok.mpr ⟨_, rfl, rfl⟩⟩⟩⟩⟩⟩⟩⟩

theorem compileMongodb_planOf : ∃ query, compileMongodb (planOf assigned) = .ok query := by
  obtain ⟨filter, wrote⟩ := mongoFilter_total assigned
  exact ⟨_, bind_eq_ok.mpr ⟨filter, wrote, bind_eq_ok.mpr ⟨_, rfl, bind_eq_ok.mpr ⟨_, rfl,
    bind_eq_ok.mpr ⟨_, rfl, rfl⟩⟩⟩⟩⟩

end Accepted

/-! ## The shapes on which the compilers agree -/

theorem not_sameRows
    (differ : scopedValue pairProtected pairConnective lowerValue chainHolds assigned ≠
      scopedValue pairProtected pairConnective upperValue leftHolds assigned) :
    ¬ SameRows (planOf assigned) := by
  intro same
  obtain ⟨sql, compiled⟩ := compileSql_planOf assigned
  obtain ⟨command, stored⟩ := compileMongodb_planOf assigned
  have agree := same .sqlite sql command compiled stored integerEngine constantRow constantDocument
    (fun _ => rfl) (stores_planOf assigned)
  have likeless : ∀ predicate ∈ (planOf assigned).predicates, predicate.Likeless :=
    forall_mem_map.mpr fun pair _ => likeless_predicate pair
  rw [selects_compileSql compiled, whereSelects_clause, selectsDocument_compileMongodb stored,
    eval_filter_value _ _ (fun predicate member => (compileMongodb_each stored member).2) likeless,
    Option.some_inj, ← Bool.eq_iff_iff, planOf, scopedValue_map, scopedValue_map] at agree
  apply differ
  have isProtected : Predicate.isProtected ∘ Shape.predicate = pairProtected :=
    funext fun pair => congrArg Shape.isProtected (shape_predicate pair)
  have connective : Predicate.connective ∘ Shape.predicate = pairConnective :=
    funext fun pair => congrArg Shape.connective (shape_predicate pair)
  have lower : QueryPlan.holds (planOf assigned) integerEngine constantRow ∘ Shape.predicate =
      lowerValue := funext (holds_predicate _)
  have upper : Predicate.holdsIn integerEngine constantDocument ∘ Shape.predicate = upperValue :=
    funext holdsIn_predicate
  rw [isProtected, connective, upper] at agree
  rw [← agree, ← lower]
  rfl

/-- The SQL and the MongoDB command of every plan of a shape select the same rows exactly if
the shape has no NULL hazard and no AND behind an OR. -/
theorem sql_document_agreement (shapes : List Shape) :
    (∀ plan : QueryPlan, plan.predicates.map Predicate.shape = shapes →
      (∀ predicate ∈ plan.predicates, predicate.Likeless) → SameRows plan) ↔ Agreeable shapes := by
  constructor
  · intro agree
    by_contra apart
    obtain ⟨assigned, same, differ⟩ := exists_scoped_split apart
    apply not_sameRows differ
    apply agree
    · rw [planOf, map_map, ← same]
      exact map_congr_left fun pair _ => shape_predicate pair
    · exact forall_mem_map.mpr fun pair _ => likeless_predicate pair
  · rintro agreeable plan rfl likeless
    exact sameRows_of_agreeable likeless agreeable

def flagPredicate (connector : BooleanConnector) (column : Bytes) : Predicate :=
  { connector := connector, column := column, values := [.int64 1] }

/-- a AND b OR c -/
def orderedPlan : QueryPlan :=
  { table := ascii "t"
    predicates := [flagPredicate .and (ascii "a"), flagPredicate .and (ascii "b"),
      flagPredicate .or (ascii "c")] }

/-- a OR b AND c -/
def disorderedPlan : QueryPlan :=
  { table := ascii "t"
    predicates := [flagPredicate .and (ascii "a"), flagPredicate .or (ascii "b"),
      flagPredicate .and (ascii "c")] }

/-- a <> NULL -/
def nullPlan : QueryPlan :=
  { table := ascii "t"
    predicates := [{ comparison := .notEqual, column := ascii "a", values := [.null] }] }

def onlyA (column : Bytes) : AttributeValue := if column = ascii "a" then .int64 1 else .int64 0

theorem sql_document_agreement_sample :
    Agreeable (orderedPlan.predicates.map Predicate.shape) ∧ SameRows orderedPlan := by
  have agreeable : Agreeable (orderedPlan.predicates.map Predicate.shape) := by decide +kernel
  exact ⟨agreeable, (sql_document_agreement _).mpr agreeable orderedPlan rfl (by decide +kernel)⟩

/-- SQL selects the row with only `a` for `a OR b AND c`, MongoDB does not; MongoDB selects it
for `a <> NULL`, SQL does not. -/
theorem readings_differ :
    (∃ sql command, compileSql disorderedPlan .sqlite = .ok sql ∧
      compileMongodb disorderedPlan = .ok command ∧
      sql.selects .sqlite integerEngine (fun path => onlyA path.flatten) ∧
      ¬ command.selectsDocument integerEngine onlyA) ∧
    ∃ sql command, compileSql nullPlan .sqlite = .ok sql ∧ compileMongodb nullPlan = .ok command ∧
      ¬ sql.selects .sqlite integerEngine (fun path => onlyA path.flatten) ∧
      command.selectsDocument integerEngine onlyA := by
  constructor
  · exact ⟨(compileSql disorderedPlan .sqlite).toOption.getD {},
      (compileMongodb disorderedPlan).toOption.getD {}, by decide +kernel, by decide +kernel,
      by decide +kernel, by decide +kernel⟩
  · exact ⟨(compileSql nullPlan .sqlite).toOption.getD {},
      (compileMongodb nullPlan).toOption.getD {}, by decide +kernel, by decide +kernel,
      by decide +kernel, by decide +kernel⟩

end Gungnir.Orm
