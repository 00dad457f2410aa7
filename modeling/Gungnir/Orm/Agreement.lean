import Gungnir.Orm.Scope
import Gungnir.Library.Sql.Precedence

/-!
# When SQL and MongoDB select the same rows

The SQL compiler writes a flat chain of predicates, which the database reads with
precedence. The MongoDB compiler nests the same chain to the left. Both set the
protected predicates of a mixed list apart. So the two select the same rows for every
plan of a shape exactly if no AND stands behind an OR in the part that is read as a
chain, and no predicate is negative with a NULL among its values.
-/

namespace Gungnir.Orm

open Gungnir.Core Gungnir.Library Gungnir.Library.Sql List

/-! ## The value of a list -/

section Values

variable {ι : Type} (isProtected : ι → Bool) (connective : ι → Connective) (holds : ι → Bool)
  (reading : Bool → List (Connective × Bool) → Bool)

variable (items : List ι)

def isMixedList : Bool :=
  items.any isProtected && items.any fun item => connective item = .or

def linksHold : List (Connective × Bool) :=
  items.map fun item => (connective item, holds item)

/-- What both compilers make of a list of predicates, in some reading of chains. -/
def scopedValue : Bool :=
  if isMixedList isProtected connective items then
    (items.filter isProtected).all holds &&
      chainValue reading (linksHold connective holds (items.filter fun item => !isProtected item))
  else chainValue reading (linksHold connective holds items)

/-- The part that is read as a chain. -/
def freePart : List ι :=
  if isMixedList isProtected connective items then items.filter fun item => !isProtected item else items

theorem freePart_map {κ : Type} (make : κ → ι) (items : List κ) :
    freePart isProtected connective (items.map make) =
      (freePart (isProtected ∘ make) (connective ∘ make) items).map make := by
  have mixed : isMixedList isProtected connective (items.map make) =
      isMixedList (isProtected ∘ make) (connective ∘ make) items := by
    simp only [isMixedList, any_map]
    rfl
  rw [freePart, freePart, mixed]
  split
  · rw [filter_map]
    rfl
  · rfl

theorem scopedValue_ordered {items : List ι}
    (ordered : Ordered ((freePart isProtected connective items).tail.map connective)) :
    scopedValue isProtected connective holds chainHolds items =
      scopedValue isProtected connective holds leftHolds items := by
  have chain : ∀ part : List ι, Ordered (part.tail.map connective) →
      chainValue chainHolds (linksHold connective holds part) =
        chainValue leftHolds (linksHold connective holds part) := by
    intro part partOrdered
    apply chainValue_ordered
    rw [linksHold, ← map_tail, map_map]
    exact partOrdered
  unfold freePart at ordered
  unfold scopedValue
  split
  · rename_i mixed
    rw [if_pos mixed] at ordered
    rw [chain _ ordered]
  · rename_i flat
    rw [if_neg flat] at ordered
    exact chain _ ordered

theorem scopedValue_map {κ : Type} (make : κ → ι) (items : List κ) :
    scopedValue isProtected connective holds reading (items.map make) =
      scopedValue (isProtected ∘ make) (connective ∘ make) (holds ∘ make) reading items := by
  simp only [scopedValue, isMixedList, linksHold, any_map, filter_map, all_map,
    map_map]
  rfl

theorem scopedValue_congr {other : ι → Bool} {items : List ι}
    (same : ∀ item ∈ items, holds item = other item) :
    scopedValue isProtected connective holds reading items =
      scopedValue isProtected connective other reading items := by
  have links : ∀ part : List ι, part ⊆ items →
      linksHold connective holds part = linksHold connective other part := by
    intro part inside
    apply map_congr_left
    intro item member
    rw [same item (inside member)]
  have scopes : (items.filter isProtected).all holds = (items.filter isProtected).all other := by
    rw [Bool.eq_iff_iff, all_eq_true, all_eq_true]
    exact forall₂_congr fun item member => by rw [same item (mem_filter.mp member).1]
  rw [scopedValue, scopedValue, links _ (filter_subset_self _), links _ (Subset.refl _),
    scopes]

end Values

def Predicate.connective (predicate : Predicate) : Connective := predicate.connector.connective

theorem isMixedList_eq (predicates : List Predicate) :
    isMixedList Predicate.isProtected Predicate.connective predicates = isMixed predicates := by
  have same : ∀ predicate : Predicate,
      decide (predicate.connective = .or) = decide (predicate.connector = .or) := by
    intro predicate
    rw [Predicate.connective]
    cases predicate.connector <;> rfl
  simp only [isMixedList, isMixed, same]

/-! ## SQL -/

section Sql

variable (plan : QueryPlan) (engine : Engine AttributeValue) (row : Path → AttributeValue)

def QueryPlan.holds (predicate : Predicate) : Bool :=
  decide (plan.truth engine row predicate = some true)

variable (predicates : List Predicate)

theorem testsHold_links :
    testsHold engine row (linksOf plan.joinedTable predicates) =
      linksHold Predicate.connective (plan.holds engine row) predicates := by
  rw [testsHold, linksOf, map_map]
  apply map_congr_left
  intro predicate _
  rw [Function.comp, qualify_link]
  simp only [QueryPlan.holds, ← truth_qualify]
  rfl

/-- The value of a part that is read as a chain. -/
theorem selects_links : (∀ first rest, linksOf plan.joinedTable predicates = first :: rest →
      (chainCondition first rest).selects engine row) ↔
      chainValue chainHolds (linksHold Predicate.connective (plan.holds engine row) predicates) =
        true := by
  rw [← testsHold_links]
  cases links : linksOf plan.joinedTable predicates with
  | nil => exact ⟨fun _ => rfl, nofun⟩
  | cons first rest =>
    have chain := selects_chain engine row first rest
    constructor
    · exact fun selected => chain.mp (selected first rest rfl)
    · intro value _ _ same
      cases same
      exact chain.mpr value

theorem whereSelects_clause :
    whereSelects engine row (predicateClause plan.joinedTable predicates).condition ↔
      scopedValue Predicate.isProtected Predicate.connective (plan.holds engine row) chainHolds
        predicates = true := by
  rw [scopedValue, isMixedList_eq, predicateClause]
  cases mixed : isMixed predicates with
  | true =>
    simp only [if_true]
    have nonempty : (⟨linksOf plan.joinedTable (protectedPart predicates),
        linksOf plan.joinedTable (userPart predicates)⟩ : Clause AttributeValue).links ≠ [] :=
      fun empty => protectedPart_ne_nil mixed (map_eq_nil_iff.mp empty)
    obtain ⟨condition, isCondition⟩ := Clause.exists_condition nonempty
    rw [isCondition, whereSelects, Clause.selects_and isCondition
      (linksOf_and (connector_protectedPart predicates)), Bool.and_eq_true, all_eq_true]
    refine and_congr ?_ (selects_links plan engine row (userPart predicates))
    rw [forall_links, protectedPart, forall_mem_map]
    exact forall₂_congr fun predicate _ => decide_eq_true_iff.symm
  | false =>
    simp only [Bool.false_eq_true, if_false]
    rw [← selects_links]
    cases links : linksOf plan.joinedTable predicates with
    | nil => exact ⟨fun _ _ _ same => (by cases same), fun _ => trivial⟩
    | cons first rest =>
      have alone : (⟨first :: rest, []⟩ : Clause AttributeValue).condition =
          some (chainCondition first rest) :=
        congrArg (fun links => some (precedence _ links)) (append_nil _)
      rw [alone]
      constructor
      · intro selected _ _ same
        cases same
        exact selected
      · exact fun selected => selected first rest rfl

end Sql

/-! ## Documents -/

section Documents

variable (engine : Engine AttributeValue) (document : Bytes → AttributeValue)

/-- The predicate does not compare by pattern. -/
def Predicate.Likeless (predicate : Predicate) : Prop :=
  predicate.kind = .comparison ∨ predicate.kind = .columnComparison → predicate.comparison ≠ .like

instance (predicate : Predicate) : Decidable predicate.Likeless :=
  inferInstanceAs (Decidable (_ → _))

def Predicate.holdsIn (predicate : Predicate) : Bool :=
  decide (predicate.answerIn engine document = some true)

/-- Without patterns a predicate always has an answer. -/
theorem answerIn_eq {predicate : Predicate} (likeless : predicate.Likeless) :
    predicate.answerIn engine document = some (predicate.holdsIn engine document) := by
  have answered : (predicate.answerIn engine document).isSome = true := by
    unfold Predicate.answerIn Predicate.answer
    cases kind : predicate.kind with
    | columnComparison =>
      cases operator : predicate.comparison with
      | like => exact absurd operator (likeless (.inr kind))
      | _ => rfl
    | _ => rfl
  obtain ⟨answer, isAnswer⟩ := Option.isSome_iff_exists.mp answered
  rw [Predicate.holdsIn, isAnswer]
  simp

theorem chain_some (first : Bool) (rest : List (Connective × Bool)) :
    Filter.chain (some first) (rest.map fun link => (link.1, some link.2)) =
      some (leftHolds first rest) := by
  induction rest generalizing first with
  | nil => rfl
  | cons link rest ih =>
    obtain ⟨connective, next⟩ := link
    cases connective with
    | and => exact ih (first && next)
    | or => exact ih (first || next)

variable {predicates : List Predicate}

theorem eval_chain_value (named : ∀ predicate ∈ predicates, predicate.Named)
    (likeless : ∀ predicate ∈ predicates, predicate.Likeless) :
    Filter.eval engine document (chainJson predicates) =
      some (chainValue leftHolds
        (linksHold Predicate.connective (Predicate.holdsIn engine document) predicates)) := by
  cases predicates with
  | nil => rfl
  | cons first rest =>
    rw [forall_mem_cons] at named likeless
    have answers : answersIn engine document rest =
        (linksHold Predicate.connective (Predicate.holdsIn engine document) rest).map
          fun link => (link.1, some link.2) := by
      rw [answersIn, linksHold, map_map]
      apply map_congr_left
      intro predicate member
      rw [answerIn_eq engine document (likeless.2 predicate member)]
      rfl
    rw [eval_chain engine document named.1 named.2, answers,
      answerIn_eq engine document likeless.1, chain_some]
    rfl

theorem eval_filter_value (named : ∀ predicate ∈ predicates, predicate.Named)
    (likeless : ∀ predicate ∈ predicates, predicate.Likeless) :
    Filter.eval engine document (filterJson predicates) =
      some (scopedValue Predicate.isProtected Predicate.connective
        (Predicate.holdsIn engine document) leftHolds predicates) := by
  rw [scopedValue, isMixedList_eq, filterJson]
  cases isMixed predicates with
  | true =>
    have scopesNamed : ∀ predicate ∈ protectedPart predicates,
        predicate.Named ∧ predicate.Likeless := by
      intro predicate member
      obtain ⟨source, found, rfl⟩ := mem_map.mp member
      have inList := (mem_filter.mp found).1
      exact ⟨⟨(named source inList).column, (named source inList).other⟩, likeless source inList⟩
    have user : ∀ predicate ∈ userPart predicates, predicate ∈ predicates :=
      fun _ member => (mem_filter.mp member).1
    have scopes := eval_chain_value engine document (fun predicate member =>
      (scopesNamed predicate member).1) (fun predicate member => (scopesNamed predicate member).2)
    have free := eval_chain_value engine document
      (fun predicate member => named predicate (user predicate member))
      (fun predicate member => likeless predicate (user predicate member))
    have conjunctive : ∀ link ∈ linksHold Predicate.connective
        (Predicate.holdsIn engine document) (protectedPart predicates), link.1 = .and := by
      intro link member
      obtain ⟨predicate, found, rfl⟩ := mem_map.mp member
      rw [Predicate.connective, connector_protectedPart predicates predicate found]
      rfl
    have pair := eval_pair engine document .and (chainJson (protectedPart predicates))
      (chainJson (userPart predicates))
    rw [if_pos rfl, scopes, free, chainValue_and conjunctive] at pair
    simp only [if_true]
    rw [pair, protectedPart, linksHold, map_map, all_map]
    rfl
  | false => exact eval_chain_value engine document named likeless

end Documents

/-! ## One predicate -/

section Predicates

variable {engine : Engine AttributeValue} {column other : AttributeValue}

/-- A negative predicate with a NULL among its values: unknown in SQL, true for documents. -/
def Predicate.nullHazard (predicate : Predicate) : Bool :=
  match predicate.kind with
  | .comparison => predicate.comparison = .notEqual && (predicate.valueAt 0).isNull
  | .notInList => predicate.values.any AttributeValue.isNull
  | .notBetween => (predicate.valueAt 0).isNull || (predicate.valueAt 1).isNull
  | _ => false

/-- The engine takes the values for NULL that the drivers bind as NULL. -/
def BindsNull (engine : Engine AttributeValue) : Prop :=
  ∀ value, engine.isNull value = AttributeValue.isNull value

section

variable (present : engine.isNull column = false)
include present

theorem compare_some (operator : Operator) (operand : AttributeValue) :
    engine.compare operator column operand =
      if engine.isNull operand then none else some (engine.compares operator column operand) := by
  rw [Engine.compare, present, Bool.false_or]

theorem equals_some (operand : AttributeValue) :
    Filter.equals engine column operand =
      (!engine.isNull operand && engine.compares .equal column operand) := by
  rw [Filter.equals, present]
  cases engine.isNull operand <;> rfl

theorem ordered_some (operator : Operator) (orEqual : Bool) (operand : AttributeValue) :
    Filter.ordered engine operator orEqual column operand =
      (!engine.isNull operand && engine.compares operator column operand) := by
  rw [Filter.ordered, present]
  cases engine.isNull operand <;> simp

/-- A test with a value, in SQL and for a document that has the column. -/
theorem compare_iff_test {operator : Operator} {operand : AttributeValue}
    (notLike : operator ≠ .like) (notNull : operator = .notEqual → engine.isNull operand = false) :
    engine.compare operator column operand = some true ↔
      Filter.test engine operator column operand = true := by
  have positive : ∀ checked : Operator,
      (engine.compare checked column operand = some true ↔
        (!engine.isNull operand && engine.compares checked column operand) = true) := by
    intro checked
    rw [compare_some present]
    cases engine.isNull operand <;> simp
  cases operator with
  | like => exact absurd rfl notLike
  | notEqual =>
    rw [positive, Filter.test, equals_some present, notNull rfl, engine.compares_notEqual]
    simp
  | equal => rw [positive, Filter.test, equals_some present]
  | less | lessOrEqual | greater | greaterOrEqual =>
    rw [positive, Filter.test, ordered_some present]

theorem compareFields_some (presentOther : engine.isNull other = false) {operator : Operator}
    (notLike : operator ≠ .like) :
    Filter.compareFields engine operator column other =
      engine.compare operator column other := by
  rw [compare_some present, presentOther]
  cases operator with
  | like => exact absurd rfl notLike
  | notEqual | _ =>
    simp [Filter.compareFields, Filter.equals, present, presentOther, engine.compares_notEqual]

theorem among_iff_any (items : List AttributeValue) :
    engine.among column items = some true ↔ items.any (Filter.equals engine column) = true := by
  rw [Engine.among, Truth.any_eq_true, mem_map, any_eq_true]
  exact exists_congr fun item => and_congr_right fun _ =>
    compare_iff_test present (by decide) (nofun)

theorem not_among_iff {items : List AttributeValue}
    (given : ∀ item ∈ items, engine.isNull item = false) :
    (engine.among column items).not = some true ↔
      (!items.any (Filter.equals engine column)) = true := by
  rw [Truth.not_eq_true, Engine.among, Truth.any_eq_false, forall_mem_map, Bool.not_eq_true',
    any_eq_false]
  refine forall₂_congr fun item member => ?_
  rw [compare_some present, equals_some present, given item member]
  simp

theorem between_iff (lower upper : AttributeValue) :
    engine.between column lower upper = some true ↔
      (Filter.test engine .greaterOrEqual column lower &&
        Filter.test engine .lessOrEqual column upper) = true := by
  rw [Engine.between, Truth.and_eq_true, Bool.and_eq_true]
  exact and_congr (compare_iff_test present (by decide) nofun)
    (compare_iff_test present (by decide) nofun)

theorem not_between_iff {lower upper : AttributeValue} (lowerGiven : engine.isNull lower = false)
    (upperGiven : engine.isNull upper = false) :
    (engine.between column lower upper).not = some true ↔
      (!(Filter.test engine .greaterOrEqual column lower &&
        Filter.test engine .lessOrEqual column upper)) = true := by
  rw [Engine.between, compare_some present, compare_some present, lowerGiven, upperGiven, Filter.test,
    Filter.test, ordered_some present, ordered_some present, lowerGiven, upperGiven]
  cases engine.compares .greaterOrEqual column lower <;>
    cases engine.compares .lessOrEqual column upper <;> decide

end

theorem operator_injective : Function.Injective Comparison.operator := by
  intro first second same
  cases first <;> cases second <;> first | rfl | cases same

/-- A predicate without a NULL hazard means the same to both, if its columns are there. -/
theorem truth_iff_answer {predicate : Predicate} (binds : BindsNull engine)
    (present : engine.isNull column = false)
    (presentOther : predicate.kind = .columnComparison → engine.isNull other = false)
    (likeless : predicate.Likeless) (safe : predicate.nullHazard = false) :
    predicate.truth engine column other = some true ↔
      predicate.answer engine column other = some true := by
  unfold Predicate.nullHazard at safe
  unfold Predicate.truth Predicate.answer
  cases kind : predicate.kind with
  | comparison =>
    simp only [kind] at safe ⊢
    rw [Option.some_inj]
    apply compare_iff_test present
    · exact fun like => likeless (.inl kind) (@operator_injective _ .like like)
    · intro notEqual
      have compared := @operator_injective _ .notEqual notEqual
      rw [compared, decide_eq_true rfl, Bool.true_and] at safe
      exact (binds _).trans safe
  | columnComparison =>
    rw [compareFields_some present (presentOther kind)]
    exact fun like => likeless (.inr kind) (@operator_injective _ .like like)
  | inList =>
    rw [Option.some_inj]
    exact among_iff_any present _
  | notInList =>
    simp only [kind] at safe ⊢
    rw [Option.some_inj]
    apply not_among_iff present
    intro item member
    rw [binds]
    simpa using any_eq_false.mp safe item member
  | between =>
    rw [Option.some_inj]
    exact between_iff present _ _
  | notBetween =>
    simp only [kind, Bool.or_eq_false_iff] at safe ⊢
    rw [Option.some_inj]
    exact not_between_iff present ((binds _).trans safe.1) ((binds _).trans safe.2)
  | isNull => exact Iff.rfl
  | isNotNull => exact Iff.rfl

end Predicates

/-! ## Shapes -/

/-- What the readings depend on: for every predicate its connector, whether it is protected,
and whether it has a NULL hazard. -/
structure Shape where
  connector : BooleanConnector
  isProtected : Bool
  nullHazard : Bool
  deriving DecidableEq, Repr

def Shape.connective (shape : Shape) : Connective := shape.connector.connective

def Predicate.shape (predicate : Predicate) : Shape :=
  ⟨predicate.connector, predicate.isProtected, predicate.nullHazard⟩

/-- No NULL hazard, and no AND behind an OR in the part that is read as a chain. The
connector of the first predicate of that part does not count. -/
structure Agreeable (shapes : List Shape) : Prop where
  safe : ∀ shape ∈ shapes, shape.nullHazard = false
  ordered : Ordered ((freePart Shape.isProtected Shape.connective shapes).tail.map Shape.connective)

theorem agreeable_iff (shapes : List Shape) :
    Agreeable shapes ↔ (∀ shape ∈ shapes, shape.nullHazard = false) ∧
      Ordered ((freePart Shape.isProtected Shape.connective shapes).tail.map Shape.connective) :=
  ⟨fun agreeable => ⟨agreeable.safe, agreeable.ordered⟩, fun both => ⟨both.1, both.2⟩⟩

instance (shapes : List Shape) : Decidable (Agreeable shapes) :=
  decidable_of_iff' _ (agreeable_iff shapes)

/-- The row and the document have the same values, not NULL, in all columns of the predicates. -/
structure Stores (engine : Engine AttributeValue) (predicates : List Predicate)
    (row : Path → AttributeValue) (document : Bytes → AttributeValue) : Prop where
  same : ∀ predicate ∈ predicates,
    document (mongoName predicate.column) = row (segments predicate.column)
  present : ∀ predicate ∈ predicates, engine.isNull (row (segments predicate.column)) = false
  sameOther : ∀ predicate ∈ predicates, predicate.kind = .columnComparison →
    document (mongoName predicate.otherColumn) = row (segments predicate.otherColumn)
  presentOther : ∀ predicate ∈ predicates, predicate.kind = .columnComparison →
    engine.isNull (row (segments predicate.otherColumn)) = false

/-- The SQL and the command compiled from a plan select the same rows. -/
def SameRows (plan : QueryPlan) : Prop :=
  ∀ backend sql command, compileSql plan backend = .ok sql → compileMongodb plan = .ok command →
    ∀ engine row document, BindsNull engine → Stores engine plan.predicates row document →
      (sql.selects backend engine row ↔ command.selectsDocument engine document)

variable {plan : QueryPlan}

theorem columnOf_unjoined (unjoined : plan.joins = []) (predicate : Predicate) :
    plan.columnOf predicate = segments predicate.column := by
  rw [QueryPlan.columnOf, QueryPlan.joinedTable, if_pos unjoined]
  exact if_neg fun own => own.2.1 rfl

theorem holds_eq_holdsIn (unjoined : plan.joins = []) {engine : Engine AttributeValue}
    {row : Path → AttributeValue} {document : Bytes → AttributeValue} (binds : BindsNull engine)
    (stores : Stores engine plan.predicates row document) {predicate : Predicate}
    (member : predicate ∈ plan.predicates) (likeless : predicate.Likeless)
    (safe : predicate.nullHazard = false) :
    plan.holds engine row predicate = predicate.holdsIn engine document := by
  have column := stores.same predicate member
  have agrees := truth_iff_answer binds (stores.present predicate member)
    (stores.presentOther predicate member) likeless safe
  rw [QueryPlan.holds, Predicate.holdsIn, QueryPlan.truth, Predicate.answerIn,
    columnOf_unjoined unjoined, column, decide_eq_decide, agrees]
  by_cases kind : predicate.kind = .columnComparison
  · rw [stores.sameOther predicate member kind]
  · -- The second column is not read.
    unfold Predicate.answer
    cases other : predicate.kind with
    | columnComparison => exact absurd other kind
    | _ => rfl

theorem sameRows_of_agreeable (likeless : ∀ predicate ∈ plan.predicates, predicate.Likeless)
    (agreeable : Agreeable (plan.predicates.map Predicate.shape)) : SameRows plan := by
  intro backend sql command compiled stored engine row document binds stores
  have named : ∀ predicate ∈ plan.predicates, predicate.Named :=
    fun predicate member => (compileMongodb_each stored member).2
  have unjoined := (compileMongodb_cases stored).1
  have ordered : Ordered ((freePart Predicate.isProtected Predicate.connective
      plan.predicates).tail.map Predicate.connective) := by
    have shaped := agreeable.ordered
    rw [freePart_map, ← map_tail, map_map] at shaped
    exact shaped
  have same : ∀ predicate ∈ plan.predicates,
      plan.holds engine row predicate = predicate.holdsIn engine document :=
    fun predicate member => holds_eq_holdsIn unjoined binds stores member (likeless predicate member)
      (agreeable.safe _ (mem_map.mpr ⟨predicate, member, rfl⟩))
  rw [selects_compileSql compiled, whereSelects_clause, selectsDocument_compileMongodb stored,
    eval_filter_value engine document named likeless, Option.some_inj, scopedValue_congr _ _ _ _ same,
    scopedValue_ordered _ _ _ ordered]

end Gungnir.Orm
