import Gungnir.Orm.Mutation

/-!
# Statements with their values in place

The statement that a plan stands for, as a list of fixed texts, identifiers and
values, each value where it belongs. A compiled query is the rendering of this list:
the text has placeholders for the values, and the bindings are the values in the
order of the text.
-/

namespace Gungnir.Orm

open Gungnir.Core Gungnir.Library Gungnir.Library.Sql List

abbrev Pieces := List (Piece AttributeValue)

/-! ## Emission of pieces -/

/-- The statement continued by some pieces. -/
def CompiledQuery.extend (result : CompiledQuery) (backend : Backend) (pieces : Pieces) :
    CompiledQuery :=
  { result with
    text := result.text ++ render (dialectOf backend) result.bindings.length pieces
    bindings := result.bindings ++ values pieces }

variable {result after : CompiledQuery} {backend : Backend}

theorem extend_nil (result : CompiledQuery) (backend : Backend) : result.extend backend [] = result := by
  simp [CompiledQuery.extend, render, values]

theorem extend_extend (result : CompiledQuery) (backend : Backend) (first second : Pieces) :
    (result.extend backend first).extend backend second = result.extend backend (first ++ second) := by
  simp [CompiledQuery.extend, render_append, values_append]

theorem write_eq_extend (result : CompiledQuery) (backend : Backend) (text : Bytes) :
    result.write text = result.extend backend [.text text] := by
  simp [CompiledQuery.write, CompiledQuery.extend, render, values]

theorem placeholder_eq (backend : Backend) (index : Nat) :
    placeholder backend index = Sql.placeholder (dialectOf backend) index := by
  cases backend <;> rfl

theorem place_eq_extend (result : CompiledQuery) (backend : Backend) (value : AttributeValue) :
    result.place backend value = result.extend backend [.value value] := by
  simp [CompiledQuery.place, CompiledQuery.extend, render, values, placeholder_eq]

/-- What the computation returns, if it does, is the statement continued by the pieces. -/
def Emits (backend : Backend) (result : CompiledQuery) (pieces : Pieces)
    (written : Except Exception CompiledQuery) : Prop :=
  ∀ after, written = .ok after → after = result.extend backend pieces

namespace Emits

variable {pieces more : Pieces} {written other : Except Exception CompiledQuery}

theorem done : Emits backend result [] (.ok result) := by
  intro after done
  cases done
  exact (extend_nil result backend).symm

theorem failed {raised : Exception} : Emits backend result pieces (.error raised) := nofun

theorem behind {head : Pieces} (emits : Emits backend (result.extend backend head) more written) :
    Emits backend result (head ++ more) written :=
  fun after done => (emits after done).trans (extend_extend ..)

theorem write {text : Bytes} (emits : Emits backend (result.write text) more written) :
    Emits backend result (.text text :: more) written :=
  behind (write_eq_extend result backend text ▸ emits)

theorem place {value : AttributeValue}
    (emits : Emits backend (result.place backend value) more written) :
    Emits backend result (.value value :: more) written :=
  behind (place_eq_extend result backend value ▸ emits)

theorem bind {next : CompiledQuery → Except Exception CompiledQuery}
    (first : Emits backend result pieces written)
    (rest : ∀ middle, Emits backend middle more (next middle)) :
    Emits backend result (pieces ++ more) (written >>= next) := by
  intro after done
  obtain ⟨middle, emitted, continued⟩ := bind_eq_ok.mp done
  rw [rest middle after continued, first middle emitted, extend_extend]

theorem ite {condition : Prop} [Decidable condition]
    (yes : condition → Emits backend result pieces written)
    (no : ¬condition → Emits backend result more other) :
    Emits backend result (if condition then pieces else more)
      (if condition then written else other) := by
  by_cases holds : condition
  · rw [if_pos holds, if_pos holds]
    exact yes holds
  · rw [if_neg holds, if_neg holds]
    exact no holds

/-- A loop that writes its items writes their pieces with the separators between. -/
theorem separated {α : Type} {separator : α → Bytes}
    {emit : CompiledQuery → α → Except Exception CompiledQuery} {fragment : α → Pieces}
    (each : ∀ {result item}, Emits backend result (fragment item) (emit result item))
    {items : List α} :
    Emits backend result (separated separator fragment items)
      (appendSeparated separator emit result items) := by
  cases items with
  | nil => exact done
  | cons first rest =>
    refine each.bind fun middle => ?_
    induction rest generalizing middle with
    | nil => exact done
    | cons item rest ih => exact write (each.bind ih)

end Emits

theorem writePath_ok {path : Bytes} :
    Emits backend result (pathPieces (segments path)) (result.writePath backend path) := by
  intro after done
  obtain ⟨quoted, quoting, written⟩ := bind_eq_ok.mp done
  cases written
  simp only [CompiledQuery.write, CompiledQuery.extend, values_pathPieces, append_nil]
  rw [← quotePath_ok quoting]

theorem Emits.quoted (segment : Bytes) {next : Bytes → Except Exception CompiledQuery}
    {more : Pieces} (rest : ∀ quoted, Emits backend (result.write quoted) more (next quoted)) :
    Emits backend result (segmentPiece segment :: more) (quoteSegment backend segment >>= next) := by
  intro after done
  obtain ⟨quoted, quoting, continued⟩ := bind_eq_ok.mp done
  have written : result.write quoted = result.extend backend [segmentPiece segment] := by
    simp only [CompiledQuery.write, CompiledQuery.extend, values_segmentPiece, append_nil]
    rw [← (quoteSegment_ok quoting _).1]
  rw [rest quoted after continued, written, extend_extend]
  rfl

/-- A loop that finishes has written every item. -/
theorem appendSeparated_each {α : Type} {separator : α → Bytes}
    {emit : CompiledQuery → α → Except Exception CompiledQuery} {items : List α}
    (done : appendSeparated separator emit result items = .ok after) {item : α}
    (member : item ∈ items) : ∃ before written, emit before item = .ok written := by
  cases items with
  | nil => cases member
  | cons first rest =>
    obtain ⟨start, emitted, looped⟩ := bind_eq_ok.mp done
    rcases mem_cons.mp member with rfl | later
    · exact ⟨result, start, emitted⟩
    · obtain ⟨before, written, ran⟩ := foldlM_each looped later
      exact ⟨_, written, ran⟩

def pathsPieces (paths : List Bytes) : Pieces :=
  separated (fun _ => ascii ", ") (fun path => pathPieces (segments path)) paths

theorem appendPaths_ok {paths : List Bytes} :
    Emits backend result (pathsPieces paths) (appendPaths result backend paths) :=
  .separated writePath_ok

theorem appendPlaceholders_ok {items : List AttributeValue} :
    Emits backend result (separated (fun _ => ascii ", ") (fun item => [.value item]) items)
      (appendPlaceholders result backend items) :=
  .separated (.place .done)

/-! ## Predicates -/

def Comparison.operator : Comparison → Operator
  | .equal => .equal
  | .notEqual => .notEqual
  | .lessThan => .less
  | .lessOrEqual => .lessOrEqual
  | .greaterThan => .greater
  | .greaterOrEqual => .greaterOrEqual
  | .like => .like

def BooleanConnector.connective : BooleanConnector → Connective
  | .and => .and
  | .or => .or

variable (predicate : Predicate)

def Predicate.valueAt (index : Nat) : AttributeValue :=
  predicate.values.getD index .null

/-- The test a predicate stands for. Lists without values have no SQL form and become
constants. -/
def Predicate.test : Test AttributeValue :=
  let column := segments predicate.column
  match predicate.kind with
  | .comparison =>
    .compare predicate.comparison.operator (.column column) (.value (predicate.valueAt 0))
  | .columnComparison =>
    .compare predicate.comparison.operator (.column column)
      (.column (segments predicate.otherColumn))
  | .inList =>
    if predicate.values = [] then .compare .equal (.number 1) (.number 0)
    else .among false column predicate.values
  | .notInList =>
    if predicate.values = [] then .compare .equal (.number 1) (.number 1)
    else .among true column predicate.values
  | .between => .between false column (predicate.valueAt 0) (predicate.valueAt 1)
  | .notBetween => .between true column (predicate.valueAt 0) (predicate.valueAt 1)
  | .isNull => .isNull false column
  | .isNotNull => .isNull true column

def Predicate.link : Connective × Test AttributeValue :=
  (predicate.connector.connective, predicate.test)

/-- The values that the kind of a predicate asks for are there. -/
def Predicate.complete : Bool :=
  match predicate.kind with
  | .comparison => predicate.values ≠ []
  | .between => predicate.values.length = 2
  | .notBetween => predicate.values.length = 2
  | _ => true

theorem wellFormed_test : predicate.test.WellFormed := by
  have column := segments_ne_nil predicate.column
  have other := segments_ne_nil predicate.otherColumn
  unfold Predicate.test
  cases predicate.kind with
  | comparison => exact ⟨column, trivial, fun _ => ⟨_, rfl⟩⟩
  | columnComparison => exact ⟨column, other, fun _ => ⟨_, rfl⟩⟩
  | inList | notInList =>
    dsimp only
    split
    · exact ⟨trivial, trivial, nofun⟩
    · rename_i nonempty
      exact ⟨column, nonempty⟩
  | between | notBetween | isNull | isNotNull => exact column

theorem appendOperator_eq (result : CompiledQuery) (backend : Backend) (comparison : Comparison) :
    appendOperator result comparison =
      result.extend backend [.text (ascii " " ++ comparison.operator.text ++ ascii " ")] := by
  rw [appendOperator, write_eq_extend _ backend]
  cases comparison <;> rfl

theorem appendPredicate_ok {checks : PredicateChecks} {predicate : Predicate}
    (done : appendPredicate checks result backend predicate = .ok after) :
    after = result.extend backend predicate.test.pieces ∧ predicate.complete = true := by
  unfold appendPredicate at done
  split at done
  · rename_i constant
    cases done
    rw [write_eq_extend _ backend]
    rcases constant with ⟨kind | kind, empty⟩
    · simp only [Predicate.test, Predicate.complete, kind, empty]
      exact ⟨rfl, trivial⟩
    · simp only [Predicate.test, Predicate.complete, kind, empty]
      exact ⟨rfl, trivial⟩
  · rename_i listed
    obtain ⟨headed, named, tailed⟩ := bind_eq_ok.mp done
    have start := writePath_ok _ named
    cases kind : predicate.kind with
    | comparison =>
      simp only [kind] at tailed
      split at tailed
      · cases tailed
      · rename_i value rest given
        cases tailed
        rw [appendOperator_eq _ backend, place_eq_extend, start, extend_extend, extend_extend]
        simp [Predicate.test, Predicate.complete, Predicate.valueAt, kind, given, Test.pieces,
          Operand.pieces]
    | columnComparison =>
      simp only [kind] at tailed
      have written : (appendOperator headed predicate.comparison).writePath backend
          predicate.otherColumn = .ok after := by
        split at tailed
        · cases tailed
        · exact tailed
      rw [writePath_ok _ written, appendOperator_eq _ backend, start, extend_extend, extend_extend]
      simp [Predicate.test, Predicate.complete, kind, Test.pieces, Operand.pieces]
    | inList | notInList =>
      have given : predicate.values ≠ [] := fun empty => listed ⟨by simp [kind], empty⟩
      simp only [kind] at tailed
      obtain ⟨filled, placed, closed⟩ := bind_eq_ok.mp tailed
      cases closed
      rw [appendPlaceholders_ok _ placed, write_eq_extend _ backend, write_eq_extend _ backend,
        start, extend_extend, extend_extend, extend_extend]
      simp [Predicate.test, Predicate.complete, kind, given, Test.pieces]
    | between | notBetween =>
      simp only [kind] at tailed
      split at tailed
      · rename_i lower upper given
        cases tailed
        simp only [write_eq_extend _ backend, place_eq_extend, start, extend_extend]
        simp [Predicate.test, Predicate.complete, Predicate.valueAt, kind, given, Test.pieces]
      · cases tailed
    | isNull | isNotNull =>
      simp only [kind] at tailed
      cases tailed
      rw [write_eq_extend _ backend, start, extend_extend]
      simp [Predicate.test, Predicate.complete, kind, Test.pieces]

/-! ## Clauses -/

def linksOf (joinedTable : Bytes) (predicates : List Predicate) :
    List (Connective × Test AttributeValue) :=
  predicates.map fun predicate => (qualify joinedTable predicate).link

/-- The clause of a list of predicates: a mixed list has its protected predicates in
front and the user's in parentheses. -/
def predicateClause (joinedTable : Bytes) (predicates : List Predicate) : Clause AttributeValue :=
  if isMixed predicates then
    ⟨linksOf joinedTable (protectedPart predicates), linksOf joinedTable (userPart predicates)⟩
  else ⟨linksOf joinedTable predicates, []⟩

theorem qualify_link (joinedTable : Bytes) (predicate : Predicate) :
    (qualify joinedTable predicate).link.1 = predicate.connector.connective := by
  unfold qualify
  split <;> rfl

theorem qualify_complete (joinedTable : Bytes) (predicate : Predicate) :
    (qualify joinedTable predicate).complete = predicate.complete := by
  unfold qualify
  split <;> rfl

theorem qualify_nil : qualify [] predicate = predicate := by
  simp [qualify]

theorem connectorText_eq : connectorText predicate = predicate.connector.connective.text := by
  unfold connectorText
  cases predicate.connector <;> rfl

variable {predicates : List Predicate}

/-- The loop over predicates, for both emitters. -/
theorem appendChain_ok {checks : PredicateChecks} (joinedTable : Bytes) :
    Emits backend result (chainPieces (linksOf joinedTable predicates))
      (appendSeparated connectorText (fun result predicate =>
        appendPredicate checks result backend (qualify joinedTable predicate)) result predicates) := by
  have texts : (fun link : Connective × Test AttributeValue => link.1.text) ∘
      (fun predicate => (qualify joinedTable predicate).link) = connectorText := by
    funext predicate
    rw [connectorText_eq, Function.comp, qualify_link]
  rw [chainPieces, linksOf, separated_map, texts]
  refine .separated fun {_ _} => ?_
  exact fun _ emitted => (appendPredicate_ok emitted).1

theorem wellFormed_clause (joinedTable : Bytes) (nonempty : predicates ≠ []) :
    (predicateClause joinedTable predicates).WellFormed := by
  have formed : ∀ part : List Predicate, ∀ link ∈ linksOf joinedTable part, link.2.WellFormed := by
    intro part link member
    obtain ⟨predicate, _, rfl⟩ := mem_map.mp member
    exact wellFormed_test _
  unfold predicateClause
  split
  · rename_i mixed
    exact ⟨by simpa [linksOf] using protectedPart_ne_nil mixed, formed _, formed _⟩
  · exact ⟨by simpa [linksOf] using nonempty, formed _, nofun⟩

theorem innerPieces_ne_nil {links : List (Connective × Test AttributeValue)} (nonempty : links ≠ []) :
    innerPieces links = .text (ascii " AND (") :: (chainPieces links ++ [.text (ascii ")")]) := by
  cases links with
  | nil => exact absurd rfl nonempty
  | cons first rest => rfl

theorem pieces_predicateClause (joinedTable : Bytes) (predicates : List Predicate) :
    (predicateClause joinedTable predicates).pieces =
      if isMixed predicates then chainPieces (linksOf joinedTable (protectedPart predicates)) ++
        if userPart predicates = [] then [] else .text (ascii " AND (") ::
          (chainPieces (linksOf joinedTable (userPart predicates)) ++ [.text (ascii ")")])
      else chainPieces (linksOf joinedTable predicates) := by
  unfold predicateClause
  by_cases mixed : isMixed predicates = true
  · rw [if_pos mixed, if_pos mixed, Clause.pieces]
    split
    · rename_i noUser
      simp [noUser, innerPieces, linksOf]
    · rename_i someUser
      rw [innerPieces_ne_nil (by simpa [linksOf] using someUser)]
  · rw [if_neg mixed, if_neg mixed]
    simp [Clause.pieces, innerPieces]

theorem appendPredicates_ok {joinedTable : Bytes} :
    Emits backend result (predicateClause joinedTable predicates).pieces
      (appendPredicates result backend predicates joinedTable) := by
  rw [pieces_predicateClause]
  refine .ite (fun _ => .bind (appendChain_ok _) fun _ => ?_) fun _ => appendChain_ok _
  exact .ite (fun _ => .done) fun _ => .write (.bind (appendChain_ok _) fun _ => .write .done)

theorem appendWhereList_ok :
    Emits backend result (.text (ascii " WHERE ") :: chainPieces (linksOf [] predicates))
      (appendWhereList result backend predicates) := by
  have chain := @appendChain_ok (result.write (ascii " WHERE ")) backend predicates mutationChecks []
  simp only [qualify_nil] at chain
  exact .write chain

def wherePieces (joinedTable : Bytes) (predicates : List Predicate) : Pieces :=
  if predicates = [] then []
  else .text (ascii " WHERE ") :: (predicateClause joinedTable predicates).pieces

/-- Copying a statement without its leading word continues the statement before it. -/
theorem splice_extend (result : CompiledQuery) (backend : Backend) (chain : Pieces) :
    let nested : CompiledQuery :=
      ({ bindings := result.bindings } : CompiledQuery).extend backend
        (.text (ascii " WHERE ") :: chain)
    { result with
      text := result.text ++ (ascii " AND (" ++ nested.text.drop 7 ++ ascii ")")
      bindings := nested.bindings } =
      result.extend backend (.text (ascii " AND (") :: (chain ++ [.text (ascii ")")])) := by
  have word : (ascii " WHERE ").length = 7 := by decide
  simp only [CompiledQuery.extend, render, values, render_append, values_append, nil_append,
    append_nil]
  rw [drop_left' word]
  simp only [append_assoc]

/-- The mutations write the WHERE clause of the selection. -/
theorem appendWhereSql_ok :
    Emits backend result (wherePieces [] predicates) (appendWhereSql result predicates backend) := by
  refine .ite (fun _ => .done) fun _ => ?_
  rw [pieces_predicateClause, apply_ite (cons _)]
  refine .ite (fun _ => .bind appendWhereList_ok fun middle => .ite (fun _ => .done) fun _ => ?_)
    fun _ => appendWhereList_ok
  intro after done
  obtain ⟨nested, emitted, closed⟩ := bind_eq_ok.mp done
  cases closed
  rw [appendWhereList_ok _ emitted]
  exact splice_extend middle backend _

end Gungnir.Orm
