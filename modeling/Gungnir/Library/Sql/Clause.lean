import Gungnir.Library.Sql.Condition

/-!
# Written conditions and WHERE clauses

Tests and clauses as pieces of a statement. The reader gives back what was written:
each test with its values in place, a chain by precedence, a chain in parentheses as
one condition, and the WHERE clause of a whole statement.
-/

namespace Gungnir.Library.Sql

open List

/-! ## Writing -/

section Writing

variable {V : Type*}

def Operator.text : Operator → List UInt8
  | .equal => ascii "="
  | .notEqual => ascii "<>"
  | .less => ascii "<"
  | .lessOrEqual => ascii "<="
  | .greater => ascii ">"
  | .greaterOrEqual => ascii ">="
  | .like => ascii "LIKE"

def star : List UInt8 := ascii "*"

def segmentPiece (segment : List UInt8) : Piece V :=
  if segment = star then .text star else .name segment

def pathPieces (path : Path) : List (Piece V) :=
  separated (fun _ => ascii ".") (fun segment => [segmentPiece segment]) path

def Operand.pieces : Operand V → List (Piece V)
  | .column path => pathPieces path
  | .value bound => [.value bound]
  | .number literal => [.text (Decimal.print literal)]

def Test.pieces : Test V → List (Piece V)
  | .compare operator left right =>
    left.pieces ++ .text (ascii " " ++ operator.text ++ ascii " ") :: right.pieces
  | .among negated column items =>
    pathPieces column ++ .text (if negated then ascii " NOT IN (" else ascii " IN (") ::
      (separated (fun _ => ascii ", ") (fun item => [.value item]) items ++ [.text (ascii ")")])
  | .between negated column lower upper =>
    pathPieces column ++ [.text (if negated then ascii " NOT BETWEEN " else ascii " BETWEEN "),
      .value lower, .text (ascii " AND "), .value upper]
  | .isNull negated column =>
    pathPieces column ++ [.text (if negated then ascii " IS NOT NULL" else ascii " IS NULL")]

def Operand.WellFormed : Operand V → Prop
  | .column path => path ≠ []
  | _ => True

/-- A test that can be read back. Only columns can stand before a word. -/
def Test.WellFormed : Test V → Prop
  | .compare operator left right =>
    left.WellFormed ∧ right.WellFormed ∧ (operator = .like → ∃ path, left = .column path)
  | .among _ column items => column ≠ [] ∧ items ≠ []
  | .between _ column _ _ => column ≠ []
  | .isNull _ column => column ≠ []

end Writing

/-! ## Reading back -/

section ReadingBack

variable {V : Type*} (quotes : Quotes) {rest : List (Token V)}

/-- What follows does not continue a path. -/
def Apart (rest : List (Token V)) : Prop := ∀ after, rest ≠ .mark 46 :: after

variable (segment : List UInt8)

def segmentToken : Token V :=
  if segment = star then .mark 42 else .quoted segment

theorem tokens_segmentPiece (more : List (Piece V)) :
    tokens quotes (segmentPiece segment :: more) = segmentToken segment :: tokens quotes more := by
  rw [segmentPiece, segmentToken]
  split
  · cases quotes <;> rfl
  · rfl

theorem tokens_path_single :
    tokens quotes (pathPieces [segment] : List (Piece V)) = [segmentToken segment] :=
  tokens_segmentPiece quotes segment []

theorem tokens_path_cons (first second : List UInt8) (more : Path) :
    tokens quotes (pathPieces (first :: second :: more) : List (Piece V)) =
      segmentToken first :: .mark 46 :: tokens quotes (pathPieces (second :: more)) := by
  have point : (textTokens quotes (ascii ".") : List (Token V)) = [.mark 46] := by
    cases quotes <;> rfl
  have split : (pathPieces (first :: second :: more) : List (Piece V)) =
      segmentPiece first :: .text (ascii ".") :: pathPieces (second :: more) := by
    simp [pathPieces, separated]
  rw [split, tokens_segmentPiece, tokens, point]
  rfl

theorem readPath_single (apart : Apart rest) :
    readPath (segmentToken segment :: rest) = some ([segment], rest) := by
  rw [segmentToken]
  split
  · rename_i isStar
    rw [isStar, readPath.eq_def]
    split <;> simp_all [Apart, star, ascii]
  · rw [readPath.eq_def]
    split <;> simp_all [Apart]

theorem readPath_cons (tail : List (Token V)) :
    readPath (segmentToken segment :: .mark 46 :: tail) =
      (readPath tail).map fun found => (segment :: found.1, found.2) := by
  rw [segmentToken]
  split
  · rename_i isStar
    rw [isStar, readPath]
    rfl
  · rw [readPath]

theorem readPath_tokens {path : Path} (nonempty : path ≠ []) (apart : Apart rest) :
    readPath (tokens quotes (pathPieces path) ++ rest) = some (path, rest) := by
  cases path with
  | nil => exact absurd rfl nonempty
  | cons first more =>
    clear nonempty
    induction more generalizing first with
    | nil =>
      rw [tokens_path_single]
      exact readPath_single first apart
    | cons second more ih =>
      rw [tokens_path_cons, cons_append, cons_append, readPath_cons, ih second]
      rfl

theorem readOperand_path {path : Path} (nonempty : path ≠ []) (apart : Apart rest) :
    readOperand (tokens quotes (pathPieces path) ++ rest) = some (.column path, rest) := by
  have read := readPath_tokens quotes nonempty apart
  have starts : ∃ segment tail,
      tokens quotes (pathPieces path) ++ rest = segmentToken segment :: tail := by
    cases path with
    | nil => exact absurd rfl nonempty
    | cons first more =>
      cases more with
      | nil => exact ⟨first, rest, by rw [tokens_path_single]; rfl⟩
      | cons second more => exact ⟨first, _, by rw [tokens_path_cons, cons_append]⟩
  obtain ⟨segment, tail, starts⟩ := starts
  rw [starts] at read ⊢
  have unread : readOperand (segmentToken segment :: tail) =
      (readPath (segmentToken segment :: tail)).map fun found => (.column found.1, found.2) := by
    rw [segmentToken]
    split <;> rfl
  rw [unread, read]
  rfl

theorem tokens_digits (value : Nat) :
    (textTokens quotes (Decimal.print value) : List (Token V)) = [.number (Decimal.print value)] := by
  rw [textTokens, lex, lexFrom, lex_print]
  rfl

theorem readOperand_tokens {operand : Operand V} (wellFormed : operand.WellFormed)
    (apart : Apart rest) :
    readOperand (tokens quotes operand.pieces ++ rest) = some (operand, rest) := by
  cases operand with
  | column path => exact readOperand_path quotes wellFormed apart
  | value bound => rfl
  | number literal =>
    have printed : Decimal.valueFrom 0 (Decimal.print literal) = some literal :=
      Decimal.valueFrom_printFuel _ _ (Nat.le_refl _)
    rw [Operand.pieces, tokens, tokens_digits]
    change (Decimal.valueFrom 0 (Decimal.print literal)).map _ = _
    rw [printed]
    rfl

theorem tokens_items (first : V) (more : List V) :
    tokens quotes (separated (fun _ => ascii ", ") (fun item => [.value item]) (first :: more)) =
      .value first :: more.flatMap fun item => [.mark 44, .value item] := by
  have comma : (textTokens quotes (ascii ", ") : List (Token V)) = [.mark 44] := by
    cases quotes <;> rfl
  have later : tokens quotes (more.flatMap fun item => [.text (ascii ", "), .value item]) =
      more.flatMap fun item => [.mark 44, .value item] := by
    induction more with
    | nil => rfl
    | cons item more ih =>
      rw [flatMap_cons, flatMap_cons, tokens_append, ih, tokens, comma]
      rfl
  rw [separated, tokens_append, later]
  rfl

theorem readItems_tokens {items : List V} (nonempty : items ≠ []) :
    readItems (tokens quotes (separated (fun _ => ascii ", ") (fun item => [.value item]) items) ++
      .mark 41 :: rest) = some (items, rest) := by
  cases items with
  | nil => exact absurd rfl nonempty
  | cons first more =>
    clear nonempty
    rw [tokens_items]
    induction more generalizing first with
    | nil => rfl
    | cons second more ih =>
      change (readItems (.value second ::
        (more.flatMap fun item => [.mark 44, .value item]) ++ .mark 41 :: rest)).map _ = _
      rw [ih second]
      rfl

theorem apart_word (word : List UInt8) (rest : List (Token V)) : Apart (.word word :: rest) :=
  nofun

/-- A comparison is read back once its left side is. -/
theorem readTest_compare {operator : Operator} {left right : Operand V}
    (wellFormed : (Test.compare operator left right).WellFormed) (apart : Apart rest) :
    readTest (tokens quotes (Test.compare operator left right).pieces ++ rest) =
      some (.compare operator left right, rest) := by
  obtain ⟨leftFormed, rightFormed, like⟩ := wellFormed
  have read := readOperand_tokens quotes rightFormed apart
  rw [Test.pieces, tokens_append, tokens, append_assoc, append_assoc, readTest]
  by_cases isLike : operator = .like
  · obtain ⟨path, rfl⟩ := like isLike
    have sign : (textTokens quotes (ascii " " ++ operator.text ++ ascii " ") : List (Token V)) =
        [.word wordLike] := by
      rw [isLike]
      cases quotes <;> rfl
    rw [sign, singleton_append, readOperand_tokens quotes leftFormed (apart_word _ _)]
    change readRight .like (.column path) _ = _
    rw [readRight, read, isLike]
    rfl
  · have sign : (textTokens quotes (ascii " " ++ operator.text ++ ascii " ") : List (Token V)) =
        [.symbol operator.text] := by
      cases operator with
      | like => exact absurd rfl isLike
      | _ => cases quotes <;> rfl
    have signs : operatorOf operator.text = some operator := by
      cases operator with
      | like => exact absurd rfl isLike
      | _ => rfl
    rw [sign, singleton_append, readOperand_tokens quotes leftFormed
      (show Apart (.symbol _ :: _) from fun _ same => by cases same)]
    simp only [readTail, signs, readRight, read]
    rfl

variable {test : Test V}

theorem readTest_tokens (wellFormed : test.WellFormed) (apart : Apart rest) :
    readTest (tokens quotes test.pieces ++ rest) = some (test, rest) := by
  cases test with
  | compare operator left right => exact readTest_compare quotes wellFormed apart
  | among negated column items =>
    obtain ⟨named, nonempty⟩ := wellFormed
    have close : (tokens quotes [(.text (ascii ")") : Piece V)]) = [.mark 41] := by
      cases quotes <;> rfl
    have listed : readItems (_ ++ .mark 41 :: rest) = some (items, rest) :=
      readItems_tokens quotes nonempty
    have opening : (textTokens quotes (if negated then ascii " NOT IN (" else ascii " IN (") :
        List (Token V)) = .word (if negated then wordNot else wordIn) ::
          if negated then [.word wordIn, .mark 40] else [.mark 40] := by
      cases negated <;> cases quotes <;> rfl
    rw [Test.pieces, tokens_append, tokens, tokens_append, close, opening, append_assoc,
      cons_append, cons_append, readTest, readOperand_path quotes named (apart_word _ _)]
    cases negated with
    | false | true =>
      change (readItems ((_ ++ [.mark 41]) ++ rest)).map _ = _
      rw [append_assoc, singleton_append, listed]
      rfl
  | between negated column lower upper =>
    have opening : tokens quotes [.text (if negated then ascii " NOT BETWEEN " else
        ascii " BETWEEN "), .value lower, .text (ascii " AND "), .value upper] =
        .word (if negated then wordNot else wordBetween) :: ((if negated then [.word wordBetween]
          else []) ++ [.value lower, .word wordAnd, .value upper]) := by
      cases negated <;> cases quotes <;> rfl
    rw [Test.pieces, tokens_append, append_assoc, readTest, opening, cons_append,
      readOperand_path quotes wellFormed (apart_word _ _)]
    cases negated <;> rfl
  | isNull negated column =>
    have ending : tokens quotes [(.text (if negated then ascii " IS NOT NULL" else
        ascii " IS NULL") : Piece V)] =
        .word wordIs :: if negated then [.word wordNot, .word wordNull] else [.word wordNull] := by
      cases negated <;> cases quotes <;> rfl
    rw [Test.pieces, tokens_append, append_assoc, readTest, ending, cons_append,
      readOperand_path quotes wellFormed (apart_word _ _)]
    cases negated <;> rfl

/-- With enough fuel the tokens are read as the condition, whatever follows. -/
def Reads (need : Nat) (written : List (Token V)) (condition : Condition V) : Prop :=
  ∀ fuel rest, need ≤ fuel → Apart rest → readPrimary fuel (written ++ rest) = some (condition, rest)

theorem readPrimary_test {tokens : List (Token V)} (read : readTest tokens = some (test, rest))
    (fuel : Nat) : readPrimary (fuel + 1) tokens = some (.atom test, rest) := by
  rw [readPrimary.eq_def]
  split
  · rename_i impossible
    cases impossible
  · cases read
  · simp only [read, Option.map_some]

theorem reads_test (wellFormed : test.WellFormed) :
    Reads 1 (tokens quotes test.pieces) (.atom test) := by
  intro fuel rest enough apart
  obtain ⟨fuel, rfl⟩ := Nat.exists_eq_succ_of_ne_zero (by omega : fuel ≠ 0)
  exact readPrimary_test (readTest_tokens quotes wellFormed apart) fuel

/-- What follows continues neither a path nor a chain. -/
structure Ends (rest : List (Token V)) : Prop where
  apart : Apart rest
  unlinked : ∀ word after, rest = .word word :: after → word ≠ wordAnd ∧ word ≠ wordOr

theorem readLinks_ends (ends : Ends rest) (fuel : Nat) :
    readLinks (fuel + 1) rest = some ([], rest) := by
  cases rest with
  | nil => rfl
  | cons token after =>
    cases token with
    | word text =>
      obtain ⟨notAnd, notOr⟩ := ends.unlinked text after rfl
      rw [readLinks, if_neg notAnd, if_neg notOr]
    | _ => rfl

def Connective.word : Connective → List UInt8
  | .and => wordAnd
  | .or => wordOr

/-- A link of a chain: its connective, its tokens and what they are read as. -/
structure Link (V : Type*) where
  connective : Connective
  written : List (Token V)
  condition : Condition V

def Link.tokens (link : Link V) : List (Token V) := .word link.connective.word :: link.written

def Link.pair (link : Link V) : Connective × Condition V := (link.connective, link.condition)

theorem apart_links (links : List (Link V)) (apart : Apart rest) :
    Apart (links.flatMap Link.tokens ++ rest) := by
  cases links with
  | nil => exact apart
  | cons link links => exact nofun

variable {need fuel : Nat}

theorem readLinks_cons {link : Link V} {after : List (Token V)}
    (reads : Reads need link.written link.condition) (enough : need ≤ fuel) (apart : Apart after) :
    readLinks (fuel + 1) (link.tokens ++ after) =
      (readLinks fuel after).map fun found => (link.pair :: found.1, found.2) := by
  have here := reads fuel after enough apart
  rw [Link.tokens, cons_append, readLinks]
  cases connective : link.connective with
  | and | or =>
    rw [Connective.word, if_pos rfl, here, Link.pair, connective]
    change (readLinks fuel after).bind _ = _
    cases readLinks fuel after <;> rfl

variable {links : List (Link V)}

theorem readLinks_chain (each : ∀ link ∈ links, Reads need link.written link.condition)
    (ends : Ends rest) (enough : need + links.length < fuel) :
    readLinks fuel (links.flatMap Link.tokens ++ rest) = some (links.map Link.pair, rest) := by
  induction links generalizing fuel with
  | nil =>
    obtain ⟨fuel, rfl⟩ := Nat.exists_eq_succ_of_ne_zero (by omega : fuel ≠ 0)
    exact readLinks_ends ends fuel
  | cons link links ih =>
    rw [length_cons] at enough
    obtain ⟨fuel, rfl⟩ := Nat.exists_eq_succ_of_ne_zero (by omega : fuel ≠ 0)
    rw [flatMap_cons, append_assoc,
      readLinks_cons (each link mem_cons_self) (by omega) (apart_links links ends.apart),
      ih (forall_mem_cons.mp each).2 (by omega)]
    rfl

variable {written : List (Token V)} {first : Condition V}

theorem readExpression_chain (reads : Reads need written first)
    (each : ∀ link ∈ links, Reads need link.written link.condition) (ends : Ends rest)
    (enough : need + links.length + 1 < fuel) :
    readExpression fuel (written ++ (links.flatMap Link.tokens ++ rest)) =
      some (precedence first (links.map Link.pair), rest) := by
  obtain ⟨fuel, rfl⟩ := Nat.exists_eq_succ_of_ne_zero (by omega : fuel ≠ 0)
  rw [readExpression, reads fuel _ (by omega) (apart_links links ends.apart)]
  change (readLinks fuel _).bind _ = _
  rw [readLinks_chain each ends (by omega)]
  rfl

theorem reads_parentheses (reads : Reads need written first)
    (each : ∀ link ∈ links, Reads need link.written link.condition) :
    Reads (need + links.length + 3)
      (.mark 40 :: (written ++ (links.flatMap Link.tokens ++ [.mark 41])))
      (precedence first (links.map Link.pair)) := by
  intro fuel rest enough _
  obtain ⟨fuel, rfl⟩ := Nat.exists_eq_succ_of_ne_zero (by omega : fuel ≠ 0)
  have inside : readExpression fuel _ = some (_, .mark 41 :: rest) :=
    readExpression_chain reads each ⟨nofun, nofun⟩ (by omega)
  rw [cons_append, append_assoc, append_assoc, singleton_append, readPrimary,
    inside]
  rfl

theorem Reads.mono {more : Nat} {condition : Condition V} (reads : Reads need written condition)
    (less : need ≤ more) : Reads more written condition :=
  fun fuel rest enough => reads fuel rest (Nat.le_trans less enough)

end ReadingBack

/-! ## Clauses

A chain of tests, which may end in a second chain in parentheses. The connective of the
first test of a chain is not written. -/

structure Clause (V : Type*) where
  links : List (Connective × Test V)
  inner : List (Connective × Test V)

section Clauses

variable {V : Type*}

def Connective.text : Connective → List UInt8
  | .and => ascii " AND "
  | .or => ascii " OR "

def chainPieces (links : List (Connective × Test V)) : List (Piece V) :=
  separated (fun link => link.1.text) (fun link => link.2.pieces) links

def innerPieces : List (Connective × Test V) → List (Piece V)
  | [] => []
  | inner => .text (ascii " AND (") :: (chainPieces inner ++ [.text (ascii ")")])

def Clause.pieces (clause : Clause V) : List (Piece V) :=
  chainPieces clause.links ++ innerPieces clause.inner

def atoms (links : List (Connective × Test V)) : List (Connective × Condition V) :=
  links.map fun link => (link.1, .atom link.2)

/-- The condition of a chain, whose first test the caller has split off. -/
def chainCondition (first : Connective × Test V) (rest : List (Connective × Test V)) : Condition V :=
  precedence (.atom first.2) (atoms rest)

def innerLinks : List (Connective × Test V) → List (Connective × Condition V)
  | [] => []
  | first :: rest => [(.and, chainCondition first rest)]

def Clause.condition (clause : Clause V) : Option (Condition V) :=
  match clause.links with
  | [] => none
  | first :: rest => some (precedence (.atom first.2) (atoms rest ++ innerLinks clause.inner))

theorem Clause.exists_condition {clause : Clause V} (nonempty : clause.links ≠ []) :
    ∃ condition, clause.condition = some condition := by
  obtain ⟨links, inner⟩ := clause
  cases links with
  | nil => exact absurd rfl nonempty
  | cons first rest => exact ⟨_, rfl⟩

/-- A chain of tests with its links true or not. -/
def testsHold (engine : Engine V) (row : Path → V) (links : List (Connective × Test V)) :
    List (Connective × Bool) :=
  links.map fun link => (link.1, decide (link.2.truth engine row = some true))

theorem selects_chain (engine : Engine V) (row : Path → V) (first : Connective × Test V)
    (rest : List (Connective × Test V)) :
    (chainCondition first rest).selects engine row ↔
      chainHolds (decide (first.2.truth engine row = some true)) (testsHold engine row rest) = true := by
  rw [chainCondition, selects_precedence, atoms, map_map]
  rfl

/-- If the outer chain has no OR, a row must pass every test of it, and the parenthesised
part. -/
theorem Clause.selects_and {clause : Clause V} {condition : Condition V} {engine : Engine V}
    {row : Path → V} (isCondition : clause.condition = some condition)
    (conjunctive : ∀ link ∈ clause.links, link.1 = .and) :
    condition.selects engine row ↔
      (∀ link ∈ clause.links, link.2.truth engine row = some true) ∧
      ∀ first rest, clause.inner = first :: rest → (chainCondition first rest).selects engine row := by
  obtain ⟨links, inner⟩ := clause
  cases links with
  | nil => cases isCondition
  | cons first more =>
    cases isCondition
    have allAnd : ∀ link ∈ (atoms more ++ innerLinks inner).map fun link =>
        (link.1, decide (link.2.selects engine row)), link.1 = .and := by
      simp only [mem_map, mem_append]
      rintro _ ⟨link, inChain | inParentheses, rfl⟩
      · obtain ⟨source, member, rfl⟩ := mem_map.mp inChain
        exact conjunctive source (mem_cons_of_mem _ member)
      · cases inner with
        | nil => cases inParentheses
        | cons head tail => exact congrArg Prod.fst (mem_singleton.mp inParentheses)
    rw [selects_precedence, chainHolds_and allAnd, decide_eq_true_eq, forall_mem_map,
      forall_mem_append, forall_mem_cons, and_assoc]
    refine and_congr Iff.rfl (and_congr ?_ ?_)
    · rw [atoms, forall_mem_map]
      exact forall₂_congr fun link _ => decide_eq_true_iff
    · cases inner with
      | nil => simp [innerLinks]
      | cons head tail =>
        simp only [innerLinks, mem_singleton, forall_eq, decide_eq_true_eq, cons.injEq,
          and_imp]
        constructor
        · rintro selected _ _ rfl rfl
          exact selected
        · exact fun selected => selected head tail rfl rfl

structure Clause.WellFormed (clause : Clause V) : Prop where
  nonempty : clause.links ≠ []
  links : ∀ link ∈ clause.links, link.2.WellFormed
  inner : ∀ link ∈ clause.inner, link.2.WellFormed

variable (quotes : Quotes)

def testLink (link : Connective × Test V) : Link V :=
  ⟨link.1, tokens quotes link.2.pieces, .atom link.2⟩

theorem pair_testLink (links : List (Connective × Test V)) :
    (links.map (testLink quotes)).map Link.pair = atoms links := by
  rw [map_map]
  rfl

theorem tokens_chain (first : Connective × Test V) (rest : List (Connective × Test V)) :
    tokens quotes (chainPieces (first :: rest)) =
      tokens quotes first.2.pieces ++ (rest.map (testLink quotes)).flatMap Link.tokens := by
  have joint : ∀ connective : Connective,
      (textTokens quotes connective.text : List (Token V)) = [.word connective.word] := by
    intro connective
    cases connective <;> cases quotes <;> rfl
  rw [chainPieces, separated, tokens_append]
  congr 1
  induction rest with
  | nil => rfl
  | cons link rest ih =>
    rw [flatMap_cons, tokens_append, ih, tokens, joint]
    rfl

theorem reads_testLinks {links : List (Connective × Test V)}
    (wellFormed : ∀ link ∈ links, link.2.WellFormed) :
    ∀ link ∈ links.map (testLink quotes), Reads 1 link.written link.condition :=
  forall_mem_map.mpr fun source member => reads_test quotes (wellFormed source member)

/-- The parenthesised part as a link of the outer chain. -/
def innerLink : List (Connective × Test V) → List (Link V)
  | [] => []
  | first :: rest =>
    [⟨.and, .mark 40 :: (tokens quotes (chainPieces (first :: rest)) ++ [.mark 41]),
      chainCondition first rest⟩]

theorem tokens_inner (inner : List (Connective × Test V)) :
    tokens quotes (innerPieces inner) = (innerLink quotes inner).flatMap Link.tokens := by
  cases inner with
  | nil => rfl
  | cons first rest =>
    have opening : (textTokens quotes (ascii " AND (") : List (Token V)) =
        [.word wordAnd, .mark 40] := by
      cases quotes <;> rfl
    have closing : tokens quotes [(.text (ascii ")") : Piece V)] = [.mark 41] := by
      cases quotes <;> rfl
    rw [innerPieces, tokens, tokens_append, opening, closing]
    · simp [innerLink, Link.tokens, Connective.word]
    · exact cons_ne_nil _ _

theorem reads_innerLink {inner : List (Connective × Test V)}
    (wellFormed : ∀ link ∈ inner, link.2.WellFormed) :
    ∀ link ∈ innerLink quotes inner, Reads (inner.length + 3) link.written link.condition := by
  cases inner with
  | nil => exact nofun
  | cons first rest =>
    intro link member
    rw [innerLink, mem_singleton] at member
    subst member
    have inside := reads_parentheses (reads_test quotes (wellFormed first mem_cons_self))
      (reads_testLinks quotes (forall_mem_cons.mp wellFormed).2)
    rw [length_map, pair_testLink] at inside
    rw [tokens_chain, append_assoc]
    exact inside.mono (by rw [length_cons]; omega)

theorem pair_innerLink (inner : List (Connective × Test V)) :
    (innerLink quotes inner).map Link.pair = innerLinks inner := by
  cases inner <;> rfl

theorem readExpression_clause {clause : Clause V} (wellFormed : clause.WellFormed)
    {rest : List (Token V)} (ends : Ends rest) {fuel : Nat}
    (enough : clause.links.length + clause.inner.length + 5 < fuel) :
    ∃ condition, clause.condition = some condition ∧
      readExpression fuel (tokens quotes clause.pieces ++ rest) = some (condition, rest) := by
  obtain ⟨links, inner⟩ := clause
  cases links with
  | nil => exact absurd rfl wellFormed.nonempty
  | cons first more =>
    refine ⟨_, rfl, ?_⟩
    have outer : ∀ link ∈ more.map (testLink quotes) ++ innerLink quotes inner,
        Reads (inner.length + 3) link.written link.condition := by
      intro link member
      rcases mem_append.mp member with isTest | isInner
      · exact (reads_testLinks quotes (forall_mem_cons.mp wellFormed.links).2 link isTest).mono (by omega)
      · exact reads_innerLink quotes wellFormed.inner link isInner
    have one : (innerLink quotes inner).length ≤ 1 := by cases inner <;> simp [innerLink]
    have read := readExpression_chain
      ((reads_test quotes (wellFormed.links first mem_cons_self)).mono (by omega)) outer ends
      (by
        rw [length_append, length_map]
        simp only [length_cons] at enough
        omega : inner.length + 3 + _ + 1 < fuel)
    rw [map_append, pair_testLink, pair_innerLink] at read
    rw [Clause.pieces, tokens_append, tokens_chain, tokens_inner]
    simp only [flatMap_append, append_assoc] at read ⊢
    exact read

/-! ## The WHERE clause of a statement -/

def wordWhere : List UInt8 := ascii "WHERE"

/-- The tokens that may follow a WHERE clause. -/
def endsClause : List (Token V) → Bool
  | .mark byte :: _ => byte = 59
  | .word word :: _ =>
    word ∈ [ascii "GROUP", ascii "HAVING", ascii "ORDER", ascii "LIMIT", ascii "OFFSET", ascii "FOR"]
  | _ => false

/-- The condition behind the first WHERE, or `some none` for a statement without WHERE. -/
def readWhere : List (Token V) → Option (Option (Condition V))
  | [] => some none
  | .word word :: rest =>
    if word = wordWhere then
      match readExpression (2 * rest.length + 7) rest with
      | some (condition, after) => if endsClause after then some (some condition) else none
      | none => none
    else readWhere rest
  | _ :: rest => readWhere rest

theorem ends_of_endsClause {rest : List (Token V)} (ended : endsClause rest = true) : Ends rest := by
  cases rest with
  | nil => cases ended
  | cons token after =>
    cases token with
    | mark byte =>
      have semicolon : byte = 59 := of_decide_eq_true ended
      subst semicolon
      exact ⟨nofun, nofun⟩
    | word text =>
      refine ⟨nofun, fun word after same => ?_⟩
      cases same
      simp only [endsClause, mem_cons, not_mem_nil, or_false, decide_eq_true_eq] at ended
      rcases ended with rfl | rfl | rfl | rfl | rfl | rfl <;> decide
    | _ => cases ended

variable {before : List (Token V)}

/-- What looks for a word does not see what is before it. -/
theorem search_append {β : Type*} {scan : List (Token V) → β} {word : List UInt8}
    (skips : ∀ token rest, token ≠ .word word → scan (token :: rest) = scan rest)
    (absent : .word word ∉ before) (rest : List (Token V)) : scan (before ++ rest) = scan rest := by
  induction before with
  | nil => rfl
  | cons token before ih =>
    rw [cons_append, skips token _ fun same => absent (same ▸ mem_cons_self)]
    exact ih fun member => absent (mem_cons_of_mem _ member)

theorem readWhere_append (absent : .word wordWhere ∉ before) (rest : List (Token V)) :
    readWhere (before ++ rest) = readWhere rest := by
  refine search_append (fun token rest other => ?_) absent rest
  cases token with
  | word text => rw [readWhere, if_neg (mt (congrArg Token.word) other)]
  | _ => rfl

/-- None of the words stands in the pieces, except in names and values. -/
def Lacks (words : List (List UInt8)) (quotes : Quotes) (pieces : List (Piece V)) : Prop :=
  ∀ word ∈ words, .word word ∉ tokens quotes pieces

/-- The words that open the clauses of a statement which are read back. -/
def clauseWords : List (List UInt8) := [wordWhere, ascii "LIMIT", ascii "OFFSET", ascii "NEXT"]

namespace Lacks

variable {words : List (List UInt8)} {quotes : Quotes}

theorem append {first second : List (Piece V)} (left : Lacks words quotes first)
    (right : Lacks words quotes second) : Lacks words quotes (first ++ second) := by
  intro word known member
  rw [tokens_append] at member
  rcases mem_append.mp member with inFirst | inSecond
  · exact left word known inFirst
  · exact right word known inSecond

theorem text {bytes : List UInt8} (absent : ∀ word ∈ words, .word word ∉ lex quotes bytes) :
    Lacks words quotes [(.text bytes : Piece V)] := by
  intro word known member
  simp only [tokens, textTokens, append_nil, mem_filterMap] at member
  obtain ⟨lexeme, found, token⟩ := member
  cases lexeme with
  | word other =>
    cases token
    exact absent _ known found
  | _ => cases token

end Lacks

/-- Pieces that are spaced and lack the words, however names are quoted. -/
structure Plain (words : List (List UInt8)) (before after : Bool) (pieces : List (Piece V)) : Prop where
  spaced : ∀ quotes, Spaced quotes before after pieces
  lacks : ∀ quotes, Lacks words quotes pieces

/-- The check of one fixed text, to be decided. -/
def plainText (words : List (List UInt8)) (before after : Bool) (bytes : List UInt8) : Bool :=
  [Quotes.double, .backtick, .bracket].all fun quotes =>
    keepsApart quotes before after bytes && words.all fun word => .word word ∉ lex quotes bytes

theorem plainText_iff {words : List (List UInt8)} {before after : Bool} {bytes : List UInt8} :
    plainText words before after bytes = true ↔ ∀ quotes,
      keepsApart quotes before after bytes = true ∧ ∀ word ∈ words, .word word ∉ lex quotes bytes := by
  simp only [plainText, all_eq_true, Bool.and_eq_true, decide_eq_true_eq]
  constructor
  · intro check quotes
    exact check quotes (by cases quotes <;> decide)
  · exact fun check quotes _ => check quotes

theorem plainText_mark (words : List (List UInt8)) {before after : Bool} {bytes : List UInt8} {byte : UInt8}
    (check : plainText [] before after bytes = true)
    (mark : ∀ quotes, lex quotes bytes = [.mark byte]) : plainText words before after bytes = true :=
  plainText_iff.mpr fun quotes =>
    ⟨(plainText_iff.mp check quotes).1, fun word _ member => by simp [mark] at member⟩

namespace Plain

variable {words : List (List UInt8)} {before middle after fresh : Bool} {pieces : List (Piece V)}

theorem mono {fewer : List (List UInt8)} (plain : Plain words before after pieces)
    (subset : fewer ⊆ words) : Plain fewer before after pieces :=
  ⟨plain.spaced, fun quotes word member => plain.lacks quotes word (subset member)⟩

theorem append {first second : List (Piece V)} (left : Plain words before middle first)
    (right : Plain words middle after second) : Plain words before after (first ++ second) :=
  ⟨fun quotes => (left.spaced quotes).append (right.spaced quotes),
    fun quotes => (left.lacks quotes).append (right.lacks quotes)⟩

theorem nil : Plain words fresh fresh ([] : List (Piece V)) :=
  ⟨fun quotes => Spaced.nil quotes fresh, fun _ _ _ => not_mem_nil⟩

theorem name (bytes : List UInt8) : Plain words true false [(.name bytes : Piece V)] :=
  ⟨fun quotes => Spaced.name quotes bytes, fun quotes => by simp [Lacks, tokens]⟩

theorem value (bound : V) : Plain words true false [.value bound] :=
  ⟨fun quotes => Spaced.value quotes bound, fun quotes => by simp [Lacks, tokens]⟩

theorem text {bytes : List UInt8} (check : plainText words before after bytes = true) :
    Plain words before after [(.text bytes : Piece V)] :=
  ⟨fun quotes => Spaced.text (plainText_iff.mp check quotes).1,
    fun quotes => Lacks.text (plainText_iff.mp check quotes).2⟩

/-- Some fixed text in front. -/
theorem lead {bytes : List UInt8} (right : Plain words middle after pieces)
    (check : plainText words before middle bytes = true) :
    Plain words before after (.text bytes :: pieces) :=
  (text check).append right

theorem digits (number : Nat) : Plain words true false [(.text (Decimal.print number) : Piece V)] := by
  refine ⟨fun quotes => Spaced.digits quotes number, fun quotes => Lacks.text fun word _ => ?_⟩
  rw [lex, lexFrom, lex_print]
  simp [State.flush]

theorem flatMap {α : Type*} {fragment : α → List (Piece V)}
    (each : ∀ item, Plain words fresh fresh (fragment item)) (items : List α) :
    Plain words fresh fresh (items.flatMap fragment) := by
  induction items with
  | nil => exact nil
  | cons item items ih =>
    exact (each item).append ih

theorem separated {α : Type*} {separator : α → List UInt8} {fragment : α → List (Piece V)}
    (each : ∀ item, Plain words true false (fragment item)) (items : List α)
    (check : ∀ item, plainText words false true (separator item) = true) :
    Plain words true false (separated separator fragment items) := by
  cases items with
  | nil =>
    exact ⟨fun quotes => (Spaced.nil quotes true).mono id (nofun),
      fun _ _ _ => not_mem_nil⟩
  | cons first rest =>
    exact (each first).append (flatMap (fun item => (each item).lead (check item)) rest)

/-- Items between commas. -/
theorem listed {α : Type*} {fragment : α → List (Piece V)}
    (each : ∀ item, Plain words true false (fragment item)) (items : List α) :
    Plain words true false (Sql.separated (fun _ => ascii ", ") fragment items) :=
  separated each items fun _ => plainText_mark words (by decide) fun quotes => by cases quotes <;> rfl

theorem path (path : Path) : Plain words true false (pathPieces path : List (Piece V)) := by
  refine separated (fun segment => ?_) path fun _ =>
    plainText_mark words (by decide) fun quotes => by cases quotes <;> rfl
  rw [segmentPiece]
  split
  · exact text (plainText_mark words (by decide) fun quotes => by cases quotes <;> rfl)
  · exact name segment

theorem operand (operand : Operand V) : Plain words true false operand.pieces := by
  cases operand with
  | column columns => exact path columns
  | value bound => exact value bound
  | number literal => exact digits literal

theorem test (test : Test V) : Plain clauseWords true false test.pieces := by
  cases test with
  | compare operator left right =>
    exact (operand left).append ((operand right).lead (by cases operator <;> decide))
  | among negated column items =>
    exact (path column).append (((listed value items).append (text (by decide))).lead
      (by cases negated <;> decide))
  | between negated column lower upper =>
    exact (path column).append (((value lower).append ((value upper).lead (by decide))).lead
      (by cases negated <;> decide))
  | isNull negated column => exact (path column).append (text (by cases negated <;> decide))

theorem chain (links : List (Connective × Test V)) : Plain clauseWords true false (chainPieces links) :=
  separated (fun link : Connective × Test V => test link.2) links fun link => by
    cases link.1 <;> decide

theorem clause (clause : Clause V) : Plain clauseWords true false clause.pieces := by
  refine (chain clause.links).append ?_
  cases clause.inner with
  | nil => exact nil
  | cons first rest => exact ((chain (first :: rest)).append (text rfl)).lead rfl

end Plain

variable (quotes : Quotes)

/-- The pieces are none, or start in a way that ends a WHERE clause. -/
def EndsWhere (pieces : List (Piece V)) : Prop :=
  pieces = [] ∨ ∀ rest, endsClause (tokens quotes pieces ++ rest) = true

theorem EndsWhere.append {quotes : Quotes} {first second : List (Piece V)}
    (left : EndsWhere quotes first) (right : endsClause (tokens quotes second) = true) :
    endsClause (tokens quotes (first ++ second)) = true := by
  rw [tokens_append]
  rcases left with rfl | starts
  · exact right
  · exact starts _

theorem EndsWhere.unless {quotes : Quotes} {absent : Prop} [Decidable absent]
    {pieces : List (Piece V)} (ends : EndsWhere quotes pieces) :
    EndsWhere quotes (if absent then [] else pieces) := by
  split
  · exact .inl rfl
  · exact ends

theorem endsWhere_text {quotes : Quotes} {text : List UInt8} (rest : List (Piece V))
    (starts : ∀ quotes, ∃ word more, lex quotes text = .word word :: more ∧
      endsClause [(.word word : Token V)] = true := by
        intro quotes; cases quotes <;> exact ⟨_, _, rfl, by decide⟩) :
    EndsWhere quotes (.text text :: rest) := by
  obtain ⟨word, more, scanned, known⟩ := starts quotes
  right
  intro remaining
  rw [tokens, textTokens, scanned]
  exact known

theorem length_chain (links : List (Connective × Test V)) :
    links.length ≤ (tokens quotes (chainPieces links)).length + 1 := by
  cases links with
  | nil => exact Nat.zero_le _
  | cons first rest =>
    have each : rest.length ≤ ((rest.map (testLink quotes)).flatMap Link.tokens).length := by
      induction rest with
      | nil => exact Nat.le_refl _
      | cons link rest ih =>
        rw [map_cons, flatMap_cons, length_append, Link.tokens]
        simp only [length_cons]
        omega
    rw [tokens_chain, length_append, length_cons]
    omega

theorem length_clause (clause : Clause V) :
    clause.links.length + clause.inner.length ≤ (tokens quotes clause.pieces).length + 1 := by
  have outer := length_chain quotes clause.links
  rw [Clause.pieces, tokens_append, length_append]
  cases inner : clause.inner with
  | nil => simpa [innerPieces, tokens] using outer
  | cons first rest =>
    have inside := length_chain quotes (first :: rest)
    rw [tokens_inner]
    simp only [innerLink, Link.tokens, flatMap_cons, flatMap_nil, append_nil,
      length_cons, length_append, length_nil] at inside ⊢
    omega

theorem readWhere_clause {clause : Clause V} (wellFormed : clause.WellFormed)
    {after : List (Token V)} (absent : .word wordWhere ∉ before) (ended : endsClause after = true) :
    ∃ condition, clause.condition = some condition ∧
      readWhere (before ++ .word wordWhere :: (tokens quotes clause.pieces ++ after)) =
        some (some condition) := by
  have short := length_clause quotes clause
  obtain ⟨condition, isCondition, read⟩ := readExpression_clause quotes wellFormed
    (ends_of_endsClause ended)
    (by rw [length_append]; omega :
      _ < 2 * (tokens quotes clause.pieces ++ after).length + 7)
  refine ⟨condition, isCondition, ?_⟩
  rw [readWhere_append absent, readWhere, if_pos rfl, read]
  exact if_pos ended

/-! ## Bounds -/

def readAmount : List (Token V) → Option Nat
  | .number digits :: _ => Decimal.valueFrom 0 digits
  | _ => none

/-- The number behind the first occurrence of a word. -/
def readBound (word : List UInt8) : List (Token V) → Option Nat
  | [] => none
  | .word found :: rest => if found = word then readAmount rest else readBound word rest
  | _ :: rest => readBound word rest

theorem readBound_append {word : List UInt8} (absent : .word word ∉ before)
    (rest : List (Token V)) :
    readBound word (before ++ rest) = readBound word rest := by
  refine search_append (fun token rest other => ?_) absent rest
  cases token with
  | word text => rw [readBound, if_neg (mt (congrArg Token.word) other)]
  | _ => rfl

theorem readBound_absent {word : List UInt8} {tokens : List (Token V)}
    (absent : .word word ∉ tokens) : readBound word tokens = none := by
  have read := readBound_append absent []
  rw [append_nil] at read
  exact read

theorem readBound_number (word : List UInt8) (value : Nat) (rest : List (Token V)) :
    readBound word (.word word :: .number (Decimal.print value) :: rest) = some value := by
  rw [readBound, if_pos rfl]
  exact Decimal.valueFrom_printFuel _ _ (Nat.le_refl _)

/-- The limit of a statement, in either of its forms, and its offset. -/
def readWindow (tokens : List (Token V)) : Option Nat × Nat :=
  ((readBound (ascii "LIMIT") tokens).or (readBound (ascii "NEXT") tokens),
    (readBound (ascii "OFFSET") tokens).getD 0)

theorem readWindow_eq {tokens : List (Token V)} {limit next offset : Option Nat}
    (limited : readBound (ascii "LIMIT") tokens = limit)
    (fetched : readBound (ascii "NEXT") tokens = next)
    (skipped : readBound (ascii "OFFSET") tokens = offset) :
    readWindow tokens = (limit.or next, offset.getD 0) := by
  rw [readWindow, limited, fetched, skipped]

end Clauses

end Gungnir.Library.Sql
