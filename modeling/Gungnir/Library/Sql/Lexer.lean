import Gungnir.Library.Decimal

/-!
# Lexical structure of SQL text

A scanner that reads SQL one byte at a time: words, numbers, operators, quoted
identifiers with their closing quote doubled inside, string literals, and
placeholders, positional or numbered. The state between two bytes is explicit, so
a text can be scanned piece by piece.

The other half writes SQL: a statement is a list of pieces, each a fixed text, an
identifier to be quoted, or a value to be replaced by a placeholder. Scanning what
is written gives the pieces back with every value in its place, if fixed texts
keep the identifiers and placeholders apart.
-/

namespace Gungnir.Library.Sql

open List

inductive Quotes where
  | double
  | backtick
  | bracket
  deriving DecidableEq, Repr

def Quotes.opening : Quotes → UInt8
  | .double => 34
  | .backtick => 96
  | .bracket => 91

def Quotes.closing : Quotes → UInt8
  | .double => 34
  | .backtick => 96
  | .bracket => 93

structure Dialect where
  quotes : Quotes
  /-- Placeholders are `$1`, `$2`, and so on rather than `?`. -/
  numbered : Bool
  deriving DecidableEq, Repr

/-! ## Scanning -/

inductive Lexeme where
  | word (text : List UInt8)
  | number (digits : List UInt8)
  | symbol (text : List UInt8)
  | quoted (name : List UInt8)
  | literal (text : List UInt8)
  | mark (byte : UInt8)
  | question
  | parameter (digits : List UInt8)
  | stray (byte : UInt8)
  deriving DecidableEq, Repr

inductive State where
  | start
  | word (text : List UInt8)
  | number (digits : List UInt8)
  | symbol (text : List UInt8)
  | parameter (digits : List UInt8)
  | quoted (name : List UInt8)
  /-- Behind a closing quote, which may turn out to be doubled. -/
  | closed (name : List UInt8)
  | literal (text : List UInt8)
  | literalEnd (text : List UInt8)
  deriving DecidableEq, Repr

variable (byte : UInt8)

def isBlank : Bool := byte ∈ [32, 9, 10, 13]

def isDigit : Bool := 48 ≤ byte.toNat && byte.toNat ≤ 57

def isLetter : Bool :=
  (65 ≤ byte.toNat && byte.toNat ≤ 90) || (97 ≤ byte.toNat && byte.toNat ≤ 122) || byte = 95

def isOperator : Bool := byte ∈ [60, 61, 62, 43, 45, 33]

/-- Brackets, comma, semicolon, dot and star. -/
def isMark : Bool := byte ∈ [40, 41, 44, 59, 46, 42]

def State.flush : State → List Lexeme
  | .start => []
  | .word text => [.word text]
  | .number digits => [.number digits]
  | .symbol text => [.symbol text]
  | .parameter digits => [.parameter digits]
  | .quoted _ => [.stray 34]
  | .closed name => [.quoted name]
  | .literal _ => [.stray 39]
  | .literalEnd text => [.literal text]

/-- The first byte of a lexeme. -/
def begins (quotes : Quotes) (byte : UInt8) : State × List Lexeme :=
  if byte = quotes.opening then (.quoted [], [])
  else if isBlank byte then (.start, [])
  else if isMark byte then (.start, [.mark byte])
  else if isLetter byte then (.word [byte], [])
  else if isDigit byte then (.number [byte], [])
  else if isOperator byte then (.symbol [byte], [])
  else if byte = 63 then (.start, [.question])
  else if byte = 36 then (.parameter [], [])
  else if byte = 39 then (.literal [], [])
  else (.start, [.stray byte])

def State.ends (quotes : Quotes) (state : State) (byte : UInt8) : State × List Lexeme :=
  ((begins quotes byte).1, state.flush ++ (begins quotes byte).2)

def feed (quotes : Quotes) (state : State) (byte : UInt8) : State × List Lexeme :=
  match state with
  | .start => begins quotes byte
  | .word text =>
    if isLetter byte || isDigit byte then (.word (text ++ [byte]), [])
    else state.ends quotes byte
  | .number digits =>
    if isDigit byte then (.number (digits ++ [byte]), []) else state.ends quotes byte
  | .symbol text =>
    if isOperator byte then (.symbol (text ++ [byte]), []) else state.ends quotes byte
  | .parameter digits =>
    if isDigit byte then (.parameter (digits ++ [byte]), []) else state.ends quotes byte
  | .quoted name =>
    if byte = quotes.closing then (.closed name, []) else (.quoted (name ++ [byte]), [])
  | .closed name =>
    if byte = quotes.closing then (.quoted (name ++ [byte]), []) else state.ends quotes byte
  | .literal text => if byte = 39 then (.literalEnd text, []) else (.literal (text ++ [byte]), [])
  | .literalEnd text =>
    if byte = 39 then (.literal (text ++ [byte]), []) else state.ends quotes byte

def scan (quotes : Quotes) : State → List UInt8 → State × List Lexeme
  | state, [] => (state, [])
  | state, byte :: rest =>
    let fed := feed quotes state byte
    let scanned := scan quotes fed.1 rest
    (scanned.1, fed.2 ++ scanned.2)

def lexFrom (quotes : Quotes) (state : State) (text : List UInt8) : List Lexeme :=
  (scan quotes state text).2 ++ (scan quotes state text).1.flush

def lex (quotes : Quotes) (text : List UInt8) : List Lexeme := lexFrom quotes .start text

theorem scan_append (quotes : Quotes) (state : State) (first second : List UInt8) :
    scan quotes state (first ++ second) =
      ((scan quotes (scan quotes state first).1 second).1,
        (scan quotes state first).2 ++ (scan quotes (scan quotes state first).1 second).2) := by
  induction first generalizing state with
  | nil => rfl
  | cons byte rest ih =>
    rw [cons_append, scan, ih]
    simp only [scan, append_assoc]

theorem lexFrom_append (quotes : Quotes) (state : State) (first second : List UInt8) :
    lexFrom quotes state (first ++ second) =
      (scan quotes state first).2 ++ lexFrom quotes (scan quotes state first).1 second := by
  rw [lexFrom, lexFrom, scan_append, append_assoc]

/-- A byte that ends whatever it follows, outside of quotes. -/
def isDelimiter : Bool := isBlank byte || isMark byte

def State.outside : State → Bool
  | .quoted _ => false
  | .literal _ => false
  | _ => true

variable {byte : UInt8}

theorem delimiter_cases (delimits : isDelimiter byte = true) :
    byte = 32 ∨ byte = 9 ∨ byte = 10 ∨ byte = 13 ∨ byte = 40 ∨ byte = 41 ∨ byte = 44 ∨
      byte = 59 ∨ byte = 46 ∨ byte = 42 := by
  simpa [isDelimiter, isBlank, isMark, or_assoc] using delimits

variable {state : State}

theorem feed_delimiter (quotes : Quotes) (outside : state.outside = true)
    (delimits : isDelimiter byte = true) : feed quotes state byte = state.ends quotes byte := by
  have noLetter : isLetter byte = false ∧ isDigit byte = false ∧ isOperator byte = false ∧
      byte ≠ 39 ∧ byte ≠ quotes.closing := by
    rcases delimiter_cases delimits with rfl | rfl | rfl | rfl | rfl | rfl | rfl | rfl | rfl | rfl <;>
      cases quotes <;> decide
  obtain ⟨letter, digit, operator, apostrophe, closing⟩ := noLetter
  cases state with
  | start => simp [feed, State.ends, State.flush]
  | word text => simp [feed, letter, digit]
  | number digits | parameter digits => simp [feed, digit]
  | symbol text => simp [feed, operator]
  | quoted name | literal text => cases outside
  | closed name => simp [feed, closing]
  | literalEnd text => simp [feed, apostrophe]

/-! ## Writing -/

section Writing

variable {V : Type*}

inductive Piece (V : Type*) where
  | text (bytes : List UInt8)
  | name (bytes : List UInt8)
  | value (bound : V)

def quote (quotes : Quotes) (name : List UInt8) : List UInt8 :=
  quotes.opening ::
    (name.flatMap fun byte => if byte = quotes.closing then [byte, byte] else [byte]) ++
      [quotes.closing]

/-- The placeholder of the value with the given index, counted from zero. -/
def placeholder (dialect : Dialect) (index : Nat) : List UInt8 :=
  if dialect.numbered then 36 :: Decimal.print (index + 1) else [63]

def render (dialect : Dialect) : Nat → List (Piece V) → List UInt8
  | _, [] => []
  | count, .text bytes :: rest => bytes ++ render dialect count rest
  | count, .name bytes :: rest => quote dialect.quotes bytes ++ render dialect count rest
  | count, .value _ :: rest => placeholder dialect count ++ render dialect (count + 1) rest

def values : List (Piece V) → List V
  | [] => []
  | .value bound :: rest => bound :: values rest
  | .text _ :: rest => values rest
  | .name _ :: rest => values rest

theorem values_append (first second : List (Piece V)) :
    values (first ++ second) = values first ++ values second := by
  induction first with
  | nil => rfl
  | cons piece rest ih => cases piece <;> simp [values, ih]

theorem render_append (dialect : Dialect) (count : Nat) (first second : List (Piece V)) :
    render dialect count (first ++ second) =
      render dialect count first ++ render dialect (count + (values first).length) second := by
  induction first generalizing count with
  | nil => rfl
  | cons piece rest ih =>
    cases piece with
    | text bytes | name bytes => simp [render, values, ih]
    | value bound => simp [render, values, ih, Nat.add_assoc, Nat.add_comm 1]

/-! ## Reading what was written -/

inductive Token (V : Type*) where
  | word (text : List UInt8)
  | number (digits : List UInt8)
  | symbol (text : List UInt8)
  | quoted (name : List UInt8)
  | mark (byte : UInt8)
  | value (bound : V)

/-- The token of a lexeme that is neither a placeholder nor a literal. -/
def Lexeme.token? : Lexeme → Option (Token V)
  | .word text => some (.word text)
  | .number digits => some (.number digits)
  | .symbol text => some (.symbol text)
  | .quoted name => some (.quoted name)
  | .mark byte => some (.mark byte)
  | _ => none

/-- The binding a placeholder stands for; positional ones count from the start of
the statement. -/
def Lexeme.binding? (bindings : List V) (count : Nat) : Lexeme → Option V
  | .question => bindings[count]?
  | .parameter digits =>
    match Decimal.valueFrom 0 digits with
    | some (index + 1) => bindings[index]?
    | _ => none
  | _ => none

def Lexeme.isPlaceholder : Lexeme → Bool
  | .question => true
  | .parameter _ => true
  | _ => false

def resolve (bindings : List V) : Nat → List Lexeme → Option (List (Token V))
  | _, [] => some []
  | count, lexeme :: rest =>
    if lexeme.isPlaceholder then do
      let bound ← lexeme.binding? bindings count
      let tokens ← resolve bindings (count + 1) rest
      return .value bound :: tokens
    else do
      let token ← lexeme.token?
      let tokens ← resolve bindings count rest
      return token :: tokens

/-- A statement as its engine reads it: the tokens of the text, with the bindings in
place of the placeholders. -/
def read (quotes : Quotes) (text : List UInt8) (bindings : List V) : Option (List (Token V)) :=
  resolve bindings 0 (lex quotes text)

def Lexeme.isPlain : Lexeme → Bool
  | .word _ => true
  | .number _ => true
  | .symbol _ => true
  | .quoted _ => true
  | .mark _ => true
  | _ => false

def textTokens (quotes : Quotes) (text : List UInt8) : List (Token V) :=
  (lex quotes text).filterMap Lexeme.token?

def tokens (quotes : Quotes) : List (Piece V) → List (Token V)
  | [] => []
  | .text bytes :: rest => textTokens quotes bytes ++ tokens quotes rest
  | .name bytes :: rest => .quoted bytes :: tokens quotes rest
  | .value bound :: rest => .value bound :: tokens quotes rest

variable (quotes : Quotes)

theorem tokens_append (first second : List (Piece V)) :
    tokens quotes (first ++ second) = tokens quotes first ++ tokens quotes second := by
  induction first with
  | nil => rfl
  | cons piece rest ih => cases piece <;> simp [tokens, ih]

def placeholderLexeme (dialect : Dialect) (index : Nat) : Lexeme :=
  if dialect.numbered then .parameter (Decimal.print (index + 1)) else .question

def lexemes (dialect : Dialect) : Nat → List (Piece V) → List Lexeme
  | _, [] => []
  | count, .text bytes :: rest => lex dialect.quotes bytes ++ lexemes dialect count rest
  | count, .name bytes :: rest => .quoted bytes :: lexemes dialect count rest
  | count, .value _ :: rest => placeholderLexeme dialect count :: lexemes dialect (count + 1) rest

/-- One piece behind a text that ends fresh, that is, with no lexeme open. The result
says whether the text with the piece does, and is nothing if the piece would run into
what is before it. -/
def space (fresh : Bool) : Piece V → Option Bool
  | .text [] => some fresh
  | .text (first :: rest) =>
    if (fresh || isDelimiter first) && (lex quotes (first :: rest)).all Lexeme.isPlain then
      some ((scan quotes .start (first :: rest)).1 = .start)
    else none
  | .name _ => if fresh then some false else none
  | .value _ => if fresh then some false else none

def spacing (fresh : Bool) (pieces : List (Piece V)) : Option Bool :=
  pieces.foldlM (space quotes) fresh

variable {quotes : Quotes} {fresh last : Bool} {piece : Piece V}

theorem spacing_cons {rest : List (Piece V)}
    (spaced : spacing quotes fresh (piece :: rest) = some last) :
    ∃ after, space quotes fresh piece = some after ∧ spacing quotes after rest = some last :=
  Option.bind_eq_some_iff.mp spaced

theorem scan_quoted (quotes : Quotes) (before name : List UInt8) :
    scan quotes (.quoted before)
        ((name.flatMap fun byte => if byte = quotes.closing then [byte, byte] else [byte]) ++
          [quotes.closing]) =
      (.closed (before ++ name), []) := by
  induction name generalizing before with
  | nil => simp [scan, feed]
  | cons byte rest ih =>
    rw [flatMap_cons, append_assoc]
    by_cases closes : byte = quotes.closing
    · rw [if_pos closes, closes, cons_append, cons_append, nil_append]
      rw [scan, scan]
      simp only [feed, if_true]
      rw [ih]
      simp
    · rw [if_neg closes, cons_append, nil_append, scan]
      simp only [feed, if_neg closes]
      rw [ih]
      simp

theorem scan_quote (quotes : Quotes) (name : List UInt8) :
    scan quotes .start (quote quotes name) = (.closed name, []) := by
  rw [quote, cons_append, scan]
  simp only [feed, begins, if_true]
  rw [scan_quoted]
  rfl

/-- A state that takes every byte of a text up takes the text up. -/
theorem scan_taken {taking : List UInt8 → State} {text : List UInt8}
    (taken : ∀ before, ∀ byte ∈ text,
      feed quotes (taking before) byte = (taking (before ++ [byte]), [])) (before : List UInt8) :
    scan quotes (taking before) text = (taking (before ++ text), []) := by
  induction text generalizing before with
  | nil => simp [scan]
  | cons byte rest ih =>
    rw [scan]
    simp only [taken before byte mem_cons_self]
    rw [ih fun before other member => taken before other (mem_cons_of_mem _ member)]
    simp

theorem isDigit_of_mem_print {value : Nat} (member : byte ∈ Decimal.print value) :
    isDigit byte = true := by
  have range := Decimal.mem_print_digit member
  simp [isDigit, range.1, range.2]

theorem scan_placeholder (dialect : Dialect) (index : Nat) :
    ∃ state written, scan dialect.quotes .start (placeholder dialect index) = (state, written) ∧
      state.outside = true ∧ written ++ state.flush = [placeholderLexeme dialect index] := by
  unfold placeholder placeholderLexeme
  cases dialect.numbered with
  | true =>
    have dollar : begins dialect.quotes 36 = (.parameter [], []) := by
      cases dialect.quotes <;> rfl
    have scanned : scan dialect.quotes .start (36 :: Decimal.print (index + 1)) =
        (.parameter (Decimal.print (index + 1)), []) := by
      rw [scan]
      simp only [feed, dollar]
      rw [scan_taken fun _ _ digit => by simp [feed, isDigit_of_mem_print digit]]
      rfl
    exact ⟨_, _, scanned, rfl, rfl⟩
  | false => exact ⟨.start, [.question], by cases dialect.quotes <;> rfl, rfl, rfl⟩

/-- A text that starts with a delimiter, or follows a fresh one, is scanned as if it
stood alone. -/
theorem scan_text (quotes : Quotes) {first : UInt8} (rest : List UInt8)
    (outside : state.outside = true) (apart : state = .start ∨ isDelimiter first = true) :
    scan quotes state (first :: rest) =
      ((scan quotes .start (first :: rest)).1,
        state.flush ++ (scan quotes .start (first :: rest)).2) := by
  rcases apart with rfl | delimits
  · rfl
  · rw [scan, scan, feed_delimiter quotes outside delimits]
    simp only [feed, State.ends, append_assoc]

theorem outside_of_plain {text : List UInt8} (plain : (lex quotes text).all Lexeme.isPlain = true) :
    (scan quotes .start text).1.outside = true := by
  rw [lex, lexFrom, all_append, Bool.and_eq_true] at plain
  cases ending : (scan quotes .start text).1 with
  | quoted name | literal name =>
    rw [ending] at plain; exact absurd plain.2 (by simp [State.flush, Lexeme.isPlain])
  | _ => rfl

variable {pieces : List (Piece V)} {dialect : Dialect}

/-- Well-spaced pieces are scanned one by one. -/
theorem lexFrom_render (spaced : spacing dialect.quotes fresh pieces = some last) (count : Nat)
    (outside : state.outside = true) (clean : fresh = true → state = .start) :
    lexFrom dialect.quotes state (render dialect count pieces) =
      state.flush ++ lexemes dialect count pieces := by
  induction pieces generalizing fresh count state with
  | nil => simp [render, lexemes, lexFrom, scan]
  | cons piece rest ih =>
    obtain ⟨after, spacePiece, spaceRest⟩ := spacing_cons spaced
    cases piece with
    | text bytes =>
      rw [render, lexemes]
      cases bytes with
      | nil =>
        cases spacePiece
        rw [nil_append, ih spaceRest count outside clean]
        rfl
      | cons first tail =>
        simp only [space, Option.ite_none_right_eq_some, Bool.and_eq_true, Bool.or_eq_true]
          at spacePiece
        obtain ⟨⟨apart, plain⟩, ends⟩ := spacePiece
        have alone := scan_text dialect.quotes tail outside (apart.imp_left clean)
        have next : after = true → (scan dialect.quotes .start (first :: tail)).1 = .start := by
          intro fresh
          rw [fresh] at ends
          exact of_decide_eq_true (Option.some.inj ends)
        rw [lexFrom_append, alone]
        rw [ih spaceRest count (outside_of_plain plain) next, lex, lexFrom]
        simp only [append_assoc]
    | name bytes =>
      simp only [space, Option.ite_none_right_eq_some] at spacePiece
      obtain ⟨fresh, ends⟩ := spacePiece
      cases clean fresh
      cases ends
      rw [render, lexemes, lexFrom_append, scan_quote, ih spaceRest count rfl (by simp)]
      rfl
    | value bound =>
      simp only [space, Option.ite_none_right_eq_some] at spacePiece
      obtain ⟨fresh, ends⟩ := spacePiece
      cases clean fresh
      cases ends
      obtain ⟨state, _, scanned, stateOutside, written⟩ := scan_placeholder dialect count
      rw [render, lexemes, lexFrom_append, scanned]
      rw [ih spaceRest (count + 1) stateOutside (by simp), ← append_assoc, written]
      rfl

theorem token?_of_isPlain {lexeme : Lexeme} (plain : lexeme.isPlain = true) :
    lexeme.isPlaceholder = false ∧ ∃ token : Token V, lexeme.token? = some token := by
  cases lexeme with
  | word text | number text | symbol text | quoted text | mark byte => exact ⟨rfl, _, rfl⟩
  | literal text | question | parameter text | stray byte => cases plain

theorem resolve_plain (bindings : List V) (count : Nat) {plain : List Lexeme}
    (all : plain.all Lexeme.isPlain = true) (rest : List Lexeme) :
    resolve bindings count (plain ++ rest) =
      (resolve bindings count rest).map (plain.filterMap Lexeme.token? ++ ·) := by
  induction plain with
  | nil => simp
  | cons lexeme others ih =>
    rw [all_cons, Bool.and_eq_true] at all
    obtain ⟨noPlaceholder, token, read⟩ := token?_of_isPlain (V := V) all.1
    rw [cons_append, resolve, noPlaceholder, if_neg Bool.false_ne_true, read, ih all.2,
      filterMap_cons_some read]
    cases resolve bindings count rest <;> rfl

theorem binding?_placeholder (dialect : Dialect) (before after : List V) (bound : V) :
    (placeholderLexeme dialect before.length).isPlaceholder = true ∧
      (placeholderLexeme dialect before.length).binding? (before ++ bound :: after) before.length =
        some bound := by
  have found : (before ++ bound :: after)[before.length]? = some bound := by
    rw [getElem?_append_right (Nat.le_refl _), Nat.sub_self]
    rfl
  unfold placeholderLexeme
  cases dialect.numbered with
  | true =>
    have printed : Decimal.valueFrom 0 (Decimal.print (before.length + 1)) =
        some (before.length + 1) := Decimal.valueFrom_printFuel _ _ (Nat.le_refl _)
    rw [if_pos rfl, Lexeme.binding?, printed]
    exact ⟨rfl, found⟩
  | false => exact ⟨rfl, found⟩

variable {after : Bool} {bytes : List UInt8}

theorem plain_of_space (spaced : space quotes fresh (.text bytes : Piece V) = some after) :
    (lex quotes bytes).all Lexeme.isPlain = true := by
  cases bytes with
  | nil => rfl
  | cons first tail =>
    simp only [space, Option.ite_none_right_eq_some, Bool.and_eq_true] at spaced
    exact spaced.1.2

theorem resolve_lexemes (spaced : spacing dialect.quotes fresh pieces = some last)
    (before : List V) :
    resolve (before ++ values pieces) before.length (lexemes dialect before.length pieces) =
      some (tokens dialect.quotes pieces) := by
  induction pieces generalizing fresh before with
  | nil => rfl
  | cons piece rest ih =>
    obtain ⟨after, spacePiece, spaceRest⟩ := spacing_cons spaced
    cases piece with
    | text bytes =>
      rw [lexemes, values, resolve_plain _ _ (plain_of_space spacePiece), ih spaceRest before]
      rfl
    | name bytes =>
      rw [lexemes, values, resolve, if_neg (by simp [Lexeme.isPlaceholder]), ih spaceRest before]
      rfl
    | value bound =>
      obtain ⟨isPlaceholder, found⟩ := binding?_placeholder dialect before (values rest) bound
      have later := ih spaceRest (before ++ [bound])
      rw [append_assoc, length_append, length_singleton] at later
      rw [lexemes, values, resolve, isPlaceholder, if_pos rfl, found]
      rw [show before ++ bound :: values rest = before ++ ([bound] ++ values rest) from rfl, later]
      rfl

theorem lex_render (spaced : spacing dialect.quotes true pieces = some last) :
    lex dialect.quotes (render dialect 0 pieces) = lexemes dialect 0 pieces :=
  lexFrom_render spaced 0 rfl fun _ => rfl

/-- Reading back a well-spaced statement gives its tokens with the values in place. -/
theorem read_render (spaced : spacing dialect.quotes true pieces = some last) :
    read dialect.quotes (render dialect 0 pieces) (values pieces) =
      some (tokens dialect.quotes pieces) := by
  rw [read, lex_render spaced]
  exact resolve_lexemes spaced []

/-- The placeholders of a well-spaced statement are those of its values, in order. -/
theorem filter_lexemes (spaced : spacing dialect.quotes fresh pieces = some last) (count : Nat) :
    (lexemes dialect count pieces).filter Lexeme.isPlaceholder =
      (range' count (values pieces).length).map (placeholderLexeme dialect) := by
  induction pieces generalizing fresh count with
  | nil => rfl
  | cons piece rest ih =>
    obtain ⟨after, spacePiece, spaceRest⟩ := spacing_cons spaced
    cases piece with
    | text bytes =>
      have none : (lex dialect.quotes bytes).filter Lexeme.isPlaceholder = [] := by
        rw [filter_eq_nil_iff]
        intro lexeme member isPlaceholder
        have plain := all_eq_true.mp (plain_of_space spacePiece) lexeme member
        rw [(token?_of_isPlain (V := V) plain).1] at isPlaceholder
        cases isPlaceholder
      rw [lexemes, filter_append, none, ih spaceRest]
      rfl
    | name bytes =>
      rw [lexemes, filter_cons_of_neg Bool.false_ne_true, ih spaceRest]
      rfl
    | value bound =>
      have placed : (placeholderLexeme dialect count).isPlaceholder = true := by
        unfold placeholderLexeme
        split <;> rfl
      rw [lexemes, filter_cons_of_pos placed, ih spaceRest, values, length_cons,
        range'_succ, map_cons]

/-! ## Spacing

`Spaced quotes before after pieces`: the pieces may follow a text that ends fresh (only
such a text, if `before` is set), and what they end in is fresh if `after` is set.
-/

def Spaced (quotes : Quotes) (before after : Bool) (pieces : List (Piece V)) : Prop :=
  ∃ last, spacing quotes before pieces = some last ∧ (after = true → last = true)

theorem space_mono {fresher : Bool} (less : fresh = true → fresher = true)
    (spaced : space quotes fresh piece = some last) :
    ∃ later, space quotes fresher piece = some later ∧ (last = true → later = true) := by
  cases fresh with
  | true =>
    cases less rfl
    exact ⟨last, spaced, id⟩
  | false =>
    cases piece with
    | name bytes | value bound => cases spaced
    | text bytes =>
      cases bytes with
      | nil =>
        cases spaced
        exact ⟨fresher, rfl, nofun⟩
      | cons first rest =>
        simp only [space, Bool.false_or, Option.ite_none_right_eq_some] at spaced
        refine ⟨last, ?_, id⟩
        simp only [space]
        rw [if_pos, spaced.2]
        rw [Bool.and_eq_true] at spaced ⊢
        exact ⟨by rw [spaced.1.1, Bool.or_true], spaced.1.2⟩

theorem Spaced.mono {before earlier later : Bool} (spaced : Spaced quotes before after pieces)
    (start : before = true → earlier = true) (stop : later = true → after = true) :
    Spaced quotes earlier later pieces := by
  obtain ⟨last, found, ends⟩ := spaced
  suffices ∃ final, spacing quotes earlier pieces = some final ∧ (last = true → final = true) by
    obtain ⟨final, foundFinal, fresher⟩ := this
    exact ⟨final, foundFinal, fun wanted => fresher (ends (stop wanted))⟩
  induction pieces generalizing before earlier with
  | nil =>
    cases found
    exact ⟨earlier, rfl, start⟩
  | cons piece rest ih =>
    obtain ⟨middle, here, there⟩ := spacing_cons found
    obtain ⟨shifted, hereToo, less⟩ := space_mono start here
    obtain ⟨final, thereToo, fresher⟩ := ih less there
    exact ⟨final, by rw [spacing, foldlM_cons, hereToo]; exact thereToo, fresher⟩

theorem Spaced.append {before middle : Bool} {first second : List (Piece V)}
    (left : Spaced quotes before middle first) (right : Spaced quotes middle after second) :
    Spaced quotes before after (first ++ second) := by
  obtain ⟨between, found, fresher⟩ := left
  obtain ⟨last, foundLast, ends⟩ := right.mono fresher id
  exact ⟨last, foldlM_append.trans (Option.bind_eq_some_iff.mpr ⟨between, found, foundLast⟩), ends⟩

theorem Spaced.nil (quotes : Quotes) (fresh : Bool) : Spaced quotes fresh fresh ([] : List (Piece V)) :=
  ⟨fresh, rfl, id⟩

theorem Spaced.name (quotes : Quotes) (bytes : List UInt8) :
    Spaced quotes true false [(.name bytes : Piece V)] :=
  ⟨false, rfl, nofun⟩

theorem Spaced.value (quotes : Quotes) (bound : V) : Spaced quotes true false [.value bound] :=
  ⟨false, rfl, nofun⟩

/-- The check of one fixed text, to be decided. -/
def keepsApart (quotes : Quotes) (before after : Bool) (bytes : List UInt8) : Bool :=
  match space quotes before (.text bytes : Piece Empty) with
  | none => false
  | some last => !after || last

theorem space_text (quotes : Quotes) (fresh : Bool) (bytes : List UInt8) :
    space quotes fresh (.text bytes : Piece V) = space quotes fresh (.text bytes : Piece Empty) := by
  cases bytes <;> rfl

theorem Spaced.text {before : Bool} (apart : keepsApart quotes before after bytes = true) :
    Spaced quotes before after [(.text bytes : Piece V)] := by
  unfold keepsApart at apart
  cases found : space quotes before (.text bytes : Piece Empty) with
  | none => rw [found] at apart; cases apart
  | some last =>
    rw [found] at apart
    refine ⟨last, ?_, fun wanted => ?_⟩
    · rw [spacing, foldlM_cons, space_text, found]
      rfl
    · simpa [wanted] using apart

variable (quotes : Quotes)

theorem begins_digit (digit : isDigit byte = true) : begins quotes byte = (.number [byte], []) := by
  have range : ∀ value : Fin 256, isDigit (UInt8.ofNat value) = true →
      begins quotes (UInt8.ofNat value) = (.number [UInt8.ofNat value], []) := by
    cases quotes <;> decide +kernel
  have found := range ⟨byte.toNat, byte.toNat_lt⟩
  rw [UInt8.ofNat_toNat] at found
  exact found digit

theorem lex_print (value : Nat) :
    scan quotes .start (Decimal.print value) = (.number (Decimal.print value), []) := by
  cases printed : Decimal.print value with
  | nil => exact absurd printed (Decimal.print_ne_nil value)
  | cons first rest =>
    have decimal : ∀ byte ∈ first :: rest, isDigit byte = true := by
      rw [← printed]
      exact fun byte => isDigit_of_mem_print
    rw [scan]
    simp only [feed, begins_digit quotes (decimal first mem_cons_self)]
    rw [scan_taken fun _ byte member => by simp [feed, decimal byte (mem_cons_of_mem _ member)]]
    rfl

theorem Spaced.digits (value : Nat) :
    Spaced quotes true false [(.text (Decimal.print value) : Piece V)] := by
  apply Spaced.text
  cases printed : Decimal.print value with
  | nil => exact absurd printed (Decimal.print_ne_nil value)
  | cons first rest =>
    have plain : (lex quotes (first :: rest)).all Lexeme.isPlain = true := by
      rw [lex, lexFrom, ← printed, lex_print]
      rfl
    simp [keepsApart, space, plain]

/-- Fragments one after the other, each but the first behind its separator. -/
def separated {α : Type*} (separator : α → List UInt8) (fragment : α → List (Piece V)) :
    List α → List (Piece V)
  | [] => []
  | first :: rest => fragment first ++ rest.flatMap fun item => .text (separator item) :: fragment item

theorem separated_map {α β : Type*} (separator : β → List UInt8) (fragment : β → List (Piece V))
    (image : α → β) (items : List α) :
    separated separator fragment (items.map image) =
      separated (separator ∘ image) (fragment ∘ image) items := by
  cases items with
  | nil => rfl
  | cons first rest => simp [separated, flatMap_map]

end Writing

end Gungnir.Library.Sql
