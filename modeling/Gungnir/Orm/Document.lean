import Gungnir.Orm.Statement
import Gungnir.Library.Filter

/-!
# MongoDB commands with their values in place

The command that a plan stands for, as a JSON value that holds the plan's values.
What `compileMongodb` returns is read as this command: every `$bind` refers to the
value that the plan gave for its place.
-/

namespace Gungnir.Orm

open Gungnir.Core Gungnir.Library List
open Gungnir.Library.Json (Reads Member joined quoted escape bindKey)

abbrev Document := Json AttributeValue

/-! ## Names -/

def mongoName (column : Bytes) : Bytes := if column = ascii "id" then ascii "_id" else column

/-- What a field name of a command may be: it is read back, and it is no operator. -/
structure PlainKey (key : Bytes) : Prop where
  printable : ∀ byte ∈ key, 32 ≤ byte.toNat
  plain : key.head? ≠ some 36

theorem PlainKey.unbound {key : Bytes} (plainKey : PlainKey key) : key ≠ bindKey := by
  rintro rfl
  exact plainKey.plain rfl

theorem validateIdentifier_ok {value : Bytes} (valid : validateIdentifier value = .ok ()) :
    value ≠ [] ∧ ∀ byte ∈ value, 32 ≤ byte.toNat := by
  unfold validateIdentifier at valid
  split at valid
  · cases valid
  · rename_i nonempty
    split at valid
    · cases valid
    · rename_i clean
      refine ⟨nonempty, fun byte member => ?_⟩
      by_contra low
      apply clean
      rw [any_eq_true]
      exact ⟨byte, member, by simp [isControl]; omega⟩

theorem jsonIdentifier_ok {value written : Bytes} (done : jsonIdentifier value = .ok written) :
    written = escape value ∧ ∀ byte ∈ value, 32 ≤ byte.toNat := by
  obtain ⟨⟨⟩, valid, wrote⟩ := bind_eq_ok.mp done
  cases wrote
  exact ⟨rfl, (validateIdentifier_ok valid).2⟩

theorem jsonFieldIdentifier_ok {value written : Bytes}
    (done : jsonFieldIdentifier value = .ok written) : written = escape value ∧ PlainKey value := by
  obtain ⟨⟨⟩, valid, checked⟩ := bind_eq_ok.mp done
  split at checked
  · cases checked
  · rename_i noOperator
    obtain ⟨wrote, printable⟩ := jsonIdentifier_ok checked
    refine ⟨wrote, printable, fun operator => noOperator ?_⟩
    -- The first segment starts with the first byte.
    cases value with
    | nil => cases operator
    | cons byte rest =>
      cases operator
      rw [segments, splitOn_cons_eq_if_modifyHead, if_neg (by decide), any_eq_true]
      cases split : rest.splitOn dot with
      | nil => exact absurd split (splitOn_ne_nil _ _)
      | cons first others => exact ⟨36 :: first, mem_cons_self, by simp⟩

theorem mongoField_ok {column field : Bytes} (done : mongoField column = .ok field) :
    field = escape (mongoName column) ∧ PlainKey (mongoName column) := by
  unfold mongoField at done
  unfold mongoName
  split at done
  · rename_i isId
    cases done
    rw [if_pos isId]
    exact ⟨rfl, Json.printable_of_all (by decide), by decide⟩
  · rename_i notId
    rw [if_neg notId]
    exact jsonFieldIdentifier_ok done

/-! ## Predicates -/

def fieldTest (column operator : Bytes) (operand : Document) : Document :=
  .object [(mongoName column, .object [(operator, operand)])]

def rangeJson (lower upper : AttributeValue) : Document :=
  .object [(ascii "$gte", .value lower), (ascii "$lte", .value upper)]

def Predicate.json (predicate : Predicate) : Document :=
  match predicate.kind with
  | .inList => fieldTest predicate.column (ascii "$in") (.array (predicate.values.map .value))
  | .notInList => fieldTest predicate.column (ascii "$nin") (.array (predicate.values.map .value))
  | .between =>
    .object [(mongoName predicate.column, rangeJson (predicate.valueAt 0) (predicate.valueAt 1))]
  | .notBetween =>
    fieldTest predicate.column (ascii "$not")
      (rangeJson (predicate.valueAt 0) (predicate.valueAt 1))
  | .isNull => fieldTest predicate.column (ascii "$eq") .null
  | .isNotNull => fieldTest predicate.column (ascii "$ne") .null
  | .columnComparison =>
    .object [(ascii "$expr", .object [(mongoOperator predicate.comparison,
      .array [.text (36 :: mongoName predicate.column),
        .text (36 :: mongoName predicate.otherColumn)])])]
  | .comparison =>
    fieldTest predicate.column (mongoOperator predicate.comparison)
      (.value (predicate.valueAt 0))

/-- An emitter wrote a value: the bindings grew, and the text is read as the value. -/
structure Wrote (bindings : List AttributeValue) (out : Bound Bytes) (json : Document) : Prop where
  grown : bindings <+: out.2
  reads : Reads out.2 out.1 json

variable (bindings : List AttributeValue)

theorem wrote_mongoBind (value : AttributeValue) :
    Wrote bindings (mongoBind bindings value) (.value value) := by
  refine ⟨prefix_append _ _, ?_⟩
  have found : (bindings ++ [value])[bindings.length]? = some value := by
    rw [getElem?_append_right (Nat.le_refl _), Nat.sub_self]
    rfl
  exact Json.reads_bind found

theorem wrote_null : Wrote bindings (ascii "null", bindings) .null :=
  ⟨prefix_refl _, Json.reads_null⟩

variable {bindings : List AttributeValue} {out : Bound Bytes} {α : Type}

variable {emit : List AttributeValue → α → Except Exception (Bound Bytes)} {items : List α}

/-- A loop that joins its items with commas: what is written for them is kept when bindings are
appended. -/
theorem joinCommas_ok {β γ : Type} (Written : List AttributeValue → β → Prop) (text : β → Bytes)
    (read : β → γ) {value : α → γ}
    (stable : ∀ {bindings later part}, Written bindings part → bindings <+: later →
      Written later part)
    (each : ∀ bindings item out, emit bindings item = .ok out → bindings <+: out.2 ∧
      ∃ part, out.1 = text part ∧ read part = value item ∧ Written out.2 part)
    (done : joinCommas emit bindings items = .ok out) :
    bindings <+: out.2 ∧ ∃ parts : List β, out.1 = joined (parts.map text) ∧
      parts.map read = items.map value ∧ ∀ part ∈ parts, Written out.2 part := by
  cases items with
  | nil =>
    cases done
    exact ⟨prefix_refl _, [], rfl, rfl, forall_mem_nil _⟩
  | cons first rest =>
    obtain ⟨start, emitted, looped⟩ := bind_eq_ok.mp done
    obtain ⟨grown, part, written, same, kept⟩ := each _ _ _ emitted
    have loop := foldlM_tracks (fun seen out => bindings <+: out.2 ∧ ∃ parts : List β,
        parts ≠ [] ∧ out.1 = joined (parts.map text) ∧ parts.map read = seen.map value ∧
        ∀ part ∈ parts, Written out.2 part)
      (fun {seen before item after} ran tracked => by
        obtain ⟨next, emittedNext, made⟩ := bind_eq_ok.mp ran
        cases made
        obtain ⟨grownBefore, parts, nonempty, texts, reads, all⟩ := tracked
        obtain ⟨grownNext, part, written, same, kept⟩ := each _ _ _ emittedNext
        refine ⟨grownBefore.trans grownNext, parts ++ [part], by simp, ?_, by simp [reads, same], ?_⟩
        · rw [map_append, map_singleton, Json.joined_concat (by simpa using nonempty), ← texts,
            ← written, append_assoc]
          rfl
        · exact forall_mem_append.mpr ⟨fun other member => stable (all other member) grownNext,
            forall_mem_singleton.mpr kept⟩)
      looped [first]
      ⟨grown, [part], cons_ne_nil _ _, by simp [joined, written], by simp [same],
        forall_mem_singleton.mpr kept⟩
    obtain ⟨grownAll, parts, _, texts, reads, all⟩ := loop
    exact ⟨grownAll, parts, texts, reads, all⟩

/-- A list of values, each written by an emitter. -/
theorem wrote_array {json : α → Document}
    (each : ∀ bindings item out, emit bindings item = .ok out → Wrote bindings out (json item))
    (done : joinCommas emit bindings items = .ok out) :
    Wrote bindings (ascii "[" ++ out.1 ++ ascii "]", out.2) (.array (items.map json)) := by
  obtain ⟨grown, parts, text, read, all⟩ := joinCommas_ok
    (fun bindings (part : Bytes × Document) => Reads bindings part.1 part.2) Prod.fst Prod.snd
    (fun reads grown => reads.mono grown)
    (fun bindings item out emitted =>
      ⟨(each bindings item out emitted).grown, (out.1, json item), rfl, rfl,
        (each bindings item out emitted).reads⟩) done
  refine ⟨grown, ?_⟩
  rw [text, ← read]
  exact Json.reads_array all

theorem wrote_values {items : List AttributeValue}
    (done : joinCommas (fun bindings value => .ok (mongoBind bindings value)) bindings items =
      .ok out) :
    Wrote bindings (ascii "[" ++ out.1 ++ ascii "]", out.2) (.array (items.map .value)) := by
  refine wrote_array (fun bindings item out emitted => ?_) done
  cases emitted
  exact wrote_mongoBind bindings item

/-- An emitter wrote a member of an object. -/
structure WroteMember (bindings : List AttributeValue) (out : Bound Bytes)
    (pair : Bytes × Document) : Prop where
  grown : bindings <+: out.2
  member : ∃ member : Member AttributeValue,
    out.1 = member.text ∧ member.pair = pair ∧ member.Plain out.2

/-- The members of an object, each written by an emitter. -/
theorem wrote_object {pair : α → Bytes × Document}
    (each : ∀ bindings item out, emit bindings item = .ok out →
      WroteMember bindings out (pair item))
    (done : joinCommas emit bindings items = .ok out) :
    Wrote bindings (ascii "\x7b" ++ out.1 ++ ascii "\x7d", out.2) (.object (items.map pair)) := by
  obtain ⟨grown, members, text, pairs, plain⟩ := joinCommas_ok
    (fun bindings member => Member.Plain bindings member) Member.text Member.pair
    Member.Plain.mono
    (fun bindings item out emitted =>
      ⟨(each bindings item out emitted).grown, (each bindings item out emitted).member⟩) done
  refine ⟨grown, ?_⟩
  rw [text, ← pairs]
  exact Json.reads_object plain

section Parts

variable {bindings : List AttributeValue}

/-- A key that the source writes as a literal. -/
structure LiteralKey (key : Bytes) : Prop where
  unescaped : escape key = key
  printable : ∀ byte ∈ key, 32 ≤ byte.toNat
  unbound : key ≠ bindKey

instance (key : Bytes) : Decidable (LiteralKey key) :=
  decidable_of_iff (escape key = key ∧ key.all (fun byte => decide (32 ≤ byte.toNat)) = true ∧ key ≠ bindKey)
    ⟨fun ⟨same, shown, other⟩ => ⟨same, Json.printable_of_all shown, other⟩,
      fun literal => ⟨literal.unescaped,
        by simpa only [all_eq_true, decide_eq_true_eq] using literal.printable, literal.unbound⟩⟩

theorem LiteralKey.plain {key written : Bytes} {json : Document} (literal : LiteralKey key)
    (reads : Reads bindings written json) :
    (⟨key, written, json⟩ : Member AttributeValue).Plain bindings :=
  ⟨⟨literal.printable, reads⟩, literal.unbound⟩

/-- The members of an object under literal keys. -/
inductive Fields (bindings : List AttributeValue) : Bytes → List (Bytes × Document) → Prop where
  | one (key : Bytes) {written : Bytes} {json : Document} (literal : LiteralKey key)
      (reads : Reads bindings written json) :
      Fields bindings (ascii "\"" ++ key ++ ascii "\":" ++ written) [(key, json)]
  | cons (key : Bytes) {written text : Bytes} {json : Document}
      {fields : List (Bytes × Document)} (literal : LiteralKey key)
      (reads : Reads bindings written json) (more : Fields bindings text fields) :
      Fields bindings (ascii "\"" ++ key ++ ascii "\":" ++ written ++ ascii "," ++ text)
        ((key, json) :: fields)

section Members

variable {bindings : List AttributeValue} {text : Bytes} {fields : List (Bytes × Document)}
  (written : Fields bindings text fields)

include written

theorem Fields.members : ∃ members : List (Member AttributeValue), members ≠ [] ∧
    text = joined (members.map Member.text) ∧ members.map Member.pair = fields ∧
      ∀ member ∈ members, member.Plain bindings := by
  induction written with
  | one key literal reads =>
    refine ⟨[⟨key, _, _⟩], cons_ne_nil _ _, ?_, rfl, forall_mem_singleton.mpr (literal.plain reads)⟩
    simp only [joined, map_cons, map_nil, flatMap_nil, Member.text, quoted, literal.unescaped,
      append_assoc, cons_append, append_nil]
    rfl
  | cons key literal reads _ ih =>
    obtain ⟨members, nonempty, rfl, rfl, plain⟩ := ih
    refine ⟨⟨key, _, _⟩ :: members, cons_ne_nil _ _, ?_, rfl,
      forall_mem_cons.mpr ⟨literal.plain reads, plain⟩⟩
    obtain ⟨first, rest, rfl⟩ := exists_cons_of_ne_nil nonempty
    simp only [joined, map_cons, flatMap_cons, Member.text, quoted, literal.unescaped,
      append_assoc, cons_append]
    rfl

theorem reads_fields : Reads bindings (ascii "\x7b" ++ text ++ ascii "\x7d") (.object fields) := by
  obtain ⟨members, _, rfl, rfl, plain⟩ := written.members
  exact Json.reads_object plain

end Members

/-- An object with one member whose key is a column. -/
theorem reads_column {column field written : Bytes} {json : Document}
    (named : mongoField column = .ok field) (reads : Reads bindings written json) :
    Reads bindings (ascii "\x7b\"" ++ field ++ ascii "\":" ++ written ++ ascii "\x7d")
      (.object [(mongoName column, json)]) := by
  obtain ⟨rfl, plainKey⟩ := mongoField_ok named
  have object := Json.reads_single plainKey.printable plainKey.unbound reads
  refine object.cast ?_
  simp only [quoted, append_assoc, cons_append]
  rfl

theorem reads_fieldTest {column field operator operand : Bytes} {json : Document}
    (named : mongoField column = .ok field) (literal : LiteralKey operator)
    (reads : Reads bindings operand json) :
    Reads bindings (mongoTest field operator operand) (fieldTest column operator json) := by
  have test := reads_column named (reads_fields (.one operator literal reads))
  refine test.cast ?_
  simp only [mongoTest, append_assoc]
  rfl

theorem wrote_fieldTest {column field operator : Bytes} {operand : Bound Bytes} {json : Document}
    (named : mongoField column = .ok field) (literal : LiteralKey operator)
    (wrote : Wrote bindings operand json) :
    Wrote bindings (mongoTest field operator operand.1, operand.2)
      (fieldTest column operator json) :=
  ⟨wrote.grown, reads_fieldTest named literal wrote.reads⟩

theorem reads_range {lower upper : Bytes} {first second : AttributeValue}
    (readsLower : Reads bindings lower (.value first))
    (readsUpper : Reads bindings upper (.value second)) :
    Reads bindings (mongoRange lower upper) (rangeJson first second) := by
  have range := reads_fields (.cons (ascii "$gte") (by decide) readsLower
    (.one (ascii "$lte") (by decide) readsUpper))
  refine range.cast ?_
  simp only [mongoRange, append_assoc]
  rfl

/-- The two bounds of a range are bound one after the other. -/
theorem wrote_range (bindings : List AttributeValue) (first second : AttributeValue) :
    Wrote bindings
      (mongoRange (mongoBind bindings first).1 (mongoBind (mongoBind bindings first).2 second).1,
        (mongoBind (mongoBind bindings first).2 second).2)
      (rangeJson first second) := by
  have lower := wrote_mongoBind bindings first
  have upper := wrote_mongoBind (mongoBind bindings first).2 second
  exact ⟨lower.grown.trans upper.grown, reads_range (lower.reads.mono upper.grown) upper.reads⟩

/-- The operators of the query language, as keys. -/
theorem mongoOperator_key (comparison : Comparison) : LiteralKey (mongoOperator comparison) := by
  cases comparison <;> decide

theorem reads_expression {column other first second : Bytes} {comparison : Comparison}
    (named : mongoField column = .ok first) (namedOther : mongoField other = .ok second) :
    Reads bindings
      (ascii "\x7b\"$expr\":\x7b\"" ++ mongoOperator comparison ++ ascii "\":[\"$" ++ first ++
        ascii "\",\"$" ++ second ++ ascii "\"]\x7d\x7d")
      (.object [(ascii "$expr", .object [(mongoOperator comparison,
        .array [.text (36 :: mongoName column), .text (36 :: mongoName other)])])]) := by
  obtain ⟨rfl, plainKey⟩ := mongoField_ok named
  obtain ⟨rfl, otherKey⟩ := mongoField_ok namedOther
  have reference : ∀ {name : Bytes}, PlainKey name →
      Reads bindings (quoted (36 :: name)) (.text (36 :: name)) := by
    exact fun plain => Json.reads_text (forall_mem_cons.mpr ⟨by decide, plain.printable⟩)
  have pair := Json.reads_list (.cons (reference plainKey) (.cons (reference otherKey) .nil))
  have expression := reads_fields (.one (ascii "$expr") (by decide)
    (reads_fields (.one (mongoOperator comparison) (mongoOperator_key comparison) pair)))
  refine expression.cast ?_
  simp only [joined, flatMap_cons, flatMap_nil, quoted, append_assoc, cons_append, append_nil]
  rfl

end Parts

/-- The columns of a predicate are field names. -/
structure Predicate.Named (predicate : Predicate) : Prop where
  column : PlainKey (mongoName predicate.column)
  other : predicate.kind = .columnComparison → PlainKey (mongoName predicate.otherColumn)

variable {predicate : Predicate}

theorem Predicate.named_of_column {field : Bytes} (named : mongoField predicate.column = .ok field)
    (single : predicate.kind ≠ .columnComparison) : predicate.Named :=
  ⟨(mongoField_ok named).2, fun two => absurd two single⟩

variable {missingValue : Exception}

theorem mongoPredicateWith_ok
    (done : mongoPredicateWith missingValue predicate bindings = .ok out) :
    Wrote bindings out predicate.json ∧ predicate.complete = true ∧ predicate.Named := by
  unfold mongoPredicateWith at done
  unfold Predicate.json Predicate.complete
  cases kind : predicate.kind with
  | inList | notInList =>
    simp only [kind] at done ⊢
    obtain ⟨values, listed, done⟩ := bind_eq_ok.mp done
    obtain ⟨field, named, done⟩ := bind_eq_ok.mp done
    cases done
    exact ⟨wrote_fieldTest named (by decide) (wrote_values listed), trivial,
      Predicate.named_of_column named (by simp [kind])⟩
  | between =>
    simp only [kind] at done ⊢
    split at done
    · rename_i first second given
      obtain ⟨field, named, done⟩ := bind_eq_ok.mp done
      cases done
      have wrote := wrote_range bindings first second
      simp only [Predicate.valueAt, given]
      exact ⟨⟨wrote.grown, reads_column named wrote.reads⟩, by simp,
        Predicate.named_of_column named (by simp [kind])⟩
    · cases done
  | notBetween =>
    simp only [kind] at done ⊢
    split at done
    · rename_i first second given
      obtain ⟨field, named, done⟩ := bind_eq_ok.mp done
      cases done
      simp only [Predicate.valueAt, given]
      exact ⟨wrote_fieldTest named (by decide) (wrote_range bindings first second), by simp,
        Predicate.named_of_column named (by simp [kind])⟩
    · cases done
  | isNull | isNotNull =>
    simp only [kind] at done ⊢
    obtain ⟨field, named, done⟩ := bind_eq_ok.mp done
    cases done
    exact ⟨wrote_fieldTest named (by decide) (wrote_null bindings), trivial,
      Predicate.named_of_column named (by simp [kind])⟩
  | columnComparison =>
    simp only [kind] at done ⊢
    obtain ⟨field, named, done⟩ := bind_eq_ok.mp done
    obtain ⟨other, namedOther, done⟩ := bind_eq_ok.mp done
    cases done
    exact ⟨⟨prefix_refl _, reads_expression named namedOther⟩, trivial,
      (mongoField_ok named).2, fun _ => (mongoField_ok namedOther).2⟩
  | comparison =>
    simp only [kind] at done ⊢
    split at done
    · cases done
    · rename_i value rest given
      obtain ⟨field, named, done⟩ := bind_eq_ok.mp done
      cases done
      simp only [Predicate.valueAt, given]
      exact ⟨wrote_fieldTest named (mongoOperator_key _) (wrote_mongoBind bindings value), by simp,
        Predicate.named_of_column named (by simp [kind])⟩

/-! ## Filters -/

def pairJson (connector : Bytes) (left right : Document) : Document :=
  .object [(connector, .array [left, right])]

def chainJson : List Predicate → Document
  | [] => .object []
  | first :: rest =>
    rest.foldl (fun expression predicate =>
      pairJson (mongoConnector predicate) expression predicate.json) first.json

def filterJson (predicates : List Predicate) : Document :=
  if isMixed predicates then
    pairJson (ascii "$and") (chainJson (protectedPart predicates)) (chainJson (userPart predicates))
  else chainJson predicates

theorem wrote_pair {connector : Bytes} {first second : Bound Bytes} {left right : Document}
    (known : connector = ascii "$and" ∨ connector = ascii "$or")
    (wroteFirst : Wrote bindings first left) (wroteSecond : Wrote first.2 second right) :
    Wrote bindings (mongoPair connector first.1 second.1, second.2) (pairJson connector left right) := by
  refine ⟨wroteFirst.grown.trans wroteSecond.grown, ?_⟩
  have key : LiteralKey connector := by
    rcases known with rfl | rfl <;> decide
  have pair := Json.reads_list
    (.cons (wroteFirst.reads.mono wroteSecond.grown) (.cons wroteSecond.reads .nil))
  have object := reads_fields (.one connector key pair)
  refine object.cast ?_
  simp only [mongoPair, joined, flatMap_cons, flatMap_nil, append_assoc, cons_append, append_nil]
  rfl

theorem mongoConnector_known (predicate : Predicate) :
    mongoConnector predicate = ascii "$and" ∨ mongoConnector predicate = ascii "$or" := by
  unfold mongoConnector
  split
  · exact .inl rfl
  · exact .inr rfl

variable {predicates : List Predicate}

theorem mongoChain_ok (done : mongoChain missingValue predicates bindings = .ok out) :
    Wrote bindings out (chainJson predicates) := by
  cases predicates with
  | nil =>
    cases done
    exact ⟨prefix_refl _, Json.reads_empty⟩
  | cons first rest =>
    obtain ⟨start, emitted, looped⟩ := bind_eq_ok.mp done
    refine foldlM_tracks (fun seen written => Wrote bindings written (chainJson (first :: seen)))
      ?_ looped [] (mongoPredicateWith_ok emitted).1
    intro seen before item after ran wrote
    obtain ⟨next, emittedNext, made⟩ := bind_eq_ok.mp ran
    cases made
    rw [chainJson, foldl_append]
    exact wrote_pair (mongoConnector_known item) wrote (mongoPredicateWith_ok emittedNext).1

theorem mongoChain_each (done : mongoChain missingValue predicates bindings = .ok out)
    (member : predicate ∈ predicates) : predicate.complete = true ∧ predicate.Named := by
  cases predicates with
  | nil => cases member
  | cons first rest =>
    obtain ⟨start, emitted, looped⟩ := bind_eq_ok.mp done
    rcases mem_cons.mp member with rfl | later
    · exact (mongoPredicateWith_ok emitted).2
    · obtain ⟨before, written, ran⟩ := foldlM_each looped later
      obtain ⟨next, emittedNext, _⟩ := bind_eq_ok.mp ran
      exact (mongoPredicateWith_ok emittedNext).2

section

variable (done : mongoFilterWith missingValue predicates bindings = .ok out)
include done

theorem mongoFilterWith_ok : Wrote bindings out (filterJson predicates) := by
  unfold mongoFilterWith at done
  unfold filterJson
  split at done
  · rename_i mixed
    obtain ⟨scopes, scopesWritten, done⟩ := bind_eq_ok.mp done
    obtain ⟨filtered, filterWritten, done⟩ := bind_eq_ok.mp done
    cases done
    rw [if_pos mixed]
    exact wrote_pair (.inl rfl) (mongoChain_ok scopesWritten) (mongoChain_ok filterWritten)
  · rename_i flat
    rw [if_neg flat]
    exact mongoChain_ok done

theorem mongoFilterWith_each (member : predicate ∈ predicates) :
    predicate.complete = true ∧ predicate.Named := by
  unfold mongoFilterWith at done
  split at done
  · obtain ⟨scopes, scopesWritten, done⟩ := bind_eq_ok.mp done
    obtain ⟨filtered, filterWritten, _⟩ := bind_eq_ok.mp done
    by_cases isProtected : predicate.isProtected = true
    · have found : { predicate with connector := .and } ∈ protectedPart predicates :=
        mem_map.mpr ⟨predicate, mem_filter.mpr ⟨member, isProtected⟩, rfl⟩
      obtain ⟨complete, named⟩ := mongoChain_each scopesWritten found
      exact ⟨complete, named.column, named.other⟩
    · have found : predicate ∈ userPart predicates :=
        mem_filter.mpr ⟨member, by simpa using isProtected⟩
      exact mongoChain_each filterWritten found
  · exact mongoChain_each done member

end

end Gungnir.Orm
