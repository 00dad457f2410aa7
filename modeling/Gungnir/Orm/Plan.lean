import Gungnir.Core.Text
import Gungnir.Library.Fallible
import Gungnir.Library.Sql.Clause
import Mathlib.Data.List.AList

/-!
# Query plans and identifiers

The plan that the query builder collects, the statement a compiler makes of it and the
quoting of the paths in it. A plan's connection and its eager loads are not read by the
compilers and are left out. A double is kept as its bit pattern.
-/

namespace Gungnir.Orm

open Gungnir.Core Gungnir.Library Gungnir.Library.Sql List

inductive Backend where
  | sqlite
  | postgresql
  | mysql
  | mssql
  | mongodb
  deriving DecidableEq, Repr

inductive AttributeValue where
  | monostate
  | null
  | boolean (value : Bool)
  | int64 (value : Int)
  | uint64 (value : Nat)
  | double (bits : UInt64)
  | decimal (text : Bytes)
  | string (text : Bytes)
  deriving DecidableEq, Repr

abbrev AttributeMap := AList fun _ : Bytes => AttributeValue

inductive Comparison where
  | equal
  | notEqual
  | lessThan
  | lessOrEqual
  | greaterThan
  | greaterOrEqual
  | like
  deriving DecidableEq, Repr

inductive BooleanConnector where
  | and
  | or
  deriving DecidableEq, Repr

inductive PredicateKind where
  | comparison
  | columnComparison
  | inList
  | notInList
  | between
  | notBetween
  | isNull
  | isNotNull
  deriving DecidableEq, Repr

inductive SortDirection where
  | asc
  | desc
  deriving DecidableEq, Repr

inductive JoinType where
  | inner
  | left
  | right
  | cross
  deriving DecidableEq, Repr

inductive LockMode where
  | none
  | forUpdate
  | shared
  deriving DecidableEq, Repr

inductive AggregateFunction where
  | count
  | sum
  | average
  | minimum
  | maximum
  deriving DecidableEq, Repr

structure Predicate where
  kind : PredicateKind := .comparison
  connector : BooleanConnector := .and
  column : Bytes
  comparison : Comparison := .equal
  otherColumn : Bytes := []
  values : List AttributeValue := []
  automatic : Bool := false
  protectedScope : Bool := false
  deriving DecidableEq, Repr

structure Order where
  column : Bytes
  direction : SortDirection := .asc
  deriving DecidableEq, Repr

structure Join where
  type : JoinType := .inner
  table : Bytes
  first : Bytes
  comparison : Comparison := .equal
  second : Bytes
  deriving DecidableEq, Repr

structure Aggregate where
  function : AggregateFunction := .count
  column : Bytes := ascii "*"
  deriving DecidableEq, Repr

structure QueryPlan where
  table : Bytes
  columns : List Bytes := []
  joins : List Join := []
  predicates : List Predicate := []
  groups : List Bytes := []
  having : List Predicate := []
  orders : List Order := []
  countGroupColumn : Bytes := []
  aggregate : Option Aggregate := none
  limit : Option Nat := none
  offset : Option Nat := none
  distinct : Bool := false
  lock : LockMode := .none
  deriving DecidableEq, Repr

inductive CompiledQueryKind where
  | sql
  | mongodb
  deriving DecidableEq, Repr

structure CompiledQuery where
  kind : CompiledQueryKind := .sql
  text : Bytes := []
  bindings : List AttributeValue := []
  deriving DecidableEq, Repr

/-! ## Protected predicates

Every emitter splits a list of predicates in the same way: if some predicate is
protected and some connector is OR, the protected predicates stand apart, joined by
AND. -/

def Predicate.isProtected (predicate : Predicate) : Bool :=
  predicate.automatic || predicate.protectedScope

variable (predicates : List Predicate)

def isMixed : Bool :=
  predicates.any Predicate.isProtected && predicates.any fun predicate => predicate.connector = .or

/-- The protected predicates, their connectors replaced by AND. -/
def protectedPart : List Predicate :=
  (predicates.filter Predicate.isProtected).map fun predicate => { predicate with connector := .and }

def userPart : List Predicate :=
  predicates.filter fun predicate => !predicate.isProtected

theorem protectedPart_ne_nil {predicates : List Predicate} (mixed : isMixed predicates = true) :
    protectedPart predicates ≠ [] := by
  rw [isMixed, Bool.and_eq_true, List.any_eq_true] at mixed
  obtain ⟨⟨predicate, member, isProtected⟩, _⟩ := mixed
  intro empty
  rw [protectedPart, List.map_eq_nil_iff, List.filter_eq_nil_iff] at empty
  exact empty predicate member isProtected

/-! ## Identifiers

Table and column paths for the SQL dialects, and the contents of JSON strings for
MongoDB. An identifier may hold any byte but control characters, quote characters
included. -/

def dot : UInt8 := 46

def isControl (byte : UInt8) : Bool := byte.toNat < 32 || byte.toNat = 127

def validateIdentifier (value : Bytes) : Except Exception Unit :=
  if value = [] then .error (.invalidArgument "Database identifier cannot be empty")
  else if value.any isControl then
    .error (.invalidArgument "Database identifier contains a control character")
  else .ok ()

def quotesOf : Backend → Quotes
  | .mysql => .backtick
  | .mssql => .bracket
  | _ => .double

variable (backend : Backend)

def dialectOf : Dialect :=
  ⟨quotesOf backend, backend = .postgresql⟩

variable (value : Bytes)

def quoteIdentifier : Except Exception Bytes := do
  validateIdentifier value
  .ok (quote (quotesOf backend) value)

def segments (path : Bytes) : List Bytes := path.splitOn dot

def quoteSegment : Except Exception Bytes :=
  if value = star then .ok star else quoteIdentifier backend value

def appendSegment (result segment : Bytes) : Except Exception Bytes := do
  let quoted ← quoteSegment backend segment
  .ok ((if result = [] then [] else result ++ ascii ".") ++ quoted)

def quotePath : Except Exception Bytes :=
  (segments value).foldlM (appendSegment backend) []

/-- Contents of a JSON string, without its surrounding quotation marks. -/
def jsonIdentifier : Except Exception Bytes := do
  validateIdentifier value
  .ok (value.flatMap fun byte => if byte = 34 ∨ byte = 92 then [92, byte] else [byte])

def jsonFieldIdentifier : Except Exception Bytes := do
  validateIdentifier value
  if (segments value).any fun segment => segment = [] ∨ segment.head? = some 36 then
    .error (.invalidArgument "MongoDB field paths cannot contain operators or empty segments")
  else jsonIdentifier value

def mongoField : Except Exception Bytes :=
  if value = ascii "id" then .ok (ascii "_id") else jsonFieldIdentifier value

/-! ## Quoted paths -/

section Pieces

variable {V : Type*}

theorem segments_ne_nil (path : Bytes) : segments path ≠ [] := splitOn_ne_nil _ _

theorem segments_qualified (table : Bytes) {name : Bytes} (plain : dot ∉ name) :
    segments (table ++ dot :: name) = segments table ++ [name] := by
  rw [segments, splitOn_append_cons_self, splitOn_eq_singleton plain]
  rfl

variable {backend : Backend}

theorem quoteIdentifier_ok {value quoted : Bytes}
    (done : quoteIdentifier backend value = .ok quoted) :
    validateIdentifier value = .ok () ∧ quoted = quote (quotesOf backend) value := by
  obtain ⟨⟨⟩, valid, written⟩ := bind_eq_ok.mp done
  cases written
  exact ⟨valid, rfl⟩

theorem values_segmentPiece (segment : Bytes) : values [(segmentPiece segment : Piece V)] = [] := by
  rw [segmentPiece]
  split <;> rfl

theorem quoteSegment_ok {segment quoted : Bytes} (done : quoteSegment backend segment = .ok quoted)
    (count : Nat) :
    quoted = render (dialectOf backend) count [(segmentPiece segment : Piece V)] ∧ quoted ≠ [] := by
  rw [quoteSegment] at done
  rw [segmentPiece]
  split at done
  · rename_i isStar
    cases done
    rw [if_pos isStar]
    exact ⟨rfl, by decide⟩
  · rename_i notStar
    rw [if_neg notStar, (quoteIdentifier_ok done).2]
    exact ⟨(append_nil _).symm, by simp [quote]⟩

theorem appendSegment_ok {result segment extended : Bytes}
    (done : appendSegment backend result segment = .ok extended) (count : Nat) :
    extended = (if result = [] then [] else result ++ ascii ".") ++
        render (dialectOf backend) count [(segmentPiece segment : Piece V)] ∧ extended ≠ [] := by
  obtain ⟨quoted, quoting, written⟩ := bind_eq_ok.mp done
  obtain ⟨rendered, nonempty⟩ := quoteSegment_ok (V := V) quoting count
  cases written
  exact ⟨by rw [rendered], append_ne_nil_of_right_ne_nil _ nonempty⟩

theorem values_pathPieces (path : Path) : values (pathPieces path : List (Piece V)) = [] := by
  have rest : ∀ others : Path,
      values (others.flatMap fun segment =>
        [(.text (ascii ".") : Piece V), segmentPiece segment]) = [] := by
    intro others
    induction others with
    | nil => rfl
    | cons segment later ih =>
      rw [flatMap_cons, values_append, ih, append_nil]
      exact values_segmentPiece segment
  rw [pathPieces]
  cases path with
  | nil => rfl
  | cons first others => rw [separated, values_append, values_segmentPiece, rest, append_nil]

theorem quotePath_ok {path quoted : Bytes} (done : quotePath backend path = .ok quoted)
    (count : Nat) :
    quoted = render (dialectOf backend) count (pathPieces (segments path) : List (Piece V)) := by
  rw [quotePath] at done
  cases parts : segments path with
  | nil => exact absurd parts (segments_ne_nil path)
  | cons first others =>
    rw [parts, foldlM_cons] at done
    obtain ⟨middle, appended, continued⟩ := bind_eq_ok.mp done
    obtain ⟨written, nonempty⟩ := appendSegment_ok (V := V) appended count
    refine (foldlM_tracks (fun seen result => result ≠ [] ∧ result = render (dialectOf backend) count
      (pathPieces (first :: seen) : List (Piece V))) ?_ continued [] ⟨nonempty, ?_⟩).2
    · intro seen before segment after ran ⟨started, text⟩
      obtain ⟨written, nonempty⟩ := appendSegment_ok (V := V) ran count
      refine ⟨nonempty, ?_⟩
      have more : pathPieces (first :: (seen ++ [segment])) = pathPieces (first :: seen) ++
          [(.text (ascii ".") : Piece V), segmentPiece segment] := by
        simp [pathPieces, separated]
      rw [more, render_append, values_pathPieces, written, if_neg started, text]
      simp only [render, append_assoc, length_nil, Nat.add_zero]
    · rw [written, pathPieces, separated, flatMap_nil, append_nil]
      rfl

end Pieces

end Gungnir.Orm
