import Gungnir.Http.Response

/-!
# Chunked bodies

A reader of the chunked coding of RFC 9112, with chunk extensions and trailer fields, gets back
what `serialize_chunk` wrote. An empty chunk writes nothing, so only the end marker ends a body.
-/

namespace Gungnir.Http

open Gungnir.Core List

/-! ## The reader -/

/-- A line, without its end, and what follows. -/
def splitLine : Bytes → Option (Bytes × Bytes)
  | [] => none
  | 13 :: 10 :: rest => some ([], rest)
  | byte :: rest => (splitLine rest).map fun split => (byte :: split.1, split.2)

/-- The `chunk-size` of a line. A `chunk-ext` may follow it. -/
def chunkSize (line : Bytes) : Option Nat :=
  let digits := line.takeWhile fun byte => (hexValue byte).isSome
  let extension := line.dropWhile fun byte => (hexValue byte).isSome
  if digits ≠ [] ∧ extension.head?.all (· ∈ ascii "; \t") then
    some (digits.foldl (fun total byte => 16 * total + (hexValue byte).getD 0) 0)
  else none

/-- What follows the trailer fields and the empty line behind them. -/
def skipTrailers : Nat → Bytes → Option Bytes
  | 0, _ => none
  | fuel + 1, source =>
    match splitLine source with
    | none => none
    | some ([], rest) => some rest
    | some (_ :: _, rest) => skipTrailers fuel rest

/-- The content of a `chunked-body`, and what follows it. -/
def readChunks : Nat → Bytes → Option (Bytes × Bytes)
  | 0, _ => none
  | fuel + 1, source => do
    let (line, rest) ← splitLine source
    let size ← chunkSize line
    if size = 0 then
      let rest ← skipTrailers (rest.length + 1) rest
      return ([], rest)
    else
      let data := rest.take size
      match rest.drop size with
      | 13 :: 10 :: rest => do
        let (content, rest) ← readChunks fuel rest
        return (data ++ content, rest)
      | _ => none

def readChunked (source : Bytes) : Option (Bytes × Bytes) := readChunks (source.length + 1) source

/-! ## Sizes -/

theorem hexValue_hexDigit {value : Nat} (small : value < 16) :
    hexValue (hexDigit value) = some value := by
  have all : ∀ digit : Fin 16, hexValue (hexDigit digit) = some digit.val := by decide
  exact all ⟨value, small⟩

/-- Digits, and the number they stand for. -/
structure Sized (digits : Bytes) (value : Nat) : Prop where
  filled : digits ≠ []
  hexadecimal : ∀ byte ∈ digits, (hexValue byte).isSome = true
  value : digits.foldl (fun total byte => 16 * total + (hexValue byte).getD 0) 0 = value

theorem Sized.digit {value : Nat} (small : value < 16) : Sized [hexDigit value] value where
  filled := cons_ne_nil _ _
  hexadecimal := by simp [hexValue_hexDigit small]
  value := by simp [hexValue_hexDigit small]

theorem Sized.snoc {digits : Bytes} {value last : Nat} (sized : Sized digits value)
    (small : last < 16) : Sized (digits ++ [hexDigit last]) (16 * value + last) where
  filled := append_ne_nil_of_right_ne_nil _ (cons_ne_nil _ _)
  hexadecimal := by
    refine forall_mem_append.mpr ⟨sized.hexadecimal, forall_mem_singleton.mpr ?_⟩
    rw [hexValue_hexDigit small]
    rfl
  value := by simp [sized.value, hexValue_hexDigit small]

theorem sized_hexFuel {fuel value : Nat} (enough : value ≤ fuel) :
    Sized (hexFuel fuel value) value := by
  induction fuel generalizing value with
  | zero =>
    obtain rfl := Nat.le_zero.mp enough
    exact .digit (by decide)
  | succ fuel ih =>
    unfold hexFuel
    split
    · rename_i small
      exact .digit small
    · have split : 16 * (value / 16) + value % 16 = value := Nat.div_add_mod value 16
      have longer := (@ih (value / 16) (by omega)).snoc (Nat.mod_lt value (by decide : 0 < 16))
      rwa [split] at longer

theorem Sized.chunkSize {digits : Bytes} {value : Nat} (sized : Sized digits value) :
    chunkSize digits = some value := by
  have whole : digits.takeWhile (fun byte => (hexValue byte).isSome) = digits :=
    takeWhile_eq_self_iff.mpr sized.hexadecimal
  have none : digits.dropWhile (fun byte => (hexValue byte).isSome) = [] :=
    dropWhile_eq_nil_iff.mpr sized.hexadecimal
  simp [Http.chunkSize, whole, none, sized.filled, sized.value]

/-! ## Lines -/

theorem splitLine_append {line : Bytes} (inside : 13 ∉ line) (rest : Bytes) :
    splitLine (line ++ crlf ++ rest) = some (line, rest) := by
  induction line with
  | nil => rfl
  | cons byte line ih =>
    obtain ⟨differs, others⟩ := not_or.mp (mt mem_cons.mpr inside)
    rw [cons_append, cons_append, splitLine, ih others]
    · rfl
    · rintro tail rfl
      exact absurd rfl differs

theorem Sized.splitLine {digits : Bytes} {value : Nat} (sized : Sized digits value)
    (rest : Bytes) : splitLine (digits ++ crlf ++ rest) = some (digits, rest) := by
  refine splitLine_append (fun member => ?_) rest
  have digit := sized.hexadecimal 13 member
  exact absurd digit (by decide)

/-! ## Streams -/

theorem readChunks_chunk {chunk : Bytes} (filled : chunk ≠ []) (fuel : Nat) (rest : Bytes) :
    readChunks (fuel + 1) (serializeChunk chunk ++ rest) =
      (readChunks fuel rest).map fun read => (chunk ++ read.1, read.2) := by
  have sized : Sized (stdHex chunk.length) _ := sized_hexFuel (Nat.le_refl _)
  have positive : chunk.length ≠ 0 := mt length_eq_zero_iff.mp filled
  have text : serializeChunk chunk ++ rest =
      stdHex chunk.length ++ crlf ++ (chunk ++ 13 :: 10 :: rest) := by
    rw [serializeChunk, if_neg filled]
    simp [crlf]
  rw [text, readChunks, sized.splitLine]
  simp only [Option.bind_eq_bind, Option.bind_some, sized.chunkSize, positive, if_false,
    take_left, drop_left]
  cases readChunks fuel rest with
  | none => rfl
  | some read => rfl

theorem readChunks_stream (chunks : List Bytes) (rest : Bytes) {fuel : Nat}
    (enough : (chunks.flatMap serializeChunk).length < fuel) :
    readChunks fuel (chunks.flatMap serializeChunk ++ serializeChunkEnd ++ rest) =
      some (chunks.flatten, rest) := by
  induction chunks generalizing fuel with
  | nil =>
    obtain ⟨fuel, rfl⟩ := Nat.exists_eq_add_one_of_ne_zero (Nat.ne_zero_of_lt enough)
    rfl
  | cons chunk chunks ih =>
    by_cases empty : chunk = []
    -- An empty chunk leaves no trace in the text.
    · rw [empty] at enough ⊢
      exact ih enough
    · rw [flatMap_cons, length_append] at enough
      have written := length_pos_iff.mpr (serializeChunk_ne_nil empty)
      obtain ⟨fuel, rfl⟩ := Nat.exists_eq_add_one_of_ne_zero (Nat.ne_zero_of_lt enough)
      rw [flatMap_cons, append_assoc, append_assoc, readChunks_chunk empty, ← append_assoc,
        ih (by omega)]
      rfl

/-- Whatever chunks a stream yields, empty ones included, a reader of its text gets back their
concatenation and stops where the text ends. -/
theorem chunked_stream (chunks : List Bytes) (rest : Bytes) :
    readChunked (chunks.flatMap serializeChunk ++ serializeChunkEnd ++ rest) =
      some (chunks.flatten, rest) := by
  refine readChunks_stream chunks rest ?_
  simp only [length_append]
  omega

end Gungnir.Http
