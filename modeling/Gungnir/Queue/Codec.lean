import Gungnir.Queue.Envelope

/-!
# The envelope codec with its cursor

`decode` reads the unread rest of the input. The source keeps the whole string and
a position in it. Here every sum and difference of positions that would wrap, and
every range that would leave the string, ends the run as undefined; no input does.
-/

namespace Gungnir.Queue

open Gungnir.Core

/-! ## Reading at a position -/

def sizeAdd (left right : Nat) : Except Exception Nat :=
  if left + right < sizeBound then .ok (left + right) else .error .undefinedBehavior

def sizeSub (left right : Nat) : Except Exception Nat :=
  if right ≤ left then .ok (left - right) else .error .undefinedBehavior

/-- The bytes of a range. -/
def slice (input : Bytes) (first last : Nat) : Except Exception Bytes :=
  if first ≤ last ∧ last ≤ input.length then .ok ((input.take last).drop first)
  else .error .undefinedBehavior

def readFieldAt (input : Bytes) (cursor : Nat) : Except Exception (Bytes × Nat) :=
  match (input.drop cursor).findIdx? (· = colon) with
  | none => .error ⟨.runtimeError, ascii "Invalid Redis queue envelope"⟩
  | some offset => do
    let separator := cursor + offset
    match fromChars sizeBound (← slice input cursor separator) with
    | none => .error ⟨.runtimeError, ascii "Invalid Redis queue envelope length"⟩
    | some length =>
      let cursor ← sizeAdd separator 1
      if (← sizeSub input.length cursor) < length then
        .error ⟨.runtimeError, ascii "Truncated Redis queue envelope"⟩
      else
        let last ← sizeAdd cursor length
        .ok (← slice input cursor last, last)

def readTraceAt (input : Bytes) (cursor : Nat) : Except Exception (Bytes × Bytes × Nat) :=
  if cursor = input.length then .ok ([], [], cursor)
  else do
    let (traceId, cursor) ← readFieldAt input cursor
    let (parentSpanId, cursor) ← readFieldAt input cursor
    return (traceId, parentSpanId, cursor)

def decodeAt (encoded : Bytes) : Except Exception Envelope := do
  let (id, cursor) ← readFieldAt encoded 0
  let (name, cursor) ← readFieldAt encoded cursor
  let (payload, cursor) ← readFieldAt encoded cursor
  let (attemptText, cursor) ← readFieldAt encoded cursor
  let attempts ← readUnsigned attemptText
  let (maximumText, cursor) ← readFieldAt encoded cursor
  let maxAttempts ← readUnsigned maximumText
  let (traceId, parentSpanId, cursor) ← readTraceAt encoded cursor
  if cursor = encoded.length then
    return ⟨id, name, payload, attempts, maxAttempts, [], traceId, parentSpanId⟩
  else .error ⟨.runtimeError, ascii "Redis queue envelope contains trailing data"⟩

/-! ## The two readers agree -/

/-- Two computations throw the same runtime error or return related values. -/
inductive Agree {α β : Type} (Related : α → β → Prop) : Except Exception α → Except Exception β → Prop
  | ok {left : α} {right : β} : Related left right → Agree Related (.ok left) (.ok right)
  | error {raised : Exception} : raised.kind = .runtimeError →
      Agree Related (.error raised) (.error raised)

theorem Agree.bind {α β γ δ : Type} {Related : α → β → Prop} {Later : γ → δ → Prop}
    {left : Except Exception α} {right : Except Exception β} (agree : Agree Related left right)
    {next : α → Except Exception γ} {other : β → Except Exception δ}
    (continues : ∀ first second, Related first second → Agree Later (next first) (other second)) :
    Agree Later (left >>= next) (right >>= other) := by
  cases agree with
  | ok related => exact continues _ _ related
  | error kind => exact .error kind

/-- A value with a position, and the value with the rest of the input from there on. -/
def Positioned (input : Bytes) (left : Bytes × Nat) (right : Bytes × Bytes) : Prop :=
  left.1 = right.1 ∧ left.2 ≤ input.length ∧ right.2 = input.drop left.2

theorem findIdx?_colon (rest : Bytes) :
    rest.findIdx? (· = colon) = none ∧ rest.dropWhile (· ≠ colon) = [] ∨
    ∃ offset tail, rest.findIdx? (· = colon) = some offset ∧ offset + 1 + tail.length = rest.length ∧
      rest.dropWhile (· ≠ colon) = colon :: tail ∧ rest.takeWhile (· ≠ colon) = rest.take offset ∧
      tail = rest.drop (offset + 1) := by
  induction rest with
  | nil => exact .inl ⟨rfl, rfl⟩
  | cons byte rest ih =>
    by_cases found : byte = colon
    · subst found
      exact .inr ⟨0, rest, by simp [List.findIdx?_cons], by rw [List.length_cons]; omega, by simp,
        by simp, rfl⟩
    · rcases ih with ⟨absent, gone⟩ | ⟨offset, tail, index, size, dropped, taken, isTail⟩
      · exact .inl ⟨by simpa [List.findIdx?_cons, found] using absent, by simpa [found] using gone⟩
      · refine .inr ⟨offset + 1, tail, ?_, ?_, ?_, ?_, isTail⟩
        · simp [List.findIdx?_cons, found, index]
        · rw [List.length_cons]
          omega
        · simpa [found] using dropped
        · simpa [found] using taken

variable {input : Bytes} {cursor : Nat}

theorem slice_ok {count : Nat} (fits : cursor + count ≤ input.length) :
    slice input cursor (cursor + count) = .ok ((input.drop cursor).take count) := by
  rw [slice, if_pos ⟨Nat.le_add_right _ _, fits⟩, List.drop_take, Nat.add_sub_cancel_left]

theorem readFieldAt_agrees (short : input.length < sizeBound) (inside : cursor ≤ input.length) :
    Agree (Positioned input) (readFieldAt input cursor) (readField (input.drop cursor)) := by
  unfold readFieldAt readField
  rcases findIdx?_colon (input.drop cursor) with
    ⟨absent, gone⟩ | ⟨offset, tail, index, size, dropped, taken, rfl⟩
  · rw [absent, gone]
    exact .error rfl
  · rw [List.length_drop, List.length_drop] at size
    rw [index, dropped, taken]
    dsimp only
    rw [slice_ok (by omega)]
    change Agree _ (match fromChars sizeBound _ with | none => _ | some _ => _) _
    cases fromChars sizeBound ((input.drop cursor).take offset) with
    | none => exact .error rfl
    | some length =>
      have next : sizeAdd (cursor + offset) 1 = .ok (cursor + offset + 1) := if_pos (by omega)
      have room : sizeSub input.length (cursor + offset + 1) =
          .ok (input.length - (cursor + offset + 1)) := if_pos (by omega)
      simp only [next, room, bind, Except.bind, List.drop_drop, List.length_drop, ← Nat.add_assoc]
      split
      · exact .error rfl
      · have last : sizeAdd (cursor + offset + 1) length = .ok (cursor + offset + 1 + length) :=
          if_pos (by omega)
        simp only [last, slice_ok (show cursor + offset + 1 + length ≤ input.length by omega)]
        exact .ok ⟨rfl, by omega, rfl⟩

theorem readUnsigned_agrees (value : Bytes) : Agree Eq (readUnsigned value) (readUnsigned value) := by
  unfold readUnsigned
  split
  · exact .error rfl
  · exact .ok rfl

theorem drop_eq_nil_iff (inside : cursor ≤ input.length) :
    input.drop cursor = [] ↔ cursor = input.length := by
  rw [List.drop_eq_nil_iff]
  omega

theorem readTraceAt_agrees (short : input.length < sizeBound) (inside : cursor ≤ input.length) :
    Agree (fun left right => left.1 = right.1 ∧ Positioned input left.2 right.2)
      (readTraceAt input cursor) (readTrace (input.drop cursor)) := by
  unfold readTraceAt readTrace
  by_cases finished : cursor = input.length
  · rw [if_pos finished, if_pos ((drop_eq_nil_iff inside).mpr finished)]
    exact .ok ⟨rfl, rfl, inside, ((drop_eq_nil_iff inside).mpr finished).symm⟩
  · rw [if_neg finished, if_neg fun empty => finished ((drop_eq_nil_iff inside).mp empty)]
    refine (readFieldAt_agrees short inside).bind ?_
    rintro ⟨traceId, cursor⟩ ⟨_, _⟩ ⟨rfl, inside, rfl⟩
    refine (readFieldAt_agrees short inside).bind ?_
    rintro ⟨parentSpanId, cursor⟩ ⟨_, _⟩ ⟨rfl, inside, rfl⟩
    exact .ok ⟨rfl, rfl, inside, rfl⟩

theorem decodeAt_agrees {encoded : Bytes} (short : encoded.length < sizeBound) :
    Agree Eq (decodeAt encoded) (decode encoded) := by
  refine (readFieldAt_agrees short (Nat.zero_le _)).bind ?_
  rintro ⟨id, cursor⟩ ⟨_, _⟩ ⟨rfl, inside, rfl⟩
  refine (readFieldAt_agrees short inside).bind ?_
  rintro ⟨name, cursor⟩ ⟨_, _⟩ ⟨rfl, inside, rfl⟩
  refine (readFieldAt_agrees short inside).bind ?_
  rintro ⟨payload, cursor⟩ ⟨_, _⟩ ⟨rfl, inside, rfl⟩
  refine (readFieldAt_agrees short inside).bind ?_
  rintro ⟨attemptText, cursor⟩ ⟨_, _⟩ ⟨rfl, inside, rfl⟩
  refine (readUnsigned_agrees attemptText).bind ?_
  rintro attempts _ rfl
  refine (readFieldAt_agrees short inside).bind ?_
  rintro ⟨maximumText, cursor⟩ ⟨_, _⟩ ⟨rfl, inside, rfl⟩
  refine (readUnsigned_agrees maximumText).bind ?_
  rintro maxAttempts _ rfl
  refine (readTraceAt_agrees short inside).bind ?_
  rintro ⟨traceId, parentSpanId, cursor⟩ ⟨_, _, _⟩ ⟨rfl, rfl, inside, rfl⟩
  simp only [drop_eq_nil_iff inside]
  split
  · exact .ok rfl
  · exact .error rfl

/-- Whatever was encoded is decoded to the same envelope without its reservation, so no two
envelopes that differ elsewhere have one encoding; and on every string `decode` returns an
envelope or throws a runtime error, with every position inside the string. -/
theorem envelope_codec :
    (∀ job encoded, encode job = .ok encoded → decodeAt encoded = .ok job.unreserved) ∧
    (∀ first second encoded, encode first = .ok encoded → encode second = .ok encoded →
      first.unreserved = second.unreserved) ∧
    ∀ encoded : Bytes, encoded.length ≤ stringMaxSize →
      (∃ job, decodeAt encoded = .ok job) ∨
        ∃ raised, decodeAt encoded = .error raised ∧ raised.kind = .runtimeError := by
  have limit : stringMaxSize < sizeBound := by decide
  refine ⟨fun job encoded written => ?_, fun first second encoded one two => ?_, fun encoded fits => ?_⟩
  · have short : encoded.length ≤ stringMaxSize := by
      unfold encode at written
      split at written
      · cases written
      · cases written
        omega
    have agree := decodeAt_agrees (Nat.lt_of_le_of_lt short limit)
    rw [decode_encode written] at agree
    cases read : decodeAt encoded with
    | error raised => rw [read] at agree; cases agree
    | ok found =>
      rw [read] at agree
      cases agree with
      | ok same => rw [same]
  · have same := (decode_encode one).symm.trans (decode_encode two)
    exact Except.ok.inj same
  · have agree := decodeAt_agrees (Nat.lt_of_le_of_lt fits limit)
    cases read : decodeAt encoded with
    | ok job => exact .inl ⟨job, rfl⟩
    | error raised =>
      rw [read] at agree
      refine .inr ⟨raised, rfl, ?_⟩
      generalize decode encoded = other at agree
      cases agree with
      | error kind => exact kind

/-- An envelope whose fields look like lengths, with a NUL in its payload. -/
def digitsJob : Envelope := ⟨ascii "3:abc", ascii "1:", [0, 58], 4294967295, 0, ascii "r", [], []⟩

theorem envelope_codec_digits : decodeAt (encodedBytes digitsJob) = .ok digitsJob.unreserved :=
  envelope_codec.1 digitsJob _ (by decide)

end Gungnir.Queue
