import Gungnir.Core.Text

/-!
# Queue envelopes and their persisted form

A job is persisted as seven length-prefixed fields. `decode` reads the fields
back with one cursor, here the unread rest of the input; records written before
trace propagation have only the first five.
-/

namespace Gungnir.Queue

open Gungnir.Core List

structure Envelope where
  id : Bytes
  name : Bytes
  payload : Bytes
  attempts : UInt32
  maxAttempts : UInt32
  reservation : Bytes
  traceId : Bytes
  parentSpanId : Bytes
  deriving DecidableEq, Repr

/-- The thread's trace context, when it is valid. -/
structure TraceContext where
  traceId : Bytes
  spanId : Bytes
  deriving DecidableEq, Repr

def inheritTrace (current : Option TraceContext) (job : Envelope) : Envelope :=
  if job.traceId ≠ [] then job
  else
    match current with
    | none => job
    | some context =>
      { job with traceId := context.traceId, parentSpanId := context.spanId }

variable (job : Envelope)

def Envelope.unreserved : Envelope := { job with reservation := [] }

def validateJob : Except Exception Unit :=
  if job.id = [] then
    .error ⟨.invalidArgument, ascii "Queued job id cannot be empty"⟩
  else if job.name = [] then
    .error ⟨.invalidArgument, ascii "Queued job name cannot be empty"⟩
  else if job.maxAttempts = 0 then
    .error ⟨.invalidArgument, ascii "Queued job max_attempts must be greater than zero"⟩
  else .ok ()

/-! ## Writing -/

def colon : UInt8 := 58

def appendField (output value : Bytes) : Bytes :=
  output ++ stdToString value.length ++ colon :: value

/-- The text of a field. -/
def field (value : Bytes) : Bytes := stdToString value.length ++ colon :: value

def fields : List Bytes :=
  [job.id, job.name, job.payload, stdToString job.attempts.toNat,
    stdToString job.maxAttempts.toNat, job.traceId, job.parentSpanId]

def encodedBytes : Bytes := (fields job).foldl appendField []

def reservedSize : Nat :=
  job.id.length + job.name.length + job.payload.length + job.traceId.length +
    job.parentSpanId.length + 96

def encode : Except Exception Bytes :=
  if stringMaxSize < reservedSize job ∨ stringMaxSize < (encodedBytes job).length then
    .error ⟨.lengthError, ascii "basic_string"⟩
  else .ok (encodedBytes job)

/-! ## Reading -/

def readField (input : Bytes) : Except Exception (Bytes × Bytes) :=
  match input.dropWhile (· ≠ colon) with
  | [] => .error ⟨.runtimeError, ascii "Invalid Redis queue envelope"⟩
  | _ :: rest =>
    match fromChars sizeBound (input.takeWhile (· ≠ colon)) with
    | none => .error ⟨.runtimeError, ascii "Invalid Redis queue envelope length"⟩
    | some length =>
      if rest.length < length then
        .error ⟨.runtimeError, ascii "Truncated Redis queue envelope"⟩
      else .ok (rest.take length, rest.drop length)

def readUnsigned (value : Bytes) : Except Exception UInt32 :=
  match fromChars unsignedBound value with
  | none => .error ⟨.runtimeError, ascii "Invalid Redis queue attempt count"⟩
  | some output => .ok (UInt32.ofNat output)

/-- The two trace fields, absent in records of the older five-field form. -/
def readTrace (input : Bytes) : Except Exception (Bytes × Bytes × Bytes) :=
  if input = [] then .ok ([], [], [])
  else do
    let (traceId, input) ← readField input
    let (parentSpanId, input) ← readField input
    return (traceId, parentSpanId, input)

def decode (encoded : Bytes) : Except Exception Envelope := do
  let (id, input) ← readField encoded
  let (name, input) ← readField input
  let (payload, input) ← readField input
  let (attemptText, input) ← readField input
  let attempts ← readUnsigned attemptText
  let (maximumText, input) ← readField input
  let maxAttempts ← readUnsigned maximumText
  let (traceId, parentSpanId, input) ← readTrace input
  if input = [] then
    return ⟨id, name, payload, attempts, maxAttempts, [], traceId, parentSpanId⟩
  else .error ⟨.runtimeError, ascii "Redis queue envelope contains trailing data"⟩

/-! ## The codec round trip -/

theorem colon_not_mem_stdToString (value : Nat) : colon ∉ stdToString value := by
  intro member
  have range := Library.Decimal.mem_print_digit member
  exact absurd range.2 (by decide)

variable {head tail : Bytes} (absent : colon ∉ head)

include absent

theorem before_colon : ∀ byte ∈ head, decide (byte ≠ colon) = true :=
  fun _ member => decide_eq_true fun same => absent (same ▸ member)

theorem takeWhile_until_colon : (head ++ colon :: tail).takeWhile (· ≠ colon) = head := by
  rw [takeWhile_append_of_pos (before_colon absent), takeWhile_cons_of_neg (by simp), append_nil]

theorem dropWhile_until_colon : (head ++ colon :: tail).dropWhile (· ≠ colon) = colon :: tail := by
  rw [dropWhile_append_of_pos (before_colon absent), dropWhile_cons_of_neg (by simp)]

omit absent

theorem readField_field {value : Bytes} (fits : value.length < sizeBound) (rest : Bytes) :
    readField (field value ++ rest) = .ok (value, rest) := by
  have absent := colon_not_mem_stdToString value.length
  unfold readField
  rw [field, append_assoc, cons_append, dropWhile_until_colon absent, takeWhile_until_colon absent]
  have parsed : fromChars sizeBound (stdToString value.length) = some value.length :=
    Library.Decimal.parse_print fits
  simp only [parsed]
  rw [if_neg (by rw [length_append]; omega), take_left, drop_left]

theorem readUnsigned_stdToString (value : UInt32) :
    readUnsigned (stdToString value.toNat) = .ok value := by
  have parsed : fromChars unsignedBound (stdToString value.toNat) = some value.toNat :=
    Library.Decimal.parse_print value.toNat_lt
  unfold readUnsigned
  rw [parsed]
  exact congrArg Except.ok (UInt32.ofNat_toNat)

variable {job : Envelope}

theorem foldl_appendField (values : List Bytes) (output : Bytes) :
    values.foldl appendField output = output ++ values.flatMap field := by
  induction values generalizing output with
  | nil => exact (append_nil output).symm
  | cons first rest ih =>
    rw [foldl_cons, ih, flatMap_cons, appendField, field]
    simp only [append_assoc]

theorem length_le_of_mem {value : Bytes} {values : List Bytes} (member : value ∈ values) :
    value.length ≤ (values.flatMap field).length := by
  have whole : (field value).length ≤ (values.flatMap field).length :=
    (sublist_flatten_of_mem (mem_map_of_mem member)).length_le
  rw [field, length_append, length_cons] at whole
  omega

theorem encodedBytes_eq (job : Envelope) : encodedBytes job = (fields job).flatMap field :=
  foldl_appendField (fields job) []

theorem encode_ok {encoded : Bytes} (written : encode job = .ok encoded) :
    encoded = encodedBytes job ∧ ∀ value ∈ fields job, value.length < sizeBound := by
  unfold encode at written
  split at written
  · cases written
  · cases written
    refine ⟨rfl, fun value member => ?_⟩
    have bounded := length_le_of_mem member
    rw [← encodedBytes_eq] at bounded
    have limit : stringMaxSize < sizeBound := by decide
    omega

/-- Whatever `encode` wrote, `decode` reads back with the reservation cleared. -/
theorem decode_encode {encoded : Bytes} (written : encode job = .ok encoded) :
    decode encoded = .ok job.unreserved := by
  obtain ⟨rfl, fits⟩ := encode_ok written
  have fieldFits : ∀ value ∈ fields job, value.length < sizeBound := fits
  simp only [fields, mem_cons, not_mem_nil, or_false, forall_eq_or_imp, forall_eq]
    at fieldFits
  obtain ⟨idFits, nameFits, payloadFits, attemptsFits, maximumFits, traceFits, parentFits⟩ :=
    fieldFits
  have trace : readTrace (field job.traceId ++ field job.parentSpanId) =
      .ok (job.traceId, job.parentSpanId, []) := by
    have nonempty : field job.traceId ++ field job.parentSpanId ≠ [] :=
      append_ne_nil_of_right_ne_nil _ (append_ne_nil_of_right_ne_nil _ (cons_ne_nil _ _))
    rw [readTrace, if_neg nonempty, readField_field traceFits]
    change (do
      let (parentSpanId, input) ← readField _
      pure (job.traceId, parentSpanId, input)) = _
    rw [← append_nil (field _), readField_field parentFits]
    rfl
  rw [encodedBytes_eq, fields]
  simp only [flatMap_cons, flatMap_nil, append_nil]
  unfold decode
  simp only [readField_field idFits, readField_field nameFits, readField_field payloadFits,
    readField_field attemptsFits, readField_field maximumFits, readUnsigned_stdToString, trace,
    Except.bind, bind, pure, Except.pure, if_true]
  rfl

end Gungnir.Queue
