import Gungnir.Http.Connection

/-!
# What a client should see

A conversation is a function of the client's bytes and of the application alone:
the requests are cut off one after the other, each is answered by one reply, and
the first refused request or closing reply ends it. Nothing here mentions reads,
writes or completions.
-/

namespace Gungnir.Http

open Gungnir.Core List

/-! ## Replies -/

/-- A reply: the bytes queued when the handler completes, the body stream that
follows them, and whether the connection closes afterwards. -/
structure Reply where
  head : Bytes
  items : Option (Nat → StreamItem)
  closes : Bool

/-- The bytes that `queue_error` queues. -/
def errorBytes (status : Int) (body : Bytes) : Bytes :=
  match serializeResponse (errorResponse status body) false .close with
  | .error _ => []
  | .ok output => output

def Failure.bytes (failure : Failure) : Bytes := errorBytes failure.status.1 failure.status.2

theorem errorBytes_ne_nil (status : Int) (body : Bytes) : errorBytes status body ≠ [] :=
  @serializeResponse_ne_nil .close (errorResponse status body) false _ rfl

def replyWith (serialized : Except Exception Bytes) (items : Option (Nat → StreamItem))
    (keepAlive : Bool) : Reply :=
  match serialized with
  | .error _ => ⟨errorBytes 500 (ascii "Internal Server Error"), none, true⟩
  | .ok head => ⟨head, items, !keepAlive⟩

def PendingDispatch.reply (pending : PendingDispatch) : Reply :=
  match pending.outcome with
  | .failed =>
    replyWith
      (serializeResponse (errorResponse 500 (ascii "Internal Server Error")) pending.omitBody
        .close) none false
  | .respond response =>
    replyWith (serializeResponse response pending.omitBody (directive pending.keepAlive)) none
      pending.keepAlive
  | .stream response items =>
    replyWith (serializeStreamHeaders response pending.omitBody (directive pending.keepAlive))
      (if pending.omitBody then none else some items) pending.keepAlive
  | .upgrade none => ⟨errorBytes 400 (ascii "Invalid WebSocket upgrade"), none, true⟩
  | .upgrade (some handshake) => ⟨websocketUpgradeResponse handshake, none, true⟩

variable (options : RuntimeOptions)

def pendingFor (index : Nat) (raw : Bytes) (request : Request) (outcome : Outcome) :
    PendingDispatch where
  outcome := outcome
  keepAlive := keepAliveFor raw request options (index + 1)
  omitBody := request.method = .head

/-- The reply to the request of the given index, counted from zero. -/
def replyTo (application : Application) (index : Nat) (raw : Bytes) (request : Request) : Reply :=
  match application index with
  | .overloaded => replyWith (serializeResponse overloadResponse (request.method = .head) .close) none false
  | .handled outcome => (pendingFor options index raw request outcome).reply

def StreamItem.bytes : StreamItem → Bytes
  | .chunk bytes => serializeChunk bytes
  | .finished => serializeChunkEnd
  | .failed => []

def streamed (items : Nat → StreamItem) : Nat → Bytes
  | 0 => []
  | count + 1 => streamed items count ++ (items count).bytes

/-- The first items of a stream are chunks that the server passes on. -/
def Passes (items : Nat → StreamItem) (count : Nat) : Prop :=
  ∀ position < count, ∃ bytes,
    items position = .chunk bytes ∧ bytes.length ≤ options.maxStreamChunkBytes

/-- The complete serialized response, fixed or chunked. -/
inductive Reply.Complete (options : RuntimeOptions) (reply : Reply) : Bytes → Prop where
  | fixed : reply.items = none → Reply.Complete options reply reply.head
  | chunked {items : Nat → StreamItem} {count : Nat} :
      reply.items = some items → Passes options items count → items count = .finished →
      Reply.Complete options reply (reply.head ++ streamed items (count + 1))

/-- As much of the response as its stream has produced. -/
inductive Reply.Begun (options : RuntimeOptions) (reply : Reply) : Bytes → Prop where
  | complete {bytes : Bytes} : reply.Complete options bytes → Reply.Begun options reply bytes
  | partly {items : Nat → StreamItem} {count : Nat} :
      reply.items = some items → Passes options items count →
      Reply.Begun options reply (reply.head ++ streamed items count)

/-- A reply after which no request is served: it closes the connection, or its stream
fails or yields a chunk above the limit. -/
inductive Reply.Last (options : RuntimeOptions) (reply : Reply) : Prop where
  | closes : reply.closes = true → Reply.Last options reply
  | broken {items : Nat → StreamItem} {count : Nat} :
      reply.items = some items → Passes options items count →
      (items count = .failed ∨
        ∃ bytes, items count = .chunk bytes ∧ options.maxStreamChunkBytes < bytes.length) →
      Reply.Last options reply

/-! ## Conversations -/

section Conversation

variable (options : RuntimeOptions) (application : Application)

/-- The bytes start with a request of the given size, which gets the given reply. -/
def Serves (index : Nat) (rest : Bytes) (size : Nat) (reply : Reply) : Prop :=
  requestSize options rest = .ok (some size) ∧
    ∃ request, parseRequest (rest.take size) = .ok request ∧
      reply = replyTo options application index (rest.take size) request

/-- The bytes start with a request that is refused, before or after it is cut off. -/
inductive Refuses (rest : Bytes) : List Bytes → Failure → Prop where
  | size {failure : Failure} : requestSize options rest = .error failure → Refuses rest [] failure
  | parse {size : Nat} {raised : Exception} :
      requestSize options rest = .ok (some size) → parseRequest (rest.take size) = .error raised →
      Refuses rest [rest.take size] (.exception raised)

/-- The requests cut off and completely answered, the bytes of their responses in
order, and the bytes of the stream behind them. -/
inductive Answered (stream : Bytes) : List Bytes → Bytes → Bytes → Prop where
  | start : Answered stream [] [] stream
  | next {cuts : List Bytes} {written rest bytes : Bytes} {size : Nat} {reply : Reply} :
      Answered stream cuts written rest → Serves options application cuts.length rest size reply →
      reply.closes = false → reply.Complete options bytes →
      Answered stream (cuts ++ [rest.take size]) (written ++ bytes) (rest.drop size)

/-- The bytes a client may have seen: complete responses in the order of the requests,
then as much as there is of the next one, or the error response to the first refused
request. -/
inductive Transcript (stream : Bytes) : Bytes → Prop where
  | answered {cuts : List Bytes} {written rest : Bytes} :
      Answered options application stream cuts written rest → Transcript stream written
  | answering {cuts : List Bytes} {written rest bytes : Bytes} {size : Nat} {reply : Reply} :
      Answered options application stream cuts written rest →
      Serves options application cuts.length rest size reply → reply.Begun options bytes →
      Transcript stream (written ++ bytes)
  | refused {cuts cut : List Bytes} {written rest : Bytes} {failure : Failure} :
      Answered options application stream cuts written rest → Refuses options rest cut failure →
      Transcript stream (written ++ failure.bytes)

/-- Why no request is answered completely after those before `rest`: what is left is
no complete request, is refused, or gets a last reply. -/
inductive Stops (index : Nat) (rest : Bytes) : List Bytes → Option Failure → Prop where
  | incomplete : requestSize options rest = .ok none → Stops index rest [] none
  | refused {cut : List Bytes} {failure : Failure} :
      Refuses options rest cut failure → Stops index rest cut (some failure)
  | last {size : Nat} {reply : Reply} :
      Serves options application index rest size reply → reply.Last options →
      Stops index rest [rest.take size] none

/-- The requests cut off and the exception at the end, when all of the stream has
been taken into account. -/
def Ended (stream : Bytes) (cuts : List Bytes) (failure : Option Failure) : Prop :=
  ∃ earlier written rest cut, Answered options application stream earlier written rest ∧
    Stops options application earlier.length rest cut failure ∧ cuts = earlier ++ cut

end Conversation

/-! ## A stream has one conversation -/

section Unique

variable {options : RuntimeOptions} {application : Application} {stream : Bytes}
  {rest : Bytes} {reply : Reply}

theorem Serves.unique {index size other : Nat} {second : Reply}
    (serves : Serves options application index rest size reply)
    (again : Serves options application index rest other second) :
    size = other ∧ reply = second := by
  obtain ⟨sized, request, parsed, rfl⟩ := serves
  obtain ⟨sizedAgain, requestAgain, parsedAgain, rfl⟩ := again
  cases sized.symm.trans sizedAgain
  cases parsed.symm.trans parsedAgain
  exact ⟨rfl, rfl⟩

variable {cut : List Bytes} {index size : Nat}

theorem Serves.not_refuses {failure : Failure}
    (serves : Serves options application index rest size reply) :
    ¬ Refuses options rest cut failure := by
  intro refuses
  obtain ⟨sized, request, parsed, _⟩ := serves
  cases refuses with
  | size raised => cases sized.symm.trans raised
  | parse sizedAgain raised =>
    cases sized.symm.trans sizedAgain
    cases parsed.symm.trans raised

variable {other : List Bytes}

theorem Refuses.unique {failure second : Failure} (refuses : Refuses options rest cut failure)
    (again : Refuses options rest other second) : cut = other ∧ failure = second := by
  cases refuses with
  | size raised =>
    cases again with
    | size raisedAgain =>
      cases raised.symm.trans raisedAgain
      exact ⟨rfl, rfl⟩
    | parse sized _ => cases raised.symm.trans sized
  | parse sized raised =>
    cases again with
    | size raisedAgain => cases sized.symm.trans raisedAgain
    | parse sizedAgain raisedAgain =>
      cases sized.symm.trans sizedAgain
      cases raised.symm.trans raisedAgain
      exact ⟨rfl, rfl⟩

/-- A reply that is completed and keeps the connection is no last reply. The item
that breaks a stream and the item that finishes it would be the same one. -/
theorem Reply.Complete.not_last {bytes : Bytes} (complete : reply.Complete options bytes)
    (keeps : reply.closes = false) : ¬ reply.Last options := by
  intro last
  cases last with
  | closes closes => cases keeps.symm.trans closes
  | broken streams passes breaks =>
    rename_i items broken
    cases complete with
    | fixed fixed => cases fixed.symm.trans streams
    | chunked streamsAgain passesAgain finishes =>
      rename_i finished
      cases streams.symm.trans streamsAgain
      rcases Nat.lt_trichotomy broken finished with earlier | rfl | later
      · obtain ⟨bytes, chunk, small⟩ := passesAgain broken earlier
        rcases breaks with failed | ⟨large, chunkAgain, tooLarge⟩
        · cases chunk.symm.trans failed
        · cases chunk.symm.trans chunkAgain
          exact absurd small (Nat.not_le_of_lt tooLarge)
      · rcases breaks with failed | ⟨large, chunk, _⟩
        · cases finishes.symm.trans failed
        · cases finishes.symm.trans chunk
      · obtain ⟨bytes, chunk, _⟩ := passes finished later
        cases finishes.symm.trans chunk

variable {failure second : Option Failure}

theorem Stops.unique {index : Nat} (stops : Stops options application index rest cut failure)
    (again : Stops options application index rest other second) :
    cut = other ∧ failure = second := by
  cases stops with
  | incomplete absent =>
    cases again with
    | incomplete _ => exact ⟨rfl, rfl⟩
    | refused refuses =>
      cases refuses with
      | size raised => cases absent.symm.trans raised
      | parse sized _ => cases absent.symm.trans sized
    | last serves _ => cases absent.symm.trans serves.1
  | refused refuses =>
    cases again with
    | incomplete absent =>
      cases refuses with
      | size raised => cases absent.symm.trans raised
      | parse sized _ => cases absent.symm.trans sized
    | refused refusesAgain =>
      obtain ⟨sameCut, sameFailure⟩ := refuses.unique refusesAgain
      exact ⟨sameCut, congrArg some sameFailure⟩
    | last serves _ => exact absurd refuses serves.not_refuses
  | last serves _ =>
    cases again with
    | incomplete absent => cases absent.symm.trans serves.1
    | refused refuses => exact absurd refuses serves.not_refuses
    | last servesAgain _ =>
      obtain ⟨rfl, _⟩ := serves.unique servesAgain
      exact ⟨rfl, rfl⟩

theorem Stops.not_answers {bytes : Bytes} (stops : Stops options application index rest cut failure)
    (serves : Serves options application index rest size reply) (keeps : reply.closes = false)
    (complete : reply.Complete options bytes) : False := by
  cases stops with
  | incomplete absent => cases absent.symm.trans serves.1
  | refused refuses => exact serves.not_refuses refuses
  | last servesAgain last =>
    obtain ⟨_, rfl⟩ := serves.unique servesAgain
    exact complete.not_last keeps last

/-- Of two answered parts of one stream the shorter is the longer one, or can be
continued by the request the longer one answers next. -/
theorem Answered.compare {cuts longer : List Bytes} {written extra behind : Bytes}
    (second : Answered options application stream longer extra behind)
    (first : Answered options application stream cuts written rest)
    (shorter : cuts.length ≤ longer.length) :
    (cuts = longer ∧ rest = behind) ∨
      (cuts.length < longer.length ∧ ∃ size reply bytes,
        Serves options application cuts.length rest size reply ∧ reply.closes = false ∧
          reply.Complete options bytes) := by
  induction second generalizing cuts written rest with
  | start =>
    cases first with
    | start => exact .inl ⟨rfl, rfl⟩
    | next => simp at shorter
  | next before serves keeps complete ih =>
    rename_i done wrote after bytes size reply
    rw [length_append, length_singleton] at shorter
    rcases Nat.lt_or_ge done.length cuts.length with reached | inside
    · -- The first part ends at the same request; compare the parts before it.
      cases first with
      | start => simp at reached
      | next earlier servesEarlier _ _ =>
        rw [length_append, length_singleton] at shorter reached
        rcases ih earlier (by omega) with ⟨rfl, rfl⟩ | ⟨strict, _⟩
        · obtain ⟨rfl, _⟩ := serves.unique servesEarlier
          exact .inl ⟨rfl, rfl⟩
        · omega
    · rcases ih first inside with ⟨rfl, rfl⟩ | ⟨strict, continued⟩
      · exact .inr ⟨by simp, size, reply, bytes, serves, keeps, complete⟩
      · exact .inr ⟨by simp; omega, continued⟩

theorem Ended.unique {cuts : List Bytes} (ended : Ended options application stream cuts failure)
    (again : Ended options application stream other second) : cuts = other ∧ failure = second := by
  obtain ⟨earlier, written, rest, cut, answered, stops, rfl⟩ := ended
  obtain ⟨done, wrote, behind, tail, answeredAgain, stopsAgain, rfl⟩ := again
  have samePart : earlier = done ∧ rest = behind := by
    rcases Nat.le_total earlier.length done.length with shorter | longer
    · rcases answeredAgain.compare answered shorter with same | ⟨_, size, reply, bytes, continued⟩
      · exact same
      · exact (stops.not_answers continued.1 continued.2.1 continued.2.2).elim
    · rcases answered.compare answeredAgain longer with same | ⟨_, size, reply, bytes, continued⟩
      · exact ⟨same.1.symm, same.2.symm⟩
      · exact (stopsAgain.not_answers continued.1 continued.2.1 continued.2.2).elim
  obtain ⟨rfl, rfl⟩ := samePart
  obtain ⟨rfl, rfl⟩ := stops.unique stopsAgain
  exact ⟨rfl, rfl⟩

end Unique

/-! ## The cut requests are consecutive parts of the stream -/

section Parts

variable {options : RuntimeOptions} {application : Application} {stream : Bytes}

/-- The bytes are one request, with nothing behind its body. -/
def Whole (options : RuntimeOptions) (raw : Bytes) : Prop :=
  requestSize options raw = .ok (some raw.length)

theorem whole_take {rest : Bytes} {size : Nat} (sized : requestSize options rest = .ok (some size)) :
    Whole options (rest.take size) := by
  have bounded := requestSize_le_length sized
  obtain ⟨headerEnd, bodySize, framed, rfl⟩ := requestSize_eq_some.mp sized
  apply requestSize_eq_some.mpr
  refine ⟨headerEnd, bodySize, ⟨?_, framed.headerFits, ?_, framed.requestFits, ?_⟩, ?_⟩
  · exact Library.find_take framed.terminator (Nat.le_add_right (headerEnd + 4) bodySize)
  · rw [take_take, Nat.min_eq_left (by omega)]
    exact framed.scanned
  · rw [length_take, Nat.min_eq_left bounded]
  · rw [length_take, Nat.min_eq_left bounded]

theorem Answered.parts {cuts : List Bytes} {written rest : Bytes}
    (answered : Answered options application stream cuts written rest) :
    stream = cuts.flatten ++ rest ∧ ∀ raw ∈ cuts, Whole options raw := by
  induction answered with
  | start => exact ⟨rfl, nofun⟩
  | next _ serves _ _ ih =>
    constructor
    · rw [flatten_append, flatten_singleton, append_assoc, take_append_drop]
      exact ih.1
    · exact forall_mem_append.mpr ⟨ih.2, forall_mem_singleton.mpr (whole_take serves.1)⟩

end Parts

end Gungnir.Http
