import Gungnir.Http.Integrity

/-!
# How much input a connection buffers

`read_ready` looks at the size of the request behind each `recv`, and stops at a complete
one. What it has buffered is therefore one `recv` above an incomplete request at most, as
long as it is not called again for a complete one. While a handler is pending it is.
-/

namespace Gungnir.Http

open Gungnir.Core Gungnir.Library List

variable {options : RuntimeOptions} {application : Application} {connection : Connection}

/-- An incomplete request is within the limit. -/
theorem length_of_requestSize_none {buffer : Bytes} (incomplete : requestSize options buffer = .ok none) :
    buffer.length ≤ options.maxRequestBytes := by
  unfold requestSize at incomplete
  split at incomplete
  · split at incomplete
    · cases incomplete
    · split at incomplete
      · cases incomplete
      · omega
  · dsimp only at incomplete
    split at incomplete
    · cases incomplete
    · split at incomplete
      · cases incomplete
      · split at incomplete
        · cases incomplete
        · split at incomplete
          · omega
          · cases incomplete

variable {counts : List Nat} {input unread : Bytes}

/-- Each `recv` starts from an incomplete request. -/
theorem receive_length (short : ∀ count ∈ counts, count ≤ receiveBufferSize)
    (within : input.length ≤ options.maxRequestBytes) :
    (receive options input unread counts).1.length ≤ options.maxRequestBytes + receiveBufferSize := by
  induction counts generalizing input unread with
  | nil => exact Nat.le_trans within (Nat.le_add_right _ _)
  | cons count counts ih =>
    have extended : (input ++ unread.take count).length ≤ options.maxRequestBytes + receiveBufferSize := by
      have := short count mem_cons_self
      rw [length_append, length_take]
      omega
    rw [receive]
    split
    · exact extended
    · exact extended
    · rename_i incomplete
      exact ih (forall_mem_cons.mp short).2
        (length_of_requestSize_none incomplete)

/-! ## Steps that do not read -/

theorem queueError_input (connection : Connection) (status : Int) (body : Bytes) :
    (queueError connection status body).input = [] := by
  rw [queueError_eq]

theorem refuse_input (connection : Connection) (raised : Failure) : (refuse connection raised).input = [] :=
  queueError_input _ _ _

theorem dispatchRequest_input (raw : Bytes) (request : Request) :
    (dispatchRequest options application connection raw request).1.input.length ≤
      connection.input.length := by
  unfold dispatchRequest
  dsimp only
  split
  · split
    · exact Nat.le_refl _
    · exact Nat.zero_le _
  · exact Nat.le_refl _

theorem prepareResponse_input :
    (prepareResponse options application connection).1.input.length ≤ connection.input.length := by
  unfold prepareResponse
  split
  · exact Nat.le_refl _
  · split
    · exact Nat.le_refl _
    · exact Nat.le_refl _
    · dsimp only
      split
      · rw [length_drop]
        exact Nat.sub_le _ _
      · refine Nat.le_trans (dispatchRequest_input _ _) ?_
        rw [length_drop]
        exact Nat.sub_le _ _

theorem caught_input (prepared : Connection × Option Failure) :
    (caught prepared).input.length ≤ prepared.1.input.length := by
  unfold caught
  split
  · rw [refuse_input]
    exact Nat.zero_le _
  · exact Nat.le_refl _

theorem queueResponse_input (serialized : Except Exception Bytes) (stream : Option (Nat → StreamItem))
    (keepAlive : Bool) :
    (queueResponse connection serialized stream keepAlive).input.length ≤ connection.input.length := by
  unfold queueResponse
  split
  · rw [queueError_input]
    exact Nat.zero_le _
  · exact Nat.le_refl _

theorem completeReadyHandler_input :
    (completeReadyHandler connection).input.length ≤ connection.input.length := by
  unfold completeReadyHandler
  split
  · exact Nat.le_refl _
  · dsimp only
    split
    · exact queueResponse_input _ _ _
    · exact queueResponse_input _ _ _
    · exact queueResponse_input _ _ _
    · rw [queueError_input]
      exact Nat.zero_le _
    · exact Nat.le_refl _

theorem requestStreamChunk_input (connection : Connection) :
    (requestStreamChunk connection).input = connection.input := by
  unfold requestStreamChunk
  split <;> rfl

theorem completeReadyStream_input :
    (completeReadyStream options connection).input = connection.input := by
  unfold completeReadyStream
  split
  · unfold queueItem
    split
    · rfl
    · rfl
    · split
      · exact requestStreamChunk_input _
      · split <;> rfl
  · rfl

theorem writeReady_input (count : Nat) :
    (writeReady options application connection count).input.length ≤ connection.input.length := by
  unfold writeReady
  split
  · exact Nat.le_refl _
  · unfold outputSent
    split
    · split <;> exact Nat.le_refl _
    · split
      · rw [requestStreamChunk_input]
        exact Nat.le_refl _
      · split
        · exact Nat.le_refl _
        · split
          · exact Nat.le_refl _
          · unfold prepareNext
            dsimp only
            split <;> exact prepareResponse_input

/-! ## Runs -/

/-- No byte is read behind a complete request. -/
def Calm (options : RuntimeOptions) (transition : Transition Connection Event) : Prop :=
  match transition.label with
  | .read counts => counts = [] ∨ ∀ size, requestSize options transition.before.input ≠ .ok (some size)
  | _ => True

theorem readReady_input (options : ServerOptions)
    (short : ∀ count ∈ counts, count ≤ receiveBufferSize)
    (calm : counts = [] ∨ ∀ size, requestSize options connection.input ≠ .ok (some size))
    (within : connection.input.length ≤ options.maxRequestBytes + receiveBufferSize) :
    (readReady options application connection counts).input.length ≤
      options.maxRequestBytes + receiveBufferSize := by
  suffices bounded : (receive options connection.input connection.unread counts).2.2 = none →
      (receive options connection.input connection.unread counts).1.length ≤
        options.maxRequestBytes + receiveBufferSize by
    unfold readReady
    split
    · rw [refuse_input]
      exact Nat.zero_le _
    · rename_i quietly
      exact Nat.le_trans (caught_input _) (Nat.le_trans prepareResponse_input (bounded quietly))
  intro quietly
  rcases calm with rfl | calm
  · exact within
  · cases sized : requestSize options connection.input with
    | ok found =>
      cases found with
      | none => exact receive_length short (length_of_requestSize_none sized)
      | some size => exact absurd sized (calm size)
    | error raised =>
      cases counts with
      | nil => exact within
      | cons count counts =>
        -- more bytes do not save a refused request
        have refused := @requestSize_error_append _ _ (connection.unread.take count) _
          options.header_le_request sized
        rw [receive, refused] at quietly
        cases quietly

/-- In every run that reads no byte behind a complete request, no state has more input than a
request and one buffer. -/
theorem input_bounded (options : ServerOptions) (application : Application) (stream : Bytes)
    {transitions : List (Transition Connection Event)} {connection : Connection}
    (trace : Trace (Connection.Step options application) (.accepted stream) transitions connection)
    (calm : ∀ transition ∈ transitions, Calm options transition) :
    connection.input.length ≤ options.maxRequestBytes + receiveBufferSize := by
  refine trace.preserves_where
    (fun state => state.input.length ≤ options.maxRequestBytes + receiveBufferSize) (Calm options)
    ?_ calm (Nat.zero_le _)
  rintro ⟨before, event, after⟩ calm ⟨_, ready, moved⟩ within
  dsimp only at calm ready moved within ⊢
  subst moved
  cases event with
  | read counts =>
    exact readReady_input options (fun count member => (ready.2.2.2 count member).2) calm within
  | handlerReady => exact Nat.le_trans completeReadyHandler_input within
  | chunkReady =>
    rw [Connection.next, completeReadyStream_input]
    exact within
  | write count => exact Nat.le_trans (writeReady_input count) within

theorem input_bounded_sample :
    (runFrom sampleNext (.accepted pairStream) readPair).input.length ≤
      sampleOptions.maxRequestBytes + receiveBufferSize := by
  have calm : ∀ size, requestSize sampleOptions [] ≠ .ok (some size) := nofun
  have taken : (sampleNext (.accepted pairStream) (.read [27])).input = [] := by decide +kernel
  refine input_bounded sampleOptions sampleApplication pairStream (sampleRun readPair_run.1)
    (forall_mem_cons.mpr ⟨.inr calm, forall_mem_cons.mpr ⟨.inr ?_, forall_mem_cons.mpr ⟨trivial,
      forall_mem_cons.mpr ⟨trivial, forall_mem_cons.mpr ⟨trivial, forall_mem_singleton.mpr trivial⟩⟩⟩⟩⟩)
  show ∀ size, requestSize _ (sampleNext (.accepted pairStream) (.read [27])).input ≠ _
  rwa [taken]

/-! ## A handler that takes its time -/

/-- A connection that waits for its first handler, with some input behind the first request. -/
def waiting (pending : PendingDispatch) (input unread : Bytes) : Connection :=
  { Connection.accepted unread with
    input := input, requestsServed := 1, pending := some pending, cuts := [sampleRequest] }

theorem filled_eq {raised : Option Failure}
    (read : receive options connection.input connection.unread counts = (input, unread, raised)) :
    connection.filled options counts = { connection with input := input, unread := unread } := by
  unfold Connection.filled
  rw [read]

/-- The sample is one complete request of 46 bytes. -/
theorem sampleRequest_sized :
    requestSize sampleOptions sampleRequest = .ok (some 46) ∧
      (parseRequest sampleRequest).isOk = true ∧ sampleRequest.length = 46 := by
  decide

theorem first_read (rest : Bytes) : ∃ pending,
    Connection.Step sampleOptions sampleApplication (.accepted (sampleRequest ++ rest))
      (.read [46]) (waiting pending [] rest) := by
  obtain ⟨sized, accepted, size⟩ := sampleRequest_sized
  have taken : (sampleRequest ++ rest).take 46 = sampleRequest := take_left' size
  have dropped : (sampleRequest ++ rest).drop 46 = rest := drop_left' size
  have read : receive sampleOptions [] (sampleRequest ++ rest) [46] =
      (sampleRequest, rest, none) := by
    rw [receive, nil_append, taken, dropped, sized]
  obtain ⟨request, parsed⟩ : ∃ request, parseRequest sampleRequest = .ok request := by
    cases parsed : parseRequest sampleRequest with
    | ok request => exact ⟨request, rfl⟩
    | error raised =>
      rw [parsed] at accepted
      cases accepted
  refine ⟨⟨.respond (.text (ascii "ok") 200),
    keepAliveFor sampleRequest request sampleOptions 1, request.method = .head⟩,
    rfl, ⟨rfl, rfl, ?_, by decide⟩, Eq.symm ?_⟩
  · rw [Connection.accepted, length_append, size]
    exact Nat.le_add_right _ _
  · have filled := @filled_eq _ (.accepted (sampleRequest ++ rest)) _ _ _ _ read
    have quietly : (receive sampleOptions (Connection.accepted (sampleRequest ++ rest)).input
        (Connection.accepted (sampleRequest ++ rest)).unread [46]).2.2 = none := congrArg (·.2.2) read
    rw [Connection.next, readReady, quietly, filled, prepareResponse, if_neg (by exact Bool.false_ne_true)]
    rw [sized]
    dsimp only
    rw [take_of_length_le (Nat.le_of_eq size), parsed, drop_of_length_le (Nat.le_of_eq size)]
    rfl

/-- Behind a complete request everything that comes is buffered. -/
theorem later_read {pending : PendingDispatch} {input chunk rest : Bytes} {size : Nat}
    (small : 0 < chunk.length ∧ chunk.length ≤ receiveBufferSize)
    (sized : requestSize sampleOptions (input ++ chunk) = .ok (some size)) :
    Connection.Step sampleOptions sampleApplication (waiting pending input (chunk ++ rest))
      (.read [chunk.length]) (waiting pending (input ++ chunk) rest) := by
  have read : receive sampleOptions input (chunk ++ rest) [chunk.length] =
      (input ++ chunk, rest, none) := by
    rw [receive, take_left, drop_left, sized]
  refine ⟨rfl, ⟨rfl, rfl, ?_, ?_⟩, Eq.symm ?_⟩
  · rw [waiting, Connection.accepted, sum_singleton, length_append]
    exact Nat.le_add_right _ _
  · exact forall_mem_singleton.mpr small
  · exact (readReady_busy rfl (congrArg (·.2.2) read)).trans
      (@filled_eq _ (waiting pending input (chunk ++ rest)) _ _ _ _ read)

/-- Two buffers behind a complete request, while the handler of the first one is pending. -/
theorem input_unbounded :
    ∃ stream transitions connection,
      Trace (Connection.Step sampleOptions sampleApplication) (.accepted stream)
        transitions connection ∧
      sampleOptions.maxRequestBytes + receiveBufferSize < connection.input.length := by
  obtain ⟨filler, long⟩ : ∃ filler : Bytes, filler.length = 8192 :=
    ⟨replicate 8192 88, length_replicate⟩
  have small : 0 < filler.length ∧ filler.length ≤ receiveBufferSize := by
    rw [long]
    decide
  obtain ⟨sized, _, size⟩ := sampleRequest_sized
  rw [← nil_append sampleRequest] at sized
  obtain ⟨pending, first⟩ := first_read (sampleRequest ++ (filler ++ (filler ++ [])))
  have second : Connection.Step _ _ _ _ (waiting pending ([] ++ sampleRequest) (filler ++ (filler ++ []))) :=
    later_read (by rw [size]; decide) sized
  have third : Connection.Step _ _ _ _ (waiting pending ([] ++ sampleRequest ++ filler) (filler ++ [])) :=
    later_read small (requestSize_append sized)
  have fourth : Connection.Step _ _ _ _ (waiting pending ([] ++ sampleRequest ++ filler ++ filler) []) :=
    later_read small (requestSize_append (requestSize_append sized))
  refine ⟨_, _, _, .cons first (.cons second (.cons third (.cons fourth (.nil _)))), ?_⟩
  rw [waiting, length_append, length_append, long, nil_append, size]
  decide

end Gungnir.Http
