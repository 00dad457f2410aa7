import Gungnir.Http.Conversation

/-!
# The connection follows the conversation

Every state of a connection is in one phase of the conversation its client's bytes
determine, as long as no read that arrives behind an unfinished response is
refused. Such a read aborts the response; after it only the error response is
written.
-/

namespace Gungnir.Http

open Gungnir.Core List

/-! ## Phases -/

/-- The fields that decide what the reactor does next. -/
structure Control where
  pending : Option PendingDispatch
  stream : Option (Nat → StreamItem)
  pendingStream : Bool
  streamTerminalQueued : Bool
  websocket : Bool
  closeAfterWrite : Bool
  closing : Bool

def Connection.control (connection : Connection) : Control where
  pending := connection.pending
  stream := connection.stream
  pendingStream := connection.pendingStream
  streamTerminalQueued := connection.streamTerminalQueued
  websocket := connection.websocket
  closeAfterWrite := connection.closeAfterWrite
  closing := connection.closing

def Control.idle : Control := ⟨none, none, false, false, false, false, false⟩

def Control.waiting (pending : PendingDispatch) : Control :=
  ⟨some pending, none, false, false, false, false, false⟩

def Control.finishing (terminal closes : Bool) : Control :=
  ⟨none, none, false, terminal, false, closes, false⟩

def Control.streaming (items : Nat → StreamItem) (requested closes : Bool) : Control :=
  ⟨none, some items, requested, false, false, closes, false⟩

def Control.upgraded : Control := ⟨none, none, false, false, true, false, false⟩

/-- The bytes sent or queued. -/
def Connection.shown (connection : Connection) : Bytes :=
  connection.sent ++ connection.output.drop connection.outputOffset

section Phases

variable (options : ServerOptions) (application : Application) (stream : Bytes)

/-- The connection is serving the request behind the answered ones. What is left of
the stream only matters if another request is served. -/
structure Serving (connection : Connection) (written : Bytes) (reply : Reply) : Prop where
  request : ∃ cuts rest size,
    Answered options application stream cuts written rest ∧
      Serves options application cuts.length rest size reply ∧
      connection.cuts = cuts ++ [rest.take size] ∧
      connection.requestsServed = cuts.length + 1 ∧
      (reply.closes = false → rest.drop size = connection.input ++ connection.unread)
  unrefused : connection.failure = none

/-- The next request is refused and nothing is queued yet. -/
structure Refusing (connection : Connection) (failure : Failure) : Prop where
  control : connection.control = .idle
  quiet : connection.output = []
  request : ∃ cuts cut rest,
    Answered options application stream cuts connection.sent rest ∧
      Refuses options rest cut failure ∧ connection.cuts = cuts ++ cut

structure Idle (connection : Connection) : Prop where
  control : connection.control = .idle
  quiet : connection.output = []
  served : connection.requestsServed = connection.cuts.length
  unrefused : connection.failure = none
  answered : Answered options application stream connection.cuts connection.sent
    (connection.input ++ connection.unread)

inductive Phase (connection : Connection) : Prop where
  | idle :
      Idle options application stream connection →
      requestSize options connection.input = .ok none → Phase connection
  | waiting {pending : PendingDispatch} :
      Serving options application stream connection connection.sent pending.reply →
      connection.control = .waiting pending → connection.output = [] → Phase connection
  | finishing {written bytes : Bytes} {reply : Reply} {terminal : Bool} :
      Serving options application stream connection written reply →
      reply.Complete options bytes →
      connection.control = .finishing terminal reply.closes → connection.output ≠ [] →
      connection.shown = written ++ bytes → Phase connection
  | streaming {written : Bytes} {reply : Reply} {items : Nat → StreamItem} {requested : Bool} :
      Serving options application stream connection written reply →
      reply.items = some items → Passes options items connection.produced →
      connection.control = .streaming items requested reply.closes →
      (requested = true ↔ connection.output = []) →
      connection.shown = written ++ (reply.head ++ streamed items connection.produced) →
      Phase connection
  | upgraded {written bytes : Bytes} {reply : Reply} :
      Serving options application stream connection written reply →
      reply.Complete options bytes → reply.closes = true →
      connection.control = .upgraded → connection.shown = written ++ bytes → Phase connection
  | refused {cuts cut : List Bytes} {written rest : Bytes} {failure : Failure} :
      Answered options application stream cuts written rest →
      Refuses options rest cut failure → connection.cuts = cuts ++ cut →
      connection.failure = some failure → connection.control = .finishing false true →
      connection.output ≠ [] → connection.shown = written ++ failure.bytes → Phase connection
  | closed :
      connection.closing = true →
      Transcript options application stream connection.shown →
      Ended options application stream connection.cuts connection.failure →
      Phase connection

end Phases

section Steps

variable {options : ServerOptions} {application : Application} {stream : Bytes}
  {connection : Connection}

theorem shown_of_quiet (quiet : connection.output = []) : connection.shown = connection.sent := by
  rw [Connection.shown, quiet, drop_nil, append_nil]

/-- What the client may have seen so far follows from the phase. -/
theorem Phase.transcript (phase : Phase options application stream connection) :
    Transcript options application stream connection.shown := by
  cases phase with
  | idle idle _ =>
    rw [shown_of_quiet idle.quiet]
    exact .answered idle.answered
  | waiting serving _ quiet =>
    obtain ⟨cuts, rest, size, answered, _⟩ := serving.request
    rw [shown_of_quiet quiet]
    exact .answered answered
  | finishing serving complete _ _ shown | upgraded serving complete _ _ shown =>
    obtain ⟨cuts, rest, size, answered, serves, _⟩ := serving.request
    rw [shown]
    exact .answering answered serves (.complete complete)
  | streaming serving streams passes _ _ shown =>
    obtain ⟨cuts, rest, size, answered, serves, _⟩ := serving.request
    rw [shown]
    exact .answering answered serves (.partly streams passes)
  | refused answered refuses _ _ _ _ shown =>
    rw [shown]
    exact .refused answered refuses
  | closed _ transcript _ => exact transcript

theorem phase_accepted : Phase options application stream (Connection.accepted stream) :=
  .idle ⟨rfl, rfl, rfl, rfl, .start⟩ rfl

theorem queueError_eq (connection : Connection) (status : Int) (body : Bytes) :
    queueError connection status body =
      { connection with
        output := errorBytes status body
        pending := none
        pendingStream := false
        stream := none
        streamTerminalQueued := false
        websocket := false
        outputOffset := 0
        closeAfterWrite := true
        input := [] } :=
  rfl

theorem queueError_control (status : Int) (body : Bytes) (opened : connection.closing = false) :
    (queueError connection status body).control = .finishing false true := by
  rw [queueError_eq]
  simp only [Connection.control, opened]
  rfl

/-- The fields of the control record, one equation for each. -/
theorem control_eq {control : Control} (same : connection.control = control) :
    connection.pending = control.pending ∧ connection.stream = control.stream ∧
      connection.pendingStream = control.pendingStream ∧
      connection.streamTerminalQueued = control.streamTerminalQueued ∧
      connection.websocket = control.websocket ∧
      connection.closeAfterWrite = control.closeAfterWrite ∧
      connection.closing = control.closing := by
  subst same
  exact ⟨rfl, rfl, rfl, rfl, rfl, rfl, rfl⟩

variable {failure : Failure}

theorem Refusing.phase_refuse (refusing : Refusing options application stream connection failure) :
    Phase options application stream (refuse connection failure) := by
  obtain ⟨cuts, cut, rest, answered, refuses, cutOff⟩ := refusing.request
  obtain ⟨_, _, _, _, _, _, opened⟩ := control_eq refusing.control
  have control : (queueError { connection with failure := some failure } failure.status.1
      failure.status.2).control = .finishing false true := queueError_control _ _ opened
  exact .refused answered refuses cutOff rfl control (errorBytes_ne_nil _ _) rfl

theorem Refusing.phase_close (refusing : Refusing options application stream connection failure) :
    Phase options application stream
      (closeConnection { connection with failure := some failure }) := by
  obtain ⟨cuts, cut, rest, answered, refuses, cutOff⟩ := refusing.request
  refine .closed rfl ?_ ⟨cuts, connection.sent, rest, cut, answered, .refused refuses, cutOff⟩
  have shown : (closeConnection { connection with failure := some failure }).shown =
      connection.sent := shown_of_quiet refusing.quiet
  rw [shown]
  exact .answered answered

section

variable (idle : Idle options application stream connection)
include idle

theorem Idle.not_busy : connection.busy = false := by
  obtain ⟨pending, streams, pendingStream, terminal, websocket, _⟩ := control_eq idle.control
  simp [Connection.busy, idle.quiet, pending, streams, pendingStream, terminal, websocket,
    Control.idle]

/-- A request that is parsed becomes the one the connection is serving. -/
theorem Idle.phase_dispatch {size : Nat} {request : Request}
    (sized : requestSize options connection.input = .ok (some size))
    (parsed : parseRequest (connection.input.take size) = .ok request) : let erased :=
      { connection with
        input := connection.input.drop size
        cuts := connection.cuts ++ [connection.input.take size] }
    ∃ prepared,
      dispatchRequest options application erased (connection.input.take size)
          request = (prepared, none) ∧ Phase options application stream prepared := by
  intro erased
  have bounded := requestSize_le_length sized
  have sameTake : (connection.input ++ connection.unread).take size = connection.input.take size :=
    take_append_of_le_length bounded
  have sameDrop : (connection.input ++ connection.unread).drop size =
      connection.input.drop size ++ connection.unread := drop_append_of_le_length bounded
  have serves : Serves options application connection.cuts.length
      (connection.input ++ connection.unread) size
      (replyTo options application connection.cuts.length
        (connection.input.take size) request) := by
    refine ⟨requestSize_append sized, request, ?_, ?_⟩
    · rw [sameTake]
      exact parsed
    · rw [sameTake]
  have served : ∀ prepared : Connection, ∀ reply,
      reply = replyTo options application connection.cuts.length
        (connection.input.take size) request →
      prepared.cuts = erased.cuts → prepared.requestsServed = connection.requestsServed + 1 →
      prepared.failure = connection.failure →
      (reply.closes = false →
        connection.input.drop size ++ connection.unread = prepared.input ++ prepared.unread) →
      Serving options application stream prepared connection.sent reply := by
    rintro prepared reply rfl cut counted kept remains
    constructor
    · refine ⟨connection.cuts, _, size, idle.answered, serves, ?_, ?_, ?_⟩
      · rw [cut, sameTake]
      · rw [counted, idle.served]
      · rw [sameDrop]
        exact remains
    · rw [kept, idle.unrefused]
  cases chosen : application connection.cuts.length with
  | overloaded =>
    obtain ⟨output, written⟩ : ∃ output, serializeResponse overloadResponse
        (request.method = .head) .close = .ok output := ⟨_, rfl⟩
    have reply : replyTo options application connection.cuts.length
        (connection.input.take size) request = ⟨output, none, true⟩ := by
      rw [replyTo, chosen]
      simp only [replyWith, written, Bool.not_false]
    let prepared : Connection :=
      { erased with
        requestsServed := connection.requestsServed + 1
        output := output
        outputOffset := 0
        closeAfterWrite := true
        input := [] }
    have control : prepared.control = .finishing false true :=
      congrArg (fun control : Control => { control with closeAfterWrite := true }) idle.control
    refine ⟨prepared, ?_, ?_⟩
    · simp only [dispatchRequest, erased, idle.served, chosen, written, prepared]
    · exact .finishing (served prepared ⟨output, none, true⟩ reply.symm rfl rfl rfl (by simp))
        (.fixed rfl) control (serializeResponse_ne_nil written) rfl
  | handled outcome =>
    let dispatch := pendingFor options connection.cuts.length
      (connection.input.take size) request outcome
    have reply : replyTo options application connection.cuts.length
        (connection.input.take size) request = dispatch.reply := by
      rw [replyTo, chosen]
    let prepared : Connection :=
      { erased with
        requestsServed := connection.requestsServed + 1
        pending := some dispatch }
    have control : prepared.control = .waiting dispatch :=
      congrArg (fun control : Control => { control with pending := some dispatch }) idle.control
    refine ⟨prepared, ?_, ?_⟩
    · simp only [dispatchRequest, erased, idle.served, chosen, prepared, dispatch, pendingFor]
    · exact .waiting (served prepared _ reply.symm rfl rfl rfl fun _ => rfl) control idle.quiet

theorem Idle.prepare :
    (∀ failure, (prepareResponse options application connection).2 = some failure →
      Refusing options application stream
        (prepareResponse options application connection).1 failure) ∧
    ((prepareResponse options application connection).2 = none →
      Phase options application stream
        (prepareResponse options application connection).1) := by
  unfold prepareResponse
  rw [idle.not_busy, if_neg Bool.false_ne_true]
  split
  · rename_i raised refused
    refine ⟨?_, fun impossible => absurd impossible (Option.some_ne_none _)⟩
    rintro failure ⟨⟩
    refine ⟨idle.control, idle.quiet, connection.cuts, [], _, idle.answered, ?_, ?_⟩
    · exact .size (requestSize_error_append options.header_le_request refused)
    · exact (append_nil _).symm
  · rename_i incomplete
    exact ⟨fun _ impossible => absurd impossible.symm (Option.some_ne_none _),
      fun _ => .idle idle incomplete⟩
  · rename_i size sized
    dsimp only
    split
    · rename_i raised refused
      refine ⟨?_, fun impossible => absurd impossible (Option.some_ne_none _)⟩
      rintro failure ⟨⟩
      have bounded := requestSize_le_length sized
      have sameTake : (connection.input ++ connection.unread).take size =
          connection.input.take size := take_append_of_le_length bounded
      refine ⟨idle.control, idle.quiet, connection.cuts, [connection.input.take size], _,
        idle.answered, ?_, rfl⟩
      rw [← sameTake]
      apply Refuses.parse (requestSize_append sized)
      rw [sameTake]
      exact refused
    · rename_i request parsed
      obtain ⟨prepared, dispatched, phase⟩ := idle.phase_dispatch sized parsed
      rw [dispatched]
      exact ⟨fun _ impossible => absurd impossible.symm (Option.some_ne_none _), fun _ => phase⟩

end

/-! ### Reads -/

theorem receive_parts (options : RuntimeOptions) (input unread : Bytes) (counts : List Nat) :
    (receive options input unread counts).1 ++ (receive options input unread counts).2.1 =
      input ++ unread := by
  induction counts generalizing input unread with
  | nil => rfl
  | cons count counts ih =>
    have moved : input ++ unread.take count ++ unread.drop count = input ++ unread := by
      rw [append_assoc, take_append_drop]
    rw [receive]
    split
    · exact moved
    · exact moved
    · rw [ih, moved]

variable {counts : List Nat}

theorem receive_failure {options : RuntimeOptions} {input unread : Bytes}
    (raised : (receive options input unread counts).2.2 = some failure) :
    requestSize options (receive options input unread counts).1 = .error failure := by
  induction counts generalizing input unread with
  | nil => cases raised
  | cons count counts ih =>
    rw [receive] at raised ⊢
    split at raised
    · rename_i refused
      cases raised
      exact refused
    · cases raised
    · exact ih raised

theorem filled_parts (connection : Connection) (options : RuntimeOptions) (counts : List Nat) :
    (connection.filled options counts).input ++ (connection.filled options counts).unread =
      connection.input ++ connection.unread :=
  receive_parts _ _ _ _

variable {written : Bytes} {reply : Reply}

theorem Serving.filled (serving : Serving options application stream connection written reply)
    (counts : List Nat) :
    Serving options application stream
      (connection.filled options counts) written reply := by
  obtain ⟨cuts, rest, size, answered, serves, cut, served, remains⟩ := serving.request
  refine ⟨⟨cuts, rest, size, answered, serves, cut, served, ?_⟩, serving.unrefused⟩
  rw [filled_parts]
  exact remains

theorem Idle.filled (idle : Idle options application stream connection) (counts : List Nat) :
    Idle options application stream (connection.filled options counts) := by
  refine ⟨idle.control, idle.quiet, idle.served, idle.unrefused, ?_⟩
  rw [filled_parts]
  exact idle.answered

/-- A read behind an unfinished response only moves bytes, if none of them is refused. -/
theorem readReady_busy (busy : connection.busy = true)
    (quietly : (receive options connection.input connection.unread counts).2.2 = none) :
    readReady options application connection counts =
      connection.filled options counts := by
  have stillBusy : (connection.filled options counts).busy = true := busy
  rw [readReady, quietly]
  rw [prepareResponse, if_pos stillBusy]
  rfl

theorem Idle.phase_read (idle : Idle options application stream connection) (counts : List Nat) :
    Phase options application stream
      (readReady options application connection counts) := by
  have filled := idle.filled counts
  unfold readReady
  split
  · rename_i failure raised
    apply Refusing.phase_refuse
    refine ⟨filled.control, filled.quiet, connection.cuts, [], _, filled.answered, ?_, ?_⟩
    · exact .size (requestSize_error_append options.header_le_request (receive_failure raised))
    · exact (append_nil _).symm
  · unfold caught
    split
    · rename_i failure raised
      exact (filled.prepare.1 failure raised).phase_refuse
    · rename_i prepared
      exact filled.prepare.2 prepared

/-- No read that arrives behind an unfinished response is refused. -/
def Connection.Polite (options : RuntimeOptions) (connection : Connection) : Event → Prop
  | .read counts =>
    connection.busy = true →
      (receive options connection.input connection.unread counts).2.2 = none
  | _ => True

instance (options : RuntimeOptions) (connection : Connection) :
    (event : Event) → Decidable (connection.Polite options event)
  | .read _ => inferInstanceAs (Decidable (_ → _))
  | .handlerReady | .chunkReady | .write _ => isTrue trivial

theorem Phase.read (phase : Phase options application stream connection)
    (opened : connection.closing = false) (ready : connection.Ready (.read counts))
    (polite : connection.Polite options (.read counts)) :
    Phase options application stream
      (readReady options application connection counts) := by
  obtain ⟨quiet, plain, _⟩ := ready
  cases phase with
  | idle idle _ => exact idle.phase_read counts
  | waiting serving control _ =>
    have busy : connection.busy = true := by
      simp [Connection.busy, (control_eq control).1, Control.waiting]
    rw [readReady_busy busy (polite busy)]
    exact .waiting (serving.filled counts) control quiet
  | finishing _ _ _ queued _ | refused _ _ _ _ _ queued _ => exact absurd quiet queued
  | streaming serving streams passes control requested shown =>
    have busy : connection.busy = true := by
      simp [Connection.busy, (control_eq control).2.1, Control.streaming]
    rw [readReady_busy busy (polite busy)]
    exact .streaming (serving.filled counts) streams passes control requested shown
  | upgraded _ _ _ control _ => cases plain.symm.trans (control_eq control).2.2.2.2.1
  | closed closing _ _ => cases opened.symm.trans closing

/-! ### Completions -/

/-- A reply that ends the conversation leaves what is behind its request open. -/
theorem Serving.congr {later : Connection}
    (serving : Serving options application stream connection written reply)
    (cut : later.cuts = connection.cuts) (served : later.requestsServed = connection.requestsServed)
    (kept : later.failure = connection.failure)
    (same : reply.closes = false →
      later.input ++ later.unread = connection.input ++ connection.unread) :
    Serving options application stream later written reply := by
  obtain ⟨cuts, rest, size, answered, serves, wasCut, wasServed, remains⟩ := serving.request
  refine ⟨⟨cuts, rest, size, answered, serves, ?_, ?_, ?_⟩, ?_⟩
  · rw [cut, wasCut]
  · rw [served, wasServed]
  · intro keeps
    rw [same keeps]
    exact remains keeps
  · rw [kept, serving.unrefused]

variable {pending : PendingDispatch}

theorem Serving.phase_error {status : Int} {body : Bytes}
    (serving : Serving options application stream connection connection.sent
      ⟨errorBytes status body, none, true⟩)
    (control : connection.control = .waiting pending) :
    Phase options application stream
      (queueError { connection with pending := none } status body) := by
  obtain ⟨_, _, _, _, _, _, opened⟩ := control_eq control
  have finishing : (queueError { connection with pending := none } status body).control =
      .finishing false true := queueError_control status body opened
  exact .finishing (serving.congr rfl rfl rfl (by simp)) (.fixed rfl) finishing
    (errorBytes_ne_nil status body) rfl

theorem Serving.phase_response {serialized : Except Exception Bytes}
    {items : Option (Nat → StreamItem)} {keepAlive : Bool}
    (serving : Serving options application stream connection connection.sent
      (replyWith serialized items keepAlive))
    (control : connection.control = .waiting pending)
    (nonempty : ∀ output, serialized = .ok output → output ≠ []) :
    Phase options application stream
      (queueResponse { connection with pending := none } serialized items keepAlive) := by
  cases serialized with
  | error raised => exact serving.phase_error control
  | ok output =>
    have queued := nonempty output rfl
    let later := queueResponse { connection with pending := none } (.ok output) items keepAlive
    have answering : later.control = ⟨none, items, false, false, false, !keepAlive, false⟩ :=
      congrArg (fun control : Control =>
        { control with pending := none, stream := items, closeAfterWrite := !keepAlive }) control
    have current : Serving options application stream later connection.sent
        ⟨output, items, !keepAlive⟩ := serving.congr rfl rfl rfl fun _ => rfl
    cases items with
    | none => exact .finishing current (.fixed rfl) answering queued rfl
    | some items =>
      refine .streaming current rfl (fun _ none => absurd none (Nat.not_lt_zero _)) answering
        ?_ ?_
      · exact ⟨fun impossible => absurd impossible Bool.false_ne_true,
          fun empty => absurd empty queued⟩
      · change connection.sent ++ output.drop 0 = connection.sent ++ (output ++ [])
        rw [drop_zero, append_nil]

theorem Phase.handler (phase : Phase options application stream connection)
    (opened : connection.closing = false) (ready : connection.Ready .handlerReady) :
    Phase options application stream (completeReadyHandler connection) := by
  have noneReady {control : Control} (same : connection.control = control)
      (absent : control.pending = none) : False := by
    rw [Connection.Ready, (control_eq same).1, absent] at ready
    cases ready
  cases phase with
  | idle idle _ => exact (noneReady idle.control rfl).elim
  | waiting serving control quiet =>
    rename_i pending
    obtain ⟨isPending, _, _, _, _, close, _⟩ := control_eq control
    have keeps : (pending.keepAlive && !connection.closeAfterWrite) = pending.keepAlive := by
      rw [close]
      exact Bool.and_true _
    cases chosen : pending.outcome with
    | failed =>
      simp only [PendingDispatch.reply, chosen] at serving
      simp only [completeReadyHandler, isPending, Control.waiting, chosen]
      exact serving.phase_response control fun _ => serializeResponse_ne_nil
    | respond response =>
      simp only [PendingDispatch.reply, chosen] at serving
      simp only [completeReadyHandler, isPending, Control.waiting, chosen, keeps]
      exact serving.phase_response control fun _ => serializeResponse_ne_nil
    | stream response items =>
      simp only [PendingDispatch.reply, chosen] at serving
      simp only [completeReadyHandler, isPending, Control.waiting, chosen, keeps]
      exact serving.phase_response control fun _ => serializeStreamHeaders_ne_nil
    | upgrade handshake =>
      cases handshake with
      | none =>
        simp only [PendingDispatch.reply, chosen] at serving
        simp only [completeReadyHandler, isPending, Control.waiting, chosen]
        exact serving.phase_error control
      | some handshake =>
        simp only [PendingDispatch.reply, chosen] at serving
        simp only [completeReadyHandler, isPending, Control.waiting, chosen]
        refine .upgraded (serving.congr rfl rfl rfl fun _ => rfl) (.fixed rfl) rfl ?_ rfl
        exact congrArg (fun control : Control =>
          { control with pending := none, websocket := true, closeAfterWrite := false }) control
  | finishing _ _ control _ _ | streaming _ _ _ control _ _ | upgraded _ _ _ control _ =>
    exact (noneReady control rfl).elim
  | refused _ _ _ _ control _ _ => exact (noneReady control rfl).elim
  | closed closing _ _ => cases opened.symm.trans closing

variable {items : Nat → StreamItem} {count : Nat}

theorem Passes.succ {bytes : Bytes} (passes : Passes options items count)
    (item : items count = .chunk bytes) (small : bytes.length ≤ options.maxStreamChunkBytes) :
    Passes options items (count + 1) := by
  intro position inside
  rcases Nat.lt_succ_iff_lt_or_eq.mp inside with earlier | rfl
  · exact passes position earlier
  · exact ⟨bytes, item, small⟩

/-- A last reply closes the connection behind what of it is shown. -/
theorem Serving.phase_closed {later : Connection} {bytes : Bytes}
    (serving : Serving options application stream later written reply)
    (begun : reply.Begun options bytes) (last : reply.Last options)
    (shown : later.shown = written ++ bytes) :
    Phase options application stream (closeConnection later) := by
  obtain ⟨cuts, rest, size, answered, serves, cut, _⟩ := serving.request
  have same : (closeConnection later).shown = later.shown := rfl
  have unrefused : (closeConnection later).failure = none := serving.unrefused
  refine .closed rfl ?_ ?_
  · rw [same, shown]
    exact .answering answered serves begun
  · rw [unrefused]
    exact ⟨cuts, written, rest, _, answered, .last serves last, cut⟩

theorem completeReadyStream_requested {options : RuntimeOptions}
    (requested : connection.pendingStream = true) (streams : connection.stream = some items) :
    completeReadyStream options connection =
      queueItem options
        { connection with pendingStream := false, produced := connection.produced + 1 }
        (items connection.produced) := by
  unfold completeReadyStream
  split
  · rename_i found
    cases streams.symm.trans found
    rfl
  · rename_i unmatched
    exact (unmatched items requested streams).elim

theorem Phase.chunk (phase : Phase options application stream connection)
    (opened : connection.closing = false) (ready : connection.Ready .chunkReady) :
    Phase options application stream
      (completeReadyStream options connection) := by
  have noneReady {control : Control} (same : connection.control = control)
      (absent : control.pendingStream = false) : False := by
    rw [Connection.Ready, (control_eq same).2.2.1, absent] at ready
    cases ready
  cases phase with
  | idle idle _ => exact (noneReady idle.control rfl).elim
  | waiting _ control _ | finishing _ _ control _ _ | upgraded _ _ _ control _ =>
    exact (noneReady control rfl).elim
  | streaming serving streams passes control requested shown =>
    rename_i written reply items flag
    cases flag with
    | false => exact (noneReady control rfl).elim
    | true =>
      have quiet := requested.mp rfl
      obtain ⟨_, streaming, pendingStream, _, _, _, closing⟩ := control_eq control
      rw [shown_of_quiet quiet] at shown
      -- The state with the item taken and nothing queued.
      let taken := { connection with
        pendingStream := false, produced := connection.produced + 1 }
      have current : Serving options application stream taken written reply :=
        serving.congr rfl rfl rfl fun _ => rfl
      have takenShown : taken.shown = connection.sent := shown_of_quiet quiet
      have completed : completeReadyStream options connection =
          queueItem options taken (items connection.produced) :=
        completeReadyStream_requested pendingStream streaming
      rw [completed]
      cases item : items connection.produced with
      | failed =>
        exact current.phase_closed (.partly streams passes)
          (.broken streams passes (.inl item)) (takenShown.trans shown)
      | finished =>
        have finishing := congrArg (fun control : Control => { control with
          stream := none, pendingStream := false, streamTerminalQueued := true }) control
        refine .finishing (current.congr rfl rfl rfl fun _ => rfl)
          (.chunked streams passes item) finishing (cons_ne_nil _ _) ?_
        change connection.sent ++ serializeChunkEnd.drop 0 = _
        rw [shown, streamed, item]
        simp only [StreamItem.bytes, drop_zero, append_assoc]
      | chunk bytes =>
        rw [queueItem]
        split
        · rename_i empty
          subst empty
          have again : requestStreamChunk taken = { taken with pendingStream := true } := by
            simp [requestStreamChunk, taken, closing, streaming, quiet, Control.streaming]
          have stillStreaming := congrArg (fun control : Control =>
            { control with pendingStream := true }) control
          rw [again]
          refine .streaming (current.congr rfl rfl rfl fun _ => rfl) streams
            (passes.succ item (Nat.zero_le _)) stillStreaming (iff_of_true rfl quiet) ?_
          change connection.shown = _
          rw [shown_of_quiet quiet, shown]
          simp [taken, streamed, item, StreamItem.bytes, serializeChunk]
        · rename_i nonempty
          split
          · rename_i large
            exact current.phase_closed (.partly streams passes)
              (.broken streams passes (.inr ⟨bytes, item, large⟩)) (takenShown.trans shown)
          · rename_i small
            have stillStreaming := congrArg (fun control : Control =>
              { control with pendingStream := false }) control
            have queued := serializeChunk_ne_nil nonempty
            refine .streaming (current.congr rfl rfl rfl fun _ => rfl) streams
              (passes.succ item (Nat.le_of_not_lt small)) stillStreaming
              (iff_of_false Bool.false_ne_true queued) ?_
            change connection.sent ++ (serializeChunk bytes).drop 0 = _
            rw [shown]
            simp [taken, streamed, item, StreamItem.bytes]
  | refused _ _ _ _ control _ _ => exact (noneReady control rfl).elim
  | closed closing _ _ => cases opened.symm.trans closing

/-! ### Writes -/

theorem wrote_shown (connection : Connection) (count : Nat) :
    (connection.wrote count).shown = connection.shown := by
  simp only [Connection.shown, Connection.wrote, append_assoc, ← drop_drop,
    take_append_drop]

theorem Idle.phase_next (idle : Idle options application stream connection) :
    Phase options application stream
      (prepareNext options application connection) := by
  unfold prepareNext
  dsimp only
  split
  · rename_i failure raised
    exact (idle.prepare.1 failure raised).phase_close
  · rename_i prepared
    exact idle.prepare.2 prepared

/-- A complete response that keeps the connection leaves it idle. -/
theorem Serving.rested {bytes : Bytes} {terminal : Bool}
    (serving : Serving options application stream connection written reply)
    (complete : reply.Complete options bytes) (keeps : reply.closes = false)
    (control : connection.control = .finishing terminal reply.closes)
    (sent : connection.sent = written ++ bytes) :
    Idle options application stream connection.rested := by
  obtain ⟨cuts, rest, size, answered, serves, cut, served, remains⟩ := serving.request
  constructor
  · exact congrArg (fun control : Control =>
      { control with streamTerminalQueued := false, closeAfterWrite := false }) control
  · rfl
  · change connection.requestsServed = connection.cuts.length
    rw [served, cut, length_append, length_singleton]
  · exact serving.unrefused
  · change Answered options application stream connection.cuts connection.sent
      (connection.input ++ connection.unread)
    rw [cut, sent, ← remains keeps]
    exact .next answered serves keeps complete

section

variable (phase : Phase options application stream connection)
include phase

theorem Phase.wrote (count : Nat) (opened : connection.closing = false)
    (queued : connection.output ≠ []) :
    Phase options application stream (connection.wrote count) := by
  have same := wrote_shown connection count
  cases phase with
  | idle idle _ => exact absurd idle.quiet queued
  | waiting _ _ quiet => exact absurd quiet queued
  | finishing serving complete control _ shown =>
    exact .finishing (serving.congr rfl rfl rfl fun _ => rfl) complete control queued
      (same.trans shown)
  | streaming serving streams passes control requested shown =>
    exact .streaming (serving.congr rfl rfl rfl fun _ => rfl) streams passes control requested
      (same.trans shown)
  | upgraded serving complete closes control shown =>
    exact .upgraded (serving.congr rfl rfl rfl fun _ => rfl) complete closes control
      (same.trans shown)
  | refused answered refuses cutOff failure control _ shown =>
    exact .refused answered refuses cutOff failure control queued (same.trans shown)
  | closed closing _ _ => cases opened.symm.trans closing

theorem Phase.outputSent (opened : connection.closing = false) (queued : connection.output ≠ [])
    (all : connection.output.length ≤ connection.outputOffset) :
    Phase options application stream
      (outputSent options application connection) := by
  have everything : connection.shown = connection.sent := by
    rw [Connection.shown, drop_eq_nil_of_le all, append_nil]
  cases phase with
  | idle idle _ => exact absurd idle.quiet queued
  | waiting _ _ quiet => exact absurd quiet queued
  | finishing serving complete control nonempty shown =>
    rename_i written bytes reply terminal
    obtain ⟨_, streams, pendingStream, _, websocket, close, _⟩ := control_eq control
    rw [everything] at shown
    have falls : Http.outputSent options application connection =
        if reply.closes then closeConnection connection.rested
        else if connection.input = [] then connection.rested
        else prepareNext options application connection.rested := by
      simp only [Http.outputSent, streams, pendingStream, websocket, close, Control.finishing,
        Option.isSome_none, Bool.false_eq_true, or_self, if_false]
    rw [falls]
    cases keeps : reply.closes with
    | true =>
      have rested : Serving options application stream connection.rested written reply :=
        serving.congr rfl rfl rfl fun _ => rfl
      exact rested.phase_closed (.complete complete) (.closes keeps)
        ((append_nil _).trans shown)
    | false =>
      have idle := serving.rested complete keeps control shown
      rw [if_neg Bool.false_ne_true]
      split
      · rename_i empty
        refine .idle idle ?_
        change requestSize options connection.input = .ok none
        rw [empty]
        rfl
      · exact idle.phase_next
  | streaming serving streams passes control requested shown =>
    rename_i written reply items flag
    obtain ⟨_, streaming, pendingStream, _, websocket, _⟩ := control_eq control
    cases flag with
    | true => exact absurd (requested.mp rfl) queued
    | false =>
      have continues : Http.outputSent options application connection =
          { connection with output := [], outputOffset := 0, pendingStream := true } := by
        simp [Http.outputSent, requestStreamChunk, websocket, streaming, pendingStream, opened,
          Control.streaming]
      have requesting := congrArg (fun control : Control =>
        { control with pendingStream := true }) control
      rw [continues]
      refine .streaming (serving.congr rfl rfl rfl fun _ => rfl) streams passes requesting
        (iff_of_true rfl rfl) ?_
      rw [everything] at shown
      exact (append_nil _).trans shown
  | upgraded serving complete closes control shown =>
    obtain ⟨_, _, _, _, websocket, close, _⟩ := control_eq control
    have stays : Http.outputSent options application connection =
        { connection with output := [], outputOffset := 0 } := by
      simp [Http.outputSent, websocket, close, Control.upgraded]
    rw [stays]
    refine .upgraded (serving.congr rfl rfl rfl fun _ => rfl) complete closes control ?_
    rw [everything] at shown
    exact (append_nil _).trans shown
  | refused answered refuses cutOff failure control _ shown =>
    obtain ⟨_, streams, pendingStream, _, websocket, close, _⟩ := control_eq control
    have closes : Http.outputSent options application connection =
        closeConnection connection.rested := by
      simp [Http.outputSent, streams, pendingStream, websocket, close, Control.finishing]
    have ended : (closeConnection connection.rested).shown = connection.sent :=
      append_nil _
    have refusedWith : (closeConnection connection.rested).failure = some _ := failure
    rw [closes]
    refine .closed rfl ?_ ?_
    · rw [ended, ← everything, shown]
      exact .refused answered refuses
    · rw [refusedWith]
      exact ⟨_, _, _, _, answered, .refused refuses, cutOff⟩
  | closed closing _ _ => cases opened.symm.trans closing

theorem Phase.write (opened : connection.closing = false)
    (ready : connection.Ready (.write count)) :
    Phase options application stream
      (writeReady options application connection count) := by
  have wrote := phase.wrote count opened ready.1
  unfold writeReady
  split
  · exact wrote
  · rename_i all
    exact wrote.outputSent opened ready.1 (Nat.le_of_not_lt all)

end

end Steps

end Gungnir.Http
