import Gungnir.Http.Framing
import Gungnir.Http.Response
import Gungnir.Library.Transition

/-!
# One HTTP/1 connection in the reactor

The connection state of `server.cpp` and the functions by which the reactor moves
it: `read_ready`, `complete_ready_handler`, `complete_ready_stream` and
`write_ready`. The server keeps running, nothing times out and the peer neither
disconnects nor fails, so the calls to the socket either make progress or would
block. A handshake that takes the connection over to WebSocket ends the model.

The application is an oracle: it fixes for the n-th request whether a dispatch
slot is free and what its handler and its body stream produce.
-/

namespace Gungnir.Http

open Gungnir.Core
open Gungnir.Library (find)

/-! ## The application -/

/-- One result of `BodyStream::next`. -/
inductive StreamItem where
  | chunk (bytes : Bytes)
  | finished
  | failed

structure WebSocketHandshake where
  accept : Bytes
  protocol : Bytes

/-- What a handler ends with: an exception or no response, a response with a fixed
or a streamed body, or an upgrade with the answer of `websocket::wire::handshake`. -/
inductive Outcome where
  | failed
  | respond (response : Response)
  | stream (response : Response) (items : Nat → StreamItem)
  | upgrade (handshake : Option WebSocketHandshake)

inductive Dispatch where
  | overloaded
  | handled (outcome : Outcome)

abbrev Application := Nat → Dispatch

/-! ## The connection -/

structure PendingDispatch where
  outcome : Outcome
  keepAlive : Bool
  omitBody : Bool

structure Connection where
  input : Bytes
  output : Bytes
  outputOffset : Nat
  requestsServed : Nat
  pending : Option PendingDispatch
  stream : Option (Nat → StreamItem)
  pendingStream : Bool
  streamTerminalQueued : Bool
  websocket : Bool
  closeAfterWrite : Bool
  closing : Bool
  /-- How many items the current stream has produced. -/
  produced : Nat
  /-- What the client has sent and the server has not received. -/
  unread : Bytes
  /-- History: the bytes sent to the client, the requests cut off the input, and the
  exception that refused one. -/
  sent : Bytes
  cuts : List Bytes
  failure : Option Failure

def Connection.accepted (stream : Bytes) : Connection where
  input := []
  output := []
  outputOffset := 0
  requestsServed := 0
  pending := none
  stream := none
  pendingStream := false
  streamTerminalQueued := false
  websocket := false
  closeAfterWrite := false
  closing := false
  produced := 0
  unread := stream
  sent := []
  cuts := []
  failure := none

variable (connection : Connection)

def closeConnection : Connection := { connection with closing := true }

def queueError (status : Int) (body : Bytes) : Connection :=
  match serializeResponse (errorResponse status body) false .close with
  | .error _ => closeConnection connection
  | .ok output =>
    { connection with
      output := output
      pending := none
      pendingStream := false
      stream := none
      streamTerminalQueued := false
      websocket := false
      outputOffset := 0
      closeAfterWrite := true
      input := [] }

/-! ## Dispatching a request -/

def rawHttp10 (raw : Bytes) : Bool :=
  match find crlf raw with
  | none => false
  | some lineEnd => (ascii " HTTP/1.0").isSuffixOf (raw.take lineEnd)

def keepAliveFor (raw : Bytes) (request : Request) (options : RuntimeOptions) (served : Nat) : Bool :=
  if options.keepAlive = false ∨ options.maxRequestsPerConnection ≤ served then false
  else
    let connection := lowercase (request.header (ascii "connection"))
    if rawHttp10 raw then connection = ascii "keep-alive" else connection ≠ ascii "close"

/-- `prepare_response` is entered with no response in progress, or returns. -/
def Connection.busy : Bool :=
  connection.output ≠ [] || connection.pending.isSome || connection.stream.isSome ||
    connection.pendingStream || connection.streamTerminalQueued || connection.websocket

def dispatchRequest (options : RuntimeOptions) (application : Application)
    (connection : Connection) (raw : Bytes) (request : Request) : Connection × Option Failure :=
  let served := { connection with requestsServed := connection.requestsServed + 1 }
  let omitBody := request.method = .head
  match application connection.requestsServed with
  | .overloaded =>
    match serializeResponse overloadResponse omitBody .close with
    | .error raised => (served, some (.exception raised))
    | .ok output =>
      ({ served with output := output, outputOffset := 0, closeAfterWrite := true, input := [] },
        none)
  | .handled outcome =>
    ({ served with
        pending := some
          { outcome := outcome
            keepAlive := keepAliveFor raw request options served.requestsServed
            omitBody := omitBody } },
      none)

/-- The connection and the exception that leaves `prepare_response`, if one does. -/
def prepareResponse (options : RuntimeOptions) (application : Application)
    (connection : Connection) : Connection × Option Failure :=
  if connection.busy then (connection, none)
  else
    match requestSize options connection.input with
    | .error raised => (connection, some raised)
    | .ok none => (connection, none)
    | .ok (some expected) =>
      let raw := connection.input.take expected
      let erased :=
        { connection with
          input := connection.input.drop expected
          cuts := connection.cuts ++ [raw] }
      match parseRequest raw with
      | .error raised => (erased, some (.exception raised))
      | .ok request => dispatchRequest options application erased raw request

/-! ## Reading -/

def receiveBufferSize : Nat := 8192

/-- The loop of `read_ready` over successive calls to `recv`, which return the given
numbers of bytes and then would block. It stops at a complete request. -/
def receive (options : RuntimeOptions) : Bytes → Bytes → List Nat → Bytes × Bytes × Option Failure
  | input, unread, [] => (input, unread, none)
  | input, unread, count :: counts =>
    let extended := input ++ unread.take count
    match requestSize options extended with
    | .error raised => (extended, unread.drop count, some raised)
    | .ok (some _) => (extended, unread.drop count, none)
    | .ok none => receive options extended (unread.drop count) counts

/-- The `catch` clauses of `read_ready`. -/
def Failure.status : Failure → Int × Bytes
  | .headerLimit => (431, ascii "Request Header Fields Too Large")
  | .exception ⟨.lengthError, _⟩ => (413, ascii "Payload Too Large")
  | .exception ⟨.invalidArgument, _⟩ => (400, ascii "Bad Request")
  | .exception _ => (500, ascii "Internal Server Error")

def refuse (raised : Failure) : Connection :=
  queueError { connection with failure := some raised } raised.status.1 raised.status.2

/-- An exception of `prepare_response` under these clauses. -/
def caught (prepared : Connection × Option Failure) : Connection :=
  match prepared.2 with
  | some raised => refuse prepared.1 raised
  | none => prepared.1

variable (options : RuntimeOptions)

/-- The connection after `recv` has moved bytes into its input. -/
def Connection.filled (counts : List Nat) : Connection :=
  let received := receive options connection.input connection.unread counts
  { connection with input := received.1, unread := received.2.1 }

variable (application : Application) (connection : Connection)

def readReady (counts : List Nat) : Connection :=
  match (receive options connection.input connection.unread counts).2.2 with
  | some raised => refuse (connection.filled options counts) raised
  | none => caught (prepareResponse options application (connection.filled options counts))

/-! ## Completions -/

def websocketUpgradeResponse (handshake : WebSocketHandshake) : Bytes :=
  ascii "HTTP/1.1 101 Switching Protocols" ++ crlf ++ ascii "upgrade: websocket" ++ crlf ++
    ascii "connection: Upgrade" ++ crlf ++ ascii "sec-websocket-accept: " ++ handshake.accept ++
    crlf ++
    (if handshake.protocol = [] then []
      else ascii "sec-websocket-protocol: " ++ handshake.protocol ++ crlf) ++ crlf

def directive (keepAlive : Bool) : ConnectionDirective := if keepAlive then .keepAlive else .close

/-- The end of `complete_ready_handler` for a response that is no upgrade: the
serialized bytes become the output, an exception of the serializer an error response. -/
def queueResponse (serialized : Except Exception Bytes) (stream : Option (Nat → StreamItem))
    (keepAlive : Bool) : Connection :=
  match serialized with
  | .error _ => queueError connection 500 (ascii "Internal Server Error")
  | .ok output =>
    { connection with
      output := output
      outputOffset := 0
      stream := stream
      produced := 0
      closeAfterWrite := !keepAlive }

def completeReadyHandler : Connection :=
  match connection.pending with
  | none => connection
  | some pending =>
    let taken := { connection with pending := none }
    let keepAlive := pending.keepAlive && !connection.closeAfterWrite
    match pending.outcome with
    | .failed =>
      queueResponse taken
        (serializeResponse (errorResponse 500 (ascii "Internal Server Error"))
          pending.omitBody .close) none false
    | .respond response =>
      queueResponse taken (serializeResponse response pending.omitBody (directive keepAlive))
        none keepAlive
    | .stream response items =>
      queueResponse taken
        (serializeStreamHeaders response pending.omitBody (directive keepAlive))
        (if pending.omitBody then none else some items) keepAlive
    | .upgrade none => queueError taken 400 (ascii "Invalid WebSocket upgrade")
    | .upgrade (some handshake) =>
      { taken with
        output := websocketUpgradeResponse handshake
        websocket := true
        outputOffset := 0
        closeAfterWrite := false }

def requestStreamChunk : Connection :=
  if connection.closing ∨ connection.stream.isNone ∨ connection.pendingStream ∨
      connection.output ≠ [] then connection
  else { connection with pendingStream := true }

/-- What `complete_ready_stream` does with the item its producer is done with. -/
def queueItem : StreamItem → Connection
  | .failed => closeConnection connection
  | .finished =>
    { connection with
      stream := none
      output := serializeChunkEnd
      outputOffset := 0
      streamTerminalQueued := true }
  | .chunk bytes =>
    if bytes = [] then requestStreamChunk connection
    else if bytes.length > options.maxStreamChunkBytes then closeConnection connection
    else { connection with output := serializeChunk bytes, outputOffset := 0 }

def completeReadyStream : Connection :=
  match connection.pendingStream, connection.stream with
  | true, some items =>
    queueItem options
      { connection with pendingStream := false, produced := connection.produced + 1 }
      (items connection.produced)
  | _, _ => connection

/-! ## Writing -/

/-- The connection with its output sent and no stream left to continue. -/
def Connection.rested : Connection :=
  { connection with
    output := []
    outputOffset := 0
    streamTerminalQueued := false
    closeAfterWrite := false }

/-- The next buffered request, prepared from `write_ready`. An exception is answered
by nothing here: it closes the connection. -/
def prepareNext : Connection :=
  let prepared := prepareResponse options application connection
  match prepared.2 with
  | some raised => closeConnection { prepared.1 with failure := some raised }
  | none => prepared.1

/-- The end of `write_ready`, once all of the output is sent. -/
def outputSent : Connection :=
  if connection.websocket then
    if connection.closeAfterWrite then
      closeConnection { connection with output := [], outputOffset := 0, closeAfterWrite := false }
    else { connection with output := [], outputOffset := 0 }
  else if connection.stream.isSome ∨ connection.pendingStream then
    requestStreamChunk { connection with output := [], outputOffset := 0 }
  else if connection.closeAfterWrite then closeConnection connection.rested
  else if connection.input = [] then connection.rested
  else prepareNext options application connection.rested

/-- The connection after the socket has accepted some bytes. -/
def Connection.wrote (count : Nat) : Connection :=
  { connection with
    outputOffset := connection.outputOffset + count
    sent := connection.sent ++ (connection.output.drop connection.outputOffset).take count }

/-- `write_ready` with `count` bytes accepted by the socket before it would block. -/
def writeReady (count : Nat) : Connection :=
  if (connection.wrote count).outputOffset < connection.output.length then connection.wrote count
  else outputSent options application (connection.wrote count)

/-! ## The reactor -/

inductive Event where
  | read (counts : List Nat)
  | handlerReady
  | chunkReady
  | write (count : Nat)
  deriving DecidableEq, Repr

/-- What `recv` can return one after the other, and what the socket holds. -/
def Receivable (unread : Bytes) (counts : List Nat) : Prop :=
  counts.sum ≤ unread.length ∧ ∀ count ∈ counts, 0 < count ∧ count ≤ receiveBufferSize

/-- The poll interests and the readiness flags: a connection reads when it has no
output, whatever its handler or stream is doing, and writes when it has some. -/
def Connection.Ready : Event → Prop
  | .read counts =>
    connection.output = [] ∧ connection.websocket = false ∧ Receivable connection.unread counts
  | .handlerReady => connection.pending.isSome
  | .chunkReady => connection.pendingStream
  | .write count =>
    connection.output ≠ [] ∧ connection.outputOffset + count ≤ connection.output.length

instance (connection : Connection) : (event : Event) → Decidable (connection.Ready event)
  | .read _ => inferInstanceAs (Decidable (_ ∧ _ ∧ _ ∧ ∀ _ ∈ _, _))
  | .handlerReady | .chunkReady => inferInstanceAs (Decidable (_ = true))
  | .write _ => inferInstanceAs (Decidable (_ ∧ _))

def Connection.next : Event → Connection
  | .read counts => readReady options application connection counts
  | .handlerReady => completeReadyHandler connection
  | .chunkReady => completeReadyStream options connection
  | .write count => writeReady options application connection count

def Connection.Enabled (event : Event) : Prop :=
  connection.closing = false ∧ connection.Ready event

instance (connection : Connection) (event : Event) : Decidable (connection.Enabled event) :=
  inferInstanceAs (Decidable (_ ∧ _))

def Connection.Step (before : Connection) (event : Event) (after : Connection) : Prop :=
  before.closing = false ∧ before.Ready event ∧ after = before.next options application event

end Gungnir.Http
