import Gungnir.Http.Pipeline

/-!
# Framing and response integrity over whole runs

Every run keeps the cut requests consecutive parts of the client's bytes. A run in
which no read behind an unfinished response is refused stays in the phases of the
conversation, so its cuts, its final exception and the bytes it sends are those of
the conversation. The small run at the end refuses such a read.
-/

namespace Gungnir.Http

open Gungnir.Core List
open Gungnir.Library (Trace Transition EnabledFrom runFrom transitionsFrom find)

/-! ## Steps -/

section Runs

variable {options : ServerOptions} {application : Application} {stream : Bytes}
  {connection before after : Connection} {event : Event}

theorem Phase.step (step : Connection.Step options application before event after)
    (polite : before.Polite options event)
    (phase : Phase options application stream before) : Phase options application stream after := by
  obtain ⟨opened, ready, rfl⟩ := step
  cases event with
  | read counts => exact phase.read opened ready polite
  | handlerReady => exact phase.handler opened ready
  | chunkReady => exact phase.chunk opened ready
  | write count => exact phase.write opened ready

variable {transitions : List (Transition Connection Event)}

theorem phase_run
    (run : Trace (Connection.Step options application) (.accepted stream) transitions connection)
    (polite : ∀ transition ∈ transitions, transition.before.Polite options transition.label) :
    Phase options application stream connection :=
  run.preserves_where (Phase options application stream)
    (fun transition => transition.before.Polite options transition.label)
    (fun polite step phase => phase.step step polite) polite phase_accepted

/-! ## The cut requests -/

/-- The cut requests are whole requests that follow one another in the stream. -/
def Consecutive (options : RuntimeOptions) (stream : Bytes) (cuts : List Bytes) : Prop :=
  (∃ rest, stream = cuts.flatten ++ rest) ∧ ∀ raw ∈ cuts, Whole options raw

variable {cuts : List Bytes} {written rest : Bytes}

theorem Answered.consecutive_snoc {options : RuntimeOptions} {size : Nat}
    (answered : Answered options application stream cuts written rest)
    (sized : requestSize options rest = .ok (some size)) :
    Consecutive options stream (cuts ++ [rest.take size]) := by
  obtain ⟨split, whole⟩ := answered.parts
  constructor
  · refine ⟨rest.drop size, ?_⟩
    rw [flatten_append, flatten_singleton, append_assoc, take_append_drop]
    exact split
  · exact forall_mem_append.mpr ⟨whole, forall_mem_singleton.mpr (whole_take sized)⟩

theorem Answered.consecutive {options : RuntimeOptions}
    (answered : Answered options application stream cuts written rest) :
    Consecutive options stream cuts :=
  ⟨⟨rest, answered.parts.1⟩, answered.parts.2⟩

theorem Refuses.consecutive {options : RuntimeOptions} {cut : List Bytes} {failure : Failure}
    (answered : Answered options application stream cuts written rest)
    (refuses : Refuses options rest cut failure) : Consecutive options stream (cuts ++ cut) := by
  cases refuses with
  | size _ =>
    rw [append_nil]
    exact answered.consecutive
  | parse sized _ => exact answered.consecutive_snoc sized

theorem Serving.consecutive {reply : Reply}
    (serving : Serving options application stream connection written reply) :
    Consecutive options stream connection.cuts := by
  obtain ⟨cuts, rest, size, answered, serves, cut, _⟩ := serving.request
  rw [cut]
  exact answered.consecutive_snoc serves.1

theorem Ended.consecutive {options : RuntimeOptions} {failure : Option Failure}
    (ended : Ended options application stream cuts failure) : Consecutive options stream cuts := by
  obtain ⟨earlier, written, rest, cut, answered, stops, rfl⟩ := ended
  cases stops with
  | incomplete _ =>
    rw [append_nil]
    exact answered.consecutive
  | refused refuses => exact refuses.consecutive answered
  | last serves _ => exact answered.consecutive_snoc serves.1

theorem Phase.consecutive (phase : Phase options application stream connection) :
    Consecutive options stream connection.cuts := by
  cases phase with
  | idle idle _ => exact idle.answered.consecutive
  | waiting serving _ _ | finishing serving _ _ _ _ | streaming serving _ _ _ _ _ =>
    exact serving.consecutive
  | upgraded serving _ _ _ _ => exact serving.consecutive
  | refused answered refuses cutOff _ _ _ _ =>
    rw [cutOff]
    exact refuses.consecutive answered
  | closed _ _ ended => exact ended.consecutive

/-- A response was given up for an error response, which is all that is still sent. -/
structure Aborted (options : RuntimeOptions) (stream : Bytes) (connection : Connection) : Prop where
  consecutive : Consecutive options stream connection.cuts
  halted : connection.closing = true ∨
    (connection.control = .finishing false true ∧ connection.output ≠ [])

theorem Phase.aborted {counts : List Nat} (phase : Phase options application stream connection)
    (opened : connection.closing = false) (impolite : ¬ connection.Polite options (.read counts)) :
    Aborted options stream
      (readReady options application connection counts) := by
  obtain ⟨_, raised⟩ := Classical.not_imp.mp impolite
  obtain ⟨failure, refused⟩ := Option.ne_none_iff_exists'.mp raised
  have control := queueError_control failure.status.1 failure.status.2
    (show ({ connection.filled options counts with
      failure := some failure } : Connection).closing = false from opened)
  rw [readReady, refused]
  dsimp only [refuse]
  constructor
  · exact phase.consecutive
  · right
    refine ⟨control, ?_⟩
    rw [queueError_eq]
    exact errorBytes_ne_nil _ _

theorem Aborted.step {options : RuntimeOptions}
    (step : Connection.Step options application before event after)
    (aborted : Aborted options stream before) : Aborted options stream after := by
  obtain ⟨opened, ready, rfl⟩ := step
  rcases aborted.halted with closing | ⟨control, queued⟩
  · cases opened.symm.trans closing
  · obtain ⟨pending, streams, pendingStream, _, websocket, close, _⟩ := control_eq control
    cases event with
    | read counts => exact absurd ready.1 queued
    | handlerReady =>
      rw [Connection.Ready, pending] at ready
      cases ready
    | chunkReady =>
      rw [Connection.Ready, pendingStream] at ready
      cases ready
    | write count =>
      dsimp only [Connection.next]
      unfold writeReady
      split
      · exact ⟨aborted.consecutive, .inr ⟨control, queued⟩⟩
      · have closes : outputSent options application (before.wrote count) =
            closeConnection (before.wrote count).rested := by
          simp [outputSent, Connection.wrote, streams, pendingStream, websocket, close,
            Control.finishing]
        rw [closes]
        exact ⟨aborted.consecutive, .inl rfl⟩

/-- Polite or not, no run cuts a request anywhere else than behind the last one. -/
theorem consecutive_run
    (run : Trace (Connection.Step options application) (.accepted stream) transitions connection) :
    Consecutive options stream connection.cuts := by
  have holds : Phase options application stream connection ∨
      Aborted options stream connection := by
    refine run.preserves (fun connection => Phase options application stream connection ∨
      Aborted options stream connection) ?_ (.inl phase_accepted)
    intro before event after step held
    rcases held with phase | aborted
    · by_cases polite : before.Polite options event
      · exact .inl (phase.step step polite)
      · obtain ⟨opened, _, rfl⟩ := step
        cases event with
        | read counts => exact .inr (phase.aborted opened polite)
        | handlerReady | chunkReady | write count => exact absurd trivial polite
    · exact .inr (aborted.step step)
  exact holds.elim Phase.consecutive Aborted.consecutive

/-! ## Settled connections -/

/-- Nothing is left to do: the connection is closed or taken over, or it is idle with
every byte of the client received. -/
def Connection.Settled (connection : Connection) : Prop :=
  connection.closing = true ∨ (connection.websocket = true ∧ connection.output = []) ∨
    (connection.busy = false ∧ connection.unread = [])

instance (connection : Connection) : Decidable connection.Settled :=
  inferInstanceAs (Decidable (_ ∨ _ ∨ _))

theorem Serving.ended {written : Bytes} {reply : Reply}
    (serving : Serving options application stream connection written reply)
    (last : reply.Last options) :
    Ended options application stream connection.cuts connection.failure := by
  obtain ⟨cuts, rest, size, answered, serves, cut, _⟩ := serving.request
  rw [serving.unrefused]
  exact ⟨cuts, written, rest, _, answered, .last serves last, cut⟩

theorem Phase.ended (phase : Phase options application stream connection)
    (settled : connection.Settled) :
    Ended options application stream connection.cuts connection.failure := by
  have notSettled {control : Control} (same : connection.control = control)
      (opened : control.closing = false) (plain : control.websocket = false)
      (busy : connection.busy = true) : False := by
    obtain ⟨_, _, _, _, websocket, _, closing⟩ := control_eq same
    rcases settled with closed | ⟨upgraded, _⟩ | ⟨idle, _⟩
    · cases closed.symm.trans (closing.trans opened)
    · cases upgraded.symm.trans (websocket.trans plain)
    · cases busy.symm.trans idle
  have busy_of_queued (queued : connection.output ≠ []) : connection.busy = true := by
    simp [Connection.busy, queued]
  cases phase with
  | idle idle incomplete =>
    obtain ⟨_, _, _, _, websocket, _, closing⟩ := control_eq idle.control
    rcases settled with closed | ⟨upgraded, _⟩ | ⟨_, received⟩
    · cases closed.symm.trans closing
    · cases upgraded.symm.trans websocket
    · rw [idle.unrefused]
      refine ⟨connection.cuts, connection.sent, _, [], idle.answered, .incomplete ?_, ?_⟩
      · rw [received, append_nil]
        exact incomplete
      · exact (append_nil _).symm
  | waiting _ control _ =>
    refine (notSettled control rfl rfl ?_).elim
    simp [Connection.busy, (control_eq control).1, Control.waiting]
  | finishing _ _ control queued _ => exact (notSettled control rfl rfl (busy_of_queued queued)).elim
  | streaming _ _ _ control _ _ =>
    refine (notSettled control rfl rfl ?_).elim
    simp [Connection.busy, (control_eq control).2.1, Control.streaming]
  | upgraded serving _ closes _ _ => exact serving.ended (.closes closes)
  | refused _ _ _ _ control queued _ =>
    exact (notSettled control rfl rfl (busy_of_queued queued)).elim
  | closed _ _ ended => exact ended

/-- Two lists of consecutive requests of one stream agree as far as both go. -/
theorem Consecutive.compare {options : RuntimeOptions} {first second : List Bytes}
    (left : Consecutive options stream first) (right : Consecutive options stream second) :
    first <+: second ∨ second <+: first := by
  induction first generalizing stream second with
  | nil => exact .inl nil_prefix
  | cons raw rest ih =>
    cases second with
    | nil => exact .inr nil_prefix
    | cons other others =>
      obtain ⟨⟨tail, rfl⟩, whole⟩ := left
      obtain ⟨⟨otherTail, same⟩, otherWhole⟩ := right
      rw [flatten_cons, flatten_cons, append_assoc, append_assoc] at same
      -- Both first requests have the size that the stream gives.
      have sized : requestSize options (raw ++ (rest.flatten ++ tail)) = .ok (some raw.length) :=
        requestSize_append (whole raw mem_cons_self)
      have otherSized : requestSize options (other ++ (others.flatten ++ otherTail)) =
          .ok (some other.length) := requestSize_append (otherWhole other mem_cons_self)
      rw [same] at sized
      have sameLength := Option.some.inj (Except.ok.inj (sized.symm.trans otherSized))
      obtain ⟨rfl, behind⟩ := append_inj same sameLength
      rw [cons_prefix_cons, cons_prefix_cons, and_iff_right rfl, and_iff_right rfl]
      apply ih
      · exact ⟨⟨tail, rfl⟩, (forall_mem_cons.mp whole).2⟩
      · exact ⟨⟨otherTail, behind⟩,
          (forall_mem_cons.mp otherWhole).2⟩

end Runs

/-! ## Framing -/

/-- The size scanner and the parser agree on every buffer; every run cuts whole
requests off the stream one behind the other; and the settled runs in which no read
behind an unfinished response is refused all cut the same requests and stop at the
same exception, however the stream is split into reads. -/
theorem framing_agreement (options : ServerOptions) (application : Application) (stream : Bytes) :
    (∀ (limits : RuntimeOptions) (buffer : Bytes) (size : Nat),
      requestSize limits buffer = .ok (some size) →
      size ≤ buffer.length ∧
      parseRequest (buffer.take size) ≠ .error incompleteBody ∧
      (∃ headerEnd, find headerTerminator buffer = some headerEnd ∧ headerEnd + 4 ≤ size ∧
        ∀ request, parseRequest (buffer.take size) = .ok request →
          request.body = (buffer.drop (headerEnd + 4)).take (size - (headerEnd + 4))) ∧
      ∀ suffix, requestSize limits (buffer ++ suffix) = .ok (some size)) ∧
    (∀ transitions connection,
      Trace (Connection.Step options application) (.accepted stream)
        transitions connection →
      Consecutive options stream connection.cuts) ∧
    (∀ transitions connection others second,
      Trace (Connection.Step options application) (.accepted stream)
        transitions connection →
      Trace (Connection.Step options application) (.accepted stream)
        others second →
      (connection.cuts <+: second.cuts ∨ second.cuts <+: connection.cuts) ∧
      ((∀ transition ∈ transitions ++ others,
          transition.before.Polite options transition.label) →
        connection.Settled → second.Settled →
        connection.cuts = second.cuts ∧ connection.failure = second.failure)) := by
  refine ⟨?_, fun _ _ run => consecutive_run run, ?_⟩
  · intro limits buffer size sized
    obtain ⟨headerEnd, bodySize, framed, rfl⟩ := requestSize_eq_some.mp sized
    refine ⟨framed.complete, parseRequest_framed_complete framed,
      ⟨headerEnd, framed.terminator, Nat.le_add_right _ _, ?_⟩, fun _ => requestSize_append sized⟩
    intro request parsed
    rw [parseRequest_framed_body framed parsed, drop_take]
  · intro transitions connection others second run another
    refine ⟨(consecutive_run run).compare (consecutive_run another), ?_⟩
    intro polite settled alsoSettled
    have phase := phase_run run fun transition member =>
      polite transition (mem_append_left _ member)
    have secondPhase := phase_run another fun transition member =>
      polite transition (mem_append_right _ member)
    exact (phase.ended settled).unique (secondPhase.ended alsoSettled)

/-! ## Response integrity -/

section Starts

variable {options : RuntimeOptions} {application : Application} {stream : Bytes}
  {size : Nat} {reply : Reply}

theorem Reply.Complete.of_fixed {bytes : Bytes} (fixed : reply.items = none)
    (complete : reply.Complete options bytes) : bytes = reply.head := by
  cases complete with
  | fixed _ => rfl
  | chunked streams _ _ => cases fixed.symm.trans streams

theorem Answered.starts {cuts : List Bytes} {written rest : Bytes}
    (answered : Answered options application stream cuts written rest)
    (serves : Serves options application 0 stream size reply) (fixed : reply.items = none) :
    (cuts = [] ∧ written = [] ∧ rest = stream) ∨ reply.head <+: written := by
  induction answered with
  | start => exact .inl ⟨rfl, rfl, rfl⟩
  | next _ servesNext _ complete ih =>
    right
    rcases ih with ⟨rfl, rfl, rfl⟩ | started
    · obtain ⟨rfl, rfl⟩ := serves.unique servesNext
      rw [complete.of_fixed fixed]
      exact prefix_rfl
    · exact started.trans (prefix_append _ _)

/-- Whatever is sent starts with the response to the first request. -/
theorem Transcript.starts {bytes : Bytes} (transcript : Transcript options application stream bytes)
    (serves : Serves options application 0 stream size reply) (fixed : reply.items = none) :
    bytes = [] ∨ reply.head <+: bytes := by
  cases transcript with
  | answered answered =>
    rcases answered.starts serves fixed with ⟨_, empty, _⟩ | started
    · exact .inl empty
    · exact .inr started
  | answering answered servesNext begun =>
    right
    rcases answered.starts serves fixed with ⟨rfl, rfl, rfl⟩ | started
    · obtain ⟨rfl, rfl⟩ := serves.unique servesNext
      cases begun with
      | complete complete =>
        rw [complete.of_fixed fixed]
        exact prefix_rfl
      | partly streams _ => cases fixed.symm.trans streams
    · exact started.trans (prefix_append _ _)
  | refused answered refuses =>
    right
    rcases answered.starts serves fixed with ⟨_, _, rfl⟩ | started
    · exact absurd refuses serves.not_refuses
    · exact started.trans (prefix_append _ _)

end Starts

/-- In every state of a run in which no read behind an unfinished response is refused,
the bytes sent are the start of the responses in the order of their requests, with one
error response behind them for the first refused request. -/
theorem pipelined_responses (options : ServerOptions) (application : Application) (stream : Bytes)
    {transitions : List (Transition Connection Event)} {connection : Connection}
    (run : Trace (Connection.Step options application) (.accepted stream) transitions connection)
    (polite : ∀ transition ∈ transitions, transition.before.Polite options transition.label) :
    ∃ bytes, Transcript options application stream bytes ∧
      connection.sent <+: bytes :=
  ⟨connection.shown, (phase_run run polite).transcript, prefix_append _ _⟩

/-! ## A small run

One request that asks to close the connection, and two lines behind it that are no
header. Read in one piece, the request is answered. Read in two, the second read
finds the lines while the handler is pending. -/

def sampleOptions : ServerOptions := ⟨⟨4096, 1024, 100, 1024, true⟩, rfl⟩

def sampleApplication : Application := fun _ => .handled (.respond (.text (ascii "ok") 200))

def sampleRequest : Bytes := ascii "GET / HTTP/1.1\r\nhost: a\r\nconnection: close\r\n\r\n"

def sampleStream : Bytes := sampleRequest ++ ascii "X\r\nY\r\n\r\n"

def sampleNext : Connection → Event → Connection :=
  Connection.next sampleOptions sampleApplication

def readAtOnce : List Event := [.read [54], .handlerReady, .write 100]

def readInParts : List Event := [.read [20], .read [34], .handlerReady, .write 100]

def readInTwo : List Event := [.read [46], .read [8], .write 119]

def sampleEnd (events : List Event) : Connection :=
  runFrom sampleNext (.accepted sampleStream) events

theorem sampleRun {stream : Bytes} {events : List Event}
    (enabled : EnabledFrom sampleNext Connection.Enabled (.accepted stream) events) :
    Trace (Connection.Step sampleOptions sampleApplication)
      (.accepted stream) (transitionsFrom sampleNext (.accepted stream) events)
      (runFrom sampleNext (.accepted stream) events) :=
  enabled.trace fun enabled => ⟨enabled.1, enabled.2, rfl⟩

/-- Nothing is refused while a response is unfinished. -/
def PoliteRun (events : List Event) : Prop :=
  ∀ transition ∈ transitionsFrom sampleNext (.accepted sampleStream) events,
    transition.before.Polite sampleOptions transition.label

instance (events : List Event) : Decidable (PoliteRun events) := inferInstanceAs (Decidable (∀ _ ∈ _, _))

theorem readAtOnce_run :
    EnabledFrom sampleNext Connection.Enabled (.accepted sampleStream) readAtOnce ∧
      PoliteRun readAtOnce ∧ (sampleEnd readAtOnce).Settled ∧
      (sampleEnd readAtOnce).failure = none := by
  decide +kernel

theorem readInParts_run :
    EnabledFrom sampleNext Connection.Enabled (.accepted sampleStream) readInParts ∧
      PoliteRun readInParts ∧ (sampleEnd readInParts).Settled := by
  decide +kernel

def sampleResponse : Bytes :=
  ascii "HTTP/1.1 200 OK\r\ncontent-type: text/plain; charset=utf-8\r\n" ++
    ascii "content-length: 2\r\nconnection: close\r\n\r\nok"

/-- The second read is refused, and what is sent is no part of the response. -/
theorem readInTwo_run :
    EnabledFrom sampleNext Connection.Enabled (.accepted sampleStream) readInTwo ∧
      (sampleEnd readInTwo).Settled ∧ (sampleEnd readInTwo).failure ≠ none ∧
      (sampleEnd readInTwo).sent ≠ [] ∧
      (sampleEnd readInTwo).sent.isPrefixOf sampleResponse = false ∧
      sampleResponse.isPrefixOf (sampleEnd readInTwo).sent = false := by
  decide

/-- The head and the parts are cut at the same place. -/
theorem framing_agreement_sample :
    (sampleEnd readAtOnce).cuts = (sampleEnd readInParts).cuts ∧
      (sampleEnd readAtOnce).failure = (sampleEnd readInParts).failure :=
  ((framing_agreement sampleOptions sampleApplication sampleStream).2.2 _ _ _ _
    (sampleRun readAtOnce_run.1) (sampleRun readInParts_run.1)).2
    (forall_mem_append.mpr ⟨readAtOnce_run.2.1, readInParts_run.2.1⟩)
    readAtOnce_run.2.2.1 readInParts_run.2.2

/-- The same bytes, received in one read and in two, end without an exception and
with one. -/
theorem framing_depends_on_timing :
    ¬ ∀ (options : ServerOptions) (application : Application) (stream : Bytes)
      (transitions : List (Transition Connection Event)) (connection : Connection)
      (others : List (Transition Connection Event)) (second : Connection),
      Trace (Connection.Step options application) (.accepted stream)
        transitions connection →
      Trace (Connection.Step options application) (.accepted stream)
        others second →
      connection.Settled → second.Settled →
      connection.cuts = second.cuts ∧ connection.failure = second.failure := by
  intro independent
  have same := independent sampleOptions sampleApplication sampleStream _ _ _ _
    (sampleRun readAtOnce_run.1) (sampleRun readInTwo_run.1) readAtOnce_run.2.2.1 readInTwo_run.2.1
  exact readInTwo_run.2.2.1 (same.2.symm.trans readAtOnce_run.2.2.2)

/-- Two requests, of which the second is read while the handler of the first is pending. -/
def pairStream : Bytes := ascii "GET / HTTP/1.1\r\nhost: a\r\n\r\n" ++ sampleRequest

def readPair : List Event :=
  [.read [27], .read [46], .handlerReady, .write 105, .handlerReady, .write 100]

theorem readPair_run :
    EnabledFrom sampleNext Connection.Enabled (.accepted pairStream) readPair ∧
      (∀ transition ∈ transitionsFrom sampleNext (.accepted pairStream) readPair,
        transition.before.Polite sampleOptions transition.label) ∧
      (runFrom sampleNext (.accepted pairStream) readPair).sent.length = 205 := by
  decide +kernel

theorem pipelined_responses_sample :
    ∃ bytes, Transcript sampleOptions sampleApplication pairStream bytes ∧
      (runFrom sampleNext (.accepted pairStream) readPair).sent <+: bytes ∧ 205 ≤ bytes.length := by
  obtain ⟨bytes, transcript, sent⟩ := pipelined_responses sampleOptions sampleApplication pairStream
    (sampleRun readPair_run.1) readPair_run.2.1
  exact ⟨bytes, transcript, sent, readPair_run.2.2 ▸ sent.length_le⟩

theorem sampleServes :
    ∃ reply, Serves sampleOptions sampleApplication 0 sampleStream 46 reply ∧
      reply.items = none ∧ reply.head = sampleResponse := by
  obtain ⟨sized, answers⟩ : requestSize sampleOptions sampleStream = .ok (some 46) ∧
      (parseRequest (sampleStream.take 46)).map (fun request =>
        let reply := replyTo sampleOptions sampleApplication 0
          (sampleStream.take 46) request
        (reply.items.isNone, reply.head)) = .ok (true, sampleResponse) := by
    decide
  cases parsed : parseRequest (sampleStream.take 46) with
  | error raised =>
    rw [parsed] at answers
    cases answers
  | ok request =>
    rw [parsed] at answers
    have both := Prod.mk.inj (Except.ok.inj answers)
    exact ⟨_, ⟨sized, request, parsed, rfl⟩, Option.isNone_iff_eq_none.mp both.1,
      both.2⟩

/-- The error response to the lines behind the first request takes the place of the
response to that request. -/
theorem pipelined_responses_aborted :
    ¬ ∀ (options : ServerOptions) (application : Application) (stream : Bytes)
      (transitions : List (Transition Connection Event)) (connection : Connection),
      Trace (Connection.Step options application) (.accepted stream)
        transitions connection →
      ∃ bytes, Transcript options application stream bytes ∧
        connection.sent <+: bytes := by
  intro integrity
  obtain ⟨enabled, _, _, some, inside, around⟩ := readInTwo_run
  obtain ⟨bytes, transcript, sent⟩ := integrity sampleOptions sampleApplication sampleStream _ _
    (sampleRun enabled)
  obtain ⟨reply, serves, fixed, head⟩ := sampleServes
  rcases transcript.starts serves fixed with rfl | started
  · exact some (prefix_nil.mp sent)
  · rw [head] at started
    rcases prefix_or_prefix_of_prefix sent started with first | second
    · exact ne_true_of_eq_false inside <| isPrefixOf_iff_prefix.mpr first
    · exact ne_true_of_eq_false around <| isPrefixOf_iff_prefix.mpr second

end Gungnir.Http
