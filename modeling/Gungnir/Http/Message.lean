import Gungnir.Http.Request

/-!
# The HTTP/1 wire format

`parse_request` and the serializers of `message.cpp`. The cursor loop over the
header lines visits the pieces of the header section between line ends, so it is
a fold over these pieces.
-/

namespace Gungnir.Http

open Gungnir.Core
open Gungnir.Library (find pieces bind_eq_ok bind_eq_error foldlM_invariant foldlM_raised)

/-! ## Requests -/

def parseMethod (value : Bytes) : Option Method :=
  if value = ascii "GET" then some .get
  else if value = ascii "POST" then some .post
  else if value = ascii "PUT" then some .put
  else if value = ascii "PATCH" then some .patch
  else if value = ascii "DELETE" then some .delete
  else if value = ascii "OPTIONS" then some .options
  else if value = ascii "HEAD" then some .head
  else none

structure RequestLine where
  method : Method
  target : Bytes
  version : Bytes

def parseRequestLine (requestLine : Bytes) : Except Exception RequestLine :=
  match find (ascii " ") requestLine with
  | none => .error (.invalidArgument "Invalid HTTP request line")
  | some firstSpace =>
    let afterMethod := requestLine.drop (firstSpace + 1)
    match find (ascii " ") afterMethod with
    | none => .error (.invalidArgument "Invalid HTTP request line")
    | some secondSpace =>
      match parseMethod (requestLine.take firstSpace) with
      | none => .error (.invalidArgument "Unsupported HTTP method")
      | some method =>
        let target := afterMethod.take secondSpace
        let version := afterMethod.drop (secondSpace + 1)
        if version ≠ ascii "HTTP/1.1" ∧ version ≠ ascii "HTTP/1.0" then
          .error (.invalidArgument "Unsupported HTTP version")
        else if target.head? ≠ some 47 then
          .error (.invalidArgument "Unsupported HTTP request target")
        else .ok ⟨method, target, version⟩

variable (contentLength : Option Nat)

/-- The block on `content-length` and `transfer-encoding`, which `parse_request` and
the size scanner of the server both contain. -/
def framingHeader (name value : Bytes) : Except Exception (Option Nat) :=
  if name = ascii "content-length" then
    if contentLength.isSome then
      .error (.invalidArgument "Duplicate Content-Length is not allowed")
    else
      match fromChars sizeBound value with
      | none => .error (.invalidArgument "Invalid Content-Length")
      | some parsed => .ok (some parsed)
  else if name = ascii "transfer-encoding" then
    .error (.invalidArgument "Transfer-Encoding is not supported by this HTTP backend")
  else .ok contentLength

structure HeaderSection where
  headers : List (Bytes × Bytes)
  contentLength : Option Nat
  hostSeen : Bool
  traceparentCount : Nat

def HeaderSection.empty : HeaderSection := ⟨[], none, false, 0⟩

def parseHeaderLine (fields : HeaderSection) (line : Bytes) : Except Exception HeaderSection :=
  match find (ascii ":") line with
  | none => .error (.invalidArgument "Invalid HTTP header")
  | some colon =>
    let rawName := line.take colon
    let name := trim rawName
    let value := trim (line.drop (colon + 1))
    if rawName ≠ name ∨ validHeaderName name = false ∨ validHeaderValue value = false then
      .error (.invalidArgument "Invalid HTTP header")
    else
      let lowerName := lowercase name
      if lowerName = ascii "host" ∧ (fields.hostSeen ∨ value = []) then
        .error (.invalidArgument "Invalid Host header")
      else
        match framingHeader fields.contentLength lowerName value with
        | .error raised => .error raised
        | .ok contentLength =>
          .ok
            { headers := fields.headers ++ [(lowerName, value)]
              contentLength := contentLength
              hostSeen := fields.hostSeen || lowerName = ascii "host"
              traceparentCount :=
                if lowerName = ascii "traceparent" then
                  (fields.traceparentCount + 1) % unsignedBound
                else fields.traceparentCount }

def parseHeaderLines (fields : Bytes) : Except Exception HeaderSection :=
  (pieces crlf fields).foldlM parseHeaderLine HeaderSection.empty

def incompleteBody : Exception := .invalidArgument "Incomplete HTTP request body"

def selectBody (body : Bytes) : Except Exception Bytes :=
  match contentLength with
  | none => .ok []
  | some length => if body.length < length then .error incompleteBody else .ok (body.take length)

def buildRequest (line : RequestLine) (fields : HeaderSection) (body : Bytes) :
    Except Exception Request := do
  let request ← fields.headers.foldlM
    (fun request header => request.setHeader header.1 header.2)
    (Request.create line.method line.target body)
  -- An ambiguous trace identity is dropped, the request is kept.
  if fields.traceparentCount > 1 then request.setHeader (ascii "traceparent") []
  else return request

def parseRequest (message : Bytes) : Except Exception Request :=
  match find headerTerminator message, find crlf message with
  | none, _ => .error (.invalidArgument "Incomplete HTTP request headers")
  | some _, none => .error (.invalidArgument "Invalid HTTP request line")
  | some headerEnd, some requestLineEnd =>
    if headerEnd < requestLineEnd then .error (.invalidArgument "Invalid HTTP request line")
    else do
      let line ← parseRequestLine (message.take requestLineEnd)
      let fields ← parseHeaderLines ((message.take headerEnd).drop (requestLineEnd + 2))
      if line.version = ascii "HTTP/1.1" ∧ fields.hostSeen = false then
        throw (.invalidArgument "HTTP/1.1 requires exactly one Host header")
      let body ← selectBody fields.contentLength (message.drop (headerEnd + 4))
      buildRequest line fields body

/-! ### What a parsed or refused body says about the message -/

theorem parseRequestLine_ne_incompleteBody (requestLine : Bytes) :
    parseRequestLine requestLine ≠ .error incompleteBody := by
  intro raised
  unfold parseRequestLine at raised
  dsimp only at raised
  repeat' split at raised
  all_goals first | exact absurd (Except.error.inj raised) (by decide) | cases raised

theorem framingHeader_ne_incompleteBody (name value : Bytes) :
    framingHeader contentLength name value ≠ .error incompleteBody := by
  intro raised
  unfold framingHeader at raised
  repeat' split at raised
  all_goals first | exact absurd (Except.error.inj raised) (by decide) | cases raised

theorem parseHeaderLine_ne_incompleteBody (fields : HeaderSection) (line : Bytes) :
    parseHeaderLine fields line ≠ .error incompleteBody := by
  intro raised
  unfold parseHeaderLine at raised
  dsimp only at raised
  split at raised
  · exact absurd (Except.error.inj raised) (by decide)
  · split at raised
    · exact absurd (Except.error.inj raised) (by decide)
    · split at raised
      · exact absurd (Except.error.inj raised) (by decide)
      · split at raised
        · rename_i framing
          rw [Except.error.inj raised] at framing
          exact framingHeader_ne_incompleteBody _ _ _ framing
        · cases raised

theorem Request.setHeader_ne_incompleteBody (request : Request) (name value : Bytes) :
    request.setHeader name value ≠ .error incompleteBody := by
  intro raised
  unfold Request.setHeader at raised
  split at raised
  · cases raised
  · exact absurd (Except.error.inj raised) (by decide)

theorem buildRequest_ne_incompleteBody (line : RequestLine) (fields : HeaderSection) (body : Bytes) :
    buildRequest line fields body ≠ .error incompleteBody := by
  intro raised
  rcases bind_eq_error.mp raised with inLoop | ⟨request, _, afterwards⟩
  · obtain ⟨request, header, _, here⟩ := foldlM_raised inLoop
    exact Request.setHeader_ne_incompleteBody _ _ _ here
  · split at afterwards
    · exact Request.setHeader_ne_incompleteBody _ _ _ afterwards
    · cases afterwards

theorem buildRequest_body {line : RequestLine} {fields : HeaderSection} {body : Bytes}
    {request : Request} (built : buildRequest line fields body = .ok request) :
    request.body = body := by
  obtain ⟨assigned, stored, finished⟩ := bind_eq_ok.mp built
  have kept : assigned.body = body := by
    apply foldlM_invariant (fun current => current.body = body) _ stored
    · exact Request.create_body _ _ _
    · intro before header after assignedHeader same
      rw [Request.setHeader_body assignedHeader, same]
  split at finished
  · rw [Request.setHeader_body finished, kept]
  · cases finished
    exact kept

/-- Where `parse_request` gets to the body: the terminator, the end of the request
line and the headers it has read by then. -/
structure ReachesBody (message : Bytes) (headerEnd : Nat) (fields : HeaderSection) : Prop where
  terminator : find headerTerminator message = some headerEnd
  headerLines : ∃ requestLineEnd, find crlf message = some requestLineEnd ∧
    parseHeaderLines ((message.take headerEnd).drop (requestLineEnd + 2)) = .ok fields

theorem parseRequest_ok {message : Bytes} {request : Request}
    (parsed : parseRequest message = .ok request) :
    ∃ headerEnd fields, ReachesBody message headerEnd fields ∧
      selectBody fields.contentLength (message.drop (headerEnd + 4)) = .ok request.body := by
  unfold parseRequest at parsed
  split at parsed
  · cases parsed
  · cases parsed
  · rename_i headerEnd requestLineEnd terminator lineEnd
    split at parsed
    · cases parsed
    · obtain ⟨line, _, afterLine⟩ := bind_eq_ok.mp parsed
      obtain ⟨fields, headerLines, afterFields⟩ := bind_eq_ok.mp afterLine
      split at afterFields
      · cases afterFields
      · obtain ⟨body, selected, built⟩ := bind_eq_ok.mp afterFields
        rw [← buildRequest_body built] at selected
        exact ⟨headerEnd, fields, ⟨terminator, requestLineEnd, lineEnd, headerLines⟩, selected⟩

theorem parseRequest_incompleteBody {message : Bytes}
    (raised : parseRequest message = .error incompleteBody) :
    ∃ headerEnd fields, ReachesBody message headerEnd fields ∧
      selectBody fields.contentLength (message.drop (headerEnd + 4)) = .error incompleteBody := by
  unfold parseRequest at raised
  split at raised
  · exact absurd (Except.error.inj raised) (by decide)
  · exact absurd (Except.error.inj raised) (by decide)
  · rename_i headerEnd requestLineEnd terminator lineEnd
    split at raised
    · exact absurd (Except.error.inj raised) (by decide)
    · rcases bind_eq_error.mp raised with inLine | ⟨line, _, afterLine⟩
      · exact absurd inLine (parseRequestLine_ne_incompleteBody _)
      rcases bind_eq_error.mp afterLine with inFields | ⟨fields, headerLines, afterFields⟩
      · obtain ⟨_, _, _, here⟩ := foldlM_raised inFields
        exact absurd here (parseHeaderLine_ne_incompleteBody _ _)
      split at afterFields
      · rcases bind_eq_error.mp afterFields with here | ⟨_, thrown, _⟩
        · exact absurd (Except.error.inj here) (by decide)
        · cases thrown
      · rcases bind_eq_error.mp afterFields with inBody | ⟨body, _, inRequest⟩
        · exact ⟨headerEnd, fields, ⟨terminator, requestLineEnd, lineEnd, headerLines⟩, inBody⟩
        · exact absurd inRequest (buildRequest_ne_incompleteBody _ _ _)

end Gungnir.Http
