import Gungnir.Http.Message

/-!
# Cutting requests off the connection input

The size scanner of `server.cpp` decides how many bytes of the input belong to the
next request before `parse_request` sees them. The two agree on every header
section that both accept, and the scanner's answer does not depend on the bytes
behind the request.
-/

namespace Gungnir.Http

open Gungnir.Core List
open Gungnir.Library (find pieces find_append find_of_append find_take find_le_length
  bind_eq_ok foldlM_related)

structure RuntimeOptions where
  maxRequestBytes : Nat
  maxHeaderBytes : Nat
  maxRequestsPerConnection : Nat
  maxStreamChunkBytes : Nat
  keepAlive : Bool
  deriving DecidableEq, Repr

/-- The checks of `validate_options` on the options that the HTTP/1 connection reads. -/
def validateOptions (options : RuntimeOptions) : Except Exception Unit :=
  if options.maxRequestBytes = 0 then
    .error (.invalidArgument "HTTP max_request_bytes must be greater than zero")
  else if options.maxHeaderBytes = 0 ∨ options.maxHeaderBytes > options.maxRequestBytes then
    .error (.invalidArgument "HTTP max_header_bytes must be between one and max_request_bytes")
  else if options.maxRequestsPerConnection = 0 then
    .error (.invalidArgument "HTTP max_requests_per_connection must be greater than zero")
  else if options.maxStreamChunkBytes = 0 then
    .error (.invalidArgument "HTTP max_stream_chunk_bytes must be greater than zero")
  else .ok ()

/-- The options of a running server, which have passed `validate_options`. -/
structure ServerOptions extends RuntimeOptions where
  accepted : validateOptions toRuntimeOptions = .ok ()

instance : Coe ServerOptions RuntimeOptions := ⟨ServerOptions.toRuntimeOptions⟩

theorem ServerOptions.header_le_request (options : ServerOptions) :
    options.maxHeaderBytes ≤ options.maxRequestBytes := by
  have accepted := options.accepted
  unfold validateOptions at accepted
  split at accepted
  · cases accepted
  · split at accepted
    · cases accepted
    · rename_i inRange
      rw [not_or, not_lt] at inRange
      exact inRange.2

/-! ## The size scanner -/

/-- What `request_size` may throw: `HeaderLimitError`, which the reader catches apart
from the other length errors, or an exception of the standard library. -/
inductive Failure where
  | headerLimit
  | exception (raised : Exception)
  deriving DecidableEq, Repr

def requestTooLarge : Failure := .exception (.lengthError "HTTP request is too large")

def scanHeaderLine (contentLength : Option Nat) (line : Bytes) : Except Exception (Option Nat) :=
  match find (ascii ":") line with
  | none => .error (.invalidArgument "Invalid HTTP header")
  | some colon =>
    let rawName := line.take colon
    let normalized := trim rawName
    if rawName ≠ normalized then .error (.invalidArgument "Invalid HTTP header name")
    else framingHeader contentLength (lowercase normalized) (trim (line.drop (colon + 1)))

def requestContentLength (headers : Bytes) : Except Exception Nat :=
  match find crlf headers with
  | none => .ok 0
  | some requestLineEnd =>
    match (pieces crlf (headers.drop (requestLineEnd + 2))).foldlM scanHeaderLine none with
    | .error raised => .error raised
    | .ok contentLength => .ok (contentLength.getD 0)

def requestSize (options : RuntimeOptions) (buffer : Bytes) : Except Failure (Option Nat) :=
  match find headerTerminator buffer with
  | none =>
    if buffer.length > options.maxHeaderBytes then .error .headerLimit
    else if buffer.length > options.maxRequestBytes then .error requestTooLarge
    else .ok none
  | some headerEnd =>
    let headerSize := headerEnd + 4
    if headerSize > options.maxHeaderBytes then .error .headerLimit
    else
      match requestContentLength (buffer.take headerEnd) with
      | .error raised => .error (.exception raised)
      | .ok bodySize =>
        if headerSize > options.maxRequestBytes ∨
            bodySize > options.maxRequestBytes - headerSize then .error requestTooLarge
        else if buffer.length < headerSize + bodySize then .ok none
        else .ok (some (headerSize + bodySize))

variable {options : RuntimeOptions} {buffer suffix : Bytes} {size : Nat}

/-- The shape of a buffer that starts with a complete request of the given size. -/
structure Framed (options : RuntimeOptions) (buffer : Bytes) (headerEnd bodySize : Nat) : Prop where
  terminator : find headerTerminator buffer = some headerEnd
  headerFits : headerEnd + 4 ≤ options.maxHeaderBytes
  scanned : requestContentLength (buffer.take headerEnd) = .ok bodySize
  requestFits : headerEnd + 4 + bodySize ≤ options.maxRequestBytes
  complete : headerEnd + 4 + bodySize ≤ buffer.length

theorem requestSize_eq_some :
    requestSize options buffer = .ok (some size) ↔
      ∃ headerEnd bodySize, Framed options buffer headerEnd bodySize ∧
        size = headerEnd + 4 + bodySize := by
  constructor
  · intro sized
    unfold requestSize at sized
    split at sized
    · split at sized
      · cases sized
      · split at sized <;> cases sized
    · rename_i headerEnd terminator
      dsimp only at sized
      split at sized
      · cases sized
      · split at sized
        · cases sized
        · rename_i bodySize scanned
          split at sized
          · cases sized
          · split at sized
            · cases sized
            · cases sized
              exact ⟨headerEnd, bodySize,
                ⟨terminator, by omega, scanned, by omega, by omega⟩, rfl⟩
  · rintro ⟨headerEnd, bodySize, framed, rfl⟩
    have headerFits := framed.headerFits
    have requestFits := framed.requestFits
    have complete := framed.complete
    simp only [requestSize, framed.terminator, framed.scanned]
    rw [if_neg (by omega), if_neg (by omega), if_neg (by omega)]

variable {headerEnd bodySize : Nat}

theorem Framed.append (framed : Framed options buffer headerEnd bodySize) :
    Framed options (buffer ++ suffix) headerEnd bodySize := by
  have complete := framed.complete
  constructor
  · exact find_append framed.terminator
  · exact framed.headerFits
  · rw [take_append_of_le_length (by omega)]
    exact framed.scanned
  · exact framed.requestFits
  · rw [length_append]
    omega

/-- The bytes behind a complete request do not change its size. -/
theorem requestSize_append (sized : requestSize options buffer = .ok (some size)) :
    requestSize options (buffer ++ suffix) = .ok (some size) := by
  obtain ⟨headerEnd, bodySize, framed, rfl⟩ := requestSize_eq_some.mp sized
  exact requestSize_eq_some.mpr ⟨headerEnd, bodySize, framed.append, rfl⟩

theorem requestSize_le_length (sized : requestSize options buffer = .ok (some size)) :
    size ≤ buffer.length := by
  obtain ⟨headerEnd, bodySize, framed, rfl⟩ := requestSize_eq_some.mp sized
  exact framed.complete

/-- With the header limit below the request limit, a refused buffer stays refused for
the same reason: a missing terminator can only appear behind the limit. -/
theorem requestSize_error_append {failure : Failure}
    (ordered : options.maxHeaderBytes ≤ options.maxRequestBytes)
    (refused : requestSize options buffer = .error failure) :
    requestSize options (buffer ++ suffix) = .error failure := by
  unfold requestSize at refused
  split at refused
  · rename_i absent
    split at refused
    · cases refused
      unfold requestSize
      split
      · rw [if_pos (by rw [length_append]; omega)]
      · rename_i headerEnd found
        have behind : buffer.length < headerEnd + 4 := by
          by_contra inside
          have known := find_of_append found (Nat.le_of_not_lt inside)
          rw [absent] at known
          cases known
        rw [if_pos (by omega)]
    · split at refused
      · omega
      · cases refused
  · rename_i headerEnd terminator
    have headerEnds := find_le_length terminator
    have sameHeaders : (buffer ++ suffix).take headerEnd = buffer.take headerEnd :=
      take_append_of_le_length (Nat.le_trans (Nat.le_add_right _ _) headerEnds)
    simp only [requestSize, find_append terminator, sameHeaders]
    dsimp only at refused
    split at refused
    · rename_i tooLong
      rw [if_pos tooLong]
      exact refused
    · rename_i headerFits
      rw [if_neg headerFits]
      split at refused
      · exact refused
      · split at refused
        · rename_i tooLarge
          rw [if_pos tooLarge]
          exact refused
        · split at refused <;> cases refused

/-! ## Agreement with the parser -/

variable {line : Bytes}

theorem framing_of_scanHeaderLine {found next : Option Nat}
    (scanned : scanHeaderLine found line = .ok next) :
    ∃ colon, find (ascii ":") line = some colon ∧
      framingHeader found (lowercase (trim (line.take colon))) (trim (line.drop (colon + 1))) =
        .ok next := by
  unfold scanHeaderLine at scanned
  split at scanned
  · cases scanned
  · rename_i colon located
    dsimp only at scanned
    split at scanned
    · cases scanned
    · exact ⟨colon, located, scanned⟩

variable {fields next : HeaderSection}

theorem framing_of_parseHeaderLine (parsed : parseHeaderLine fields line = .ok next) :
    ∃ colon, find (ascii ":") line = some colon ∧
      framingHeader fields.contentLength (lowercase (trim (line.take colon)))
        (trim (line.drop (colon + 1))) = .ok next.contentLength := by
  unfold parseHeaderLine at parsed
  split at parsed
  · cases parsed
  · rename_i colon located
    dsimp only at parsed
    split at parsed
    · cases parsed
    · split at parsed
      · cases parsed
      · split at parsed
        · cases parsed
        · rename_i framing
          cases parsed
          exact ⟨colon, located, framing⟩

/-- One header line leaves both readers with the same content length. -/
theorem contentLength_step {found later : Option Nat}
    (parsed : parseHeaderLine fields line = .ok next)
    (scanned : scanHeaderLine found line = .ok later) (same : fields.contentLength = found) :
    next.contentLength = later := by
  obtain ⟨colon, located, framing⟩ := framing_of_parseHeaderLine parsed
  obtain ⟨other, sameColon, scan⟩ := framing_of_scanHeaderLine scanned
  cases located.symm.trans sameColon
  rw [same] at framing
  exact Except.ok.inj (framing.symm.trans scan)

/-- The scanner and the parser read the same content length from a header section
that both accept. -/
theorem contentLength_agrees {message : Bytes}
    (scanned : requestContentLength (message.take headerEnd) = .ok bodySize)
    (reached : ReachesBody message headerEnd fields) : fields.contentLength.getD 0 = bodySize := by
  obtain ⟨requestLineEnd, lineEnd, headerLines⟩ := reached.headerLines
  unfold requestContentLength at scanned
  split at scanned
  · rename_i absent
    cases scanned
    -- The request line ends at the terminator, so there is no header line.
    have headerless : (message.take headerEnd).drop (requestLineEnd + 2) = [] := by
      apply drop_eq_nil_of_le
      rw [length_take]
      by_contra inside
      have known : find crlf (message.take headerEnd) = some requestLineEnd :=
        find_take lineEnd (show requestLineEnd + 2 ≤ headerEnd by omega)
      rw [absent] at known
      cases known
    rw [headerless, parseHeaderLines] at headerLines
    cases headerLines
    rfl
  · rename_i scannedEnd located
    have sameEnd : find crlf message = some scannedEnd := by
      rw [← take_append_drop headerEnd message]
      exact find_append located
    cases lineEnd.symm.trans sameEnd
    split at scanned
    · cases scanned
    · rename_i contentLength loop
      cases scanned
      have agree := foldlM_related (fun fields found => fields.contentLength = found)
        contentLength_step headerLines loop rfl
      rw [agree]

theorem selectBody_exact {contentLength : Option Nat} {body : Bytes}
    (exactly : contentLength.getD 0 = body.length) : selectBody contentLength body = .ok body := by
  cases contentLength with
  | none =>
    rw [eq_nil_of_length_eq_zero exactly.symm]
    rfl
  | some length =>
    rw [Option.getD_some] at exactly
    rw [selectBody, exactly, if_neg (Nat.lt_irrefl _), take_length]

section

variable (framed : Framed options buffer headerEnd bodySize)
include framed

/-- On the bytes of one framed request the parser reaches the body with exactly the
bytes behind the terminator left. -/
theorem Framed.selects {position : Nat}
    (reached : ReachesBody (buffer.take (headerEnd + 4 + bodySize)) position fields) :
    position = headerEnd ∧
      selectBody fields.contentLength
          ((buffer.take (headerEnd + 4 + bodySize)).drop (position + 4)) =
        .ok ((buffer.take (headerEnd + 4 + bodySize)).drop (headerEnd + 4)) := by
  have cut : find headerTerminator (buffer.take (headerEnd + 4 + bodySize)) = some headerEnd := by
    apply find_take framed.terminator
    exact Nat.le_add_right (headerEnd + 4) bodySize
  cases reached.terminator.symm.trans cut
  have scanned : requestContentLength ((buffer.take (headerEnd + 4 + bodySize)).take headerEnd) =
      .ok bodySize := by
    rw [take_take, Nat.min_eq_left (by omega)]
    exact framed.scanned
  have complete := framed.complete
  refine ⟨rfl, selectBody_exact ?_⟩
  rw [contentLength_agrees scanned reached, length_drop, length_take]
  omega

theorem parseRequest_framed_body {request : Request}
    (parsed : parseRequest (buffer.take (headerEnd + 4 + bodySize)) = .ok request) :
    request.body = (buffer.take (headerEnd + 4 + bodySize)).drop (headerEnd + 4) := by
  obtain ⟨position, fields, reached, selected⟩ := parseRequest_ok parsed
  obtain ⟨rfl, exactly⟩ := framed.selects reached
  exact Except.ok.inj (selected.symm.trans exactly)

theorem parseRequest_framed_complete :
    parseRequest (buffer.take (headerEnd + 4 + bodySize)) ≠ .error incompleteBody := by
  intro raised
  obtain ⟨position, fields, reached, selected⟩ := parseRequest_incompleteBody raised
  obtain ⟨rfl, exactly⟩ := framed.selects reached
  cases selected.symm.trans exactly

end

end Gungnir.Http
