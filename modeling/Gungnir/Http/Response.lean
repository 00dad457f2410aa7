import Gungnir.Http.Request

/-!
# HTTP responses

The response object and its serializers in `message.cpp` and `cookie.cpp`. The
header list of a response is the iteration order of its header map.
-/

namespace Gungnir.Http

open Gungnir.Core
open Gungnir.Library (pieces bind_eq_ok)

/-! ## Cookies -/

inductive SameSite where
  | lax
  | strict
  | none
  deriving DecidableEq, Repr

structure Cookie where
  name : Bytes
  value : Bytes
  path : Bytes
  domain : Option Bytes
  maxAge : Option Int
  secure : Bool
  httpOnly : Bool
  sameSite : SameSite
  deriving DecidableEq, Repr

def alphanumeric (byte : UInt8) : Bool :=
  (97 ≤ byte.toNat && byte.toNat ≤ 122) || (65 ≤ byte.toNat && byte.toNat ≤ 90) ||
    (48 ≤ byte.toNat && byte.toNat ≤ 57)

def cookieToken (byte : UInt8) : Bool := alphanumeric byte || byte ∈ ascii "!#$%&'*+-.^_`|~"

def cookieAttribute (value : Bytes) : Bool :=
  value.all fun byte => 0x20 ≤ byte.toNat && byte.toNat < 0x7f && byte ≠ 59

def cookieLabel (label : Bytes) : Bool :=
  label ≠ [] && label.length ≤ 63 && label.head? ≠ some 45 && label.getLast? ≠ some 45 &&
    label.all fun byte => alphanumeric byte || byte = 45

def cookieDomain (value : Bytes) : Bool :=
  let host := if value.head? = some 46 then value.drop 1 else value
  -- The loop refuses a dot that ends the name, where no further piece is found.
  host ≠ [] && host.length ≤ 253 && (pieces (ascii ".") host).all cookieLabel &&
    host.getLast? ≠ some 46

def cookieValue (value : Bytes) : Bool :=
  let inner :=
    if 2 ≤ value.length ∧ value.head? = some 34 ∧ value.getLast? = some 34 then
      (value.drop 1).dropLast
    else value
  inner.all fun byte =>
    byte.toNat = 0x21 || (0x23 ≤ byte.toNat && byte.toNat ≤ 0x2b) ||
      (0x2d ≤ byte.toNat && byte.toNat ≤ 0x3a) || (0x3c ≤ byte.toNat && byte.toNat ≤ 0x5b) ||
      (0x5d ≤ byte.toNat && byte.toNat ≤ 0x7e)

def cookieAccepted (cookie : Cookie) : Bool :=
  let securePrefixed := (ascii "__Secure-").isPrefixOf cookie.name
  let hostPrefixed := (ascii "__Host-").isPrefixOf cookie.name
  cookie.name ≠ [] && cookie.name.all cookieToken && cookieValue cookie.value &&
    cookieAttribute cookie.path && cookie.domain.all cookieDomain &&
    (cookie.sameSite ≠ .none || cookie.secure) && (!securePrefixed || cookie.secure) &&
    (!hostPrefixed || (cookie.secure && cookie.domain.isNone && cookie.path = ascii "/"))

def sameSiteName : SameSite → Bytes
  | .strict => ascii "Strict"
  | .none => ascii "None"
  | .lax => ascii "Lax"

def serializeCookie (cookie : Cookie) : Except Exception Bytes :=
  if cookieAccepted cookie then
    .ok (cookie.name ++ ascii "=" ++ cookie.value ++
      (if cookie.path = [] then [] else ascii "; Path=" ++ cookie.path) ++
      (cookie.domain.elim [] fun domain => ascii "; Domain=" ++ domain) ++
      (cookie.maxAge.elim [] fun seconds => ascii "; Max-Age=" ++ stdToStringSigned seconds) ++
      (if cookie.secure then ascii "; Secure" else []) ++
      (if cookie.httpOnly then ascii "; HttpOnly" else []) ++
      ascii "; SameSite=" ++ sameSiteName cookie.sameSite)
  else .error (.invalidArgument "Invalid HTTP cookie")

/-! ## Responses -/

structure Response where
  status : Int
  body : Bytes
  headers : List (Bytes × Bytes)
  cookies : List Cookie
  deriving DecidableEq, Repr

/-- `Response::text`; both literals pass the checks of `Response::header`. -/
def Response.text (body : Bytes) (status : Int) : Response :=
  ⟨status, body, [(ascii "content-type", ascii "text/plain; charset=utf-8")], []⟩

def errorResponse (status : Int) (body : Bytes) : Response := Response.text body status

def overloadResponse : Response :=
  { Response.text (ascii "Service Unavailable") 503 with
    headers :=
      [(ascii "content-type", ascii "text/plain; charset=utf-8"), (ascii "retry-after", ascii "1")] }

inductive ConnectionDirective where
  | keepAlive
  | close
  deriving DecidableEq, Repr

def reasonPhrase : Int → Bytes
  | 200 => ascii "OK"
  | 201 => ascii "Created"
  | 202 => ascii "Accepted"
  | 204 => ascii "No Content"
  | 301 => ascii "Moved Permanently"
  | 302 => ascii "Found"
  | 303 => ascii "See Other"
  | 307 => ascii "Temporary Redirect"
  | 308 => ascii "Permanent Redirect"
  | 400 => ascii "Bad Request"
  | 401 => ascii "Unauthorized"
  | 403 => ascii "Forbidden"
  | 404 => ascii "Not Found"
  | 405 => ascii "Method Not Allowed"
  | 409 => ascii "Conflict"
  | 413 => ascii "Payload Too Large"
  | 415 => ascii "Unsupported Media Type"
  | 422 => ascii "Unprocessable Content"
  | 429 => ascii "Too Many Requests"
  | 431 => ascii "Request Header Fields Too Large"
  | 500 => ascii "Internal Server Error"
  | 501 => ascii "Not Implemented"
  | 502 => ascii "Bad Gateway"
  | 503 => ascii "Service Unavailable"
  | _ => ascii "Unknown"

def validateHeader (name value : Bytes) : Except Exception Unit :=
  if validHeaderName name && validHeaderValue value then .ok ()
  else .error (.invalidArgument "Invalid HTTP header")

/-- The headers that the serializers write themselves. -/
def framingName (name : Bytes) : Bool :=
  name = ascii "content-length" || name = ascii "connection" || name = ascii "transfer-encoding"

def appendHeader (output : Bytes) (header : Bytes × Bytes) : Except Exception Bytes :=
  if framingName header.1 then .ok output
  else do
    validateHeader header.1 header.2
    return output ++ header.1 ++ ascii ": " ++ header.2 ++ crlf

def appendCookie (output : Bytes) (cookie : Cookie) : Except Exception Bytes := do
  let text ← serializeCookie cookie
  return output ++ ascii "set-cookie: " ++ text ++ crlf

/-- The status line, headers and cookies, which both serializers write alike. -/
def serializeHead (response : Response) : Except Exception Bytes := do
  let statusLine := ascii "HTTP/1.1 " ++ stdToStringSigned response.status ++ ascii " " ++
    reasonPhrase response.status ++ crlf
  let withHeaders ← response.headers.foldlM appendHeader statusLine
  response.cookies.foldlM appendCookie withHeaders

def connectionLine : ConnectionDirective → Bytes
  | .keepAlive => ascii "connection: keep-alive" ++ crlf
  | .close => ascii "connection: close" ++ crlf

def serializeResponse (response : Response) (omitBody : Bool) (connection : ConnectionDirective) :
    Except Exception Bytes := do
  let head ← serializeHead response
  return head ++ (ascii "content-length: " ++ stdToString response.body.length ++ crlf ++
    connectionLine connection ++ crlf ++ if omitBody then [] else response.body)

def serializeStreamHeaders (response : Response) (omitBody : Bool)
    (connection : ConnectionDirective) : Except Exception Bytes := do
  let head ← serializeHead response
  return head ++ ((if omitBody then [] else ascii "transfer-encoding: chunked" ++ crlf) ++
    connectionLine connection ++ crlf)

def serializeChunk (chunk : Bytes) : Bytes :=
  if chunk = [] then [] else stdHex chunk.length ++ crlf ++ chunk ++ crlf

def serializeChunkEnd : Bytes := ascii "0" ++ crlf ++ crlf

variable {connection : ConnectionDirective} {response : Response} {omitBody : Bool}

theorem serializeResponse_ne_nil {output : Bytes}
    (written : serializeResponse response omitBody connection = .ok output) : output ≠ [] := by
  obtain ⟨head, _, finished⟩ := bind_eq_ok.mp written
  cases finished
  intro empty
  have tail := (List.append_eq_nil_iff.mp empty).2
  exact absurd (congrArg List.length tail) (by simp [ascii])

theorem serializeStreamHeaders_ne_nil {output : Bytes}
    (written : serializeStreamHeaders response omitBody connection = .ok output) : output ≠ [] := by
  obtain ⟨head, _, finished⟩ := bind_eq_ok.mp written
  cases finished
  intro empty
  have tail := (List.append_eq_nil_iff.mp empty).2
  exact absurd (congrArg List.length tail) (by simp [crlf])

theorem serializeChunk_ne_nil {chunk : Bytes} (nonempty : chunk ≠ []) : serializeChunk chunk ≠ [] := by
  rw [serializeChunk, if_neg nonempty]
  exact List.append_ne_nil_of_right_ne_nil _ (List.cons_ne_nil _ _)

end Gungnir.Http
