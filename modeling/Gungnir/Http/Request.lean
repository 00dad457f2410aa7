import Gungnir.Core.Text
import Gungnir.Library.Search
import Gungnir.Library.SortedSet
import Gungnir.Library.Fallible
import Mathlib.Data.List.DropRight

/-!
# HTTP requests

The request object of `request.cpp` and the header checks of `security.cpp`. The
cancellation token, the client address and the lazily parsed body and cookies are
not read by the connection code and are left out.
-/

namespace Gungnir.Http

open Gungnir.Core
open Gungnir.Library (Hash find pieces)

inductive Method where
  | get
  | post
  | put
  | patch
  | delete
  | options
  | head
  deriving DecidableEq, Repr

def crlf : Bytes := [13, 10]

/-- The blank line after the last header. -/
def headerTerminator : Bytes := [13, 10, 13, 10]

def blank (byte : UInt8) : Bool := byte = 32 || byte = 9

def trim (value : Bytes) : Bytes := (value.dropWhile blank).rdropWhile blank

def lowercaseByte (byte : UInt8) : UInt8 :=
  if 65 ≤ byte.toNat ∧ byte.toNat ≤ 90 then byte + 32 else byte

def lowercase (value : Bytes) : Bytes := value.map lowercaseByte

/-- `std::tolower` in the "C" locale. -/
def normalizeHeaderName (name : Bytes) : Bytes := lowercase name

def separators : Bytes := ascii "()<>@,;:\\\"/[]?=\x7b\x7d \t"

def validHeaderName (value : Bytes) : Bool :=
  value ≠ [] &&
    value.all fun byte => 0x20 < byte.toNat && byte.toNat < 0x7f && byte ∉ separators

def validHeaderValue (value : Bytes) : Bool :=
  value.all fun byte =>
    byte ≠ 13 && byte ≠ 10 && byte ≠ 0 && byte ≠ 0x7f && (0x20 ≤ byte.toNat || byte = 9)

/-! ## Targets -/

def hexValue (character : UInt8) : Option Nat :=
  if 48 ≤ character.toNat ∧ character.toNat ≤ 57 then some (character.toNat - 48)
  else if 97 ≤ character.toNat ∧ character.toNat ≤ 102 then some (character.toNat - 97 + 10)
  else if 65 ≤ character.toNat ∧ character.toNat ≤ 70 then some (character.toNat - 65 + 10)
  else none

def decodeComponent : Bytes → Bytes
  | [] => []
  | 37 :: high :: low :: rest =>
    match hexValue high, hexValue low with
    | some upper, some lower => UInt8.ofNat (16 * upper + lower) :: decodeComponent rest
    -- A percent sign that starts no escape stands for itself.
    | _, _ => 37 :: decodeComponent (high :: low :: rest)
  | character :: rest => (if character = 43 then 32 else character) :: decodeComponent rest

def assignPair (values : Hash Bytes Bytes) (pair : Bytes) : Hash Bytes Bytes :=
  if pair = [] then values
  else
    match find (ascii "=") pair with
    | none => values.insert (decodeComponent pair) []
    | some equals =>
      values.insert (decodeComponent (pair.take equals)) (decodeComponent (pair.drop (equals + 1)))

def parseUrlencoded (source : Bytes) : Hash Bytes Bytes :=
  (pieces (ascii "&") source).foldl assignPair ∅

structure Request where
  method : Method
  target : Bytes
  path : Bytes
  query : Hash Bytes Bytes
  headers : Hash Bytes Bytes
  body : Bytes

variable (request : Request)

def Request.parseTarget : Request :=
  match find (ascii "?") request.target with
  | none =>
    { request with
      path := if request.target = [] then ascii "/" else request.target
      query := ∅ }
  | some position =>
    let path := request.target.take position
    { request with
      path := if path = [] then ascii "/" else path
      query :=
        if position + 1 < request.target.length then
          parseUrlencoded (request.target.drop (position + 1))
        else ∅ }

/-- The constructor of `Request`. -/
def Request.create (method : Method) (target body : Bytes) : Request :=
  Request.parseTarget ⟨method, target, [], ∅, ∅, body⟩

def Request.setHeader (name value : Bytes) : Except Exception Request :=
  if validHeaderName name && validHeaderValue value then
    .ok { request with headers := request.headers.insert (normalizeHeaderName name) value }
  else .error (.invalidArgument "Invalid HTTP request header")

def Request.header (name : Bytes) : Bytes :=
  (request.headers.lookup (normalizeHeaderName name)).getD []

@[simp]
theorem Request.parseTarget_body : request.parseTarget.body = request.body := by
  unfold Request.parseTarget
  split <;> rfl

@[simp]
theorem Request.create_body (method : Method) (target body : Bytes) :
    (Request.create method target body).body = body :=
  Request.parseTarget_body _

theorem Request.setHeader_body {request changed : Request} {name value : Bytes}
    (stored : request.setHeader name value = .ok changed) : changed.body = request.body := by
  unfold Request.setHeader at stored
  split at stored
  · cases stored
    rfl
  · cases stored

end Gungnir.Http
