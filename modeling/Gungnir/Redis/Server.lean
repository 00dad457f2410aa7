import Gungnir.Core.Text
import Gungnir.Library.Expiring

/-!
# A Redis server with string keys

The commands that the string stores send, and the replies that `hiredis` hands back. Times
are in nanoseconds. A key whose time has come is not there for any command.
-/

namespace Gungnir.Redis

open Gungnir.Core Gungnir.Library

inductive Reply where
  | nil
  | status (text : Bytes)
  | string (text : Bytes)
  | integer (value : Int)
  | array (elements : List Reply)
  | error (text : Bytes)

/-- `reply_text`: the other replies have no text. -/
def Reply.text : Reply → Bytes
  | status text | string text | error text => text
  | nil | integer _ | array _ => []

abbrev Server := Expiring.Entries Bytes Int Bytes

/-- The expiry options of `SET`. -/
inductive Expiry where
  | never
  | ex (seconds : Int)
  | pxat (milliseconds : Int)
  deriving DecidableEq, Repr

namespace Expiry

def valid : Expiry → Bool
  | never => true
  | ex seconds => 0 < seconds
  | pxat milliseconds => 0 < milliseconds

def expiresAt (now : Int) : Expiry → Option Int
  | never => none
  | ex seconds => some (now + seconds * 1000000000)
  | pxat milliseconds => some (milliseconds * 1000000)

end Expiry

inductive Command where
  | get (key : Bytes)
  | getDel (key : Bytes)
  | set (key value : Bytes) (expiry : Expiry)
  | del (keys : List Bytes)
  | flushDb

namespace Server

def present (now : Int) (server : Server) (key : Bytes) : Bool :=
  (Expiring.seen now server key).isSome

def read (now : Int) (server : Server) (key : Bytes) : Reply :=
  match Expiring.seen now server key with
  | some entry => .string entry.value
  | none => .nil

def erase (server : Server) (key : Bytes) : Server := AList.erase key server

def eraseAll (server : Server) (keys : List Bytes) : Server := keys.foldl erase server

/-- How many keys `DEL` finds. -/
def count (now : Int) (server : Server) : List Bytes → Nat
  | [] => 0
  | key :: rest => (if server.present now key then 1 else 0) + count now (server.erase key) rest

def execute (now : Int) (server : Server) : Command → Reply × Server
  | .get key => (server.read now key, server)
  | .getDel key => (server.read now key, server.erase key)
  | .set key value expiry =>
    if expiry.valid then
      (.status (ascii "OK"), AList.insert key ⟨value, expiry.expiresAt now⟩ server)
    else (.error (ascii "ERR invalid expire time in 'set' command"), server)
  | .del keys => (.integer (server.count now keys), server.eraseAll keys)
  | .flushDb => (.status (ascii "OK"), ∅)

theorem seen_eraseAll (now : Int) (server : Server) (keys : List Bytes) (key : Bytes) :
    Expiring.seen now (server.eraseAll keys) key =
      if key ∈ keys then none else Expiring.seen now server key := by
  induction keys generalizing server with
  | nil => rfl
  | cons first rest ih =>
    show Expiring.seen now ((server.erase first).eraseAll rest) key = _
    rw [ih, erase, Expiring.seen_erase]
    by_cases later : key ∈ rest
    · rw [if_pos later, if_pos (List.mem_cons_of_mem _ later)]
    · rw [if_neg later]
      simp only [List.mem_cons, later, or_false]

theorem count_single (now : Int) (server : Server) (key : Bytes) :
    server.count now [key] = if server.present now key then 1 else 0 := rfl

end Server

/-! ## The client -/

/-- A conversation with the server. -/
abbrev Talk := ExceptT Exception (StateM Server)

def command (now : Int) (request : Command) : Talk Reply := do
  let (reply, server) := Server.execute now (← get) request
  set server
  match reply with
  | .error text => throw ⟨.runtimeError, ascii "Redis command failed: " ++ text⟩
  | other => return other

theorem command_eq (now : Int) (server : Server) (request : Command) :
    (command now request).run.run server =
      ((match (Server.execute now server request).1 with
        | .error text => throw ⟨.runtimeError, ascii "Redis command failed: " ++ text⟩
        | other => pure other) : Talk Reply).run.run (Server.execute now server request).2 := rfl

variable {now : Int} {server after : Server} {request : Command}

theorem command_run {reply : Reply} (executes : Server.execute now server request = (reply, after))
    (accepted : ∀ text, reply ≠ .error text) :
    (command now request).run.run server = (.ok reply, after) := by
  rw [command_eq, executes]
  cases reply with
  | error text => exact absurd rfl (accepted text)
  | _ => rfl

theorem command_run_error {text : Bytes}
    (executes : Server.execute now server request = (.error text, after)) :
    (command now request).run.run server =
      (.error ⟨.runtimeError, ascii "Redis command failed: " ++ text⟩, after) := by
  rw [command_eq, executes]
  rfl

end Gungnir.Redis
