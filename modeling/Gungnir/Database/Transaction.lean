import Gungnir.Database.Connection
import Gungnir.Library.Deferred

/-!
# Transactions on one connection

The objects that are alive are listed with the newest first, and told apart by the ids of
their scopes. When the outermost scope has been committed, its callbacks run one after
the other, and whatever they do to the connection happens in between: a commit that runs
its callbacks is a loop, and loops may be nested.
-/

namespace Gungnir.Database

open Gungnir.Orm Gungnir.Library

structure Transaction where
  token : TransactionToken
  active : Bool
  deriving DecidableEq

/-- A commit that runs the callbacks of its scope. -/
structure Loop where
  scopeId : Nat
  callbacks : List Callback
  failed : Bool

structure Session where
  connection : Connection
  transactions : List Transaction
  loops : List Loop
  /-- How many callbacks have been registered. -/
  registered : Nat
  log : List Deferred.Event

def Session.initial (backend : Backend) (supportsSavepoints : Bool) : Session :=
  ⟨.initial backend supportsSavepoints, [], [], 0, []⟩

inductive Action where
  /-- A new object. -/
  | begin (driver : Driver)
  | commit (index : Nat) (driver : Driver)
  | rollback (index : Nat) (driver : Driver)
  /-- The end of an object's life. -/
  | destroy (index : Nat) (driver : Driver)
  | afterCommit (empty : Bool)
  /-- The innermost loop calls its next callback, which may throw in the end. -/
  | next (throws : Bool)
  /-- The innermost loop has called all its callbacks. -/
  | finish

namespace Session

def deactivate (scopeId : Nat) (transactions : List Transaction) : List Transaction :=
  transactions.map fun transaction =>
    if transaction.token.scopeId = scopeId then { transaction with active := false } else transaction

variable (session : Session)

/-- The constructor of a transaction. -/
def beginTransaction (driver : Driver) : Session :=
  match session.connection.beginScope driver with
  | (.error _, connection) => { session with connection := connection }
  | (.ok token, connection) =>
    { session with
      connection := connection
      transactions := ⟨token, true⟩ :: session.transactions }

/-- `Transaction::commit`. The object of an outermost scope stays active until its loop
has ended. -/
def commit (transaction : Transaction) (driver : Driver) : Session :=
  if transaction.active = false then session
  else
    match session.connection.commitScope driver transaction.token with
    | (.ok callbacks, connection) =>
      let session := { session with
        connection := connection
        log := session.log ++ [Deferred.Event.committed transaction.token.scopeId callbacks] }
      if transaction.token.root then
        { session with
          loops := ⟨transaction.token.scopeId, callbacks, false⟩ :: session.loops }
      else
        { session with
          transactions := deactivate transaction.token.scopeId session.transactions }
    | (.error _, connection) =>
      if connection.inTransaction then { session with connection := connection }
      else
        { session with
          connection := connection
          transactions := deactivate transaction.token.scopeId session.transactions }

def rollback (transaction : Transaction) (driver : Driver) : Session :=
  if transaction.active = false then session
  else
    match session.connection.rollbackScope driver transaction.token with
    | (.ok (), connection) =>
      { session with
        connection := connection
        transactions := deactivate transaction.token.scopeId session.transactions
        log := session.log ++ [.rolledBack transaction.token.scopeId] }
    | (.error _, connection) => { session with connection := connection }

/-- `Transaction::~Transaction`, which swallows the exception of its rollback. -/
def destroy (index : Nat) (transaction : Transaction) (driver : Driver) : Session :=
  let session := session.rollback transaction driver
  { session with transactions := session.transactions.eraseIdx index }

def afterCommit (empty : Bool) : Session :=
  match session.connection.afterCommit (if empty then none else some session.registered) with
  | (.error _, _) => session
  | (.ok now, connection) =>
    { session with
      connection := connection
      registered := session.registered + 1
      log := session.log ++ .registered session.registered connection.transactionScopeIds ::
        now.map .ran }

/-- The next callback of the innermost loop. -/
def next (throws : Bool) : Session :=
  match session.loops with
  | ⟨scopeId, callback :: callbacks, failed⟩ :: loops =>
    { session with
      loops := ⟨scopeId, callbacks, failed || throws⟩ :: loops
      log := session.log ++ [.ran callback] }
  | _ => session

/-- The end of `Transaction::commit` for an outermost scope. If a callback has thrown, the
object stays active as long as the connection is in a transaction. -/
def finish : Session :=
  match session.loops with
  | ⟨scopeId, [], failed⟩ :: loops =>
    if failed && session.connection.inTransaction then { session with loops := loops }
    else
      { session with
        loops := loops
        transactions := deactivate scopeId session.transactions }
  | _ => session

def step : Action → Session
  | .begin driver => session.beginTransaction driver
  | .commit index driver =>
    match session.transactions[index]? with
    | some transaction => session.commit transaction driver
    | none => session
  | .rollback index driver =>
    match session.transactions[index]? with
    | some transaction => session.rollback transaction driver
    | none => session
  | .destroy index driver =>
    match session.transactions[index]? with
    | some transaction => session.destroy index transaction driver
    | none => session
  | .afterCommit empty => session.afterCommit empty
  | .next throws => session.next throws
  | .finish => session.finish

/-- `Transaction::run` on the object with an index: the body, then a commit with what its
callbacks do, and a rollback if one of the two throws. -/
def runActions (index : Nat) (body callbacks : List Action) (bodyThrows commitThrows : Bool)
    (commitDriver rollbackDriver : Driver) : List Action :=
  if bodyThrows then body ++ [.rollback index rollbackDriver]
  else body ++ .commit index commitDriver :: (callbacks ++
    if commitThrows then [.rollback index rollbackDriver] else [])

end Session

end Gungnir.Database
