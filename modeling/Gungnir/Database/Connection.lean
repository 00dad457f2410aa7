import Gungnir.Orm.Plan

/-!
# Transaction scopes of a connection

A connection keeps a stack of open scopes. The outermost one is a transaction of the
driver, the others are savepoints. Each scope has an id and the callbacks that were
registered in it. The vectors of the source are lists here, their back is the head.

What the driver does is a parameter: for every call it succeeds or throws.
-/

namespace Gungnir.Database

open Gungnir.Core Gungnir.Orm

inductive DriverCall where
  | begin
  | commit
  | rollback
  | execute (statement : Bytes)
  deriving DecidableEq

/-- What a driver answers to its calls. -/
abbrev Driver := DriverCall → Except Exception Unit

/-- A callback is the number of its registration. -/
abbrev Callback := Nat

structure TransactionToken where
  root : Bool
  savepoint : Bytes
  depth : Nat
  scopeId : Nat
  deriving DecidableEq

structure Connection where
  backend : Backend
  supportsSavepoints : Bool
  commitCallbacks : List (List Callback)
  transactionDepth : Nat
  transactionScopeIds : List Nat
  transactionScopeSequence : Nat
  savepointSequence : Nat
  callbacks_length : commitCallbacks.length = transactionDepth
  ids_length : transactionScopeIds.length = transactionDepth

namespace Connection

def initial (backend : Backend) (supportsSavepoints : Bool) : Connection :=
  ⟨backend, supportsSavepoints, [], 0, [], 0, 0, rfl, rfl⟩

variable (connection : Connection)

def inTransaction : Bool := connection.transactionDepth ≠ 0

/-- One more scope, with a new id. -/
def pushScope : Connection :=
  { connection with
    transactionDepth := connection.transactionDepth + 1
    commitCallbacks := [] :: connection.commitCallbacks
    transactionScopeSequence := connection.transactionScopeSequence + 1
    transactionScopeIds :=
      (connection.transactionScopeSequence + 1) :: connection.transactionScopeIds
    callbacks_length := congrArg (· + 1) connection.callbacks_length
    ids_length := congrArg (· + 1) connection.ids_length }

/-- No scope is left. -/
def clearScopes : Connection :=
  { connection with
    transactionDepth := 0
    transactionScopeIds := []
    commitCallbacks := []
    callbacks_length := rfl
    ids_length := rfl }

/-- The innermost scope is gone with its callbacks. -/
def popScope : Connection :=
  { connection with
    transactionDepth := connection.transactionDepth - 1
    transactionScopeIds := connection.transactionScopeIds.tail
    commitCallbacks := connection.commitCallbacks.tail
    callbacks_length := by rw [List.length_tail, connection.callbacks_length]
    ids_length := by rw [List.length_tail, connection.ids_length] }

/-- The last callbacks are appended to those before them. -/
def mergeBack : List (List Callback) → List (List Callback)
  | callbacks :: outer :: rest => (outer ++ callbacks) :: rest
  | others => others.tail

theorem length_mergeBack (levels : List (List Callback)) :
    (mergeBack levels).length = levels.length - 1 := by
  match levels with
  | [] => rfl
  | [_] => rfl
  | _ :: _ :: _ => rfl

/-- The innermost scope is gone, its callbacks are those of the scope around it. -/
def mergeScope : Connection :=
  { connection with
    transactionDepth := connection.transactionDepth - 1
    transactionScopeIds := connection.transactionScopeIds.tail
    commitCallbacks := mergeBack connection.commitCallbacks
    callbacks_length := by rw [length_mergeBack, connection.callbacks_length]
    ids_length := by rw [List.length_tail, connection.ids_length] }

def nextSavepointName : Bytes × Connection :=
  let sequence := connection.savepointSequence + 1
  (ascii "gungnir_sp_" ++ Library.Decimal.print sequence,
    { connection with savepointSequence := sequence })

def savepointStatement (backend : Backend) (savepoint : Bytes) : Bytes :=
  if backend = .mssql then ascii "SAVE TRANSACTION " ++ savepoint
  else ascii "SAVEPOINT " ++ savepoint

variable (driver : Driver) (connection : Connection)

def beginScope : Except Exception TransactionToken × Connection :=
  if connection.transactionDepth = 0 then
    match driver .begin with
    | .error raised => (.error raised, connection)
    | .ok () => (.ok ⟨true, [], 1, connection.transactionScopeSequence + 1⟩, connection.pushScope)
  else if connection.supportsSavepoints = false then
    (.error (.logicError "Nested database transactions require savepoint support"), connection)
  else
    let (savepoint, connection) := connection.nextSavepointName
    if connection.backend = .mongodb then
      (.error (.logicError
        "MongoDB nested transactions use session semantics rather than SQL savepoints"), connection)
    else
      match driver (.execute (savepointStatement connection.backend savepoint)) with
      | .error raised => (.error raised, connection)
      | .ok () =>
        (.ok ⟨false, savepoint, connection.transactionDepth + 1,
          connection.transactionScopeSequence + 1⟩, connection.pushScope)

variable (token : TransactionToken)

def validateScopeToken : Except Exception Unit :=
  if connection.transactionDepth = 0 ∨ connection.transactionScopeIds = [] then
    .error (.logicError "Database transaction scope is no longer active")
  else if token.depth ≠ connection.transactionDepth ∨ token.scopeId = 0 ∨
      connection.transactionScopeIds.head? ≠ some token.scopeId ∨
      token.root ≠ decide (connection.transactionDepth = 1) then
    .error (.logicError "Database transaction scopes must be completed in LIFO order")
  else if token.root = false ∧ token.savepoint = [] then
    .error (.logicError "Nested database transaction scope is missing its savepoint")
  else .ok ()

/-- What the driver is asked before a nested scope is committed. -/
def releaseSavepoint (backend : Backend) (savepoint : Bytes) : Except Exception Unit :=
  if backend = .postgresql ∨ backend = .mysql ∨ backend = .sqlite then
    driver (.execute (ascii "RELEASE SAVEPOINT " ++ savepoint))
  else .ok ()

/-- The callbacks that are to be run now are returned. -/
def commitScope : Except Exception (List Callback) × Connection :=
  match connection.validateScopeToken token with
  | .error raised => (.error raised, connection)
  | .ok () =>
    if token.root then
      match driver .commit with
      | .error raised => (.error raised, connection)
      | .ok () => (.ok connection.commitCallbacks.reverse.flatten, connection.clearScopes)
    else
      match releaseSavepoint driver connection.backend token.savepoint with
      | .error raised => (.error raised, connection)
      | .ok () => (.ok [], connection.mergeScope)

/-- What the driver is asked before a nested scope is rolled back. -/
def rollbackSavepoint (backend : Backend) (savepoint : Bytes) : Except Exception Unit :=
  match backend with
  | .mssql => driver (.execute (ascii "ROLLBACK TRANSACTION " ++ savepoint))
  | .mongodb => .ok ()
  | _ => driver (.execute (ascii "ROLLBACK TO SAVEPOINT " ++ savepoint))

def rollbackScope : Except Exception Unit × Connection :=
  match connection.validateScopeToken token with
  | .error raised => (.error raised, connection)
  | .ok () =>
    if token.root then
      match driver .rollback with
      | .error raised => (.error raised, connection)
      | .ok () => (.ok (), connection.clearScopes)
    else
      match rollbackSavepoint driver connection.backend token.savepoint with
      | .error raised => (.error raised, connection)
      | .ok () => (.ok (), connection.popScope)

/-- What the driver answers to the rollback of a scope. -/
def rollbackAnswer (driver : Driver) (connection : Connection) (token : TransactionToken) :
    Except Exception Unit :=
  if token.root then driver .rollback
  else rollbackSavepoint driver connection.backend token.savepoint

/-- A callback in the innermost scope. -/
def pushCallback (callback : Callback) : Connection :=
  { connection with
    commitCallbacks := connection.commitCallbacks.modifyHead (· ++ [callback])
    callbacks_length := by rw [List.length_modifyHead, connection.callbacks_length] }

/-- Outside of transactions a callback is to be run at once. -/
def afterCommit (callback : Option Callback) : Except Exception (List Callback) × Connection :=
  match callback with
  | none => (.error (.invalidArgument "Commit callback cannot be empty"), connection)
  | some callback =>
    if connection.transactionDepth ≠ 0 then (.ok [], connection.pushCallback callback)
    else (.ok [callback], connection)

/-! ## What the operations do -/

/-- A valid token is that of the innermost scope. -/
structure Innermost (connection : Connection) (token : TransactionToken) : Prop where
  depth : token.depth = connection.transactionDepth
  head : ∃ rest, connection.transactionScopeIds = token.scopeId :: rest
  root : token.root = true ↔ connection.transactionDepth = 1

theorem validateScopeToken_ok {connection : Connection} {token : TransactionToken}
    (valid : connection.validateScopeToken token = .ok ()) : connection.Innermost token := by
  unfold validateScopeToken at valid
  split at valid
  · cases valid
  · split at valid
    · cases valid
    · rename_i matching
      push Not at matching
      obtain ⟨depth, _, head, root⟩ := matching
      refine ⟨depth, ?_, ?_⟩
      · obtain ⟨rest, listed⟩ := List.head?_eq_some_iff.mp head
        exact ⟨rest, listed⟩
      · rw [root, decide_eq_true_iff]

theorem validateScopeToken_of {connection : Connection} {token : TransactionToken} {rest : List Nat}
    (listed : connection.transactionScopeIds = token.scopeId :: rest)
    (depth : token.depth = connection.transactionDepth) (id : token.scopeId ≠ 0)
    (root : token.root = true ↔ connection.transactionDepth = 1)
    (savepoint : token.root = false → token.savepoint ≠ []) :
    connection.validateScopeToken token = .ok () := by
  have count := connection.ids_length
  rw [listed, List.length_cons] at count
  have isRoot : token.root = decide (connection.transactionDepth = 1) := by
    rw [Bool.eq_iff_iff, root, decide_eq_true_iff]
  unfold validateScopeToken
  rw [listed, if_neg, if_neg, if_neg]
  · exact fun missing => savepoint missing.1 missing.2
  · rw [← isRoot, depth]
    simp [id]
  · simp [← count]

theorem beginScope_cases :
    (∃ token sequence, connection.beginScope driver = (.ok token,
        { connection.pushScope with savepointSequence := sequence }) ∧
      token.scopeId = connection.transactionScopeSequence + 1 ∧
      token.depth = connection.transactionDepth + 1 ∧
      (token.root = true ↔ connection.transactionDepth = 0) ∧
      (token.root = false → token.savepoint ≠ [])) ∨
    ∃ raised sequence, connection.beginScope driver =
      (.error raised, { connection with savepointSequence := sequence }) := by
  unfold beginScope
  split
  · rename_i outside
    cases driver .begin with
    | error raised => exact Or.inr ⟨raised, connection.savepointSequence, rfl⟩
    | ok done =>
      refine Or.inl ⟨_, connection.savepointSequence, rfl, rfl, ?_, ?_, ?_⟩
      · rw [outside]
      · exact ⟨fun _ => outside, fun _ => rfl⟩
      · exact nofun
  · rename_i inside
    split
    · exact Or.inr ⟨_, connection.savepointSequence, rfl⟩
    · dsimp only [nextSavepointName]
      split
      · exact Or.inr ⟨_, connection.savepointSequence + 1, rfl⟩
      · split
        · exact Or.inr ⟨_, connection.savepointSequence + 1, rfl⟩
        · refine Or.inl ⟨_, connection.savepointSequence + 1, rfl, rfl, rfl, ?_, ?_⟩
          · exact ⟨fun root => (nomatch root), fun outside => absurd outside inside⟩
          · exact fun _ => by simp [ascii]

/-- The outermost scope is the last one. -/
theorem clearScopes_eq {connection : Connection} {token : TransactionToken}
    (innermost : connection.Innermost token) (root : token.root = true) :
    connection.clearScopes = connection.popScope := by
  have one := innermost.root.mp root
  obtain ⟨_, ids⟩ := List.length_eq_one_iff.mp (connection.ids_length.trans one)
  obtain ⟨_, callbacks⟩ := List.length_eq_one_iff.mp (connection.callbacks_length.trans one)
  simp [clearScopes, popScope, one, ids, callbacks]

theorem commitScope_cases :
    (∃ raised, connection.commitScope driver token = (.error raised, connection)) ∨
    connection.Innermost token ∧ (token.root = true ∧ connection.commitScope driver token =
        (.ok connection.commitCallbacks.reverse.flatten, connection.popScope) ∨
      token.root = false ∧ connection.commitScope driver token = (.ok [], connection.mergeScope)) := by
  unfold commitScope
  split
  · exact Or.inl ⟨_, rfl⟩
  · rename_i valid
    have innermost := validateScopeToken_ok valid
    split
    · rename_i root
      rw [clearScopes_eq innermost root]
      split
      · exact Or.inl ⟨_, rfl⟩
      · exact Or.inr ⟨innermost, Or.inl ⟨root, rfl⟩⟩
    · rename_i nested
      split
      · exact Or.inl ⟨_, rfl⟩
      · exact Or.inr ⟨innermost, Or.inr ⟨Bool.eq_false_of_not_eq_true nested, rfl⟩⟩

theorem rollbackScope_cases :
    (∃ raised, connection.rollbackScope driver token = (.error raised, connection) ∧
      (connection.validateScopeToken token = .ok () →
        connection.rollbackAnswer driver token ≠ .ok ())) ∨
    connection.Innermost token ∧ connection.rollbackAnswer driver token = .ok () ∧
      connection.rollbackScope driver token = (.ok (), connection.popScope) := by
  unfold rollbackScope rollbackAnswer
  cases valid : connection.validateScopeToken token with
  | error raised => exact Or.inl ⟨raised, rfl, nofun⟩
  | ok done =>
    have innermost := validateScopeToken_ok valid
    dsimp only
    split
    · rename_i root
      rw [clearScopes_eq innermost root]
      cases driver .rollback with
      | error raised => exact Or.inl ⟨raised, rfl, nofun⟩
      | ok done => exact Or.inr ⟨innermost, rfl, rfl⟩
    · cases rollbackSavepoint driver connection.backend token.savepoint with
      | error raised => exact Or.inl ⟨raised, rfl, nofun⟩
      | ok done => exact Or.inr ⟨innermost, rfl, rfl⟩

end Connection

end Gungnir.Database
