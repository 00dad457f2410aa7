import Gungnir.Database.Connection

/-!
# The migration runner

`DatabaseRepository` and `Runner` of `migration/runner.cpp`, on a connection whose schema
changes are transactional. The database is its content together with what it was when the open
scopes began. For every call the driver answers that it is done, that it is refused, or, where
the answer was lost on its way, that it is refused although it has been done. Rows that the
`ORDER BY` of a query leaves in no order come in an order of the environment.

What the compiler makes of a plan, or the exception of the plan, is data of the migration.
-/

namespace Gungnir.Migrations

open Gungnir.Core Gungnir.Orm Gungnir.Database

structure Record where
  name : Bytes
  batch : Nat
  deriving DecidableEq, Repr

structure Migration where
  planUp : Except Exception (List Bytes)
  planDown : Except Exception (List Bytes)

structure Named where
  name : Bytes
  migration : Option Migration

/-! ## The database -/

/-- The content of the database. -/
structure Store where
  /-- The rows of `gungnir_migrations`, in the order of their insertion. -/
  records : List Record
  /-- The statements of migrations that are in effect. -/
  statements : List Bytes
  /-- The migrations whose whole `up` body is in effect, in the order in which it was run. -/
  applied : List Bytes
  deriving DecidableEq

inductive Body where
  | up (name : Bytes)
  | down (name : Bytes)
  deriving DecidableEq, Repr

inductive Answer where
  | done
  | refused (raised : Exception)
  /-- Done, but the caller sees an exception. -/
  | lost (raised : Exception)

/-- What the driver answers to its calls, by their number, and the orders of rows. -/
structure Environment where
  answer : Nat → DriverCall → Answer
  rows : Nat → List Record → List Record
  rows_perm : ∀ number records, (rows number records).Perm records
  rows_sorted : ∀ number records,
    (rows number records).Pairwise fun first second => first.batch ≤ second.batch

structure World where
  connection : Connection
  supportsTransactions : Bool
  store : Store
  /-- The content at the beginning of every open scope, the innermost first. -/
  snapshots : List Store
  /-- How many calls the driver has got. -/
  calls : Nat
  /-- The bodies that have been started, in that order. -/
  started : List Body

abbrev Run := ExceptT Exception (StateM World)

def Answer.toExcept : Answer → Except Exception Unit
  | done => .ok ()
  | refused raised => .error raised
  | lost raised => .error raised

def Answer.isLost : Answer → Bool
  | lost _ => true
  | done | refused _ => false

variable (environment : Environment)

namespace World

variable (world : World)

/-- The driver as a scope operation sees it, which calls it at most once. -/
def driver : Driver :=
  fun call => (environment.answer world.calls call).toExcept

/-- A statement: what it does to the content, or the reason why the database refuses it. -/
def execute (statement : Bytes) (effect : Store → Except Exception Store) :
    Except Exception Unit × World :=
  match environment.answer world.calls (.execute statement), effect world.store with
  | .refused raised, _ => (.error raised, { world with calls := world.calls + 1 })
  | _, .error raised => (.error raised, { world with calls := world.calls + 1 })
  | .done, .ok store => (.ok (), { world with calls := world.calls + 1, store := store })
  | .lost raised, .ok store =>
    (.error raised, { world with calls := world.calls + 1, store := store })

def beginScope : Except Exception TransactionToken × World :=
  match world.connection.beginScope (world.driver environment) with
  | (.ok token, connection) =>
    (.ok token, { world with
      connection := connection
      snapshots := world.store :: world.snapshots
      calls := world.calls + 1 })
  | (.error raised, connection) =>
    (.error raised, { world with connection := connection, calls := world.calls + 1 })

/-- A root scope may have been committed although the driver throws. -/
def commitScope (token : TransactionToken) : Except Exception Unit × World :=
  match world.connection.commitScope (world.driver environment) token with
  | (.ok _, connection) =>
    (.ok (), { world with
      connection := connection
      snapshots := if token.root then [] else world.snapshots.tail
      calls := world.calls + 1 })
  | (.error raised, connection) =>
    (.error raised, { world with
      connection := connection
      snapshots :=
        if token.root && (environment.answer world.calls .commit).isLost then []
        else world.snapshots
      calls := world.calls + 1 })

/-- Where no scope is open in the database, there is nothing to roll back. -/
def rollbackScope (token : TransactionToken) : Except Exception Unit × World :=
  match world.connection.rollbackScope (world.driver environment) token with
  | (.ok _, connection) =>
    (.ok (), { world with
      connection := connection
      store :=
        (if token.root then world.snapshots.getLast? else world.snapshots.head?).getD world.store
      snapshots := if token.root then [] else world.snapshots.tail
      calls := world.calls + 1 })
  | (.error raised, connection) =>
    (.error raised, { world with connection := connection, calls := world.calls + 1 })

end World

/-- A program of one step. -/
def step {α : Type} (move : World → Except Exception α × World) : Run α := ExceptT.mk move

def execute (statement : Bytes) (effect : Store → Except Exception Store) : Run Unit :=
  step fun world => world.execute environment statement effect

/-! ## Scopes -/

def beginScope : Run TransactionToken := step (World.beginScope environment)

def commitScope (token : TransactionToken) : Run Unit :=
  step fun world => world.commitScope environment token

def rollbackScope (token : TransactionToken) : Run Unit :=
  step fun world => world.rollbackScope environment token

/-- The destructor of a transaction that is active swallows the exception of its rollback. -/
def destroy (token : TransactionToken) : Run Unit :=
  tryCatch (rollbackScope environment token) fun _ => pure ()

/-- A transaction object around a body, with its commit. -/
def transaction (body : Run Unit) : Run Unit := do
  let token ← beginScope environment
  tryCatch body fun raised => do
    destroy environment token
    throw raised
  tryCatch (commitScope environment token) fun raised => do
    if (← get).connection.inTransaction then destroy environment token
    throw raised

/-! ## The repository -/

variable (backend : Backend)

def quote (value : Bytes) : Bytes :=
  if backend = .mysql then ascii "`" ++ value ++ ascii "`"
  else if backend = .mssql then ascii "[" ++ value ++ ascii "]"
  else ascii "\"" ++ value ++ ascii "\""

def placeholder (index : Nat) : Bytes :=
  if backend = .postgresql then ascii "$" ++ stdToString (index + 1) else ascii "?"

def tableName : Bytes := ascii "gungnir_migrations"

def ensureStatement : Bytes :=
  let migration := quote backend (ascii "migration")
  let batch := quote backend (ascii "batch")
  let table := quote backend tableName
  if backend = .mongodb then ascii "\x7b\"create\":\"gungnir_migrations\"\x7d"
  else if backend = .mssql then
    ascii "IF OBJECT_ID(N'gungnir_migrations', N'U') IS NULL CREATE TABLE " ++ table ++ ascii " (" ++
      migration ++ ascii " NVARCHAR(255) NOT NULL PRIMARY KEY, " ++ batch ++
      ascii " BIGINT NOT NULL);"
  else
    ascii "CREATE TABLE IF NOT EXISTS " ++ table ++ ascii " (" ++ migration ++
      ascii " VARCHAR(255) NOT NULL PRIMARY KEY, " ++ batch ++ ascii " BIGINT NOT NULL);"

def appliedStatement : Bytes :=
  if backend = .mongodb then
    ascii "\x7b\"find\":\"gungnir_migrations\",\"filter\":\x7b\x7d,\"sort\":\x7b\"batch\":1\x7d\x7d"
  else
    ascii "SELECT " ++ quote backend (ascii "migration") ++ ascii ", " ++
      quote backend (ascii "batch") ++ ascii " FROM " ++ quote backend tableName ++
      ascii " ORDER BY " ++ quote backend (ascii "batch") ++ ascii " ASC;"

def recordStatement : Bytes :=
  if backend = .mongodb then
    ascii "\x7b\"insert\":\"gungnir_migrations\",\"documents\":[" ++
      ascii "\x7b\"migration\":\x7b\"$bind\":0\x7d,\"batch\":\x7b\"$bind\":1\x7d\x7d]\x7d"
  else
    ascii "INSERT INTO " ++ quote backend tableName ++ ascii " (" ++
      quote backend (ascii "migration") ++ ascii ", " ++ quote backend (ascii "batch") ++
      ascii ") VALUES (" ++ placeholder backend 0 ++ ascii ", " ++ placeholder backend 1 ++
      ascii ");"

def removeStatement : Bytes :=
  if backend = .mongodb then
    ascii "\x7b\"delete\":\"gungnir_migrations\",\"deletes\":[" ++
      ascii "\x7b\"q\":\x7b\"migration\":\x7b\"$bind\":0\x7d\x7d,\"limit\":1\x7d]\x7d"
  else
    ascii "DELETE FROM " ++ quote backend tableName ++ ascii " WHERE " ++
      quote backend (ascii "migration") ++ ascii " = " ++ placeholder backend 0 ++ ascii ";"

def ensure : Run Unit := do
  execute environment (ensureStatement (← get).connection.backend) .ok

def applied : Run (List Record) := do
  let number := (← get).calls
  execute environment (appliedStatement (← get).connection.backend) .ok
  return environment.rows number (← get).store.records

def lastBatch : Run Nat := do
  let records ← applied environment
  return records.foldl (fun result record => max result record.batch) 0

/-- The name is the primary key of the table. -/
def insertRecord (record : Record) (store : Store) : Except Exception Store :=
  if record.name ∈ store.records.map Record.name then
    .error ⟨.runtimeError, ascii "duplicate key"⟩
  else .ok { store with records := store.records ++ [record] }

variable (name : Bytes)

def removeRecord (store : Store) : Except Exception Store :=
  .ok { store with records := store.records.filter fun record => record.name ≠ name }

def record (migration : Record) : Run Unit := do
  execute environment (recordStatement (← get).connection.backend) (insertRecord migration)

def remove : Run Unit := do
  execute environment (removeStatement (← get).connection.backend) (removeRecord name)

/-! ## The runner -/

def executeStatement (statement : Bytes) : Run Unit :=
  execute environment statement fun store =>
    .ok { store with statements := store.statements ++ [statement] }

def executePlan (statements : List Bytes) : Run Unit :=
  statements.forM (executeStatement environment)

def runUp (migration : Migration) : Run Unit := do
  modify fun world => { world with started := world.started ++ [.up name] }
  let statements ← (migration.planUp : Except Exception (List Bytes))
  executePlan environment statements
  modify fun world =>
    { world with store := { world.store with applied := world.store.applied ++ [name] } }

def runDown (migration : Migration) : Run Unit := do
  modify fun world => { world with started := world.started ++ [.down name] }
  let statements ← (migration.planDown : Except Exception (List Bytes))
  executePlan environment statements
  modify fun world =>
    { world with store := { world.store with applied := world.store.applied.filter (· ≠ name) } }

/-- A body in a transaction of its own, if there are transactions. -/
def isolated (body : Run Unit) : Run Unit := do
  if (← get).supportsTransactions then transaction environment body else body

def migrateOne (names : List Bytes) (batch : Nat) (count : Nat) (item : Named) : Run Nat :=
  match item.migration with
  | none => pure count
  | some migration =>
    if item.name ∈ names then pure count
    else do
      isolated environment do
        runUp environment item.name migration
        record environment ⟨item.name, batch⟩
      return count + 1

variable (migrations : List Named)

def migrate : Run Nat := do
  ensure environment
  let records ← applied environment
  let batch ← lastBatch environment
  migrations.foldlM (migrateOne environment (records.map Record.name) (batch + 1)) 0

def notRegistered : Exception :=
  ⟨.logicError, ascii "Applied migration '" ++ name ++ ascii "' is not registered with the runner"⟩

def rollbackOne (batch : Nat) (count : Nat) (entry : Record) : Run Nat :=
  if entry.batch ≠ batch then pure count
  else
    match (migrations.find? fun item => item.name = entry.name).bind Named.migration with
    | none => throw (notRegistered entry.name)
    | some migration => do
      isolated environment do
        runDown environment entry.name migration
        remove environment entry.name
      return count + 1

def rollback : Run Nat := do
  ensure environment
  let records ← applied environment
  if records.isEmpty then return 0
  let batch ← lastBatch environment
  records.reverse.foldlM (rollbackOne environment migrations batch) 0

/-- The loop of `reset`; one unit of fuel is used by each round. -/
def resetLoop (migrations : List Named) : Nat → Nat → Run Nat
  | 0, _ => throw .undefinedBehavior
  | fuel + 1, total => do
    let rolledBack ← rollback environment migrations
    if rolledBack = 0 then return total
    resetLoop migrations fuel (total + rolledBack)

/-- `reset`, where one round more than there are rows is enough. -/
def reset : Run Nat := do
  resetLoop environment migrations ((← get).store.records.length + 1) 0

end Gungnir.Migrations
