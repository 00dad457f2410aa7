import Gungnir.Database.Ownership

/-!
# The connection pool

An entry is reserved for as long as something shares its lease; every transaction does, so
a lease ends only after its objects. A connection is handed out as it was left, unless it is
due for validation and found unhealthy: then it is replaced by a new one.
-/

namespace Gungnir.Database

open Gungnir.Core Gungnir.Orm Gungnir.Library List

/-- What the pool reads of a driver that its factory has made. -/
structure DriverInfo where
  backend : Backend
  supportsSavepoints : Bool

variable (backend : Backend)

def makeConnection (made : Except Exception (Option DriverInfo)) :
    Except Exception Connection := do
  match ← made with
  | none => .error (.logicError "Gungnir driver factory returned null")
  | some driver =>
    if driver.backend ≠ backend then
      .error (.logicError "Gungnir driver backend does not match connection backend")
    else .ok (.initial driver.backend driver.supportsSavepoints)

/-- The attempts to reconnect, after the last error so far. -/
def reconnect (backend : Backend) : List (Except Exception (Option DriverInfo)) → Option Exception →
    Except Exception Connection
  | [], some lastError => .error lastError
  | [], none => .error ⟨.runtimeError, ascii "Unable to reconnect database pool entry"⟩
  | made :: rest, _ =>
    match makeConnection backend made with
    | .ok connection => .ok connection
    | .error raised => reconnect backend rest (some raised)

/-- What happens while a connection is checked: whether it is due for validation, the
driver's ping, and what the factory makes in each attempt to reconnect. -/
structure HealthCheck where
  due : Bool
  ping : Except Exception Bool
  attempts : List (Except Exception (Option DriverInfo))

def ensureHealthy (check : HealthCheck) (session : Session) : Except Exception Session :=
  if check.due = false then .ok session
  else
    match check.ping with
    | .ok true => .ok session
    | _ => do
      let connection ← reconnect backend check.attempts none
      .ok ⟨connection, [], [], 0, []⟩

structure Entry where
  session : Session
  leased : Bool

structure Pool where
  backend : Backend
  entries : List Entry
  next : Nat

inductive PoolAction where
  | acquire (check : HealthCheck) (cancelledBefore cancelledAfter : Bool)
  /-- The holder of a lease uses the connection. -/
  | use (index : Nat) (action : Action)
  /-- The end of a lease. -/
  | release (index : Nat)

namespace Pool

variable (pool : Pool)

/-- The first entry from `next` on that is not leased. -/
def available : Option Nat :=
  ((range pool.entries.length).map fun offset =>
    (pool.next + offset) % pool.entries.length).find? fun index =>
      (pool.entries[index]?).any fun entry => !entry.leased

/-- The pool after an acquisition, and the connection that is handed out. Without an
available entry the call waits, and times out. -/
def acquire (check : HealthCheck) (cancelledBefore cancelledAfter : Bool) : Pool × Option Session :=
  match pool.available with
  | none => (pool, none)
  | some index =>
    let pool := { pool with next := (index + 1) % pool.entries.length }
    match cancelledBefore, pool.entries[index]? with
    | false, some entry =>
      match ensureHealthy pool.backend check entry.session with
      | .error _ => (pool, none)
      | .ok session =>
        if cancelledAfter then
          ({ pool with entries := pool.entries.set index ⟨session, false⟩ }, none)
        else ({ pool with entries := pool.entries.set index ⟨session, true⟩ }, some session)
    | _, _ => (pool, none)

def step : PoolAction → Pool
  | .acquire check cancelledBefore cancelledAfter =>
    (pool.acquire check cancelledBefore cancelledAfter).1
  | .use index action =>
    { pool with
      entries := pool.entries.modify index fun entry =>
        if entry.leased then { entry with session := entry.session.step action } else entry }
  | .release index =>
    { pool with
      entries := pool.entries.modify index fun entry => { entry with leased := false } }

def handedOut : PoolAction → Option Session
  | .acquire check cancelledBefore cancelledAfter =>
    (pool.acquire check cancelledBefore cancelledAfter).2
  | _ => none

/-- Objects are destroyed in the reverse order, no destructor is refused its rollback, and
a lease ends after its objects. -/
def Allowed : PoolAction → Prop
  | .acquire _ _ _ => True
  | .use index action => ∀ entry, pool.entries[index]? = some entry →
      Session.LastFirst action ∧ ¬ entry.session.Abandons action
  | .release index => ∀ entry, pool.entries[index]? = some entry → entry.session.transactions = []

/-- Scopes have owners, and connections that are not leased have no objects. -/
structure Clean (entry : Entry) : Prop where
  distinct : entry.session.Distinct
  owned : entry.session.Owned
  idle : entry.leased = false → entry.session.transactions = []

theorem ensureHealthy_cases {backend : Backend} {check : HealthCheck} {session after : Session}
    (healthy : ensureHealthy backend check session = .ok after) :
    after = session ∨ ∃ backend supportsSavepoints,
      after = .initial backend supportsSavepoints := by
  have made : ∀ {attempts lastError connection},
      reconnect backend attempts lastError = .ok connection → ∃ backend supportsSavepoints,
        connection = .initial backend supportsSavepoints := by
    intro attempts
    induction attempts with
    | nil =>
      intro lastError connection done
      cases lastError <;> cases done
    | cons attempt rest ih =>
      intro lastError connection done
      unfold reconnect at done
      split at done
      · rename_i fresh created
        cases done
        obtain ⟨driver, _, created⟩ := bind_eq_ok.mp created
        cases driver with
        | none => cases created
        | some driver =>
          dsimp only at created
          split at created
          · cases created
          · cases created
            exact ⟨_, _, rfl⟩
      · exact ih done
  unfold ensureHealthy at healthy
  split at healthy
  · cases healthy
    exact Or.inl rfl
  · split at healthy
    · cases healthy
      exact Or.inl rfl
    · obtain ⟨connection, reconnected, healthy⟩ := bind_eq_ok.mp healthy
      cases healthy
      obtain ⟨backend, supportsSavepoints, rfl⟩ := made reconnected
      exact Or.inr ⟨backend, supportsSavepoints, rfl⟩

/-- What an acquisition does: it leaves the entries, or replaces one that was not leased. -/
theorem acquire_cases (check : HealthCheck) (cancelledBefore cancelledAfter : Bool) :
    let acquired := pool.acquire check cancelledBefore cancelledAfter
    (acquired.1.entries = pool.entries ∧ acquired.2 = none) ∨
    ∃ index entry session leased, pool.entries[index]? = some entry ∧ entry.leased = false ∧
      ensureHealthy pool.backend check entry.session = .ok session ∧
      acquired.1.entries = pool.entries.set index ⟨session, leased⟩ ∧
      (acquired.2 = none ∨ acquired.2 = some session) := by
  unfold acquire
  split
  · exact Or.inl ⟨rfl, rfl⟩
  · rename_i index found
    dsimp only
    split
    · rename_i entry listed
      split
      · exact Or.inl ⟨rfl, rfl⟩
      · rename_i session healthy
        have free : entry.leased = false := by
          have unleased := find?_some found
          rw [listed] at unleased
          simpa using unleased
        split
        · exact Or.inr ⟨index, entry, session, false, listed, free, healthy, rfl, Or.inl rfl⟩
        · exact Or.inr ⟨index, entry, session, true, listed, free, healthy, rfl, Or.inr rfl⟩
    · exact Or.inl ⟨rfl, rfl⟩

theorem clean_healthy {backend : Backend} {check : HealthCheck} {entry : Entry} {session : Session}
    (clean : Clean entry) (free : entry.leased = false)
    (healthy : ensureHealthy backend check entry.session = .ok session) (leased : Bool) :
    Clean ⟨session, leased⟩ ∧ session.transactions = [] := by
  rcases ensureHealthy_cases healthy with rfl | ⟨backend, supportsSavepoints, rfl⟩
  · exact ⟨⟨clean.distinct, clean.owned, fun _ => clean.idle free⟩, clean.idle free⟩
  · exact ⟨⟨Session.distinct_initial _ _, Session.owned_initial _ _, fun _ => rfl⟩, rfl⟩

theorem clean_modify {entries : List Entry} {index : Nat} {change : Entry → Entry}
    (clean : ∀ entry ∈ entries, Clean entry)
    (changed : ∀ entry, entries[index]? = some entry → Clean (change entry)) :
    ∀ entry ∈ entries.modify index change, Clean entry := by
  intro entry member
  obtain ⟨position, bound, listed⟩ := mem_iff_getElem.mp member
  rw [getElem_modify] at listed
  have inside : position < entries.length := by rwa [length_modify] at bound
  split at listed
  · rename_i same
    subst same
    rw [← listed]
    exact changed _ (getElem?_eq_getElem inside)
  · rw [← listed]
    exact clean _ (getElem_mem inside)

variable {pool : Pool} {action : PoolAction}

/-- A pool as it is constructed. -/
def initial (drivers : List DriverInfo) : Pool :=
  ⟨backend, drivers.map fun driver =>
    ⟨.initial driver.backend driver.supportsSavepoints, false⟩, 0⟩

theorem clean_initial (drivers : List DriverInfo) :
    ∀ entry ∈ (initial backend drivers).entries, Clean entry :=
  forall_mem_map.mpr fun _ _ =>
    ⟨Session.distinct_initial _ _, Session.owned_initial _ _, fun _ => rfl⟩

section

variable (clean : ∀ entry ∈ pool.entries, Clean entry)
include clean

theorem clean_step (allowed : pool.Allowed action) :
    ∀ entry ∈ (pool.step action).entries, Clean entry := by
  cases action with
  | acquire check cancelledBefore cancelledAfter =>
    rcases pool.acquire_cases check cancelledBefore cancelledAfter with
      ⟨same, _⟩ | ⟨index, old, session, leased, listed, free, healthy, replaced, _⟩
    · exact fun entry member => clean entry (same ▸ member)
    · intro entry member
      have replaced : (pool.step (.acquire check cancelledBefore cancelledAfter)).entries = _ :=
        replaced
      rw [replaced] at member
      rcases mem_or_eq_of_mem_set member with inOld | rfl
      · exact clean entry inOld
      · exact (clean_healthy (clean old (mem_of_getElem? listed)) free healthy leased).1
  | use index action =>
    apply clean_modify clean
    intro entry listed
    have old := clean entry (mem_of_getElem? listed)
    obtain ⟨lastFirst, kept⟩ := allowed entry listed
    split
    · rename_i leased
      refine ⟨Session.distinct_step old.distinct action,
        Session.owned_step old.distinct old.owned lastFirst kept, fun free => ?_⟩
      cases leased.symm.trans free
    · exact old
  | release index =>
    apply clean_modify clean
    intro entry listed
    have old := clean entry (mem_of_getElem? listed)
    exact ⟨old.distinct, old.owned, fun _ => allowed entry listed⟩

/-- What is handed out has no objects and no scopes. -/
theorem ids_handedOut {session : Session} (handed : pool.handedOut action = some session) :
    session.ids = [] := by
  cases action with
  | acquire check cancelledBefore cancelledAfter =>
    rcases pool.acquire_cases check cancelledBefore cancelledAfter with
      ⟨_, none⟩ | ⟨index, old, checked, leased, listed, free, healthy, _, none | some⟩
    · cases none.symm.trans handed
    · cases none.symm.trans handed
    · cases some.symm.trans handed
      obtain ⟨clean, destroyed⟩ :=
        clean_healthy (clean old (mem_of_getElem? listed)) free healthy leased
      exact Session.ids_of_owned clean.owned destroyed
  | use index action => cases handed
  | release index => cases handed

theorem ids_of_run {actions : List PoolAction} (allowed : EnabledFrom step Allowed pool actions) :
    ∀ transition ∈ transitionsFrom step pool actions, ∀ session,
      transition.before.handedOut transition.label = some session → session.ids = [] :=
  allowed.forall_mem_where (fun pool => ∀ entry ∈ pool.entries, Clean entry) (fun _ => True)
    (fun possible _ holds => clean_step holds possible) (fun _ _ => trivial) clean
    fun _ _ holds _ => ids_handedOut holds

end

end Pool

/-- Outside of transactions the next one is a transaction of the driver. -/
theorem root_of_beginScope {connection after : Connection} {driver : Driver} {token : TransactionToken}
    (outside : connection.inTransaction = false)
    (begun : connection.beginScope driver = (.ok token, after)) : token.root = true := by
  have depth : connection.transactionDepth = 0 := by
    simpa [Connection.inTransaction] using outside
  rcases connection.beginScope_cases driver with ⟨_, _, done, _, _, root, _⟩ | ⟨_, _, failed⟩
  · cases done.symm.trans begun
    exact root.mpr depth
  · cases failed.symm.trans begun

/-- When all objects of a run are destroyed, the newest first, the connection is outside of
transactions exactly if the driver has refused no destructor its rollback. In a pool whose
connections are used like that no connection is handed out inside a transaction. -/
theorem no_leaked_transaction (backend : Backend) (supportsSavepoints : Bool) (drivers : List DriverInfo) :
    (∀ actions : List Action,
      (∀ action ∈ actions, Session.LastFirst action) →
      let session := runFrom Session.step (.initial backend supportsSavepoints) actions
      session.transactions = [] →
        ((session.connection.inTransaction = false ∧ session.ids = []) ↔
          ∀ transition ∈ transitionsFrom Session.step (.initial backend supportsSavepoints) actions,
            ¬ transition.before.Abandons transition.label) ∧
        (session.connection.inTransaction = false → ∀ driver token connection,
          session.connection.beginScope driver = (.ok token, connection) → token.root = true)) ∧
    ∀ actions : List PoolAction,
      EnabledFrom Pool.step Pool.Allowed (.initial backend drivers) actions →
      ∀ transition ∈ transitionsFrom Pool.step (.initial backend drivers) actions, ∀ session,
        transition.before.handedOut transition.label = some session →
          session.connection.inTransaction = false ∧ session.ids = [] := by
  constructor
  · intro actions lastFirst session destroyed
    refine ⟨?_, fun outside driver token connection => root_of_beginScope outside⟩
    rcases Session.owned_run (Session.distinct_initial backend supportsSavepoints)
      (Session.owned_initial backend supportsSavepoints) lastFirst with
      ⟨kept, owned⟩ | ⟨⟨transition, member, lost⟩, scopeId, found, _⟩
    · have none := Session.ids_of_owned owned destroyed
      exact ⟨fun _ => kept, fun _ => ⟨Session.inTransaction_eq_false.mpr none, none⟩⟩
    · constructor
      · rintro ⟨_, none⟩
        rw [none] at found
        exact absurd found not_mem_nil
      · exact fun kept => absurd lost (kept transition member)
  · intro actions allowed transition member session handed
    have none := Pool.ids_of_run (Pool.clean_initial backend drivers) allowed transition member
      session handed
    exact ⟨Session.inTransaction_eq_false.mpr none, none⟩

def refusingDriver : Driver := fun call =>
  if call = .rollback then .error (.logicError "connection lost") else .ok ()

/-- A transaction whose body throws, and whose rollbacks the driver refuses. -/
def refusedRollback : List Action :=
  .begin refusingDriver :: (Session.runActions 0 [] [] true false refusingDriver refusingDriver ++
    [.destroy 0 refusingDriver])

/-- The object is gone and the connection is still in its transaction. -/
theorem refused_rollback_leaks :
    (∀ action ∈ refusedRollback, Session.LastFirst action) ∧
    (runFrom Session.step (.initial .postgresql true) refusedRollback).transactions = [] ∧
    (runFrom Session.step (.initial .postgresql true)
      refusedRollback).connection.inTransaction = true ∧
    (runFrom Session.step (.initial .postgresql true) refusedRollback).ids = [1] := by
  refine ⟨?_, by decide, by decide, by decide⟩
  have inRun := @Session.lastFirst_runActions 0 [] [] true false refusingDriver refusingDriver nofun
    nofun
  exact forall_mem_cons.mpr ⟨trivial,
    forall_mem_append.mpr ⟨inRun, forall_mem_singleton.mpr rfl⟩⟩

def failingCommits : Driver := fun call =>
  if call = .commit then .error (.logicError "connection lost") else .ok ()

theorem not_abandons_failingCommits {session : Session} {index : Nat} :
    ¬ session.Abandons (.destroy index failingCommits) := by
  rintro ⟨transaction, _, _, _, refused⟩
  apply refused
  unfold Connection.rollbackAnswer Connection.rollbackSavepoint
  split
  · rfl
  · split <;> rfl

/-- A nested transaction that commits, and an outer one whose commit the driver refuses:
its destructor rolls it back. -/
def nestedTransactions : List Action :=
  [.begin failingCommits, .begin failingCommits, .commit 0 failingCommits, .destroy 0 failingCommits,
    .commit 0 failingCommits, .destroy 0 failingCommits]

def unchecked : HealthCheck := ⟨false, .ok true, []⟩

def samplePool : Pool := .initial .postgresql [⟨.postgresql, true⟩]

/-- The same in a lease, and the next lease. -/
def pooledTransactions : List PoolAction :=
  .acquire unchecked false false :: (nestedTransactions.map (.use 0) ++
    [.release 0, .acquire unchecked false false])

theorem pooledTransactions_allowed :
    EnabledFrom Pool.step Pool.Allowed samplePool pooledTransactions := by
  refine ⟨trivial, fun _ _ => ⟨trivial, id⟩, fun _ _ => ⟨trivial, id⟩, fun _ _ => ⟨trivial, id⟩,
    fun _ _ => ⟨rfl, not_abandons_failingCommits⟩, fun _ _ => ⟨trivial, id⟩,
    fun _ _ => ⟨rfl, not_abandons_failingCommits⟩, fun entry listed => ?_, trivial, trivial⟩
  cases listed
  rfl

theorem no_leaked_transaction_sample :
    (runFrom Session.step (.initial .postgresql true)
      nestedTransactions).connection.inTransaction = false ∧
    ∀ transition ∈ transitionsFrom Pool.step samplePool pooledTransactions, ∀ session,
      transition.before.handedOut transition.label = some session →
        session.connection.inTransaction = false ∧ session.ids = [] := by
  obtain ⟨leaves, hands⟩ := no_leaked_transaction .postgresql true [⟨.postgresql, true⟩]
  refine ⟨?_, hands pooledTransactions pooledTransactions_allowed⟩
  have lastFirst : ∀ action ∈ nestedTransactions, Session.LastFirst action := by
    simp [nestedTransactions, Session.LastFirst]
  refine ((leaves nestedTransactions lastFirst (by decide)).1.mpr ?_).1
  exact forall_mem_cons.mpr ⟨id, forall_mem_cons.mpr ⟨id, forall_mem_cons.mpr ⟨id,
    forall_mem_cons.mpr ⟨not_abandons_failingCommits, forall_mem_cons.mpr ⟨id,
      forall_mem_singleton.mpr not_abandons_failingCommits⟩⟩⟩⟩⟩

end Gungnir.Database
