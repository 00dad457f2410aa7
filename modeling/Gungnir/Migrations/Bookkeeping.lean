import Gungnir.Migrations.Runner
import Gungnir.Library.Stateful

/-!
# Bookkeeping of migrations

Each migration and its row are one transaction. As long as no rollback is refused, whatever
else fails, the recorded migrations are those whose `up` body is in effect, and a run starts
the remaining ones in the order of the list.
-/

namespace Gungnir.Migrations

open Gungnir.Core Gungnir.Database Gungnir.Library List

variable {environment : Environment} {world : World}

/-! ## Statements -/

/-- A statement changes nothing but the content, and the content only as its effect says. -/
theorem execute_cases (environment : Environment) (statement : Bytes)
    (effect : Store → Except Exception Store) (world : World) :
    (∃ raised, world.execute environment statement effect =
      (.error raised, { world with calls := world.calls + 1 })) ∨
    ∃ store result, effect world.store = .ok store ∧ world.execute environment statement effect =
      (result, { world with calls := world.calls + 1, store := store }) := by
  unfold World.execute
  cases effect world.store with
  | error raised =>
    cases environment.answer world.calls (.execute statement) with
    | done => exact .inl ⟨raised, rfl⟩
    | refused other => exact .inl ⟨other, rfl⟩
    | lost other => exact .inl ⟨raised, rfl⟩
  | ok store =>
    cases environment.answer world.calls (.execute statement) with
    | done => exact .inr ⟨store, .ok (), rfl, rfl⟩
    | refused other => exact .inl ⟨other, rfl⟩
    | lost other => exact .inr ⟨store, .error other, rfl, rfl⟩

/-- What the statements of a plan leave as it is. -/
structure Quiet (before after : World) : Prop where
  connection : after.connection = before.connection
  snapshots : after.snapshots = before.snapshots
  supports : after.supportsTransactions = before.supportsTransactions
  started : after.started = before.started
  records : after.store.records = before.store.records
  applied : after.store.applied = before.store.applied

theorem Quiet.refl (world : World) : Quiet world world := ⟨rfl, rfl, rfl, rfl, rfl, rfl⟩

theorem Quiet.trans (first second third : World) (before : Quiet first second)
    (after : Quiet second third) : Quiet first third where
  connection := after.connection.trans before.connection
  snapshots := after.snapshots.trans before.snapshots
  supports := after.supports.trans before.supports
  started := after.started.trans before.started
  records := after.records.trans before.records
  applied := after.applied.trans before.applied

/-- A statement that changes neither the rows nor the bodies in effect. -/
theorem execute_quiet (environment : Environment) (statement : Bytes)
    {effect : Store → Except Exception Store}
    (kept : ∀ {store after}, effect store = .ok after →
      after.records = store.records ∧ after.applied = store.applied) :
    Moves (execute environment statement effect) Quiet := by
  intro world
  change Quiet world (world.execute environment statement effect).2
  rcases execute_cases environment statement effect world with
    ⟨raised, same⟩ | ⟨store, result, written, same⟩
  · rw [same]
    exact ⟨rfl, rfl, rfl, rfl, rfl, rfl⟩
  · rw [same]
    exact ⟨rfl, rfl, rfl, rfl, (kept written).1, (kept written).2⟩

theorem executePlan_quiet (environment : Environment) (statements : List Bytes) :
    Moves (executePlan environment statements) Quiet := by
  refine Moves.forM Quiet.refl Quiet.trans fun statement _ => ?_
  refine execute_quiet environment statement fun written => ?_
  cases written
  exact ⟨rfl, rfl⟩

/-! ## One migration -/

/-- What the body of a migration does not touch. -/
structure Inside (before after : World) : Prop where
  connection : after.connection = before.connection
  snapshots : after.snapshots = before.snapshots
  supports : after.supportsTransactions = before.supportsTransactions

/-- The body `up`, with what it leaves behind if it is run to its end. -/
structure Upped (name : Bytes) (before : World) (result : Except Exception Unit) (after : World) :
    Prop extends Inside before after where
  started : after.started = before.started ++ [.up name]
  records : after.store.records = before.store.records
  applied : result = .ok () → after.store.applied = before.store.applied ++ [name]

theorem runUp_upped (environment : Environment) (name : Bytes) (migration : Migration)
    (world : World) : Yields (runUp environment name migration) world (Upped name world) := by
  let begun : World := { world with started := world.started ++ [.up name] }
  unfold runUp
  cases migration.planUp with
  | error raised => exact ⟨⟨rfl, rfl, rfl⟩, rfl, rfl, nofun⟩
  | ok statements =>
    change Yields (executePlan environment statements >>= fun _ => modify fun world =>
      { world with store := { world.store with applied := world.store.applied ++ [name] } }) begun _
    refine @Yields.bind _ _ _ _ _ _ _ (fun _ => Quiet begun) _
      (executePlan_quiet environment statements begun) (fun raised after quiet => ?_)
      fun _ after quiet => ?_
    · exact ⟨⟨quiet.connection, quiet.snapshots, quiet.supports⟩, quiet.started, quiet.records,
        nofun⟩
    · exact ⟨⟨quiet.connection, quiet.snapshots, quiet.supports⟩, quiet.started, quiet.records,
        fun _ => congrArg (· ++ [name]) quiet.applied⟩

/-- The body and its row. -/
structure Recorded (entry : Record) (before : World) (result : Except Exception Unit)
    (after : World) : Prop extends Inside before after where
  started : after.started = before.started ++ [.up entry.name]
  done : result = .ok () → after.store.records = before.store.records ++ [entry] ∧
    after.store.applied = before.store.applied ++ [entry.name]

def upAndRecord (environment : Environment) (entry : Record) (migration : Migration) :
    Run Unit := do
  runUp environment entry.name migration
  record environment entry

theorem upAndRecord_recorded (environment : Environment) (entry : Record) (migration : Migration)
    (world : World) : Yields (upAndRecord environment entry migration) world (Recorded entry world) := by
  refine (runUp_upped environment entry.name migration world).bind
    (fun raised after upped => ⟨upped.toInside, upped.started, nofun⟩) fun _ middle upped => ?_
  change Recorded entry world (middle.execute environment _ (insertRecord entry)).1
    (middle.execute environment _ (insertRecord entry)).2
  rcases execute_cases environment _ (insertRecord entry) middle with
    ⟨raised, same⟩ | ⟨store, result, written, same⟩
  · rw [same]
    exact ⟨⟨upped.connection, upped.snapshots, upped.supports⟩, upped.started, nofun⟩
  · unfold insertRecord at written
    split at written
    · cases written
    · cases written
      rw [same]
      refine ⟨⟨upped.connection, upped.snapshots, upped.supports⟩, upped.started,
        fun _ => ⟨?_, upped.applied rfl⟩⟩
      exact congrArg (· ++ [entry]) upped.records

/-! ## Transactions -/

/-- No rollback is refused. -/
structure RollbacksDone (environment : Environment) : Prop where
  root : ∀ number, environment.answer number .rollback = .done
  mssql : ∀ number savepoint, environment.answer number
    (.execute (ascii "ROLLBACK TRANSACTION " ++ savepoint)) = .done
  savepoint : ∀ number savepoint, environment.answer number
    (.execute (ascii "ROLLBACK TO SAVEPOINT " ++ savepoint)) = .done

/-- The database has as many open scopes as the connection. -/
def Aligned (world : World) : Prop :=
  world.snapshots.length = world.connection.transactionDepth

/-- The open scopes are the same again. -/
structure Settled (before after : World) : Prop where
  depth : after.connection.transactionDepth = before.connection.transactionDepth
  snapshots : after.snapshots = before.snapshots
  supports : after.supportsTransactions = before.supportsTransactions
  backend : after.connection.backend = before.connection.backend
  savepoints : after.connection.supportsSavepoints = before.connection.supportsSavepoints

theorem Settled.refl (world : World) : Settled world world := ⟨rfl, rfl, rfl, rfl, rfl⟩

theorem Settled.trans {first second third : World} (before : Settled first second)
    (after : Settled second third) : Settled first third where
  depth := after.depth.trans before.depth
  snapshots := after.snapshots.trans before.snapshots
  supports := after.supports.trans before.supports
  backend := after.backend.trans before.backend
  savepoints := after.savepoints.trans before.savepoints

variable {after before : World}

theorem Settled.aligned (settled : Settled before after) (aligned : Aligned before) :
    Aligned after := by
  unfold Aligned
  rw [settled.snapshots, settled.depth]
  exact aligned

/-- The token belongs to the innermost scope, which is a root scope if it is the only one. -/
structure Opened (before : World) (token : TransactionToken) (after : World) : Prop where
  valid : after.connection.validateScopeToken token = .ok ()
  depth : after.connection.transactionDepth = before.connection.transactionDepth + 1
  root : token.root = true ↔ before.connection.transactionDepth = 0
  store : after.store = before.store
  snapshots : after.snapshots = before.store :: before.snapshots
  supports : after.supportsTransactions = before.supportsTransactions
  backend : after.connection.backend = before.connection.backend
  savepoints : after.connection.supportsSavepoints = before.connection.supportsSavepoints
  started : after.started = before.started

variable {token : TransactionToken}

theorem validateScopeToken_pushScope {connection : Connection} {sequence : Nat}
    (scopeId : token.scopeId = connection.transactionScopeSequence + 1)
    (depth : token.depth = connection.transactionDepth + 1)
    (root : token.root = true ↔ connection.transactionDepth = 0)
    (named : token.root = false → token.savepoint ≠ []) :
    ({ connection.pushScope with savepointSequence := sequence } : Connection).validateScopeToken
      token = .ok () := by
  refine Connection.validateScopeToken_of (congrArg (· :: _) scopeId.symm) depth ?_ ?_ named
  · rw [scopeId]
    exact Nat.succ_ne_zero _
  · rw [root]
    exact Nat.succ_inj.symm

theorem beginScope_opened (environment : Environment) (world : World) :
    (∃ raised after, world.beginScope environment = (.error raised, after) ∧
      Settled world after ∧ after.store = world.store ∧ after.started = world.started) ∨
    ∃ token after, world.beginScope environment = (.ok token, after) ∧
      Opened world token after := by
  unfold World.beginScope
  rcases Connection.beginScope_cases (world.driver environment) world.connection with
    ⟨token, sequence, begun, scopeId, depth, root, named⟩ | ⟨raised, sequence, refused⟩
  · rw [begun]
    refine .inr ⟨token, _, rfl, ?_, rfl, root, rfl, rfl, rfl, rfl, rfl, rfl⟩
    exact validateScopeToken_pushScope scopeId depth root named
  · rw [refused]
    exact .inl ⟨raised, _, rfl, ⟨rfl, rfl, rfl, rfl, rfl⟩, rfl, rfl⟩

/-- What is left of the open scopes when the innermost one is closed. -/
theorem Opened.closed {opened : World} (scope : Opened before token opened)
    (aligned : Aligned before) :
    (if token.root then [] else opened.snapshots.tail) = before.snapshots := by
  split
  · rename_i root
    exact (eq_nil_of_length_eq_zero (aligned.trans (scope.root.mp root))).symm
  · rw [scope.snapshots]
    rfl

/-- A commit closes the scope, or leaves the connection as it is; then a root scope may have
been committed all the same. -/
theorem commitScope_settled (environment : Environment) {opened : World} (aligned : Aligned before)
    (scope : Opened before token opened) (inside : Inside opened after) :
    (∃ last, after.commitScope environment token = (.ok (), last) ∧ Settled before last ∧
      last.store = after.store ∧ last.started = after.started) ∨
    ∃ raised last, after.commitScope environment token = (.error raised, last) ∧
      Inside { opened with snapshots := last.snapshots } last ∧ last.store = after.store ∧
      last.started = after.started ∧
      (last.snapshots = opened.snapshots ∨ token.root = true ∧ last.snapshots = []) := by
  have depth := Nat.sub_eq_of_eq_add scope.depth
  have backend := scope.backend
  have savepoints := scope.savepoints
  rw [← inside.connection] at depth backend savepoints
  unfold World.commitScope
  rcases Connection.commitScope_cases (after.driver environment) after.connection token with
    ⟨raised, refused⟩ | ⟨_, ⟨root, done⟩ | ⟨nested, done⟩⟩
  · rw [refused]
    refine .inr ⟨raised, _, rfl, ⟨inside.connection, rfl, inside.supports⟩, rfl, rfl, ?_⟩
    split
    · rename_i both
      exact .inr ⟨(Bool.and_eq_true_iff.mp both).1, rfl⟩
    · exact .inl inside.snapshots
  · rw [done]
    exact .inl ⟨_, rfl, ⟨depth, inside.snapshots ▸ scope.closed aligned,
      inside.supports.trans scope.supports, backend, savepoints⟩, rfl, rfl⟩
  · rw [done]
    exact .inl ⟨_, rfl, ⟨depth, inside.snapshots ▸ scope.closed aligned,
      inside.supports.trans scope.supports, backend, savepoints⟩, rfl, rfl⟩

/-- What a transaction around a body comes to: it could not begin, or the body has been run in
it, and what it did is kept or taken back. -/
inductive Enclosed (body : Run Unit) (before : World) (result : Except Exception Unit)
    (after : World) : Prop where
  | unbegun {raised : Exception} (thrown : result = .error raised) (store : after.store = before.store)
      (started : after.started = before.started)
  | kept {opened inner : World} (token : TransactionToken) (scope : Opened before token opened)
      (ran : body.run.run opened = (.ok (), inner)) (store : after.store = inner.store)
      (started : after.started = inner.started)
  | undone {opened : World} {raised : Exception} (token : TransactionToken)
      (scope : Opened before token opened) (thrown : result = .error raised)
      (store : after.store = before.store)
      (started : after.started = (body.run.run opened).2.started)

theorem destroy_throw {last : World} (done : after.rollbackScope environment token = (.ok (), last))
    (raised : Exception) :
    (do destroy environment token; throw raised : Run Unit).run.run after =
      (.error raised, last) := by
  have rolled : (rollbackScope environment token).run.run after = (.ok (), last) := done
  have destroyed : (destroy environment token).run.run after = (.ok (), last) :=
    run_tryCatch_ok rolled
  rw [run_bind_ok destroyed]
  rfl

/-- What a migration with its row comes to: both are there, or neither and an exception. -/
structure Attempt (entry : Record) (before : World) (result : Except Exception Unit)
    (after : World) : Prop where
  settled : Settled before after
  outcome :
    (after.started = before.started ++ [.up entry.name] ∧
      after.store.records = before.store.records ++ [entry] ∧
      after.store.applied = before.store.applied ++ [entry.name]) ∨
    ∃ raised, result = .error raised ∧ after.store = before.store ∧
      (after.started = before.started ∨ after.started = before.started ++ [.up entry.name])

/-- The body with its row, as the runner executes them. -/
def upIsolated (environment : Environment) (entry : Record) (migration : Migration) : Run Unit :=
  isolated environment (upAndRecord environment entry migration)

theorem isolated_run (supports : world.supportsTransactions = true) (body : Run Unit) :
    (isolated environment body).run.run world = (transaction environment body).run.run world := by
  change (if world.supportsTransactions = true then _ else _ : Run Unit).run.run world = _
  rw [supports]
  rfl

section

variable (rollbacks : RollbacksDone environment)
include rollbacks

theorem rollbackAnswer_done (world : World) (token : TransactionToken) :
    world.connection.rollbackAnswer (world.driver environment) token = .ok () := by
  unfold Connection.rollbackAnswer Connection.rollbackSavepoint World.driver
  split
  · rw [rollbacks.root]
    rfl
  · cases world.connection.backend with
    | mssql =>
      rw [rollbacks.mssql]
      rfl
    | mongodb => rfl
    | sqlite | postgresql | mysql =>
      rw [rollbacks.savepoint]
      rfl

/-- A rollback that is not refused takes back what the scope has done. Where the scope has been
committed after all, there is nothing to take back. -/
theorem rollbackScope_settled {opened : World} (aligned : Aligned before)
    (scope : Opened before token opened) (connection : after.connection = opened.connection)
    (supports : after.supportsTransactions = opened.supportsTransactions)
    (snapshots : after.snapshots = opened.snapshots ∨ token.root = true ∧ after.snapshots = []) :
    ∃ last, after.rollbackScope environment token = (.ok (), last) ∧ Settled before last ∧
      last.started = after.started ∧
      (after.snapshots = opened.snapshots ∧ last.store = before.store ∨
        after.snapshots = [] ∧ last.store = after.store) := by
  have valid := scope.valid
  rw [← connection] at valid
  have depth := Nat.sub_eq_of_eq_add scope.depth
  have backend := scope.backend
  have savepoints := scope.savepoints
  rw [← connection] at depth backend savepoints
  have closed := scope.closed aligned
  unfold World.rollbackScope
  rcases Connection.rollbackScope_cases (after.driver environment) after.connection token with
    ⟨raised, _, refused⟩ | ⟨_, _, done⟩
  · exact absurd (rollbackAnswer_done rollbacks after token) (refused valid)
  · rw [done]
    refine ⟨_, rfl, ⟨depth, ?_, supports.trans scope.supports, backend, savepoints⟩, rfl, ?_⟩
    · rcases snapshots with open_ | ⟨root, _⟩
      · exact open_ ▸ closed
      · exact (if_pos root).trans ((if_pos root).symm.trans closed)
    · rcases snapshots with open_ | ⟨root, none⟩
      · refine .inl ⟨open_, ?_⟩
        rw [open_, scope.snapshots]
        split
        · rename_i root
          rw [← closed, if_pos root]
          rfl
        · rfl
      · refine .inr ⟨none, ?_⟩
        rw [if_pos root, none]
        rfl

theorem transaction_enclosed (aligned : Aligned world) {body : Run Unit}
    (framed : Moves body Inside) :
    Yields (transaction environment body) world fun result after =>
      Settled world after ∧ Enclosed body world result after := by
  unfold transaction Yields
  rcases beginScope_opened environment world with
    ⟨raised, after, refused, settled, store, started⟩ | ⟨token, opened, begun, scope⟩
  · have ran : (beginScope environment).run.run world = (.error raised, after) := refused
    rw [run_bind_error ran]
    exact ⟨settled, .unbegun rfl store started⟩
  · have ran : (beginScope environment).run.run world = (.ok token, opened) := begun
    rw [run_bind_ok ran]
    have inside := framed opened
    cases done : body.run.run opened with
    | mk result inner =>
      rw [done] at inside
      cases result with
      | error raised =>
        obtain ⟨last, rolled, settled, started, restored⟩ := rollbackScope_settled rollbacks
          aligned scope inside.connection inside.supports (.inl inside.snapshots)
        have handled : (tryCatch body fun other => do
            destroy environment token
            throw other : Run Unit).run.run opened = (.error raised, last) :=
          (run_tryCatch_error done).trans (destroy_throw rolled raised)
        rw [run_bind_error handled]
        refine ⟨settled, .undone token scope rfl ?_ (started.trans (congrArg (·.2.started) done.symm))⟩
        rcases restored with ⟨_, restored⟩ | ⟨closed, _⟩
        · exact restored
        · -- The body has not closed the scope.
          rw [inside.snapshots, scope.snapshots] at closed
          cases closed
      | ok value =>
        rw [run_bind_ok (run_tryCatch_ok done)]
        rcases commitScope_settled environment aligned scope inside with
          ⟨last, committed, settled, store, started⟩ |
          ⟨raised, last, refused, kept, store, started, snapshots⟩
        · have finished : (commitScope environment token).run.run inner = (.ok (), last) :=
            committed
          rw [run_tryCatch_ok finished]
          exact ⟨settled, .kept token scope done store started⟩
        · have thrown : (commitScope environment token).run.run inner = (.error raised, last) :=
            refused
          obtain ⟨rest, rolled, settled, restarted, restored⟩ := rollbackScope_settled rollbacks
            aligned scope kept.connection kept.supports snapshots
          have open_ : last.connection.inTransaction = true := by
            rw [kept.connection]
            unfold Connection.inTransaction
            rw [scope.depth]
            exact decide_eq_true (Nat.succ_ne_zero _)
          have handled : (do
              if (← get).connection.inTransaction then destroy environment token
              throw raised : Run Unit).run.run last = (.error raised, rest) := by
            refine Eq.trans ?_ (destroy_throw rolled raised)
            change (if last.connection.inTransaction = true then _ else _ :
              Run Unit).run.run last = _
            rw [open_]
            rfl
          rw [run_tryCatch_error thrown, handled]
          refine ⟨settled, ?_⟩
          rcases restored with ⟨_, restored⟩ | ⟨_, committed⟩
          · exact .undone token scope rfl restored
              (restarted.trans (started.trans (congrArg (·.2.started) done.symm)))
          · exact .kept token scope done (committed.trans store) (restarted.trans started)

theorem upIsolated_attempt (aligned : Aligned world)
    (supports : world.supportsTransactions = true) (entry : Record) (migration : Migration) :
    Yields (upIsolated environment entry migration) world (Attempt entry world) := by
  have recorded := upAndRecord_recorded environment entry migration
  have enclosed := transaction_enclosed rollbacks aligned fun state => (recorded state).toInside
  refine .of_eq (isolated_run supports (upAndRecord environment entry migration))
    ⟨enclosed.1, ?_⟩
  cases enclosed.2 with
  | unbegun thrown store started => exact .inr ⟨_, thrown, store, .inl started⟩
  | @kept opened inner token scope ran store started =>
    have done := recorded opened
    unfold Yields at done
    rw [ran] at done
    obtain ⟨records, applied⟩ := done.done rfl
    refine .inl ⟨?_, ?_, ?_⟩
    · rw [started, done.started, scope.started]
    · rw [store, records, scope.store]
    · rw [store, applied, scope.store]
  | @undone opened raised token scope thrown store started =>
    refine .inr ⟨raised, thrown, store, .inr ?_⟩
    rw [started, (recorded opened).started, scope.started]

end

/-! ## The loop -/

def recordedNames (store : Store) : List Bytes := store.records.map Record.name

/-- The migrations of a list that are not among the given names, in the order of the list. -/
def pending (names : List Bytes) (migrations : List Named) : List Bytes :=
  (migrations.filter fun item => item.migration.isSome && decide (item.name ∉ names)).map Named.name

/-- How far a loop over a list has come: it has begun some of the pending migrations, in their
order, and all of them but perhaps the last are done and recorded. -/
structure Progress (waiting : List Bytes) (batch : Nat) (before : World)
    (result : Except Exception Nat) (after : World) (begun finished : List Bytes) : Prop where
  settled : Settled before after
  ordered : begun <+: waiting
  within : finished <+: begun
  almost : begun.length ≤ finished.length + 1
  started : after.started = before.started ++ begun.map .up
  records : after.store.records = before.store.records ++ finished.map fun name => ⟨name, batch⟩
  applied : after.store.applied = before.store.applied ++ finished
  complete : ∀ count, result = .ok count → finished = waiting

variable {waiting : List Bytes} {result : Except Exception Nat} {batch : Nat}

theorem Progress.none (settled : Settled before after)
    (records : after.store.records = before.store.records)
    (applied : after.store.applied = before.store.applied)
    (started : after.started = before.started)
    (complete : ∀ count, result = .ok count → waiting = []) :
    Progress waiting batch before result after [] [] where
  settled := settled
  ordered := nil_prefix
  within := nil_prefix
  almost := Nat.zero_le _
  started := by rw [started, map_nil, append_nil]
  records := by rw [records, map_nil, append_nil]
  applied := by rw [applied, append_nil]
  complete := fun count ok => (complete count ok).symm

variable {entry : Record} {first : Except Exception Unit}

/-- A migration that is done, and the rest of the loop. -/
theorem Progress.cons {waiting begun finished : List Bytes} {before middle after : World}
    {result : Except Exception Nat} (attempt : Attempt entry before first middle)
    (started : middle.started = before.started ++ [.up entry.name])
    (records : middle.store.records = before.store.records ++ [entry])
    (applied : middle.store.applied = before.store.applied ++ [entry.name])
    (rest : Progress waiting entry.batch middle result after begun finished) :
    Progress (entry.name :: waiting) entry.batch before result after (entry.name :: begun)
      (entry.name :: finished) where
  settled := attempt.settled.trans rest.settled
  ordered := cons_prefix_cons.mpr ⟨rfl, rest.ordered⟩
  within := cons_prefix_cons.mpr ⟨rfl, rest.within⟩
  almost := Nat.succ_le_succ rest.almost
  started := by rw [rest.started, started, append_assoc]; rfl
  records := by rw [rest.records, records, append_assoc]; rfl
  applied := by rw [rest.applied, applied, append_assoc]; rfl
  complete := fun count ok => congrArg _ (rest.complete count ok)

/-- A migration after which the loop has ended with an exception. -/
theorem Progress.last {raised : Exception} (attempt : Attempt entry before first after) :
    ∃ begun finished, Progress (entry.name :: waiting) entry.batch before (.error raised) after
      begun finished := by
  have single : [entry.name] <+: entry.name :: waiting :=
    cons_prefix_cons.mpr ⟨rfl, nil_prefix⟩
  rcases attempt.outcome with ⟨started, records, applied⟩ | ⟨_, _, store, started⟩
  · exact ⟨[entry.name], [entry.name], attempt.settled, single, prefix_rfl, Nat.le_succ _,
      started, records, applied, nofun⟩
  · rcases started with same | begun
    · exact ⟨[], [], .none attempt.settled (congrArg _ store) (congrArg _ store) same nofun⟩
    · refine ⟨[entry.name], [], attempt.settled, single, nil_prefix, Nat.le_refl _, begun, ?_,
        ?_, nofun⟩
      · rw [store, map_nil, append_nil]
      · rw [store, append_nil]

variable {migrations : List Named} {Good : World → Prop}

/-- In the good worlds every attempt leaves a body with its row, or nothing. -/
structure Attempts (environment : Environment) (Good : World → Prop) : Prop where
  stable : ∀ {before after}, Settled before after → Good before → Good after
  attempt : ∀ {world}, Good world → ∀ entry migration, entry.name ∉ recordedNames world.store →
    Yields (upIsolated environment entry migration) world (Attempt entry world)

theorem migrateLoop_progress (attempts : Attempts environment Good) (names : List Bytes)
    (batch : Nat) (distinct : (migrations.map Named.name).Nodup) (count : Nat) (good : Good world)
    (fresh : ∀ item ∈ migrations, item.name ∉ names → item.name ∉ recordedNames world.store) :
    Yields (migrations.foldlM (migrateOne environment names batch) count) world
      fun result after => ∃ begun finished,
        Progress (pending names migrations) batch world result after begun finished := by
  induction migrations generalizing count world with
  | nil => exact ⟨[], [], .none (.refl world) rfl rfl rfl fun _ _ => rfl⟩
  | cons item rest ih =>
    rw [foldlM_cons]
    obtain ⟨different, others⟩ := nodup_cons.mp distinct
    obtain ⟨firstFresh, restFresh⟩ := forall_mem_cons.mp fresh
    by_cases skipped : item.migration = none ∨ item.name ∈ names
    · have ran : (migrateOne environment names batch count item).run.run world =
          (.ok count, world) := by
        unfold migrateOne
        cases present : item.migration with
        | none => rfl
        | some migration =>
          dsimp only
          rw [if_pos (skipped.resolve_left (by rw [present]; nofun))]
          rfl
      have same : pending names (item :: rest) = pending names rest := by
        unfold pending
        rw [filter_cons_of_neg]
        rcases skipped with absent | listed
        · rw [absent]
          exact Bool.false_ne_true
        · rw [decide_eq_false (not_not.mpr listed), Bool.and_false]
          exact Bool.false_ne_true
      unfold Yields
      rw [run_bind_ok ran, same]
      exact ih others count good restFresh
    · obtain ⟨present, unlisted⟩ := not_or.mp skipped
      obtain ⟨migration, given⟩ := Option.ne_none_iff_exists'.mp present
      have next : pending names (item :: rest) = item.name :: pending names rest := by
        unfold pending
        rw [filter_cons_of_pos, map_cons]
        rw [given, decide_eq_true unlisted]
        rfl
      have one : migrateOne environment names batch count item = (do
          upIsolated environment ⟨item.name, batch⟩ migration
          return count + 1) := by
        unfold migrateOne
        rw [given]
        dsimp only
        rw [if_neg unlisted]
        rfl
      rw [one, next, bind_assoc]
      refine (attempts.attempt good ⟨item.name, batch⟩ migration (firstFresh unlisted)).bind
        (fun raised after attempt => Progress.last attempt) fun _ middle attempt => ?_
      rcases attempt.outcome with ⟨started, records, applied⟩ | ⟨_, thrown, _⟩
      · have later : ∀ other ∈ rest, other.name ∉ names →
            other.name ∉ recordedNames middle.store := by
          intro other member unlisted recorded
          unfold recordedNames at recorded
          rw [records, map_append, mem_append] at recorded
          rcases recorded with before | new
          · exact restFresh other member unlisted before
          · have same : other.name = item.name := mem_singleton.mp new
            exact different (same ▸ mem_map_of_mem member)
        obtain ⟨begun, finished, progress⟩ := ih others (count + 1)
          (attempts.stable attempt.settled good) later
        exact ⟨_, _, .cons attempt started records applied progress⟩
      · cases thrown

/-! ## A whole run -/

theorem Quiet.settled (quiet : Quiet before after) : Settled before after :=
  ⟨congrArg _ quiet.connection, quiet.snapshots, quiet.supports, congrArg _ quiet.connection,
    congrArg _ quiet.connection⟩

variable {begun finished : List Bytes}

/-- Queries before the loop change nothing that counts. -/
theorem Progress.after_quiet {middle : World} (quiet : Quiet before middle)
    (progress : Progress waiting batch middle result after begun finished) :
    Progress waiting batch before result after begun finished where
  settled := quiet.settled.trans progress.settled
  ordered := progress.ordered
  within := progress.within
  almost := progress.almost
  started := by rw [progress.started, quiet.started]
  records := by rw [progress.records, quiet.records]
  applied := by rw [progress.applied, quiet.applied]
  complete := progress.complete

def counted (world : World) : World := { world with calls := world.calls + 1 }

theorem quiet_counted (world : World) : Quiet world (counted world) := ⟨rfl, rfl, rfl, rfl, rfl, rfl⟩

theorem query_counted (environment : Environment) (statement : Bytes) (world : World) :
    Yields (execute environment statement .ok) world fun _ after => after = counted world := by
  change (world.execute environment statement .ok).2 = counted world
  unfold World.execute
  cases environment.answer world.calls (.execute statement) <;> rfl

theorem applied_rows (environment : Environment) (world : World) :
    Yields (applied environment) world fun result after => after = counted world ∧
      ∀ rows, result = .ok rows → rows = environment.rows world.calls world.store.records := by
  have unfolded : (applied environment).run.run world =
      (execute environment (appliedStatement world.connection.backend) .ok >>= fun _ => do
        return environment.rows world.calls (← get).store.records).run.run world := rfl
  refine .of_eq unfolded ((query_counted environment _ world).bind
    (fun raised after same => ⟨same, nofun⟩) fun _ after same => ?_)
  subst same
  exact ⟨rfl, fun rows returned => (Except.ok.inj returned).symm⟩

variable (records : List Record)

def greatestBatch : Nat :=
  records.foldl (fun result record => max result record.batch) 0

theorem lastBatch_rows (environment : Environment) (world : World) :
    Yields (lastBatch environment) world fun result after => after = counted world ∧
      ∀ batch, result = .ok batch →
        batch = greatestBatch (environment.rows world.calls world.store.records) := by
  refine (applied_rows environment world).bind (fun raised after seen => ⟨seen.1, nofun⟩)
    fun rows after seen => ?_
  rw [seen.2 rows rfl]
  exact ⟨seen.1, fun batch returned => (Except.ok.inj returned).symm⟩

/-- Only which names are recorded counts, not the order of the rows. -/
theorem pending_congr {names others : List Bytes} (same : ∀ name, name ∈ names ↔ name ∈ others)
    (migrations : List Named) : pending names migrations = pending others migrations := by
  unfold pending
  congr 2
  funext item
  rw [decide_eq_decide.mpr (not_congr (same item.name))]

theorem greatestBatch_max :
    (0 :: records.map Record.batch).max? = some (greatestBatch records) := by
  rw [max?_cons', foldl_map]
  rfl

theorem le_greatestBatch {records : List Record} (member : entry ∈ records) :
    entry.batch ≤ greatestBatch records :=
  (max?_eq_some_iff.mp (greatestBatch_max records)).2 _
    (mem_cons_of_mem _ (mem_map_of_mem member))

/-- What a call of `migrate` comes to: progress in a batch of its own. -/
def Migrated (migrations : List Named) (before : World) (result : Except Exception Nat)
    (after : World) : Prop :=
  ∃ batch begun finished, (∀ entry ∈ before.store.records, entry.batch < batch) ∧
    Progress (pending (recordedNames before.store) migrations) batch before result after begun
      finished

/-- The queries before the loop, and the loop. -/
theorem migrate_progress (attempts : Attempts environment Good)
    (distinct : (migrations.map Named.name).Nodup) (good : Good world) :
    Yields (migrate environment migrations) world (Migrated migrations world) := by
  have failed : ∀ {raised : Exception} {after : World}, Quiet world after →
      Migrated migrations world (.error raised) after :=
    fun quiet => ⟨greatestBatch world.store.records + 1, [], [],
      fun _ member => Nat.lt_succ_of_le (le_greatestBatch member),
      .none quiet.settled quiet.records quiet.applied quiet.started nofun⟩
  have one := quiet_counted world
  have two := Quiet.trans _ _ _ one (quiet_counted (counted world))
  have three := Quiet.trans _ _ _ two (quiet_counted (counted (counted world)))
  have ensured : Yields (ensure environment) world fun _ after => after = counted world :=
    query_counted environment (ensureStatement world.connection.backend) world
  refine ensured.bind (fun _ _ same => failed (same ▸ one)) fun _ after same => ?_
  subst same
  refine (applied_rows environment (counted world)).bind (fun _ _ seen => failed (seen.1 ▸ two))
    fun rows after seen => ?_
  obtain ⟨rfl, found⟩ := seen
  cases found rows rfl
  refine (lastBatch_rows environment (counted (counted world))).bind
    (fun _ _ seen => failed (seen.1 ▸ three)) fun last after seen => ?_
  obtain ⟨rfl, found⟩ := seen
  cases found last rfl
  have listed : ∀ name, name ∈ (environment.rows (counted world).calls
      (counted world).store.records).map Record.name ↔ name ∈ recordedNames world.store :=
    fun name => ((environment.rows_perm _ _).map Record.name).mem_iff
  obtain ⟨begun, finished, progress⟩ := migrateLoop_progress attempts
    ((environment.rows (counted world).calls (counted world).store.records).map Record.name)
    (greatestBatch (environment.rows (counted (counted world)).calls
      (counted (counted world)).store.records) + 1)
    distinct 0 (attempts.stable three.settled good)
    (fun item _ unlisted recorded => unlisted ((listed item.name).mpr recorded))
  rw [pending_congr listed] at progress
  refine ⟨_, begun, finished, fun entry member => ?_, progress.after_quiet three⟩
  exact Nat.lt_succ_of_le (le_greatestBatch ((environment.rows_perm _ _).mem_iff.mpr member))

/-! ## Repeated runs -/

/-- The recorded migrations are those whose `up` body is in effect. -/
def Consistent (store : Store) : Prop :=
  ∀ name, name ∈ recordedNames store ↔ name ∈ store.applied

theorem Progress.recorded (progress : Progress waiting batch before result after begun finished) :
    recordedNames after.store = recordedNames before.store ++ finished := by
  unfold recordedNames
  rw [progress.records, map_append, map_map]
  exact congrArg _ (map_id _)

theorem Progress.consistent (progress : Progress waiting batch before result after begun finished)
    (consistent : Consistent before.store) : Consistent after.store := by
  intro name
  rw [progress.recorded, progress.applied, mem_append, mem_append]
  exact or_congr_left (consistent name)

/-- Calls of `migrate` with one list, one after the other, each in an environment of its own. -/
def migrateRuns (migrations : List Named) (world : World) : List Environment → World
  | [] => world
  | environment :: rest =>
    migrateRuns migrations ((migrate environment migrations).run.run world).2 rest

/-- What holds between two calls. -/
structure Ready (world : World) : Prop where
  aligned : Aligned world
  supports : world.supportsTransactions = true
  consistent : Consistent world.store

theorem transactional_progress (rollbacks : RollbacksDone environment) (aligned : Aligned world)
    (supports : world.supportsTransactions = true) (distinct : (migrations.map Named.name).Nodup) :
    Yields (migrate environment migrations) world (Migrated migrations world) :=
  have attempts : Attempts environment
      fun state => Aligned state ∧ state.supportsTransactions = true :=
    ⟨fun settled good => ⟨settled.aligned good.1, settled.supports.trans good.2⟩,
      fun good entry migration _ => upIsolated_attempt rollbacks good.1 good.2 entry migration⟩
  migrate_progress attempts distinct ⟨aligned, supports⟩

theorem ready_migrate (rollbacks : RollbacksDone environment) (ready : Ready world)
    (distinct : (migrations.map Named.name).Nodup) :
    Ready ((migrate environment migrations).run.run world).2 := by
  obtain ⟨batch, begun, finished, _, progress⟩ :=
    transactional_progress rollbacks ready.aligned ready.supports distinct
  exact ⟨progress.settled.aligned ready.aligned, progress.settled.supports.trans ready.supports,
    progress.consistent ready.consistent⟩

theorem ready_migrateRuns {environments : List Environment}
    (distinct : (migrations.map Named.name).Nodup)
    (rollbacks : ∀ environment ∈ environments, RollbacksDone environment) (ready : Ready world) :
    Ready (migrateRuns migrations world environments) := by
  induction environments generalizing world with
  | nil => exact ready
  | cons environment rest ih =>
    obtain ⟨first, others⟩ := forall_mem_cons.mp rollbacks
    exact ih others (ready_migrate first ready distinct)

/-- After a call that has returned, nothing is pending. -/
theorem Progress.none_pending {names : List Bytes} {batch count : Nat}
    (progress : Progress (pending names migrations) batch before (.ok count) after begun finished)
    (recorded : ∀ name, name ∈ names ↔ name ∈ recordedNames before.store) :
    pending (recordedNames after.store) migrations = [] := by
  have all := progress.complete count rfl
  unfold pending
  rw [map_eq_nil_iff, filter_eq_nil_iff]
  intro item member unrecorded
  obtain ⟨present, unlisted⟩ := Bool.and_eq_true_iff.mp unrecorded
  refine of_decide_eq_true unlisted ?_
  rw [progress.recorded, mem_append, all]
  by_cases listed : item.name ∈ names
  · exact .inl ((recorded item.name).mp listed)
  · refine .inr (mem_map.mpr ⟨item, mem_filter.mpr ⟨member, ?_⟩, rfl⟩)
    rw [present, decide_eq_true listed]
    rfl

/-- After every sequence of calls, with failures at any points but in rollbacks, a further call
leaves the recorded migrations in step with the bodies in effect. It begins the remaining
migrations in the order of the list, and none that is in effect; when it returns, none
remains; where none remains, it begins nothing. -/
theorem migration_bookkeeping {migrations : List Named} {environments : List Environment}
    (distinct : (migrations.map Named.name).Nodup) (ready : Ready world)
    (rollbacks : ∀ environment ∈ environments, RollbacksDone environment)
    (last : RollbacksDone environment) :
    let before := migrateRuns migrations world environments
    let after := ((migrate environment migrations).run.run before).2
    (Consistent after.store ∧ Settled before after) ∧
    (∃ begun, after.started = before.started ++ begun.map .up ∧
      begun <+: pending (recordedNames before.store) migrations ∧
      ∀ name ∈ begun, name ∉ before.store.applied) ∧
    (∀ count, ((migrate environment migrations).run.run before).1 = .ok count →
      pending (recordedNames after.store) migrations = []) ∧
    (pending (recordedNames before.store) migrations = [] → after.started = before.started) := by
  have ready := ready_migrateRuns distinct rollbacks ready
  obtain ⟨batch, begun, finished, _, progress⟩ :=
    transactional_progress last ready.aligned ready.supports distinct
  refine ⟨⟨progress.consistent ready.consistent, progress.settled⟩,
    ⟨begun, progress.started, progress.ordered, fun name member => ?_⟩, fun count returned => ?_,
    fun idle => ?_⟩
  · obtain ⟨item, waiting, rfl⟩ := mem_map.mp (progress.ordered.subset member)
    have unlisted := (Bool.and_eq_true_iff.mp (mem_filter.mp waiting).2).2
    exact fun inEffect => of_decide_eq_true unlisted ((ready.consistent item.name).mpr inEffect)
  · have complete := progress
    rw [returned] at complete
    exact complete.none_pending fun _ => Iff.rfl
  · have nothing := progress.ordered
    rw [idle, prefix_nil] at nothing
    rw [progress.started, nothing]
    exact append_nil _

/-- Rows in the order of their batches; rows of one batch in the order of their insertion. -/
def inOrder : List Record → List Record :=
  insertionSort fun first second => first.batch ≤ second.batch

theorem inOrder_sorted :
    (inOrder records).Pairwise fun first second => first.batch ≤ second.batch :=
  pairwise_insertionSort _ records

def inOrderEnvironment (answer : Nat → DriverCall → Answer) : Environment where
  answer := answer
  rows := fun _ => inOrder
  rows_perm := fun _ records => perm_insertionSort _ records
  rows_sorted := fun _ => inOrder_sorted

def emptyWorld : World := ⟨.initial .sqlite true, true, ⟨[], [], []⟩, [], 0, []⟩

def createUsers : Named := ⟨ascii "users", some ⟨.ok [ascii "CREATE TABLE users"], .ok []⟩⟩

def refusedRollback : Environment := inOrderEnvironment fun _ call =>
  if call = .rollback ∨ call = .execute (recordStatement .sqlite) then
    .refused ⟨.runtimeError, ascii "connection lost"⟩
  else .done

/-- The body is in effect, in a transaction that nothing closes, and is not recorded. -/
theorem unrecorded_body :
    let after := ((migrate refusedRollback [createUsers]).run.run emptyWorld).2
    after.store.applied = [ascii "users"] ∧ recordedNames after.store = [] ∧
      after.connection.inTransaction = true := by
  decide

def refusedRow : Environment := inOrderEnvironment fun _ call =>
  if call = .execute (recordStatement .sqlite) then .refused ⟨.runtimeError, ascii "disk full"⟩
  else .done

/-- A statement that begins with the letter `R` is done. -/
theorem refusedRow_done (number : Nat) {statement : Bytes} (first : statement.head? = some 82) :
    refusedRow.answer number (.execute statement) = .done := by
  refine if_neg fun same => ?_
  rw [DriverCall.execute.inj same] at first
  exact absurd first (by decide)

theorem refusedRow_rollbacks : RollbacksDone refusedRow where
  root := fun _ => rfl
  mssql := fun number _ => refusedRow_done number rfl
  savepoint := fun number _ => refusedRow_done number rfl

def allDone : Environment := inOrderEnvironment fun _ _ => .done

/-- The first call fails at the row and the second one succeeds. -/
theorem migration_bookkeeping_sample :
    pending (recordedNames ((migrate allDone [createUsers]).run.run
      (migrateRuns [createUsers] emptyWorld [refusedRow])).2.store) [createUsers] = [] :=
  (migration_bookkeeping (by decide) (show Ready emptyWorld from ⟨rfl, rfl, fun _ => Iff.rfl⟩)
    (forall_mem_singleton.mpr refusedRow_rollbacks)
    ⟨fun _ => rfl, fun _ _ => rfl, fun _ _ => rfl⟩).2.2.1 1 (by decide)

end Gungnir.Migrations
