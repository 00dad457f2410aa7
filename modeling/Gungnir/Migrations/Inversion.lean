import Gungnir.Migrations.Bookkeeping

/-!
# Taking migrations back

`rollback` takes the rows with the greatest batch in the reverse of the order in which the
query returns them, and `reset` repeats it. The query orders by the batch only. So what is
taken back is right, and the order in which it is taken back is right as long as no call of
`migrate` has applied two migrations.
-/

namespace Gungnir.Migrations

open Gungnir.Core Gungnir.Database Gungnir.Library List

variable {environment : Environment} {world : World}

/-! ## Runs without failures -/

/-- The driver does what it is asked. -/
def Smooth (environment : Environment) : Prop :=
  ∀ number call, environment.answer number call = .done

theorem Smooth.rollbacks (smooth : Smooth environment) : RollbacksDone environment :=
  ⟨fun _ => smooth _ _, fun _ _ => smooth _ _, fun _ _ => smooth _ _⟩

/-- If there are transactions, one can be begun here. -/
def Usable (world : World) : Prop :=
  world.supportsTransactions = true → world.connection.transactionDepth = 0 ∨
    world.connection.supportsSavepoints = true ∧ world.connection.backend ≠ .mongodb

variable {before : World}

theorem Settled.usable {after : World} (settled : Settled before after) (usable : Usable before) :
    Usable after := by
  unfold Usable
  rw [settled.supports, settled.depth, settled.savepoints, settled.backend]
  exact usable

section

variable (smooth : Smooth environment)
include smooth

theorem Smooth.driver (world : World) (call : DriverCall) :
    world.driver environment call = .ok () := by
  unfold World.driver
  rw [smooth]
  rfl

theorem execute_smooth (statement : Bytes) {effect : Store → Except Exception Store}
    {store : Store} (written : effect world.store = .ok store) :
    (execute environment statement effect).run.run world =
      (.ok (), { world with calls := world.calls + 1, store := store }) := by
  change world.execute environment statement effect = _
  unfold World.execute
  rw [smooth, written]

theorem executePlan_smooth (statements : List Bytes) (world : World) :
    ∃ after, (executePlan environment statements).run.run world = (.ok (), after) := by
  induction statements generalizing world with
  | nil => exact ⟨world, rfl⟩
  | cons statement rest ih =>
    have first : (executeStatement environment statement).run.run world = (.ok (), _) :=
      execute_smooth smooth statement rfl
    obtain ⟨after, ran⟩ := ih { world with
      calls := world.calls + 1
      store := { world.store with statements := world.store.statements ++ [statement] } }
    exact ⟨after, (run_bind_ok first).trans ran⟩

end

variable {migration : Migration} {statements : List Bytes}

/-- A body whose plan can be made is run to its end. -/
theorem runUp_smooth (smooth : Smooth environment) (plan : migration.planUp = .ok statements)
    (name : Bytes) (world : World) :
    ((runUp environment name migration).run.run world).1 = .ok () := by
  obtain ⟨after, ran⟩ := executePlan_smooth smooth statements
    { world with started := world.started ++ [.up name] }
  have unfolded : (runUp environment name migration).run.run world =
      (executePlan environment statements >>= fun _ => modify fun world =>
        { world with store :=
          { world.store with applied := world.store.applied ++ [name] } }).run.run
        { world with started := world.started ++ [.up name] } := by
    unfold runUp
    rw [plan]
    rfl
  rw [unfolded, run_bind_ok ran]
  rfl

theorem runUp_unplanned {raised : Exception} (plan : migration.planUp = .error raised)
    (name : Bytes) (world : World) :
    (runUp environment name migration).run.run world =
      (.error raised, { world with started := world.started ++ [.up name] }) := by
  unfold runUp
  rw [plan]
  rfl

section

variable (smooth : Smooth environment)
include smooth

/-- Without a transaction, too, a body and its row are both there, or neither. -/
theorem upAndRecord_attempt (entry : Record) (migration : Migration)
    (fresh : entry.name ∉ recordedNames world.store) :
    Yields (upAndRecord environment entry migration) world (Attempt entry world) := by
  unfold Yields upAndRecord
  cases plan : migration.planUp with
  | error raised =>
    rw [run_bind_error (runUp_unplanned plan entry.name world)]
    exact ⟨⟨rfl, rfl, rfl, rfl, rfl⟩, .inr ⟨raised, rfl, rfl, .inr rfl⟩⟩
  | ok statements =>
    have upped : Upped entry.name world _ _ := runUp_upped environment entry.name migration world
    have ended := runUp_smooth smooth plan entry.name world
    cases ran : (runUp environment entry.name migration).run.run world with
    | mk result middle =>
      rw [ran] at upped ended
      cases ended
      have written : insertRecord entry middle.store =
          .ok { middle.store with records := middle.store.records ++ [entry] } := by
        unfold insertRecord
        rw [upped.records]
        exact if_neg fresh
      have recorded : (record environment entry).run.run middle = (.ok (), _) :=
        execute_smooth smooth (recordStatement middle.connection.backend) written
      rw [run_bind_ok ran, recorded]
      refine ⟨⟨congrArg _ upped.connection, upped.snapshots, upped.supports,
        congrArg _ upped.connection, congrArg _ upped.connection⟩, .inl ⟨upped.started, ?_, ?_⟩⟩
      · exact congrArg (· ++ [entry]) upped.records
      · exact upped.applied rfl

/-! ## Transactions without failures -/

theorem beginScope_smooth (usable : Usable world) (supports : world.supportsTransactions = true) :
    ∃ token opened, world.beginScope environment = (.ok token, opened) := by
  unfold World.beginScope Connection.beginScope
  by_cases outside : world.connection.transactionDepth = 0
  · rw [if_pos outside, smooth.driver]
    exact ⟨_, _, rfl⟩
  · obtain ⟨savepoints, backend⟩ := (usable supports).resolve_left outside
    rw [if_neg outside, if_neg (by rw [savepoints]; nofun)]
    dsimp only [Connection.nextSavepointName]
    rw [if_neg backend, smooth.driver]
    exact ⟨_, _, rfl⟩

theorem commitScope_smooth {token : TransactionToken}
    (valid : world.connection.validateScopeToken token = .ok ()) :
    ∃ last, world.commitScope environment token = (.ok (), last) := by
  unfold World.commitScope Connection.commitScope
  rw [valid]
  cases token.root with
  | true =>
    rw [if_pos rfl, smooth.driver]
    exact ⟨_, rfl⟩
  | false =>
    have released : Connection.releaseSavepoint (world.driver environment)
        world.connection.backend token.savepoint = .ok () := by
      unfold Connection.releaseSavepoint
      split
      · exact smooth.driver _ _
      · rfl
    rw [if_neg Bool.false_ne_true, released]
    exact ⟨_, rfl⟩

theorem transaction_smooth (usable : Usable world) (supports : world.supportsTransactions = true)
    {body : Run Unit} (framed : Moves body Inside)
    (returns : ∀ state, (body.run.run state).1 = .ok ()) :
    ((transaction environment body).run.run world).1 = .ok () := by
  obtain ⟨token, opened, begun⟩ := beginScope_smooth smooth usable supports
  have scope : Opened world token opened := by
    rcases beginScope_opened environment world with
      ⟨raised, after, refused, _⟩ | ⟨other, after, done, scope⟩
    · cases begun.symm.trans refused
    · cases begun.symm.trans done
      exact scope
  have ran : (beginScope environment).run.run world = (.ok token, opened) := begun
  unfold transaction
  rw [run_bind_ok ran]
  have inside := framed opened
  have ended := returns opened
  cases done : body.run.run opened with
  | mk result inner =>
    rw [done] at inside ended
    cases ended
    have valid := scope.valid
    rw [← inside.connection] at valid
    obtain ⟨last, committed⟩ := commitScope_smooth smooth valid
    have finished : (commitScope environment token).run.run inner = (.ok (), last) := committed
    rw [run_bind_ok (run_tryCatch_ok done), run_tryCatch_ok finished]

end

/-- What a call needs: transactions can be begun, and the database and the connection have the
same open scopes. -/
structure Sound (world : World) : Prop where
  aligned : Aligned world
  usable : Usable world

theorem Settled.sound {after : World} (settled : Settled before after) (sound : Sound before) :
    Sound after :=
  ⟨settled.aligned sound.aligned, settled.usable sound.usable⟩

theorem isolated_direct (supports : world.supportsTransactions = false) (body : Run Unit) :
    (isolated environment body).run.run world = body.run.run world := by
  change (if world.supportsTransactions = true then _ else _ : Run Unit).run.run world = _
  rw [supports]
  rfl

/-! ## One migration taken back -/

/-- The body `down` has been run and its row is gone. -/
structure Downed (name : Bytes) (before after : World) : Prop where
  started : after.started = before.started ++ [.down name]
  records : after.store.records = before.store.records.filter fun record => record.name ≠ name
  applied : after.store.applied = before.store.applied.filter (· ≠ name)

def downAndRemove (environment : Environment) (name : Bytes) (migration : Migration) :
    Run Unit := do
  runDown environment name migration
  remove environment name

theorem downAndRemove_run (smooth : Smooth environment) (plan : migration.planDown = .ok statements)
    (name : Bytes) (world : World) :
    ∃ after, (downAndRemove environment name migration).run.run world = (.ok (), after) ∧
      Inside world after ∧ Downed name world after := by
  let begun : World := { world with started := world.started ++ [.down name] }
  obtain ⟨planned, ran⟩ := executePlan_smooth smooth statements begun
  have quiet := executePlan_quiet environment statements begun
  rw [ran] at quiet
  let middle : World := { planned with
    store := { planned.store with applied := planned.store.applied.filter (· ≠ name) } }
  have down : (runDown environment name migration).run.run world = (.ok (), middle) := by
    have unfolded : (runDown environment name migration).run.run world =
        (executePlan environment statements >>= fun _ => modify fun world =>
          { world with store :=
            { world.store with applied := world.store.applied.filter (· ≠ name) } }).run.run
          begun := by
      unfold runDown
      rw [plan]
      rfl
    rw [unfolded, run_bind_ok ran]
    rfl
  have removed : (remove environment name).run.run middle = (.ok (), _) :=
    execute_smooth smooth (removeStatement middle.connection.backend) rfl
  rw [downAndRemove, run_bind_ok down]
  refine ⟨_, removed, ⟨quiet.connection, quiet.snapshots, quiet.supports⟩, quiet.started, ?_, ?_⟩
  · exact congrArg (filter _) quiet.records
  · exact congrArg (filter _) quiet.applied

/-- The body with its row, as `rollback` executes them. -/
def downIsolated (environment : Environment) (name : Bytes) (migration : Migration) : Run Unit :=
  isolated environment (downAndRemove environment name migration)

theorem downIsolated_run (smooth : Smooth environment) (sound : Sound world)
    (plan : migration.planDown = .ok statements) (name : Bytes) :
    ∃ after, (downIsolated environment name migration).run.run world = (.ok (), after) ∧
      Settled world after ∧ Downed name world after := by
  have body := downAndRemove_run smooth plan name
  unfold downIsolated
  cases supports : world.supportsTransactions with
  | false =>
    obtain ⟨after, ran, inside, downed⟩ := body world
    refine ⟨after, (isolated_direct supports _).trans ran,
      ⟨?_, inside.snapshots, inside.supports, ?_, ?_⟩, downed⟩
    all_goals rw [inside.connection]
  | true =>
    have framed : Moves (downAndRemove environment name migration) Inside := by
      intro state
      obtain ⟨after, ran, inside, _⟩ := body state
      rw [ran]
      exact inside
    have returns := transaction_smooth smooth sound.usable supports framed fun state => by
      obtain ⟨after, ran, _⟩ := body state
      rw [ran]
    obtain ⟨settled, enclosed⟩ := transaction_enclosed smooth.rollbacks sound.aligned framed
    rw [isolated_run supports]
    refine ⟨_, Prod.ext returns rfl, settled, ?_⟩
    cases enclosed with
    | unbegun thrown => cases returns.symm.trans thrown
    | undone token scope thrown => cases returns.symm.trans thrown
    | @kept opened inner token scope ran store started =>
      obtain ⟨after, done, _, downed⟩ := body opened
      cases ran.symm.trans done
      refine ⟨?_, ?_, ?_⟩
      · rw [started, downed.started, scope.started]
      · rw [store, downed.records, scope.store]
      · rw [store, downed.applied, scope.store]

/-! ## The loop of `rollback` -/

/-- Every row is that of a migration of the list whose `down` plan can be made. -/
def Registered (migrations : List Named) (records : List Record) : Prop :=
  ∀ entry ∈ records, ∃ migration statements,
    (migrations.find? fun item => item.name = entry.name).bind Named.migration = some migration ∧
      migration.planDown = .ok statements

/-- Some rows have been taken back in the given order. -/
structure TakenBack (rows : List Record) (before after : World) : Prop where
  settled : Settled before after
  started : after.started = before.started ++ rows.map fun entry => .down entry.name
  records : after.store.records =
    before.store.records.filter fun record => record.name ∉ rows.map Record.name
  applied : after.store.applied = before.store.applied.filter (· ∉ rows.map Record.name)

theorem TakenBack.none {after : World} (settled : Settled world after)
    (started : after.started = world.started) (store : after.store = world.store) : TakenBack [] world after where
  settled := settled
  started := by rw [started, map_nil, append_nil]
  records := by simp [store]
  applied := by simp [store]

theorem TakenBack.single {entry : Record} {after : World} (settled : Settled before after)
    (downed : Downed entry.name before after) : TakenBack [entry] before after where
  settled := settled
  started := downed.started
  records := by simp [downed.records]
  applied := by simp [downed.applied]

theorem TakenBack.append {first second : List Record} {middle after : World}
    (front : TakenBack first before middle) (back : TakenBack second middle after) :
    TakenBack (first ++ second) before after := by
  have both : ∀ name : Bytes, (decide (name ∉ second.map Record.name) &&
      decide (name ∉ first.map Record.name)) =
        decide (name ∉ (first ++ second).map Record.name) := by
    intro name
    rw [Bool.eq_iff_iff, Bool.and_eq_true_iff, decide_eq_true_iff, decide_eq_true_iff,
      decide_eq_true_iff, map_append, mem_append, not_or]
    exact and_comm
  refine ⟨front.settled.trans back.settled, ?_, ?_, ?_⟩
  · rw [back.started, front.started, append_assoc, ← map_append]
  · rw [back.records, front.records, filter_filter]
    exact filter_congr fun record _ => both record.name
  · rw [back.applied, front.applied, filter_filter]
    exact filter_congr fun name _ => both name

theorem rollbackLoop_takenBack (smooth : Smooth environment) {migrations : List Named} {batch : Nat}
    {rows : List Record} (registered : Registered migrations rows) (count : Nat) {world : World}
    (sound : Sound world) :
    ∃ after, (rows.foldlM (rollbackOne environment migrations batch) count).run.run world =
        (.ok (count + (rows.filter (·.batch = batch)).length), after) ∧
      TakenBack (rows.filter (·.batch = batch)) world after := by
  induction rows generalizing count world with
  | nil => exact ⟨world, rfl, .none (.refl world) rfl rfl⟩
  | cons entry rest ih =>
    obtain ⟨⟨migration, statements, found, plan⟩, others⟩ := forall_mem_cons.mp registered
    rw [foldlM_cons]
    by_cases other : entry.batch = batch
    · obtain ⟨middle, down, settled, downed⟩ := downIsolated_run smooth sound plan entry.name
      have one : (rollbackOne environment migrations batch count entry).run.run world =
          (.ok (count + 1), middle) := by
        have unfolded : rollbackOne environment migrations batch count entry = (do
            downIsolated environment entry.name migration
            return count + 1) := by
          unfold rollbackOne
          rw [if_neg (not_not.mpr other), found]
          rfl
        rw [unfolded, run_bind_ok down]
        rfl
      obtain ⟨after, ran, takenBack⟩ := ih others (count + 1) (settled.sound sound)
      rw [run_bind_ok one, ran, filter_cons_of_pos (by exact decide_eq_true other),
        length_cons, Nat.add_right_comm, Nat.add_assoc]
      exact ⟨after, rfl, (TakenBack.single settled downed).append takenBack⟩
    · have one : (rollbackOne environment migrations batch count entry).run.run world =
          (.ok count, world) := by
        unfold rollbackOne
        rw [if_pos other]
        rfl
      rw [run_bind_ok one, filter_cons_of_neg (by simpa using other)]
      exact ih others count sound

variable {records others : List Record}

theorem greatestBatch_perm (same : records.Perm others) :
    greatestBatch records = greatestBatch others := by
  have : RightCommutative fun (result : Nat) (record : Record) => max result record.batch :=
    ⟨fun result first second => by omega⟩
  exact same.foldl_eq 0

variable {rows : List Record}

theorem TakenBack.after_quiet {middle after : World} (quiet : Quiet before middle)
    (rest : TakenBack rows middle after) : TakenBack rows before after where
  settled := quiet.settled.trans rest.settled
  started := by rw [rest.started, quiet.started]
  records := by rw [rest.records, quiet.records]
  applied := by rw [rest.applied, quiet.applied]

/-- The rows that `rollback` takes back, in that order. -/
def lastRows (environment : Environment) (number : Nat) (records : List Record) : List Record :=
  (environment.rows number records).reverse.filter (·.batch = greatestBatch records)

section

variable (smooth : Smooth environment)
include smooth

theorem query_smooth (statement : Bytes) (world : World) :
    (execute environment statement .ok).run.run world = (.ok (), counted world) :=
  execute_smooth smooth statement rfl

theorem applied_smooth (world : World) :
    (applied environment).run.run world =
      (.ok (environment.rows world.calls world.store.records), counted world) :=
  run_bind_ok (query_smooth smooth (appliedStatement world.connection.backend) world)

theorem lastBatch_smooth (world : World) :
    (lastBatch environment).run.run world =
      (.ok (greatestBatch world.store.records), counted world) := by
  rw [← greatestBatch_perm (environment.rows_perm world.calls world.store.records)]
  exact run_bind_ok (applied_smooth smooth world)

end

variable {migrations : List Named}

theorem rollback_takenBack (smooth : Smooth environment) (sound : Sound world)
    (registered : Registered migrations world.store.records) :
    ∃ after, (rollback environment migrations).run.run world =
        (.ok (lastRows environment (world.calls + 1) world.store.records).length, after) ∧
      TakenBack (lastRows environment (world.calls + 1) world.store.records) world after := by
  have rows := environment.rows_perm (world.calls + 1) world.store.records
  have ensured : (ensure environment).run.run world = (.ok (), counted world) :=
    query_smooth smooth (ensureStatement world.connection.backend) world
  have two := Quiet.trans _ _ _ (quiet_counted world) (quiet_counted (counted world))
  have three := Quiet.trans _ _ _ two (quiet_counted (counted (counted world)))
  unfold rollback
  rw [run_bind_ok ensured, run_bind_ok (applied_smooth smooth (counted world))]
  cases listed : environment.rows (world.calls + 1) world.store.records with
  | nil =>
    have nothing : lastRows environment (world.calls + 1) world.store.records = [] := by
      unfold lastRows
      rw [listed]
      rfl
    have listed : environment.rows (counted world).calls (counted world).store.records = [] :=
      listed
    rw [nothing, listed]
    exact ⟨counted (counted world), rfl, .none two.settled rfl rfl⟩
  | cons first rest =>
    have some : (environment.rows (counted world).calls (counted world).store.records).isEmpty =
        false := by
      change (environment.rows (world.calls + 1) world.store.records).isEmpty = false
      rw [listed]
      rfl
    rw [some, if_neg Bool.false_ne_true,
      run_bind_ok (lastBatch_smooth smooth (counted (counted world)))]
    obtain ⟨after, ran, takenBack⟩ := @rollbackLoop_takenBack environment smooth migrations
      (greatestBatch world.store.records)
      (environment.rows (world.calls + 1) world.store.records).reverse
      (fun entry member => registered entry (rows.mem_iff.mp (mem_reverse.mp member))) 0
      (counted (counted (counted world))) (three.settled.sound sound)
    rw [Nat.zero_add] at ran
    exact ⟨after, ran, takenBack.after_quiet three⟩

/-! ## The loop of `reset` -/

variable (batch : Nat)

def batchRows (records : List Record) : List Record :=
  records.filter (·.batch = batch)

theorem lastRows_perm (environment : Environment) (number : Nat) (records : List Record) :
    (lastRows environment number records).Perm (batchRows (greatestBatch records) records) :=
  ((reverse_perm _).trans (environment.rows_perm number records)).filter _

theorem greatestBatch_attained (some : records ≠ []) :
    ∃ entry ∈ records, entry.batch = greatestBatch records := by
  rcases mem_cons.mp (max?_mem (greatestBatch_max records)) with zero | found
  · obtain ⟨entry, member⟩ := exists_mem_of_ne_nil records some
    have low := le_greatestBatch member
    refine ⟨entry, member, Nat.le_antisymm low ?_⟩
    rw [zero]
    exact Nat.zero_le _
  · exact mem_map.mp found

/-- The rows behind a rollback are those of the other batches. -/
theorem remaining_rows {batch : Nat} (distinct : (records.map Record.name).Nodup)
    (taken : rows.Perm (batchRows batch records)) :
    (records.filter fun record => record.name ∉ rows.map Record.name) =
      records.filter (·.batch ≠ batch) := by
  refine filter_congr fun record member => decide_eq_decide.mpr (not_congr ?_)
  constructor
  · intro listed
    obtain ⟨other, inRows, same⟩ := mem_map.mp listed
    obtain ⟨inRecords, inBatch⟩ := mem_filter.mp (taken.mem_iff.mp inRows)
    rw [← inj_on_of_nodup_map distinct inRecords member same]
    exact of_decide_eq_true inBatch
  · intro inBatch
    refine mem_map_of_mem (taken.mem_iff.mpr (mem_filter.mpr ⟨member, ?_⟩))
    exact decide_eq_true inBatch

/-- The order in which `reset` takes rows back: later batches first, and each batch in the reverse
of an order in which some query has returned its rows. -/
structure ResetOrder (environment : Environment) (records order : List Record) : Prop where
  perm : order.Perm records
  descending : order.Pairwise fun first second => second.batch ≤ first.batch
  each : ∀ batch, ∃ number rest, batchRows batch rest = batchRows batch records ∧
    batchRows batch order = batchRows batch (environment.rows number rest).reverse

theorem ResetOrder.nil (environment : Environment) : ResetOrder environment [] [] where
  perm := .refl _
  descending := .nil
  each := fun _ => ⟨0, [], rfl, by
    rw [(environment.rows_perm 0 []).eq_nil]
    rfl⟩

theorem batchRows_batchRows (records : List Record) :
    batchRows batch (batchRows batch records) = batchRows batch records := by
  unfold batchRows
  rw [filter_filter]
  exact filter_congr fun record _ => Bool.and_self _

theorem batchRows_other {batch other : Nat} (different : batch ≠ other) (records : List Record) :
    batchRows batch (records.filter (·.batch ≠ other)) = batchRows batch records := by
  unfold batchRows
  rw [filter_filter]
  refine filter_congr fun record _ => ?_
  rw [← Bool.decide_and, decide_eq_decide, and_iff_left_iff_imp]
  exact fun same => same ▸ different

theorem batchRows_eq_nil {batch : Nat} (none : ∀ entry ∈ records, entry.batch ≠ batch) :
    batchRows batch records = [] :=
  filter_eq_nil_iff.mpr fun entry member same => none entry member (of_decide_eq_true same)

/-- One rollback and the ones behind it. -/
theorem ResetOrder.step {order : List Record} (number : Nat)
    (rest : ResetOrder environment (records.filter (·.batch ≠ greatestBatch records)) order) :
    ResetOrder environment records (lastRows environment number records ++ order) := by
  have taken := lastRows_perm environment number records
  have last : ∀ entry ∈ lastRows environment number records,
      entry.batch = greatestBatch records := fun entry member =>
    of_decide_eq_true (mem_filter.mp member).2
  have others : ∀ entry ∈ order, entry ∈ records ∧ entry.batch ≠ greatestBatch records := by
    intro entry member
    obtain ⟨listed, other⟩ := mem_filter.mp (rest.perm.mem_iff.mp member)
    exact ⟨listed, of_decide_eq_true other⟩
  refine ⟨?_, ?_, ?_⟩
  · refine (taken.append rest.perm).trans ?_
    have parts := filter_append_perm (fun record : Record => decide
      (record.batch = greatestBatch records)) records
    simpa only [batchRows, decide_not] using parts
  · refine pairwise_append.mpr ⟨?_, rest.descending, fun first inLast second inOrder => ?_⟩
    · refine pairwise_of_forall_mem_list fun first one second two => ?_
      rw [last first one, last second two]
    · rw [last first inLast]
      exact le_greatestBatch (others second inOrder).1
  · intro batch
    by_cases same : batch = greatestBatch records
    · refine ⟨number, records, rfl, ?_⟩
      have none : batchRows batch order = [] :=
        batchRows_eq_nil fun entry member equal => (others entry member).2 (equal.trans same)
      have all : batchRows batch (lastRows environment number records) =
          batchRows batch (environment.rows number records).reverse := by
        rw [same]
        exact batchRows_batchRows _ _
      unfold batchRows at none all ⊢
      rw [filter_append, none, all, append_nil]
    · obtain ⟨later, remaining, equal, ordered⟩ := rest.each batch
      refine ⟨later, remaining, equal.trans (batchRows_other same records), ?_⟩
      have none : batchRows batch (lastRows environment number records) = [] :=
        batchRows_eq_nil fun entry member equal => same (equal.symm.trans (last entry member))
      rw [← ordered]
      unfold batchRows at none ⊢
      rw [filter_append, none, nil_append]

theorem resetLoop_takenBack (smooth : Smooth environment) {fuel : Nat} (total : Nat)
    (sound : Sound world) (registered : Registered migrations world.store.records)
    (distinct : (recordedNames world.store).Nodup) (enough : world.store.records.length < fuel) :
    ∃ order after, (resetLoop environment migrations fuel total).run.run world =
        (.ok (total + world.store.records.length), after) ∧
      ResetOrder environment world.store.records order ∧ TakenBack order world after := by
  induction fuel generalizing total world with
  | zero => exact absurd enough (Nat.not_lt_zero _)
  | succ fuel ih =>
    obtain ⟨middle, ran, takenBack⟩ := rollback_takenBack smooth sound registered
    have taken := lastRows_perm environment (world.calls + 1) world.store.records
    set rows := lastRows environment (world.calls + 1) world.store.records
    unfold resetLoop
    rw [run_bind_ok ran]
    by_cases none : world.store.records = []
    · have nothing : rows = [] := by
        rw [none] at taken
        exact taken.eq_nil
      rw [nothing] at takenBack
      refine ⟨[], middle, ?_, ?_, takenBack⟩
      · rw [nothing, none]
        rfl
      · rw [none]
        exact .nil environment
    · have left : middle.store.records = world.store.records.filter
          (·.batch ≠ greatestBatch world.store.records) :=
        takenBack.records.trans (remaining_rows distinct taken)
      have sublist : middle.store.records.Sublist world.store.records := by
        rw [left]
        exact filter_sublist
      have counts : world.store.records.length =
          rows.length +
            middle.store.records.length := by
        have parts := @length_eq_length_filter_add _ world.store.records fun record : Record =>
          decide (record.batch = greatestBatch world.store.records)
        rw [taken.length_eq, left]
        simpa only [batchRows, decide_not] using parts
      have some : rows.length ≠ 0 := by
        obtain ⟨entry, member, greatest⟩ := greatestBatch_attained none
        have listed : entry ∈ rows :=
          taken.mem_iff.mpr (mem_filter.mpr ⟨member, decide_eq_true greatest⟩)
        exact (length_pos_of_mem listed).ne'
      obtain ⟨order, after, rest, ordered, behind⟩ := ih
        (total + rows.length)
        (takenBack.settled.sound sound) (fun entry member => registered entry (sublist.subset member))
        (distinct.sublist (sublist.map Record.name)) (by omega)
      rw [left] at ordered
      refine ⟨_, after, ?_, ordered.step (world.calls + 1), takenBack.append behind⟩
      rw [if_neg some, rest, Nat.add_assoc, ← counts]

/-! ## Calls of `migrate` -/

structure Call where
  environment : Environment
  migrations : List Named

/-- The names are distinct, and nothing fails, or whatever fails is taken back. -/
structure Admissible (supportsTransactions : Bool) (call : Call) : Prop where
  distinct : (call.migrations.map Named.name).Nodup
  driver : Smooth call.environment ∨
    supportsTransactions = true ∧ RollbacksDone call.environment

def Call.after (world : World) (call : Call) : World :=
  ((migrate call.environment call.migrations).run.run world).2

def migrateCalls (world : World) (calls : List Call) : World := calls.foldl Call.after world

/-- The migrations whose bodies a call has put into effect, in their order. -/
def Call.names (world : World) (call : Call) : List Bytes :=
  (call.after world).store.applied.drop world.store.applied.length

/-- The batches that calls form, the first one first. A call that has nothing to do forms none. -/
def batches (world : World) : List Call → List (List Bytes)
  | [] => []
  | call :: rest =>
    (if call.names world = [] then [] else [call.names world]) ++ batches (call.after world) rest

/-- Rows written in batches whose numbers grow. -/
inductive Chronicle : List (List Bytes) → List Record → Prop where
  | empty : Chronicle [] []
  | batch {groups : List (List Bytes)} {records : List Record} {names : List Bytes} {number : Nat}
      (earlier : Chronicle groups records) (some : names ≠ [])
      (greater : ∀ entry ∈ records, entry.batch < number) :
      Chronicle (groups ++ [names]) (records ++ names.map fun name => ⟨name, number⟩)

/-- What calls leave behind. -/
structure Written (groups : List (List Bytes)) (world : World) : Prop where
  sound : Sound world
  chronicle : Chronicle groups world.store.records
  distinct : (recordedNames world.store).Nodup
  applied : world.store.applied = recordedNames world.store

theorem upIsolated_smooth (smooth : Smooth environment) (sound : Sound world) (entry : Record)
    (migration : Migration) (fresh : entry.name ∉ recordedNames world.store) :
    Attempt entry world ((upIsolated environment entry migration).run.run world).1
      ((upIsolated environment entry migration).run.run world).2 := by
  cases supports : world.supportsTransactions with
  | true => exact upIsolated_attempt smooth.rollbacks sound.aligned supports entry migration
  | false =>
    unfold upIsolated
    rw [isolated_direct supports]
    exact upAndRecord_attempt smooth entry migration fresh

theorem admissible_progress {call : Call} (sound : Sound world)
    (admissible : Admissible world.supportsTransactions call) :
    Migrated call.migrations world ((migrate call.environment call.migrations).run.run world).1
      (call.after world) := by
  rcases admissible.driver with smooth | ⟨supports, rollbacks⟩
  · have attempts : Attempts call.environment Sound :=
      ⟨fun settled => settled.sound, fun sound => upIsolated_smooth smooth sound⟩
    exact migrate_progress attempts admissible.distinct sound
  · exact transactional_progress rollbacks sound.aligned supports admissible.distinct

theorem not_mem_of_pending {names : List Bytes} {name : Bytes}
    (waiting : name ∈ pending names migrations) : name ∉ names := by
  obtain ⟨item, listed, rfl⟩ := mem_map.mp waiting
  exact of_decide_eq_true (Bool.and_eq_true_iff.mp (mem_filter.mp listed).2).2

variable {groups : List (List Bytes)}

/-- A call, and the batch it forms. -/
theorem Written.call (written : Written groups world) {call : Call}
    (admissible : Admissible world.supportsTransactions call) :
    Written (groups ++ if call.names world = [] then [] else [call.names world])
        (call.after world) ∧
      (call.after world).supportsTransactions = world.supportsTransactions := by
  obtain ⟨batch, begun, finished, greater, progress⟩ := admissible_progress written.sound admissible
  have names : call.names world = finished := by
    unfold Call.names
    rw [progress.applied, drop_left]
  have recorded := progress.recorded
  have waiting := progress.within.trans progress.ordered
  refine ⟨⟨progress.settled.sound written.sound, ?_, ?_, ?_⟩, progress.settled.supports⟩
  · rw [names, progress.records]
    by_cases none : finished = []
    · rw [if_pos none, none, map_nil, append_nil, append_nil]
      exact written.chronicle
    · rw [if_neg none]
      exact .batch written.chronicle none greater
  · rw [recorded]
    refine nodup_append'.mpr ⟨written.distinct,
      (admissible.distinct.sublist (filter_sublist.map Named.name)).sublist waiting.sublist,
      fun name before new => ?_⟩
    exact not_mem_of_pending (waiting.subset new) before
  · rw [recorded, progress.applied, written.applied]

theorem Written.calls (written : Written groups world) {calls : List Call}
    (admissible : ∀ call ∈ calls, Admissible world.supportsTransactions call) :
    Written (groups ++ batches world calls) (migrateCalls world calls) := by
  induction calls generalizing groups world with
  | nil =>
    unfold batches
    rw [append_nil]
    exact written
  | cons call rest ih =>
    obtain ⟨first, others⟩ := forall_mem_cons.mp admissible
    obtain ⟨after, supports⟩ := written.call first
    rw [← supports] at others
    unfold batches
    rw [← append_assoc]
    exact ih after others

namespace Chronicle

variable {groups : List (List Bytes)} {records : List Record}

theorem names (chronicle : Chronicle groups records) :
    records.map Record.name = groups.flatten := by
  induction chronicle with
  | empty => rfl
  | batch earlier some greater ih =>
    rw [map_append, ih, map_map, flatten_append, flatten_singleton]
    exact congrArg _ (map_id _)

theorem sorted (chronicle : Chronicle groups records) :
    records.Pairwise fun first second => first.batch ≤ second.batch := by
  induction chronicle with
  | empty => exact .nil
  | @batch groups records names number earlier some greater ih =>
    refine pairwise_append.mpr ⟨ih, ?_, fun entry before other new => ?_⟩
    · exact pairwise_map.mpr
        (pairwise_of_forall_mem_list fun _ _ _ _ => Nat.le_refl _)
    · obtain ⟨name, _, rfl⟩ := mem_map.mp new
      exact (greater entry before).le

variable {names : List Bytes}

/-- The rows of the batch written last. -/
theorem batchRows_new {number : Nat} (greater : ∀ entry ∈ records, entry.batch < number) :
    (batchRows number (records ++ names.map fun name => ⟨name, number⟩)).map Record.name = names := by
  have none : batchRows number records = [] :=
    batchRows_eq_nil fun entry member => (greater entry member).ne
  unfold batchRows at none ⊢
  rw [filter_append, none, nil_append, filter_eq_self.mpr, map_map]
  · exact map_id _
  · exact forall_mem_map.mpr fun _ _ => decide_eq_true rfl

theorem batchRows_old {number other : Nat} (different : other ≠ number) :
    batchRows other (records ++ names.map fun name => ⟨name, number⟩) = batchRows other records := by
  have none : batchRows other (names.map fun name => (⟨name, number⟩ : Record)) = [] := by
    refine batchRows_eq_nil fun entry new equal => ?_
    obtain ⟨name, _, rfl⟩ := mem_map.mp new
    exact different equal.symm
  unfold batchRows at none ⊢
  rw [filter_append, none, append_nil]

theorem last (chronicle : Chronicle groups records) :
    (batchRows (greatestBatch records) records).map Record.name = groups.getLast?.getD [] := by
  cases chronicle with
  | empty => rfl
  | @batch groups records names number earlier some greater =>
    obtain ⟨name, member⟩ := exists_mem_of_ne_nil names some
    have new : (⟨name, number⟩ : Record) ∈
        records ++ names.map fun name => ⟨name, number⟩ :=
      mem_append_right _ (mem_map_of_mem member)
    have greatest : greatestBatch (records ++ names.map fun name => ⟨name, number⟩) = number := by
      refine Nat.le_antisymm ?_ (le_greatestBatch new)
      obtain ⟨entry, listed, equal⟩ := greatestBatch_attained (ne_nil_of_mem new)
      rw [← equal]
      rcases mem_append.mp listed with before | added
      · exact (greater entry before).le
      · obtain ⟨other, _, rfl⟩ := mem_map.mp added
        exact Nat.le_refl _
    rw [greatest, batchRows_new greater, getLast?_concat]
    rfl

/-- Every batch has rows of its own number. -/
theorem group (chronicle : Chronicle groups records) (member : names ∈ groups) :
    ∃ entry ∈ records, (batchRows entry.batch records).map Record.name = names := by
  induction chronicle with
  | empty => exact absurd member not_mem_nil
  | @batch groups records others number earlier some greater ih =>
    rcases mem_append.mp member with before | new
    · obtain ⟨entry, listed, equal⟩ := ih before
      refine ⟨entry, mem_append_left _ listed, ?_⟩
      rw [batchRows_old (greater entry listed).ne, equal]
    · obtain ⟨name, listed⟩ := exists_mem_of_ne_nil others some
      rw [mem_singleton.mp new]
      exact ⟨⟨name, number⟩, mem_append_right _ (mem_map_of_mem listed),
        batchRows_new greater⟩

theorem batchRows_short (chronicle : Chronicle groups records)
    (short : ∀ names ∈ groups, names.length ≤ 1) (number : Nat) :
    (batchRows number records).length ≤ 1 := by
  induction chronicle with
  | empty => exact Nat.zero_le _
  | @batch groups records names new earlier some greater ih =>
    by_cases same : number = new
    · rw [same, ← length_map Record.name, batchRows_new greater]
      exact short names (mem_append_right _ mem_cons_self)
    · rw [batchRows_old same]
      exact ih fun others member => short others (mem_append_left _ member)

end Chronicle

/-! ## Orders the query leaves open -/

theorem length_le_one_of_reverse_eq {names : List Bytes} (distinct : names.Nodup)
    (same : names.reverse = names) : names.length ≤ 1 := by
  by_contra long
  have ends : names[0] = names[names.length - 1 - 0] := by
    rw [← getElem_reverse]
    exact getElem_of_eq same.symm _
  have index := distinct.getElem_inj_iff.mp ends
  omega

theorem batchRows_inOrder (records : List Record) :
    batchRows batch (inOrder records) = batchRows batch records := by
  have equal : (batchRows batch records).Pairwise fun first second => first.batch ≤ second.batch := by
    refine pairwise_of_forall_mem_list fun first one second two => ?_
    rw [of_decide_eq_true (mem_filter.mp one).2, of_decide_eq_true (mem_filter.mp two).2]
  have stable : (batchRows batch records).Sublist (inOrder records) :=
    sublist_insertionSort equal filter_sublist
  have inside : (batchRows batch records).Sublist (batchRows batch (inOrder records)) := by
    rw [← batchRows_batchRows]
    exact stable.filter _
  have permuted : (inOrder records).Perm records := perm_insertionSort _ records
  exact (inside.eq_of_length (permuted.filter _).length_eq.symm).symm

theorem batchRows_reverse (records : List Record) :
    batchRows batch records.reverse = (batchRows batch records).reverse :=
  filter_reverse

/-- Nothing fails, and rows of one batch come in the reverse of the order of their insertion. -/
def newestFirst : Environment where
  answer := fun _ _ => .done
  rows := fun _ records => inOrder records.reverse
  rows_perm := fun _ records => (perm_insertionSort _ _).trans (reverse_perm records)
  rows_sorted := fun _ _ => inOrder_sorted _

theorem newestFirst_smooth : Smooth newestFirst := fun _ _ => rfl

theorem batchRows_newestFirst (number : Nat) (records : List Record) :
    batchRows batch (newestFirst.rows number records).reverse = batchRows batch records := by
  rw [batchRows_reverse]
  change (batchRows batch (inOrder records.reverse)).reverse = _
  rw [batchRows_inOrder, batchRows_reverse, reverse_reverse]

theorem eq_reverse_of_length_le_one (same : rows.Perm others) (short : others.length ≤ 1) :
    rows = others.reverse := by
  match others with
  | [] => exact same.eq_nil
  | [entry] => exact same.eq_singleton

theorem ResetOrder.eq_reverse {order : List Record} (ordered : ResetOrder environment records order)
    (sorted : records.Pairwise fun first second => first.batch ≤ second.batch)
    (short : ∀ batch, (batchRows batch records).length ≤ 1) : order = records.reverse := by
  refine Perm.eq_of_pairwise (fun first second one two below above => ?_) ordered.descending
    (pairwise_reverse.mpr sorted) (ordered.perm.trans (reverse_perm records).symm)
  have equal : second.batch = first.batch := Nat.le_antisymm below above
  have firstIn : first ∈ batchRows first.batch records :=
    mem_filter.mpr ⟨ordered.perm.mem_iff.mp one, decide_eq_true rfl⟩
  have secondIn : second ∈ batchRows first.batch records :=
    mem_filter.mpr ⟨mem_reverse.mp two, decide_eq_true equal⟩
  cases listed : batchRows first.batch records with
  | nil =>
    rw [listed] at firstIn
    exact absurd firstIn not_mem_nil
  | cons entry rest =>
    have single := short first.batch
    rw [listed, length_cons] at single
    have alone : rest = [] := eq_nil_of_length_eq_zero (by omega)
    rw [listed, alone, mem_singleton] at firstIn secondIn
    exact firstIn.trans secondIn.symm

/-! ## Inversion -/

/-- Whatever order the rows come in, `rollback` runs these bodies in the reverse of their order. -/
def RollsBackInOrder (migrations : List Named) (before : World) (names : List Bytes) : Prop :=
  ∀ environment, Smooth environment →
    ((rollback environment migrations).run.run before).2.started =
      before.started ++ names.reverse.map .down

/-- Whatever order the rows come in, `reset` runs these bodies in the reverse of their order. -/
def ResetsInOrder (migrations : List Named) (before : World) (names : List Bytes) : Prop :=
  ∀ environment, Smooth environment →
    ((reset environment migrations).run.run before).2.started =
      before.started ++ names.reverse.map .down

theorem reset_takenBack (smooth : Smooth environment) (written : Written groups world)
    (registered : Registered migrations world.store.records) :
    ∃ order after, (reset environment migrations).run.run world =
        (.ok world.store.records.length, after) ∧
      ResetOrder environment world.store.records order ∧ TakenBack order world after := by
  obtain ⟨order, after, ran, ordered, takenBack⟩ := resetLoop_takenBack smooth 0 written.sound
    registered written.distinct (Nat.lt_succ_self _)
  rw [Nat.zero_add] at ran
  exact ⟨order, after, ran, ordered, takenBack⟩

theorem downs_injective {before : List Body} {first second : List Bytes}
    (same : before ++ first.map .down = before ++ second.map .down) : first = second :=
  map_injective_iff.mpr (fun _ _ equal => Body.down.inj equal) (append_cancel_left same)

/-- Rows of the table are given by their names. -/
theorem eq_of_names (distinct : (records.map Record.name).Nodup)
    (inside : ∀ entry ∈ rows, entry ∈ records) (within : ∀ entry ∈ others, entry ∈ records)
    (same : rows.map Record.name = others.map Record.name) : rows = others := by
  induction rows generalizing others with
  | nil => exact (map_eq_nil_iff.mp same.symm).symm
  | cons first rest ih =>
    cases others with
    | nil => cases same
    | cons second more =>
      obtain ⟨heads, tails⟩ := cons.inj same
      obtain ⟨firstIn, restIn⟩ := forall_mem_cons.mp inside
      obtain ⟨secondIn, moreIn⟩ := forall_mem_cons.mp within
      rw [inj_on_of_nodup_map distinct firstIn secondIn heads, ih restIn moreIn tails]

theorem TakenBack.downs {after : World} (takenBack : TakenBack rows before after) :
    after.started = before.started ++ (rows.map Record.name).map .down := by
  rw [takenBack.started, map_map]
  rfl

theorem Written.batch_nodup (written : Written groups world) (batch : Nat) :
    ((batchRows batch world.store.records).map Record.name).Nodup :=
  written.distinct.sublist (filter_sublist.map Record.name)

theorem Written.rollsBackInOrder_iff (written : Written groups world)
    (registered : Registered migrations world.store.records) :
    RollsBackInOrder migrations world (groups.getLast?.getD []) ↔
      (groups.getLast?.getD []).length ≤ 1 := by
  rw [← written.chronicle.last]
  constructor
  · intro inverted
    obtain ⟨after, ran, takenBack⟩ :=
      rollback_takenBack newestFirst_smooth written.sound registered
    have rows : lastRows newestFirst (world.calls + 1) world.store.records =
        batchRows (greatestBatch world.store.records) world.store.records :=
      batchRows_newestFirst _ _ _
    have started := inverted newestFirst newestFirst_smooth
    rw [ran, takenBack.downs, rows] at started
    exact length_le_one_of_reverse_eq (written.batch_nodup _) (downs_injective started).symm
  · intro short environment smooth
    obtain ⟨after, ran, takenBack⟩ := rollback_takenBack smooth written.sound registered
    have taken := lastRows_perm environment (world.calls + 1) world.store.records
    rw [length_map] at short
    rw [ran, takenBack.downs, eq_reverse_of_length_le_one taken short, map_reverse]

theorem Written.resetsInOrder_iff (written : Written groups world)
    (registered : Registered migrations world.store.records) :
    ResetsInOrder migrations world groups.flatten ↔ ∀ names ∈ groups, names.length ≤ 1 := by
  rw [← written.chronicle.names]
  constructor
  · intro inverted names member
    obtain ⟨order, after, ran, ordered, takenBack⟩ :=
      reset_takenBack newestFirst_smooth written registered
    have started := inverted newestFirst newestFirst_smooth
    rw [ran, takenBack.downs] at started
    have turned : order = world.store.records.reverse := by
      have same := downs_injective started
      rw [← map_reverse] at same
      exact eq_of_names written.distinct (fun _ listed => ordered.perm.mem_iff.mp listed)
        (fun _ listed => mem_reverse.mp listed) same
    obtain ⟨entry, _, rfl⟩ := written.chronicle.group member
    refine length_le_one_of_reverse_eq (written.batch_nodup _) ?_
    obtain ⟨number, rest, equal, rows⟩ := ordered.each entry.batch
    rw [batchRows_newestFirst, equal, turned, batchRows_reverse] at rows
    rw [← map_reverse, rows]
  · intro short environment smooth
    obtain ⟨order, after, ran, ordered, takenBack⟩ := reset_takenBack smooth written registered
    rw [ran, takenBack.downs, ordered.eq_reverse written.chronicle.sorted
      (written.chronicle.batchRows_short short), map_reverse]

/-- A database without migrations. -/
structure Unmigrated (world : World) : Prop where
  sound : Sound world
  records : world.store.records = []
  applied : world.store.applied = []

theorem Unmigrated.written (unmigrated : Unmigrated world) : Written [] world where
  sound := unmigrated.sound
  chronicle := by
    rw [unmigrated.records]
    exact .empty
  distinct := by
    unfold recordedNames
    rw [unmigrated.records]
    exact .nil
  applied := by
    unfold recordedNames
    rw [unmigrated.records, unmigrated.applied]
    rfl

/-- After every sequence of calls of `migrate`, `rollback` takes back the migrations of the last
batch and `reset` takes back all and ends with no row left, whatever order the rows come in. The
order is the reverse one, whatever order the rows come in, if and only if the last batch,
and for `reset` every batch, has at most one migration. -/
theorem migration_inversion {calls : List Call} {migrations : List Named}
    (unmigrated : Unmigrated world)
    (admissible : ∀ call ∈ calls, Admissible world.supportsTransactions call)
    (registered : Registered migrations (migrateCalls world calls).store.records) :
    let before := migrateCalls world calls
    let groups := batches world calls
    ((RollsBackInOrder migrations before (groups.getLast?.getD []) ↔
        (groups.getLast?.getD []).length ≤ 1) ∧
      (ResetsInOrder migrations before groups.flatten ↔ ∀ names ∈ groups, names.length ≤ 1)) ∧
    before.store.applied = groups.flatten ∧
    ∀ environment, Smooth environment →
      (∃ (names : List Bytes) (after : World), (rollback environment migrations).run.run before =
          (.ok names.length, after) ∧ names.Perm (groups.getLast?.getD []) ∧
        after.started = before.started ++ names.map .down) ∧
      ∃ (names : List Bytes) (after : World),
        (reset environment migrations).run.run before = (.ok names.length, after) ∧
        names.Perm groups.flatten ∧ after.started = before.started ++ names.map .down ∧
        after.store.records = [] ∧ after.store.applied = [] := by
  intro before groups
  have written : Written groups before := unmigrated.written.calls admissible
  refine ⟨⟨written.rollsBackInOrder_iff registered, written.resetsInOrder_iff registered⟩,
    written.applied.trans written.chronicle.names, fun environment smooth => ⟨?_, ?_⟩⟩
  · obtain ⟨after, ran, takenBack⟩ := rollback_takenBack smooth written.sound registered
    refine ⟨_, after, ?_, ?_, takenBack.downs⟩
    · rw [ran, length_map]
    · rw [← written.chronicle.last]
      exact (lastRows_perm environment _ _).map Record.name
  · obtain ⟨order, after, ran, ordered, takenBack⟩ := reset_takenBack smooth written registered
    have all := ordered.perm.map Record.name
    refine ⟨_, after, ?_, ?_, takenBack.downs, ?_, ?_⟩
    · rw [ran, length_map, ordered.perm.length_eq]
    · rw [← written.chronicle.names]
      exact all
    · rw [takenBack.records, filter_eq_nil_iff]
      exact fun entry member kept =>
        of_decide_eq_true kept (all.mem_iff.mpr (mem_map_of_mem member))
    · rw [takenBack.applied, written.applied, filter_eq_nil_iff]
      exact fun name member kept => of_decide_eq_true kept (all.mem_iff.mpr member)

def createPosts : Named := ⟨ascii "posts", some ⟨.ok [ascii "CREATE TABLE posts"], .ok []⟩⟩

/-- Two migrations of one batch are taken back in the order in which they were applied. -/
theorem batch_not_inverted :
    let before := migrateCalls emptyWorld [⟨allDone, [createUsers, createPosts]⟩]
    let after := ((rollback newestFirst [createUsers, createPosts]).run.run before).2
    after.started = [.up (ascii "users"), .up (ascii "posts"), .down (ascii "users"),
      .down (ascii "posts")] := by
  decide +kernel

theorem allDone_smooth : Smooth allDone := fun _ _ => rfl

def twoCalls : List Call := [⟨allDone, [createUsers]⟩, ⟨allDone, [createUsers, createPosts]⟩]

theorem twoCalls_admissible : ∀ call ∈ twoCalls, Admissible true call :=
  forall_mem_cons.mpr ⟨⟨by decide, .inl allDone_smooth⟩,
    forall_mem_singleton.mpr ⟨by decide, .inl allDone_smooth⟩⟩

theorem twoCalls_records : (migrateCalls emptyWorld twoCalls).store.records =
    [⟨ascii "users", 1⟩, ⟨ascii "posts", 2⟩] := by
  decide

theorem twoCalls_registered : Registered [createUsers, createPosts]
    (migrateCalls emptyWorld twoCalls).store.records := by
  rw [twoCalls_records]
  exact forall_mem_cons.mpr ⟨⟨_, _, rfl, rfl⟩, forall_mem_singleton.mpr ⟨_, _, rfl, rfl⟩⟩

theorem migration_inversion_sample :
    RollsBackInOrder [createUsers, createPosts] (migrateCalls emptyWorld twoCalls)
        [ascii "posts"] ∧
      ResetsInOrder [createUsers, createPosts] (migrateCalls emptyWorld twoCalls)
        [ascii "users", ascii "posts"] := by
  have inverted := (migration_inversion
    (show Unmigrated emptyWorld from ⟨⟨rfl, fun _ => .inl rfl⟩, rfl, rfl⟩) twoCalls_admissible
    twoCalls_registered).1
  exact ⟨inverted.1.mpr (by decide), inverted.2.mpr (by decide)⟩

end Gungnir.Migrations
