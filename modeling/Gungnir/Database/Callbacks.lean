import Gungnir.Database.Transaction

/-!
# When commit callbacks run

The scopes of a connection with their callbacks, and the loops that run them, are the
scopes and queues of deferred actions.
-/

namespace Gungnir.Database

open Gungnir.Orm Gungnir.Library List

namespace Connection

def scopes (connection : Connection) : List Deferred.Scope :=
  zipWith Deferred.Scope.mk connection.transactionScopeIds connection.commitCallbacks

theorem map_name_zipWith {ids : List Nat} {levels : List (List Callback)}
    (lengths : ids.length = levels.length) :
    (zipWith Deferred.Scope.mk ids levels).map Deferred.Scope.name = ids := by
  induction ids generalizing levels with
  | nil => rfl
  | cons scopeId ids ih =>
    cases levels with
    | nil => cases lengths
    | cons callbacks levels =>
      rw [zipWith_cons_cons, map_cons, ih (Nat.succ.inj lengths)]

theorem scopes_of_ids {connection : Connection} {scopeId : Nat} {ids : List Nat}
    (listed : connection.transactionScopeIds = scopeId :: ids) :
    ∃ callbacks levels, connection.commitCallbacks = callbacks :: levels ∧
      ids.length = levels.length ∧ connection.transactionDepth = levels.length + 1 ∧
      connection.scopes = ⟨scopeId, callbacks⟩ :: zipWith Deferred.Scope.mk ids levels := by
  have lengths := connection.ids_length.trans connection.callbacks_length.symm
  rw [listed] at lengths
  cases levels : connection.commitCallbacks with
  | nil =>
    rw [levels] at lengths
    cases lengths
  | cons callbacks rest =>
    rw [levels] at lengths
    refine ⟨callbacks, rest, rfl, Nat.succ.inj lengths, ?_, ?_⟩
    · rw [← connection.callbacks_length, levels, length_cons]
    · rw [scopes, listed, levels, zipWith_cons_cons]

end Connection

namespace Session

def deferred (session : Session) : Deferred.State where
  scopes := session.connection.scopes
  queues := session.loops.map Loop.callbacks
  opened := session.connection.transactionScopeSequence
  registered := session.registered
  log := session.log

theorem deferred_begin (session : Session) (driver : Driver) :
    ∃ move, (session.beginTransaction driver).deferred = Deferred.move session.deferred move := by
  unfold beginTransaction
  rcases session.connection.beginScope_cases driver with
    ⟨token, sequence, done, _⟩ | ⟨raised, sequence, failed⟩
  · rw [done]
    exact ⟨.openScope, rfl⟩
  · rw [failed]
    exact ⟨.stay, rfl⟩

theorem scopes_of_innermost {session : Session} {token : TransactionToken}
    (innermost : session.connection.Innermost token) :
    ∃ callbacks levels ids, session.connection.commitCallbacks = callbacks :: levels ∧
      session.connection.transactionScopeIds = token.scopeId :: ids ∧
      session.connection.transactionDepth = levels.length + 1 ∧ ids.length = levels.length ∧
      session.deferred.scopes =
        ⟨token.scopeId, callbacks⟩ :: zipWith Deferred.Scope.mk ids levels := by
  obtain ⟨ids, listed⟩ := innermost.head
  obtain ⟨callbacks, levels, callbacksEq, lengths, depth, scopes⟩ :=
    Connection.scopes_of_ids listed
  exact ⟨callbacks, levels, ids, callbacksEq, listed, depth, lengths, scopes⟩

section

variable (session : Session)
include session

theorem deferred_commit (transaction : Transaction) (driver : Driver) :
    ∃ move, (session.commit transaction driver).deferred = Deferred.move session.deferred move := by
  unfold commit
  split
  · exact ⟨.stay, rfl⟩
  · rcases session.connection.commitScope_cases driver transaction.token with
      ⟨raised, failed⟩ | ⟨innermost, ⟨root, done⟩ | ⟨nested, done⟩⟩
    · rw [failed]
      dsimp only
      split
      · exact ⟨.stay, rfl⟩
      · exact ⟨.stay, rfl⟩
    · obtain ⟨callbacks, levels, ids, callbacksEq, idsEq, depth, lengths, scopes⟩ :=
        scopes_of_innermost innermost
      have one := innermost.root.mp root
      obtain rfl : levels = [] := length_eq_zero_iff.mp (by omega)
      obtain rfl : ids = [] := length_eq_zero_iff.mp lengths
      rw [done]
      dsimp only
      rw [if_pos root]
      refine ⟨.commit, ?_⟩
      simp only [Deferred.move, scopes, callbacksEq]
      simp only [deferred, Connection.scopes, Connection.popScope, callbacksEq, idsEq, tail_cons,
        map_cons, reverse_singleton, flatten_singleton]
      rfl
    · obtain ⟨callbacks, levels, ids, callbacksEq, idsEq, depth, lengths, scopes⟩ :=
        scopes_of_innermost innermost
      have inside : levels ≠ [] := by
        rintro rfl
        rw [innermost.root.mpr depth] at nested
        cases nested
      obtain ⟨around, levels, rfl⟩ := exists_cons_of_ne_nil inside
      obtain ⟨outer, ids, rfl⟩ := exists_cons_of_length_pos
        (lengths ▸ Nat.succ_pos _ : 0 < ids.length)
      rw [done]
      dsimp only
      rw [if_neg (Bool.eq_false_iff.mp nested)]
      refine ⟨.commit, ?_⟩
      simp only [Deferred.move, scopes]
      simp only [deferred, Connection.scopes, Connection.mergeScope, callbacksEq, idsEq,
        Connection.mergeBack, tail_cons, zipWith_cons_cons]

theorem deferred_rollback (transaction : Transaction) (driver : Driver) :
    ∃ move, (session.rollback transaction driver).deferred = Deferred.move session.deferred move := by
  unfold rollback
  split
  · exact ⟨.stay, rfl⟩
  · rcases session.connection.rollbackScope_cases driver transaction.token with
      ⟨raised, failed, _⟩ | ⟨innermost, _, done⟩
    · rw [failed]
      exact ⟨.stay, rfl⟩
    · obtain ⟨callbacks, levels, ids, callbacksEq, idsEq, _, _, scopes⟩ :=
        scopes_of_innermost innermost
      refine ⟨.rollback, ?_⟩
      rw [done]
      simp only [Deferred.move, scopes]
      simp only [deferred, Connection.scopes, Connection.popScope, callbacksEq, idsEq, tail_cons]

theorem deferred_afterCommit (empty : Bool) :
    ∃ move, (session.afterCommit empty).deferred = Deferred.move session.deferred move := by
  cases empty with
  | true => exact ⟨.stay, rfl⟩
  | false =>
    refine ⟨.register, ?_⟩
    unfold afterCommit Connection.afterCommit
    cases listed : session.connection.transactionScopeIds with
    | nil =>
      have outside : session.connection.transactionDepth = 0 := by
        rw [← session.connection.ids_length, listed, length_nil]
      have none : session.connection.scopes = [] := by
        rw [Connection.scopes, listed, zipWith_nil_left]
      simp [Deferred.move, deferred, none, outside, listed]
    | cons scopeId ids =>
      obtain ⟨callbacks, levels, callbacksEq, lengths, depth, scopes⟩ :=
        Connection.scopes_of_ids listed
      have inside : session.connection.transactionDepth ≠ 0 := by omega
      have named : session.deferred.scopes.map Deferred.Scope.name =
          session.connection.transactionScopeIds := Connection.map_name_zipWith
            (session.connection.ids_length.trans session.connection.callbacks_length.symm)
      have inner : session.deferred.scopes = _ := scopes
      unfold Deferred.move
      rw [named, inner]
      simp [deferred, Connection.scopes, Connection.pushCallback, inside, listed, callbacksEq]

theorem deferred_next (throws : Bool) :
    ∃ move, (session.next throws).deferred = Deferred.move session.deferred move := by
  unfold next
  split
  · rename_i scopeId callback callbacks failed loops listed
    refine ⟨.next, ?_⟩
    simp [deferred, Deferred.move, listed]
  · exact ⟨.stay, rfl⟩

theorem deferred_finish :
    ∃ move, session.finish.deferred = Deferred.move session.deferred move := by
  unfold finish
  split
  · rename_i scopeId failed loops listed
    refine ⟨.finish, ?_⟩
    split <;> simp [deferred, Deferred.move, listed]
  · exact ⟨.stay, rfl⟩

/-- Every action on a session is a move of deferred actions. -/
theorem deferred_step (action : Action) :
    ∃ move, (session.step action).deferred = Deferred.move session.deferred move := by
  have stay : ∃ move, session.deferred = Deferred.move session.deferred move := ⟨.stay, rfl⟩
  cases action with
  | begin driver => exact session.deferred_begin driver
  | commit index driver =>
    unfold step
    dsimp only
    split
    · exact session.deferred_commit _ driver
    · exact stay
  | rollback index driver | destroy index driver =>
    unfold step
    dsimp only
    split
    · exact session.deferred_rollback _ driver
    · exact stay
  | afterCommit empty => exact session.deferred_afterCommit empty
  | next throws => exact session.deferred_next throws
  | finish => exact session.deferred_finish

end

theorem sound_run (backend : Backend) (supportsSavepoints : Bool) (actions : List Action) :
    Deferred.Sound (runFrom step (initial backend supportsSavepoints) actions).deferred := by
  have started : Deferred.Sound (initial backend supportsSavepoints).deferred := Deferred.sound_initial
  generalize initial backend supportsSavepoints = session at started ⊢
  induction actions generalizing session with
  | nil => exact started
  | cons action rest ih =>
    obtain ⟨move, moved⟩ := session.deferred_step action
    exact ih _ (moved ▸ Deferred.sound_move started move)

end Session

open Deferred in
/-- In every run, a callback that was registered in some scopes runs once if all of them
are committed, after the commit of the outermost one, and never if one of them is rolled
back. Callbacks run in the order of their registration, unless the later one was registered
after the commit that released the earlier one. -/
theorem after_commit_contract (backend : Backend) (supportsSavepoints : Bool) (actions : List Action) :
    let session := runFrom Session.step (.initial backend supportsSavepoints) actions
    (∀ callback scopes, .registered callback scopes ∈ session.log →
      (.ran callback ∈ session.log → ∀ scope ∈ scopes, Committed session.log scope) ∧
      (session.loops = [] → (∀ scope ∈ scopes, Committed session.log scope) →
        .ran callback ∈ session.log) ∧
      (scopes ≠ [] → .ran callback ∈ session.log → ∃ scope released,
        scopes.getLast? = some scope ∧ callback ∈ released ∧
          [.committed scope released, .ran callback].Sublist session.log) ∧
      ∀ scope ∈ scopes, .rolledBack scope ∈ session.log → .ran callback ∉ session.log) ∧
    (∀ callback, session.log.count (.ran callback) ≤ 1) ∧
    ∀ first second, first < second → [.ran second, .ran first].Sublist session.log →
      ReleasedBefore session.log first second := by
  intro session
  have sound : Sound session.deferred := Session.sound_run backend supportsSavepoints actions
  refine ⟨fun callback scopes registered => ⟨?_, ?_, ?_, ?_⟩, sound.count_le_one,
    sound.orderly.order⟩
  · exact sound.committed_of_ran registered
  · intro idle
    exact sound.ran_of_committed registered (congrArg (map Loop.callbacks) idle)
  · exact sound.released_before_ran registered
  · exact fun scope member => sound.not_ran_of_rolledBack registered member

/-- A driver that never fails. -/
def steadyDriver : Driver := fun _ => .ok ()

/-- The first of two callbacks opens a transaction of its own and registers a third one. -/
def nestedCallbacks : List Action :=
  [.begin steadyDriver, .afterCommit false, .afterCommit false, .commit 0 steadyDriver, .next false,
    .begin steadyDriver, .afterCommit false, .commit 0 steadyDriver, .next false, .finish,
    .destroy 0 steadyDriver, .next false, .finish, .destroy 0 steadyDriver]

/-- The third callback runs before the second. -/
theorem callbacks_overtaken :
    (runFrom Session.step (.initial .sqlite true) nestedCallbacks).log =
      [.registered 0 [1], .registered 1 [1], .committed 1 [0, 1], .ran 0, .registered 2 [2],
        .committed 2 [2], .ran 2, .ran 1] := by
  decide

/-- A savepoint that is released, in a transaction that is committed. -/
def releasedSavepoint : List Action :=
  [.begin steadyDriver, .begin steadyDriver, .afterCommit false, .commit 0 steadyDriver,
    .commit 1 steadyDriver, .next false, .finish]

theorem after_commit_contract_sample :
    .ran 0 ∈ (runFrom Session.step (.initial .sqlite true) releasedSavepoint).log := by
  have registered : .registered 0 [2, 1] ∈
      (runFrom Session.step (.initial .sqlite true) releasedSavepoint).log := by decide
  apply ((after_commit_contract .sqlite true releasedSavepoint).1 0 [2, 1] registered).2.1
  · decide
  · intro scope member
    rcases mem_cons.mp member with rfl | outer
    · exact ⟨[], by decide⟩
    · cases mem_singleton.mp outer
      exact ⟨[0], by decide⟩

end Gungnir.Database
