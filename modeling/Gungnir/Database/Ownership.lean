import Gungnir.Database.Transaction

/-!
# Which object owns an open scope

As long as every rollback that a destructor asks for succeeds, each open scope belongs to
an object that is alive. A scope that has lost its object is never closed again.
-/

namespace Gungnir.Database

open Gungnir.Orm Gungnir.Library List

abbrev Transaction.scopeId (transaction : Transaction) : Nat := transaction.token.scopeId

/-! ## The effect of an action on scopes and objects -/

namespace Session

variable (session : Session)

/-- The ids of the open scopes. -/
abbrev ids : List Nat := session.connection.transactionScopeIds

abbrev sequence : Nat := session.connection.transactionScopeSequence

theorem map_scopeId_deactivate (scopeId : Nat) (transactions : List Transaction) :
    (deactivate scopeId transactions).map Transaction.scopeId =
      transactions.map Transaction.scopeId := by
  rw [deactivate, map_map]
  apply map_congr_left
  intro transaction _
  show (if _ then _ else _ : Transaction).token.scopeId = transaction.token.scopeId
  split <;> rfl

/-- Nothing else is deactivated. -/
theorem deactivate_of_absent {scopeId : Nat} {transactions : List Transaction}
    (absent : scopeId ∉ transactions.map Transaction.scopeId) :
    deactivate scopeId transactions = transactions := by
  rw [deactivate, map_congr_left (g := id), map_id]
  intro transaction member
  refine if_neg fun same => absent ?_
  exact same ▸ mem_map_of_mem member

inductive Effect (before after : Session) : Prop where
  /-- A scope is opened for a new object. -/
  | opened {token : TransactionToken} (ids : after.ids = token.scopeId :: before.ids)
      (number : token.scopeId = before.sequence + 1) (sequence : after.sequence = token.scopeId)
      (transactions : after.transactions = ⟨token, true⟩ :: before.transactions)
      (loops : after.loops = before.loops)
      (depth : token.depth = before.connection.transactionDepth + 1)
      (root : token.root = true ↔ before.connection.transactionDepth = 0)
      (savepoint : token.root = false → token.savepoint ≠ [])
  /-- The innermost scope is closed by its object. -/
  | ended {transaction : Transaction} (member : transaction ∈ before.transactions)
      (ids : before.ids = transaction.scopeId :: after.ids)
      (sequence : after.sequence = before.sequence)
      (transactions : after.transactions = before.transactions ∨
        after.transactions = deactivate transaction.scopeId before.transactions)
      (loops : ∀ loop ∈ after.loops, (∃ old ∈ before.loops, old.scopeId = loop.scopeId) ∨
        loop.scopeId = transaction.scopeId)
  /-- No scope is opened or closed. -/
  | quiet (ids : after.ids = before.ids) (sequence : after.sequence = before.sequence)
      (transactions : after.transactions = before.transactions ∨
        ∃ scopeId, scopeId ∉ before.ids ∧
          after.transactions = deactivate scopeId before.transactions)
      (loops : ∀ loop ∈ after.loops, ∃ old ∈ before.loops, old.scopeId = loop.scopeId)

theorem own_loops : ∀ loop ∈ session.loops, ∃ old ∈ session.loops, old.scopeId = loop.scopeId :=
  fun loop member => ⟨loop, member, rfl⟩

theorem Effect.refl : Effect session session :=
  .quiet rfl rfl (Or.inl rfl) session.own_loops

theorem effect_begin (driver : Driver) : Effect session (session.beginTransaction driver) := by
  unfold beginTransaction
  rcases session.connection.beginScope_cases driver with
    ⟨token, sequence, done, number, depth, root, savepoint⟩ | ⟨raised, sequence, failed⟩
  · rw [done]
    refine .opened ?_ number ?_ rfl rfl depth root savepoint
    · rw [number]
      rfl
    · rw [number]
      rfl
  · rw [failed]
    exact .quiet rfl rfl (Or.inl rfl) session.own_loops

variable {session : Session}

variable {transaction : Transaction}

/-- The open scopes before the end of the innermost one. -/
theorem ids_of_innermost (innermost : session.connection.Innermost transaction.token) :
    session.ids = transaction.scopeId :: session.ids.tail := by
  obtain ⟨rest, listed⟩ := innermost.head
  rw [ids, listed, tail_cons]

theorem effect_commit (session : Session) (member : transaction ∈ session.transactions)
    (driver : Driver) : Effect session (session.commit transaction driver) := by
  have same := session.own_loops
  unfold commit
  split
  · exact .refl session
  · rcases session.connection.commitScope_cases driver transaction.token with
      ⟨raised, failed⟩ | ⟨innermost, ⟨root, done⟩ | ⟨nested, done⟩⟩
    · rw [failed]
      dsimp only
      split
      · exact .quiet rfl rfl (Or.inl rfl) same
      · rename_i outside
        have none : session.ids = [] := by
          have depth : session.connection.transactionDepth = 0 := by
            simpa [Connection.inTransaction] using outside
          exact length_eq_zero_iff.mp (session.connection.ids_length.trans depth)
        refine .quiet rfl rfl (Or.inr ⟨transaction.token.scopeId, ?_, rfl⟩) same
        rw [none]
        exact not_mem_nil
    · rw [done]
      dsimp only
      rw [if_pos root]
      refine .ended member (ids_of_innermost innermost) rfl (Or.inl rfl) ?_
      exact forall_mem_cons.mpr ⟨Or.inr rfl, fun loop old => Or.inl (same loop old)⟩
    · rw [done]
      dsimp only
      rw [if_neg (Bool.eq_false_iff.mp nested)]
      exact .ended member (ids_of_innermost innermost) rfl (Or.inr rfl)
        fun loop found => Or.inl (same loop found)

theorem effect_rollback (session : Session) (member : transaction ∈ session.transactions)
    (driver : Driver) : Effect session (session.rollback transaction driver) := by
  have same := session.own_loops
  unfold rollback
  split
  · exact .refl session
  · rcases session.connection.rollbackScope_cases driver transaction.token with
      ⟨raised, failed, _⟩ | ⟨innermost, _, done⟩
    · rw [failed]
      exact .quiet rfl rfl (Or.inl rfl) same
    · rw [done]
      exact .ended member (ids_of_innermost innermost) rfl (Or.inr rfl)
        fun loop found => Or.inl (same loop found)

theorem effect_afterCommit (session : Session) (empty : Bool) :
    Effect session (session.afterCommit empty) := by
  unfold afterCommit Connection.afterCommit
  cases empty with
  | true => exact .refl session
  | false =>
    by_cases inside : session.connection.transactionDepth ≠ 0
    · simp only [Bool.false_eq_true, if_false, if_pos inside]
      exact .quiet rfl rfl (Or.inl rfl) session.own_loops
    · simp only [Bool.false_eq_true, if_false, if_neg inside]
      exact .quiet rfl rfl (Or.inl rfl) session.own_loops

theorem effect_next (session : Session) (throws : Bool) : Effect session (session.next throws) := by
  unfold next
  split
  · rename_i scopeId callback callbacks failed loops listed
    refine .quiet rfl rfl (Or.inl rfl) fun loop member => ?_
    rw [listed]
    rcases mem_cons.mp member with rfl | old
    · exact ⟨_, mem_cons_self, rfl⟩
    · exact ⟨loop, mem_cons_of_mem _ old, rfl⟩
  · exact .refl session

/-! ## Objects and their ids -/

/-- Objects have ids of their own, and a commit that runs its callbacks has closed its
scope. -/
structure Distinct (session : Session) : Prop where
  decreasing : (session.transactions.map Transaction.scopeId).Pairwise (· > ·)
  bound : ∀ transaction ∈ session.transactions, transaction.scopeId ≤ session.sequence
  idsBound : ∀ scopeId ∈ session.ids, scopeId ≤ session.sequence
  idsDecreasing : session.ids.Pairwise (· > ·)
  closed : ∀ loop ∈ session.loops, loop.scopeId ∉ session.ids ∧ loop.scopeId ≤ session.sequence

variable {after before : Session}

/-- A step that opens no scope keeps the objects up to their activity. -/
theorem Distinct.fewer (distinct : Distinct before) (fewer : after.ids.Sublist before.ids)
    (sequence : after.sequence = before.sequence)
    (transactions : after.transactions = before.transactions ∨
      ∃ scopeId, after.transactions = deactivate scopeId before.transactions)
    (loops : ∀ loop ∈ after.loops, (∃ old ∈ before.loops, old.scopeId = loop.scopeId) ∨
      loop.scopeId ∈ before.ids ∧ loop.scopeId ∉ after.ids) : Distinct after := by
  have same : after.transactions.map Transaction.scopeId =
      before.transactions.map Transaction.scopeId := by
    rcases transactions with same | ⟨scopeId, changed⟩
    · rw [same]
    · rw [changed, map_scopeId_deactivate]
  refine ⟨same ▸ distinct.decreasing, fun transaction member => ?_, fun scopeId member => ?_,
    distinct.idsDecreasing.sublist fewer, fun loop found => ?_⟩
  · have listed := mem_map_of_mem (f := Transaction.scopeId) member
    rw [same] at listed
    obtain ⟨old, inOld, id⟩ := mem_map.mp listed
    rw [sequence, ← id]
    exact distinct.bound old inOld
  · rw [sequence]
    exact distinct.idsBound scopeId (fewer.subset member)
  · rw [sequence]
    rcases loops loop found with ⟨old, inOld, id⟩ | ⟨was, gone⟩
    · obtain ⟨closed, bound⟩ := distinct.closed old inOld
      rw [← id]
      exact ⟨fun listed => closed (fewer.subset listed), bound⟩
    · exact ⟨gone, distinct.idsBound _ was⟩

theorem Effect.distinct (effect : Effect before after) (distinct : Distinct before) :
    Distinct after := by
  cases effect with
  | @opened token ids number sequence transactions loops depth root savepoint =>
    have newer : ∀ {scopeId}, scopeId ≤ before.sequence → scopeId < token.scopeId := by
      intro scopeId old
      rw [number]
      exact Nat.lt_succ_of_le old
    refine ⟨?_, ?_, ?_, ?_, ?_⟩
    · rw [transactions, map_cons]
      refine pairwise_cons.mpr ⟨fun scopeId member => ?_, distinct.decreasing⟩
      obtain ⟨old, inOld, rfl⟩ := mem_map.mp member
      exact newer (distinct.bound old inOld)
    · rw [transactions, sequence]
      exact forall_mem_cons.mpr ⟨Nat.le_refl _,
        fun transaction old => Nat.le_of_lt (newer (distinct.bound transaction old))⟩
    · rw [ids, sequence]
      exact forall_mem_cons.mpr ⟨Nat.le_refl _,
        fun scopeId old => Nat.le_of_lt (newer (distinct.idsBound scopeId old))⟩
    · rw [ids]
      exact pairwise_cons.mpr ⟨fun scopeId member => newer (distinct.idsBound scopeId member),
        distinct.idsDecreasing⟩
    · rw [loops, ids, sequence]
      intro loop member
      obtain ⟨closed, old⟩ := distinct.closed loop member
      refine ⟨fun listed => ?_, Nat.le_of_lt (newer old)⟩
      rcases mem_cons.mp listed with same | inOld
      · exact Nat.lt_irrefl _ (same ▸ newer old)
      · exact closed inOld
  | @ended transaction member ids sequence transactions loops =>
    have below := (pairwise_cons.mp (ids ▸ distinct.idsDecreasing)).1
    refine distinct.fewer (ids ▸ sublist_cons_self _ _) sequence
      (transactions.imp id fun changed => ⟨_, changed⟩) fun loop found => ?_
    refine (loops loop found).imp id fun own => ?_
    rw [own, ids]
    exact ⟨mem_cons_self, fun listed => Nat.lt_irrefl _ (below _ listed)⟩
  | quiet ids sequence transactions loops =>
    exact distinct.fewer (ids ▸ .refl _) sequence
      (transactions.imp id fun ⟨scopeId, _, changed⟩ => ⟨scopeId, changed⟩)
      fun loop found => .inl (loops loop found)

section

variable (distinct : Distinct session)
include distinct

theorem effect_finish : Effect session session.finish := by
  unfold finish
  split
  · rename_i scopeId failed loops listed
    have rest : ∀ loop ∈ loops, ∃ old ∈ session.loops, old.scopeId = loop.scopeId := by
      intro loop member
      rw [listed]
      exact ⟨loop, mem_cons_of_mem _ member, rfl⟩
    split
    · exact .quiet rfl rfl (Or.inl rfl) rest
    · refine .quiet rfl rfl (Or.inr ⟨scopeId, ?_, rfl⟩) rest
      exact (distinct.closed ⟨scopeId, [], failed⟩ (listed ▸ mem_cons_self)).1
  · exact .refl session

theorem Distinct.eraseIdx (index : Nat) :
    Distinct { session with transactions := session.transactions.eraseIdx index } where
  decreasing := by
    rw [← eraseIdx_map]
    exact distinct.decreasing.sublist (eraseIdx_sublist _ _)
  bound := fun transaction member =>
    distinct.bound transaction ((eraseIdx_sublist _ _).subset member)
  idsBound := distinct.idsBound
  idsDecreasing := distinct.idsDecreasing
  closed := distinct.closed

/-- What an action does, apart from the end of an object. -/
theorem step_effect (action : Action) :
    Effect session (session.step action) ∨
      ∃ index transaction driver, action = .destroy index driver ∧
        session.transactions[index]? = some transaction ∧
        session.step action = session.destroy index transaction driver := by
  cases action with
  | begin driver => exact Or.inl (session.effect_begin driver)
  | commit index driver =>
    unfold step
    dsimp only
    split
    · rename_i transaction listed
      exact Or.inl (session.effect_commit (mem_of_getElem? listed) driver)
    · exact Or.inl (.refl session)
  | rollback index driver =>
    unfold step
    dsimp only
    split
    · rename_i transaction listed
      exact Or.inl (session.effect_rollback (mem_of_getElem? listed) driver)
    · exact Or.inl (.refl session)
  | destroy index driver =>
    unfold step
    dsimp only
    split
    · rename_i transaction listed
      exact Or.inr ⟨index, transaction, driver, rfl, listed, rfl⟩
    · exact Or.inl (.refl session)
  | afterCommit empty => exact Or.inl (session.effect_afterCommit empty)
  | next throws => exact Or.inl (session.effect_next throws)
  | finish => exact Or.inl (effect_finish distinct)

theorem distinct_step (action : Action) : Distinct (session.step action) := by
  rcases step_effect distinct action with effect | ⟨index, transaction, driver, _, listed, destroyed⟩
  · exact effect.distinct distinct
  · rw [destroyed]
    exact ((session.effect_rollback (mem_of_getElem? listed) driver).distinct distinct).eraseIdx
      index

end

theorem distinct_initial (backend : Backend) (supportsSavepoints : Bool) :
    Distinct (initial backend supportsSavepoints) where
  decreasing := Pairwise.nil
  bound := nofun
  idsBound := nofun
  idsDecreasing := Pairwise.nil
  closed := nofun

/-! ## Owners -/

/-- The objects of the open scopes, the innermost first, with the tokens they got. -/
inductive Owners : List Transaction → Prop where
  | nil : Owners []
  | cons {transaction : Transaction} {outer : List Transaction} (active : transaction.active = true)
      (depth : transaction.token.depth = outer.length + 1)
      (root : transaction.token.root = true ↔ outer = [])
      (savepoint : transaction.token.root = false → transaction.token.savepoint ≠ [])
      (id : transaction.scopeId ≠ 0) (others : Owners outer) : Owners (transaction :: outer)

/-- Every open scope belongs to an object that is alive. -/
def Owned (session : Session) : Prop :=
  ∃ owners, owners.Sublist session.transactions ∧
    owners.map Transaction.scopeId = session.ids ∧ Owners owners

/-- Some open scope has lost its object. -/
def Orphaned (session : Session) : Prop :=
  ∃ scopeId ∈ session.ids, scopeId ∉ session.transactions.map Transaction.scopeId

theorem owned_initial (backend : Backend) (supportsSavepoints : Bool) :
    Owned (initial backend supportsSavepoints) :=
  ⟨[], Sublist.refl _, rfl, .nil⟩

theorem sublist_deactivate {owners transactions : List Transaction} {scopeId : Nat}
    (part : owners.Sublist transactions) (absent : scopeId ∉ owners.map Transaction.scopeId) :
    owners.Sublist (deactivate scopeId transactions) := by
  have mapped : (deactivate scopeId owners).Sublist (deactivate scopeId transactions) := part.map _
  rwa [deactivate_of_absent absent] at mapped

theorem Effect.owned (effect : Effect before after) (distinct : Distinct before)
    (owned : Owned before) : Owned after := by
  obtain ⟨owners, part, ids, valid⟩ := owned
  cases effect with
  | @opened token listed number sequence transactions loops depth root savepoint =>
    have count : before.connection.transactionDepth = owners.length := by
      rw [← before.connection.ids_length]
      exact (congrArg length ids).symm.trans (length_map _)
    refine ⟨⟨token, true⟩ :: owners, ?_, ?_, .cons rfl (count ▸ depth) ?_ savepoint ?_ valid⟩
    · rw [transactions]
      exact part.cons_cons _
    · rw [listed, map_cons, ids]
    · rw [root, count, length_eq_zero_iff]
    · show token.scopeId ≠ 0
      rw [number]
      exact Nat.succ_ne_zero _
  | @ended transaction member listed sequence transactions loops =>
    rw [listed] at ids
    obtain ⟨owner, owners, rfl, id, ids⟩ := map_eq_cons_iff.mp ids
    have part : owners.Sublist before.transactions := (sublist_cons_self _ _).trans part
    have absent : transaction.scopeId ∉ owners.map Transaction.scopeId := by
      have below := (pairwise_cons.mp (listed ▸ distinct.idsDecreasing)).1
      rw [ids]
      exact fun found => Nat.lt_irrefl _ (below _ found)
    cases valid with
    | cons _ _ _ _ _ others =>
      refine ⟨owners, ?_, ids, others⟩
      rcases transactions with same | changed
      · exact same ▸ part
      · exact changed ▸ sublist_deactivate part absent
  | quiet listed sequence transactions loops =>
    refine ⟨owners, ?_, ids.trans listed.symm, valid⟩
    rcases transactions with same | ⟨scopeId, closed, changed⟩
    · exact same ▸ part
    · exact changed ▸ sublist_deactivate part (ids ▸ closed)

theorem Effect.orphaned (effect : Effect before after) (distinct : Distinct before)
    (orphaned : Orphaned before) : Orphaned after := by
  obtain ⟨scopeId, member, lost⟩ := orphaned
  cases effect with
  | @opened token ids number sequence transactions loops depth root savepoint =>
    refine ⟨scopeId, ids ▸ mem_cons_of_mem _ member, ?_⟩
    rw [transactions, map_cons, mem_cons]
    rintro (same | found)
    · have old := distinct.idsBound scopeId member
      rw [same.trans number] at old
      exact Nat.not_succ_le_self _ old
    · exact lost found
  | @ended transaction owner ids sequence transactions loops =>
    rw [ids] at member
    refine ⟨scopeId, ?_, ?_⟩
    · rcases mem_cons.mp member with same | inner
      · exact absurd (same ▸ mem_map_of_mem owner) lost
      · exact inner
    · rcases transactions with same | changed
      · exact same ▸ lost
      · rw [changed, map_scopeId_deactivate]
        exact lost
  | quiet ids sequence transactions loops =>
    refine ⟨scopeId, ids ▸ member, ?_⟩
    rcases transactions with same | ⟨_, _, changed⟩
    · exact same ▸ lost
    · rw [changed, map_scopeId_deactivate]
      exact lost

/-! ## Destructors -/

/-- A destructor asks for the rollback of its scope, and the driver refuses. -/
def Abandons (session : Session) : Action → Prop
  | .destroy index driver => ∃ transaction, session.transactions[index]? = some transaction ∧
      transaction.active = true ∧
      session.connection.validateScopeToken transaction.token = .ok () ∧
      session.connection.rollbackAnswer driver transaction.token ≠ .ok ()
  | _ => False

theorem validate_owner {outer : List Transaction}
    (ids : (transaction :: outer).map Transaction.scopeId = session.ids)
    (valid : Owners (transaction :: outer)) :
    session.connection.validateScopeToken transaction.token = .ok () := by
  have count : session.connection.transactionDepth = outer.length + 1 := by
    rw [← session.connection.ids_length]
    exact (congrArg length ids).symm.trans (length_map _)
  cases valid with
  | cons _ depth root savepoint id _ =>
    refine Connection.validateScopeToken_of ids.symm (depth.trans count.symm) id ?_ savepoint
    rw [root, count, ← length_eq_zero_iff]
    omega

variable {rest : List Transaction}

/-- The newest object can go if its scope is closed. -/
theorem Owned.tail (owned : Owned session) (newest : session.transactions = transaction :: rest)
    (free : ∀ outer, Owners (transaction :: outer) →
      (transaction :: outer).map Transaction.scopeId ≠ session.ids) :
    Owned { session with transactions := rest } := by
  obtain ⟨owners, part, ids, valid⟩ := owned
  rw [newest] at part
  rcases sublist_cons_iff.mp part with part | ⟨outer, rfl, _⟩
  · exact ⟨owners, part, ids, valid⟩
  · exact absurd ids (free outer valid)

theorem destroy_newest {newest : Transaction} {driver : Driver}
    (rolled : session.rollback transaction driver = after)
    (listed : after.transactions = newest :: rest) :
    session.destroy 0 transaction driver = { after with transactions := rest } := by
  unfold destroy
  dsimp only
  rw [rolled, listed]
  rfl

theorem owned_destroy (distinct : Distinct session) (owned : Owned session)
    (newest : session.transactions = transaction :: rest) {driver : Driver}
    (kept : ¬ session.Abandons (.destroy 0 driver)) :
    Owned (session.destroy 0 transaction driver) := by
  have first : session.transactions[0]? = some transaction := by rw [newest]; rfl
  have member : transaction ∈ session.transactions := newest ▸ mem_cons_self
  by_cases active : transaction.active = true
  · rcases session.connection.rollbackScope_cases driver transaction.token with
      ⟨raised, failed, refused⟩ | ⟨innermost, _, done⟩
    · -- The driver has not refused, so the scope was closed before.
      have same : session.rollback transaction driver = session := by
        rw [rollback, if_neg (by rw [active]; decide), failed]
      rw [destroy_newest same newest]
      refine owned.tail newest fun outer valid ids => ?_
      have valid := validate_owner ids valid
      exact kept ⟨transaction, first, active, valid, refused valid⟩
    · have after := (session.effect_rollback member driver).owned distinct owned
      have below := (pairwise_cons.mp (ids_of_innermost innermost ▸ distinct.idsDecreasing)).1
      have transactions : (session.rollback transaction driver).transactions =
          deactivate transaction.scopeId session.transactions := by
        rw [rollback, if_neg (by rw [active]; decide), done]
      have closed : transaction.scopeId ∉ (session.rollback transaction driver).ids := by
        rw [rollback, if_neg (by rw [active]; decide), done]
        exact fun found => Nat.lt_irrefl _ (below _ found)
      rw [newest, deactivate, map_cons, if_pos rfl] at transactions
      rw [destroy_newest rfl transactions]
      refine after.tail transactions fun outer _ ids => closed ?_
      rw [← ids]
      exact mem_cons_self
  · have same : session.rollback transaction driver = session :=
      if_pos (Bool.eq_false_of_not_eq_true active)
    rw [destroy_newest same newest]
    refine owned.tail newest fun outer valid ids => ?_
    cases valid with
    | cons isActive => exact active isActive

theorem orphaned_of_abandons (distinct : Distinct session) {driver : Driver}
    (abandoned : session.Abandons (.destroy 0 driver)) :
    Orphaned (session.step (.destroy 0 driver)) := by
  obtain ⟨transaction, first, active, valid, refused⟩ := abandoned
  obtain ⟨rest, newest⟩ := head?_eq_some_iff.mp (head?_eq_getElem?.trans first)
  have same : session.rollback transaction driver = session := by
    rcases session.connection.rollbackScope_cases driver transaction.token with
      ⟨raised, failed, _⟩ | ⟨_, answered, _⟩
    · rw [rollback, if_neg (by rw [active]; decide), failed]
    · exact absurd answered refused
  have opened : transaction.scopeId ∈ session.ids :=
    ids_of_innermost (Connection.validateScopeToken_ok valid) ▸ mem_cons_self
  rw [step, first]
  dsimp only
  rw [destroy_newest same newest]
  refine ⟨transaction.scopeId, opened, ?_⟩
  have below := (pairwise_cons.mp (newest ▸ distinct.decreasing)).1
  exact fun found => Nat.lt_irrefl _ (below _ found)

theorem Orphaned.eraseIdx (orphaned : Orphaned session) (index : Nat) :
    Orphaned { session with transactions := session.transactions.eraseIdx index } := by
  obtain ⟨scopeId, member, lost⟩ := orphaned
  refine ⟨scopeId, member, fun found => lost ?_⟩
  exact ((eraseIdx_sublist _ _).map _).subset found

/-! ## Runs -/

/-- Only the newest object is destroyed. -/
def LastFirst : Action → Prop
  | .destroy index _ => index = 0
  | _ => True

theorem lastFirst_runActions {index : Nat} {body callbacks : List Action} (bodyThrows commitThrows : Bool)
    (commitDriver rollbackDriver : Driver) (inBody : ∀ action ∈ body, LastFirst action)
    (inCallbacks : ∀ action ∈ callbacks, LastFirst action) :
    ∀ action ∈ runActions index body callbacks bodyThrows commitThrows commitDriver rollbackDriver,
      LastFirst action := by
  unfold runActions
  split
  · exact forall_mem_append.mpr ⟨inBody, forall_mem_singleton.mpr trivial⟩
  · refine forall_mem_append.mpr ⟨inBody, forall_mem_cons.mpr ⟨trivial,
      forall_mem_append.mpr ⟨inCallbacks, ?_⟩⟩⟩
    split
    · exact forall_mem_singleton.mpr trivial
    · exact nofun

section

variable (distinct : Distinct session)
include distinct

theorem owned_step (owned : Owned session) {action : Action} (lastFirst : LastFirst action)
    (kept : ¬ session.Abandons action) : Owned (session.step action) := by
  rcases step_effect distinct action with effect | ⟨index, transaction, driver, rfl, listed, destroyed⟩
  · exact effect.owned distinct owned
  · cases lastFirst
    obtain ⟨rest, newest⟩ := head?_eq_some_iff.mp (head?_eq_getElem?.trans listed)
    rw [destroyed]
    exact owned_destroy distinct owned newest kept

theorem orphaned_step (orphaned : Orphaned session) (action : Action) :
    Orphaned (session.step action) := by
  rcases step_effect distinct action with effect | ⟨index, transaction, driver, _, listed, destroyed⟩
  · exact effect.orphaned distinct orphaned
  · rw [destroyed]
    exact ((session.effect_rollback (mem_of_getElem? listed) driver).orphaned distinct
      orphaned).eraseIdx index

theorem orphaned_run (orphaned : Orphaned session) (actions : List Action) :
    Orphaned (runFrom step session actions) := by
  induction actions generalizing session with
  | nil => exact orphaned
  | cons action rest ih => exact ih (distinct_step distinct action) (orphaned_step distinct orphaned action)

/-- Every open scope keeps its object, or some destructor was refused its rollback. -/
theorem owned_run (owned : Owned session) {actions : List Action}
    (lastFirst : ∀ action ∈ actions, LastFirst action) :
    ((∀ transition ∈ transitionsFrom step session actions,
        ¬ transition.before.Abandons transition.label) ∧ Owned (runFrom step session actions)) ∨
      ((∃ transition ∈ transitionsFrom step session actions,
        transition.before.Abandons transition.label) ∧ Orphaned (runFrom step session actions)) := by
  induction actions generalizing session with
  | nil => exact Or.inl ⟨nofun, owned⟩
  | cons action rest ih =>
    have later := (forall_mem_cons.mp lastFirst).2
    by_cases abandoned : session.Abandons action
    · right
      refine ⟨⟨_, mem_cons_self, abandoned⟩, ?_⟩
      apply orphaned_run (distinct_step distinct action)
      cases action with
      | destroy index driver =>
        cases lastFirst _ mem_cons_self
        exact orphaned_of_abandons distinct abandoned
      | _ => exact absurd abandoned id
    · rcases ih (distinct_step distinct action)
        (owned_step distinct owned (lastFirst action mem_cons_self) abandoned) later with
        ⟨kept, owned⟩ | ⟨⟨transition, member, lost⟩, orphaned⟩
      · refine Or.inl ⟨fun transition member => ?_, owned⟩
        rcases mem_cons.mp member with rfl | inRest
        · exact abandoned
        · exact kept transition inRest
      · exact Or.inr ⟨⟨transition, mem_cons_of_mem _ member, lost⟩, orphaned⟩

end

/-- Without objects there is no scope that has an owner. -/
theorem ids_of_owned (owned : Owned session) (destroyed : session.transactions = []) :
    session.ids = [] := by
  obtain ⟨owners, part, ids, _⟩ := owned
  rw [destroyed] at part
  rw [← ids, sublist_nil.mp part]
  rfl

theorem inTransaction_eq_false {connection : Connection} :
    connection.inTransaction = false ↔ connection.transactionScopeIds = [] := by
  rw [Connection.inTransaction, decide_eq_false_iff_not, not_not, ← connection.ids_length,
    length_eq_zero_iff]

end Session

end Gungnir.Database
