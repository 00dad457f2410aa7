import Gungnir.Library.Transition
import Mathlib.Data.List.Nodup

/-!
# Actions deferred to the end of nested scopes

Actions are registered in the innermost open scope. A nested scope that commits hands its
actions to the scope around it, one that is rolled back loses them, and the commit of the
outermost scope puts them into a queue. While a queue is worked off, other scopes may be
opened and committed.
-/

namespace Gungnir.Library.Deferred

open List

structure Scope where
  name : Nat
  waiting : List Nat
  deriving DecidableEq

inductive Event where
  | registered (action : Nat) (scopes : List Nat)
  | committed (scope : Nat) (released : List Nat)
  | rolledBack (scope : Nat)
  | ran (action : Nat)
  deriving DecidableEq

/-- Scopes and queues, the innermost first. Scopes and actions are numbered. -/
structure State where
  scopes : List Scope
  queues : List (List Nat)
  opened : Nat
  registered : Nat
  log : List Event

def State.initial : State := ⟨[], [], 0, 0, []⟩

inductive Move where
  | openScope
  | register
  | commit
  | rollback
  /-- The next action of the innermost queue starts. -/
  | next
  /-- The innermost queue is worked off. -/
  | finish
  /-- Nothing happens. -/
  | stay

def move (state : State) : Move → State
  | .openScope =>
    { state with
      scopes := ⟨state.opened + 1, []⟩ :: state.scopes
      opened := state.opened + 1 }
  | .register =>
    match state.scopes with
    | [] =>
      { state with
        registered := state.registered + 1
        log := state.log ++ [.registered state.registered [], .ran state.registered] }
    | scope :: outer =>
      { state with
        scopes := { scope with waiting := scope.waiting ++ [state.registered] } :: outer
        registered := state.registered + 1
        log := state.log ++ [.registered state.registered (state.scopes.map Scope.name)] }
  | .commit =>
    match state.scopes with
    | [] => state
    | [scope] =>
      { state with
        scopes := []
        queues := scope.waiting :: state.queues
        log := state.log ++ [.committed scope.name scope.waiting] }
    | scope :: around :: outer =>
      { state with
        scopes := { around with waiting := around.waiting ++ scope.waiting } :: outer
        log := state.log ++ [.committed scope.name []] }
  | .rollback =>
    match state.scopes with
    | [] => state
    | scope :: outer =>
      { state with scopes := outer, log := state.log ++ [.rolledBack scope.name] }
  | .next =>
    match state.queues with
    | (action :: rest) :: queues =>
      { state with queues := rest :: queues, log := state.log ++ [.ran action] }
    | _ => state
  | .finish =>
    match state.queues with
    | [] :: queues => { state with queues := queues }
    | _ => state
  | .stay => state

/-- What a move does and records. -/
inductive Moved (state : State) : State → List Event → Prop where
  | still : Moved state state []
  | opened : Moved state { state with
      scopes := ⟨state.opened + 1, []⟩ :: state.scopes, opened := state.opened + 1 } []
  | outside (listed : state.scopes = []) : Moved state { state with
      registered := state.registered + 1
      log := state.log ++ [.registered state.registered [], .ran state.registered] }
        [.registered state.registered [], .ran state.registered]
  | inside {scope : Scope} {outer : List Scope} (listed : state.scopes = scope :: outer) :
      Moved state { state with
        scopes := { scope with waiting := scope.waiting ++ [state.registered] } :: outer
        registered := state.registered + 1
        log := state.log ++ [.registered state.registered (state.scopes.map Scope.name)] }
          [.registered state.registered (state.scopes.map Scope.name)]
  | released {scope : Scope} (listed : state.scopes = [scope]) : Moved state { state with
      scopes := []
      queues := scope.waiting :: state.queues
      log := state.log ++ [.committed scope.name scope.waiting] }
        [.committed scope.name scope.waiting]
  | handed {scope around : Scope} {outer : List Scope}
      (listed : state.scopes = scope :: around :: outer) : Moved state { state with
        scopes := { around with waiting := around.waiting ++ scope.waiting } :: outer
        log := state.log ++ [.committed scope.name []] } [.committed scope.name []]
  | rolledBack {scope : Scope} {outer : List Scope} (listed : state.scopes = scope :: outer) :
      Moved state { state with
        scopes := outer, log := state.log ++ [.rolledBack scope.name] } [.rolledBack scope.name]
  | ran {first : Nat} {rest : List Nat} {queues : List (List Nat)}
      (listed : state.queues = (first :: rest) :: queues) : Moved state { state with
        queues := rest :: queues, log := state.log ++ [.ran first] } [.ran first]
  | finished {queues : List (List Nat)} (listed : state.queues = [] :: queues) :
      Moved state { state with queues := queues } []

theorem move_moved (state : State) (step : Move) : ∃ events, Moved state (move state step) events := by
  cases step with
  | openScope => exact ⟨_, .opened⟩
  | register =>
    dsimp only [move]
    split
    · rename_i listed
      exact ⟨_, .outside listed⟩
    · rename_i listed
      exact ⟨_, .inside listed⟩
  | commit =>
    dsimp only [move]
    split
    · exact ⟨_, .still⟩
    · rename_i listed
      exact ⟨_, .released listed⟩
    · rename_i listed
      exact ⟨_, .handed listed⟩
  | rollback =>
    dsimp only [move]
    split
    · exact ⟨_, .still⟩
    · rename_i listed
      exact ⟨_, .rolledBack listed⟩
  | next =>
    dsimp only [move]
    split
    · rename_i listed
      exact ⟨_, .ran listed⟩
    · exact ⟨_, .still⟩
  | finish =>
    dsimp only [move]
    split
    · rename_i listed
      exact ⟨_, .finished listed⟩
    · exact ⟨_, .still⟩
  | stay => exact ⟨_, .still⟩

section Moved

variable {state after : State} {events : List Event}

theorem Moved.log (moved : Moved state after events) : after.log = state.log ++ events := by
  cases moved with
  | still | opened | finished => exact (append_nil _).symm
  | _ => rfl

end Moved

/-! ## What is pending -/

def waiting : List Scope → List Nat
  | [] => []
  | scope :: outer => waiting outer ++ scope.waiting

variable {action : Nat}

theorem mem_waiting {scopes : List Scope} :
    action ∈ waiting scopes ↔ ∃ scope ∈ scopes, action ∈ scope.waiting := by
  induction scopes with
  | nil => simp [waiting]
  | cons scope outer ih =>
    rw [waiting, mem_append, ih]
    constructor
    · rintro (⟨found, member, here⟩ | here)
      · exact ⟨found, mem_cons_of_mem _ member, here⟩
      · exact ⟨scope, mem_cons_self, here⟩
    · rintro ⟨found, member, here⟩
      rcases mem_cons.mp member with rfl | later
      · exact Or.inr here
      · exact Or.inl ⟨found, later, here⟩

/-- What is pending: the queues from the outermost on, what waits in the open scopes, and
the number of the next action. -/
structure Pending where
  queues : List (List Nat)
  waiting : List Nat
  count : Nat

def Pending.actions (pending : Pending) : List Nat := pending.queues.flatten ++ pending.waiting

def State.pending (state : State) : Pending :=
  ⟨state.queues.reverse, waiting state.scopes, state.registered⟩

/-- How a move changes what is pending, and what it records. -/
inductive Shift : Pending → Pending → List Event → Prop where
  | still (pending : Pending) : Shift pending pending []
  | hand (pending : Pending) (scope : Nat) : Shift pending pending [.committed scope []]
  | immediate (queues : List (List Nat)) (count : Nat) :
      Shift ⟨queues, [], count⟩ ⟨queues, [], count + 1⟩ [.registered count [], .ran count]
  | add (queues : List (List Nat)) (waiting : List Nat) (count : Nat) (scopes : List Nat) :
      Shift ⟨queues, waiting, count⟩ ⟨queues, waiting ++ [count], count + 1⟩
        [.registered count scopes]
  | release (queues : List (List Nat)) (waiting : List Nat) (count scope : Nat) :
      Shift ⟨queues, waiting, count⟩ ⟨queues ++ [waiting], [], count⟩ [.committed scope waiting]
  | drop (queues : List (List Nat)) (kept lost : List Nat) (count scope : Nat) :
      Shift ⟨queues, kept ++ lost, count⟩ ⟨queues, kept, count⟩ [.rolledBack scope]
  | run (queues : List (List Nat)) (action : Nat) (rest waiting : List Nat) (count : Nat) :
      Shift ⟨queues ++ [action :: rest], waiting, count⟩ ⟨queues ++ [rest], waiting, count⟩
        [.ran action]
  | finish (queues : List (List Nat)) (waiting : List Nat) (count : Nat) :
      Shift ⟨queues ++ [[]], waiting, count⟩ ⟨queues, waiting, count⟩ []

theorem Moved.shift {state after : State} {events : List Event} (moved : Moved state after events) :
    Shift state.pending after.pending events := by
  unfold State.pending
  cases moved with
  | still => exact .still _
  | opened =>
    rw [waiting, append_nil]
    exact .still _
  | outside listed =>
    rw [listed]
    exact .immediate _ _
  | inside listed =>
    rw [waiting, listed, waiting, ← append_assoc]
    exact .add _ _ _ _
  | released listed =>
    rw [listed, reverse_cons]
    exact .release _ _ _ _
  | handed listed =>
    rw [listed, waiting, waiting, waiting, ← append_assoc]
    exact .hand _ _
  | rolledBack listed =>
    rw [listed]
    exact .drop _ _ _ _ _
  | ran listed =>
    rw [listed, reverse_cons, reverse_cons]
    exact .run _ _ _ _ _
  | finished listed =>
    rw [listed, reverse_cons]
    exact .finish _ _ _

/-! ## Order -/

theorem pair_append {α : Type} {first second : α} {items more : List α}
    (pair : [first, second].Sublist (items ++ more)) : [first, second].Sublist items ∨
      second ∈ more ∧ (first ∈ items ∨ [first, second].Sublist more) := by
  obtain ⟨early, late, split, inItems, inMore⟩ := sublist_append_iff.mp pair
  rcases early with _ | ⟨one, _ | ⟨two, early⟩⟩
  · cases split
    exact .inr ⟨inMore.subset (by simp), .inr inMore⟩
  · cases split
    exact .inr ⟨singleton_sublist.mp inMore, .inl (singleton_sublist.mp inItems)⟩
  · simp only [cons_append, cons.injEq, nil_eq, append_eq_nil_iff] at split
    obtain ⟨rfl, rfl, rfl, rfl⟩ := split
    exact .inl inItems

theorem pair_of_mem {α : Type} {first second : α} {items : List α} (member : first ∈ items) :
    [first, second].Sublist (items ++ [second]) :=
  (singleton_sublist.mpr member).append (Sublist.refl [second])

def rans (log : List Event) : List Nat :=
  log.filterMap fun event =>
    match event with
    | .ran action => some action
    | _ => none

variable {log : List Event}

theorem mem_rans : action ∈ rans log ↔ .ran action ∈ log := by
  rw [rans, mem_filterMap]
  constructor
  · rintro ⟨event, member, found⟩
    cases event with
    | ran other =>
      cases found
      exact member
    | _ => cases found
  · exact fun member => ⟨_, member, rfl⟩

theorem count_rans (log : List Event) (action : Nat) :
    log.count (.ran action) = (rans log).count action := by
  rw [rans, count_filterMap]
  refine countP_congr fun event _ => ?_
  cases event with
  | ran other => simp
  | _ => simp

theorem rans_append (log events : List Event) : rans (log ++ events) = rans log ++ rans events :=
  filterMap_append

/-- The commit that released the first action came before the second was registered. -/
def ReleasedBefore (log : List Event) (first second : Nat) : Prop :=
  ∃ scope released scopes, first ∈ released ∧
    [.committed scope released, .registered second scopes].Sublist log

theorem ReleasedBefore.mono {first second : Nat} (before : ReleasedBefore log first second)
    (events : List Event) : ReleasedBefore (log ++ events) first second := by
  obtain ⟨scope, released, scopes, member, pair⟩ := before
  exact ⟨scope, released, scopes, member, pair.trans (sublist_append_left _ _)⟩

/-- The queued actions have been released. -/
abbrev Released (pending : Pending) (log : List Event) : Prop :=
  ∀ action ∈ pending.queues.flatten, ∃ scope released,
    action ∈ released ∧ .committed scope released ∈ log

/-- What is pending further out was released before what is pending further in was registered. -/
abbrev Nested (pending : Pending) (log : List Event) : Prop :=
  (pending.queues ++ [pending.waiting]).Pairwise fun lower upper =>
    ∀ first ∈ lower, ∀ second ∈ upper, ReleasedBefore log first second

theorem nested_concat {blocks : List (List Nat)} {last : List Nat} :
    ((blocks ++ [last]).Pairwise fun lower upper =>
      ∀ first ∈ lower, ∀ second ∈ upper, ReleasedBefore log first second) ↔
    (blocks.Pairwise fun lower upper =>
      ∀ first ∈ lower, ∀ second ∈ upper, ReleasedBefore log first second) ∧
    ∀ first ∈ blocks.flatten, ∀ second ∈ last, ReleasedBefore log first second := by
  simp only [pairwise_append, pairwise_singleton, mem_singleton, forall_eq, true_and, mem_flatten]
  exact and_congr_right fun _ => ⟨fun all first ⟨block, listed, member⟩ => all block listed first member,
    fun all block listed first member => all first ⟨block, listed, member⟩⟩

/-- Actions are run once, after they are released, and in their order as far as they were
registered before that. -/
structure Orderly (pending : Pending) (log : List Event) : Prop where
  sorted : pending.actions.Pairwise (· < ·)
  bound : ∀ action ∈ pending.actions, action < pending.count
  ranBound : ∀ action, .ran action ∈ log → action < pending.count
  once : (rans log).Nodup
  fresh : ∀ action ∈ pending.actions, .ran action ∉ log
  released : Released pending log
  nested : Nested pending log
  late : ∀ first ∈ pending.actions, ∀ second, first < second → .ran second ∈ log →
    ReleasedBefore log first second
  order : ∀ first second, first < second → [.ran second, .ran first].Sublist log →
    ReleasedBefore log first second
  after : ∀ action, .ran action ∈ log → .registered action [] ∈ log ∨ ∃ scope released,
    action ∈ released ∧ [.committed scope released, .ran action].Sublist log

theorem orderly_initial : Orderly State.initial.pending [] where
  sorted := Pairwise.nil
  bound := nofun
  ranBound := nofun
  once := nodup_nil
  fresh := nofun
  released := nofun
  nested := pairwise_singleton _ _
  late := nofun
  order := fun _ _ _ pair => absurd (pair.subset mem_cons_self) not_mem_nil
  after := nofun

namespace Orderly

variable {pending next : Pending} {log : List Event}

theorem released_mono (orderly : Orderly pending log) (events : List Event) :
    Released pending (log ++ events) := by
  intro action member
  obtain ⟨scope, released, found, recorded⟩ := orderly.released action member
  exact ⟨scope, released, found, mem_append_left _ recorded⟩

theorem nested_mono (orderly : Orderly pending log) (events : List Event) :
    Nested pending (log ++ events) :=
  orderly.nested.imp fun before first inLower second inUpper =>
    (before first inLower second inUpper).mono events

theorem after_mono (orderly : Orderly pending log) (events : List Event) {action : Nat}
    (ran : .ran action ∈ log) :
    .registered action [] ∈ log ++ events ∨ ∃ scope released,
      action ∈ released ∧ [.committed scope released, .ran action].Sublist (log ++ events) := by
  rcases orderly.after action ran with registered | ⟨scope, released, member, pair⟩
  · exact Or.inl (mem_append_left _ registered)
  · exact Or.inr ⟨scope, released, member, pair.trans (sublist_append_left _ _)⟩

/-- A move that runs nothing: what is pending was pending, or is new. -/
theorem unran (orderly : Orderly pending log) {events : List Event}
    (silent : ∀ action, .ran action ∉ events) (sorted : next.actions.Pairwise (· < ·))
    (known : ∀ action ∈ next.actions, action ∈ pending.actions ∨
      pending.count ≤ action ∧ action < next.count) (count : pending.count ≤ next.count)
    (released : Released next (log ++ events)) (nested : Nested next (log ++ events)) :
    Orderly next (log ++ events) := by
  have same : ∀ {action}, .ran action ∈ log ++ events → .ran action ∈ log := by
    intro action member
    exact (mem_append.mp member).resolve_right (silent action)
  have none : rans events = [] :=
    eq_nil_iff_forall_not_mem.mpr fun action member => silent action (mem_rans.mp member)
  refine ⟨sorted, ?_, ?_, ?_, ?_, released, nested, ?_, ?_, ?_⟩
  · intro action member
    rcases known action member with old | new
    · exact Nat.lt_of_lt_of_le (orderly.bound action old) count
    · exact new.2
  · exact fun action ran => Nat.lt_of_lt_of_le (orderly.ranBound action (same ran)) count
  · rw [rans_append, none, append_nil]
    exact orderly.once
  · intro action member ran
    rcases known action member with old | new
    · exact orderly.fresh action old (same ran)
    · exact absurd (orderly.ranBound action (same ran)) (Nat.not_lt.mpr new.1)
  · intro first member second less ran
    rcases known first member with old | new
    · exact (orderly.late first old second less (same ran)).mono _
    · exact absurd (orderly.ranBound second (same ran))
        (Nat.not_lt.mpr (Nat.le_of_lt (Nat.lt_of_le_of_lt new.1 less)))
  · exact fun first second less pair =>
      (orderly.order first second less
        ((pair_append pair).resolve_right fun later => silent first later.1)).mono _
  · exact fun action ran => orderly.after_mono _ (same ran)

/-- A move that runs and registers nothing. -/
theorem quiet (orderly : Orderly pending log) {events : List Event}
    (silent : ∀ action, .ran action ∉ events) (fewer : next.actions.Sublist pending.actions)
    (count : next.count = pending.count) (released : Released next (log ++ events))
    (nested : Nested next (log ++ events)) : Orderly next (log ++ events) :=
  orderly.unran silent (orderly.sorted.sublist fewer) (fun _ member => .inl (fewer.subset member))
    (Nat.le_of_eq count.symm) released nested

variable {queues : List (List Nat)} {waiting : List Nat} {count : Nat}

theorem add {scopes : List Nat} (orderly : Orderly ⟨queues, waiting, count⟩ log) :
    Orderly ⟨queues, waiting ++ [count], count + 1⟩ (log ++ [.registered count scopes]) := by
  have actions : Pending.actions ⟨queues, waiting ++ [count], count + 1⟩ =
      Pending.actions ⟨queues, waiting, count⟩ ++ [count] := (append_assoc _ _ _).symm
  refine orderly.unran (by simp) ?_ (fun action member => ?_) (Nat.le_succ _)
    (orderly.released_mono _) ?_
  · rw [actions]
    apply pairwise_append.mpr ⟨orderly.sorted, pairwise_singleton _ _, ?_⟩
    intro action member last isLast
    rw [mem_singleton.mp isLast]
    exact orderly.bound action member
  · rw [actions, mem_append, mem_singleton] at member
    refine member.imp id ?_
    rintro rfl
    exact ⟨Nat.le_refl _, Nat.lt_succ_self _⟩
  · obtain ⟨lower, upper⟩ := nested_concat.mp (orderly.nested_mono [.registered count scopes])
    refine nested_concat.mpr ⟨lower, fun first member second inLast => ?_⟩
    rcases mem_append.mp inLast with old | new
    · exact upper first member second old
    · rw [mem_singleton.mp new]
      obtain ⟨scope, released, found, recorded⟩ := orderly.released first member
      exact ⟨scope, released, scopes, found, pair_of_mem recorded⟩

/-- A move that runs one action. -/
theorem ranOne (orderly : Orderly pending log) {action : Nat} (bound : action < pending.count)
    (fresh : .ran action ∉ log) (gone : action ∉ next.actions)
    (fewer : next.actions.Sublist pending.actions) (count : next.count = pending.count)
    (queued : ∀ other ∈ next.queues.flatten, other ∈ pending.queues.flatten)
    (nested : Nested next (log ++ [.ran action]))
    (below : ∀ first ∈ next.actions, first < action → ReleasedBefore log first action)
    (above : ∀ second, action < second → .ran second ∈ log → ReleasedBefore log action second)
    (after : .registered action [] ∈ log ∨
      ∃ scope released, action ∈ released ∧ .committed scope released ∈ log) :
    Orderly next (log ++ [.ran action]) := by
  have cases : ∀ {other}, .ran other ∈ log ++ [.ran action] → .ran other ∈ log ∨ other = action := by
    simp
  refine ⟨orderly.sorted.sublist fewer, ?_, ?_, ?_, ?_, ?_, nested, ?_, ?_, ?_⟩
  · exact fun other member => count ▸ orderly.bound other (fewer.subset member)
  · intro other ran
    rw [count]
    rcases cases ran with old | rfl
    · exact orderly.ranBound other old
    · exact bound
  · rw [rans_append]
    apply Nodup.append orderly.once (nodup_singleton action)
    intro other old new
    rw [mem_singleton.mp new] at old
    exact fresh (mem_rans.mp old)
  · intro other member ran
    rcases cases ran with old | rfl
    · exact orderly.fresh other (fewer.subset member) old
    · exact gone member
  · exact fun other member => orderly.released_mono _ other (queued other member)
  · intro first member second less ran
    rcases cases ran with old | rfl
    · exact (orderly.late first (fewer.subset member) second less old).mono _
    · exact (below first member less).mono _
  · intro first second less pair
    rcases pair_append pair with old | ⟨new, ran | both⟩
    · exact (orderly.order first second less old).mono _
    · cases mem_singleton.mp new
      exact (above second less ran).mono _
    · exact absurd both.length_le (Nat.not_succ_le_self 1)
  · intro other ran
    rcases cases ran with old | rfl
    · exact orderly.after_mono _ old
    · rcases after with registered | ⟨scope, released, found, recorded⟩
      · exact .inl (mem_append_left _ registered)
      · exact .inr ⟨scope, released, found, pair_of_mem recorded⟩

theorem immediate (orderly : Orderly ⟨queues, [], count⟩ log) :
    Orderly ⟨queues, [], count + 1⟩ (log ++ [.registered count [], .ran count]) := by
  have registered : Orderly ⟨queues, [], count + 1⟩ (log ++ [.registered count []]) :=
    orderly.unran (by simp) orderly.sorted (fun _ member => .inl member) (Nat.le_succ _)
      (orderly.released_mono _) (orderly.nested_mono _)
  have early : ∀ {action}, .ran action ∈ log ++ [.registered count []] → action < count := by
    intro action ran
    exact orderly.ranBound action ((mem_append.mp ran).resolve_right (by simp))
  have split : log ++ [.registered count [], .ran count] =
      (log ++ [.registered count []]) ++ [.ran count] := by
    rw [append_assoc, singleton_append]
  rw [split]
  refine registered.ranOne (Nat.lt_succ_self _) (fun ran => Nat.lt_irrefl _ (early ran))
    (fun member => Nat.lt_irrefl _ (orderly.bound _ member)) (.refl _) rfl (fun _ member => member)
    (registered.nested_mono _) (fun first member _ => ?_)
    (fun second less ran => absurd (early ran) (Nat.lt_asymm less)) (.inl (by simp))
  have queued : first ∈ queues.flatten := by
    rwa [Pending.actions, append_nil] at member
  obtain ⟨scope, released, found, recorded⟩ := orderly.released first queued
  exact ⟨scope, released, [], found, pair_of_mem recorded⟩

theorem run {action : Nat} {rest : List Nat}
    (orderly : Orderly ⟨queues ++ [action :: rest], waiting, count⟩ log) :
    Orderly ⟨queues ++ [rest], waiting, count⟩ (log ++ [.ran action]) := by
  have before : Pending.actions ⟨queues ++ [action :: rest], waiting, count⟩ =
      queues.flatten ++ action :: (rest ++ waiting) := by
    simp [Pending.actions]
  have left : Pending.actions ⟨queues ++ [rest], waiting, count⟩ =
      queues.flatten ++ (rest ++ waiting) := by
    simp [Pending.actions]
  have present : action ∈ Pending.actions ⟨queues ++ [action :: rest], waiting, count⟩ := by
    rw [before]
    exact mem_append_right _ mem_cons_self
  -- What is pending beside the action is in an outer queue, or comes later.
  have beside : ∀ other ∈ Pending.actions ⟨queues ++ [rest], waiting, count⟩,
      other ∈ queues.flatten ∧ other < action ∨ action < other := by
    have sorted := before ▸ orderly.sorted
    obtain ⟨_, later, earlier⟩ := pairwise_append.mp sorted
    intro other member
    rw [left] at member
    rcases mem_append.mp member with queued | follows
    · exact Or.inl ⟨queued, earlier other queued action mem_cons_self⟩
    · exact Or.inr ((pairwise_cons.mp later).1 other follows)
  have queued : ∀ other ∈ (queues ++ [rest]).flatten, other ∈ (queues ++ [action :: rest]).flatten := by
    intro other member
    simp only [flatten_append, flatten_singleton, mem_append] at member ⊢
    exact member.imp id (mem_cons_of_mem _)
  refine orderly.ranOne (orderly.bound action present) (orderly.fresh action present) ?_ ?_ rfl queued
    ?_ ?_ (orderly.late action present) (.inr (orderly.released action (by simp)))
  · intro member
    rcases beside action member with ⟨_, less⟩ | less
    · exact Nat.lt_irrefl _ less
    · exact Nat.lt_irrefl _ less
  · rw [before, left]
    exact (sublist_cons_self _ _).append_left _
  · obtain ⟨inner, toWaiting⟩ := nested_concat.mp (orderly.nested_mono [.ran action])
    obtain ⟨lower, toQueue⟩ := nested_concat.mp inner
    exact nested_concat.mpr ⟨nested_concat.mpr ⟨lower, fun first member second inRest =>
      toQueue first member second (mem_cons_of_mem _ inRest)⟩,
      fun first member => toWaiting first (queued first member)⟩
  · intro first member less
    rcases beside first member with ⟨outer, _⟩ | greater
    · obtain ⟨inner, _⟩ := nested_concat.mp orderly.nested
      exact (nested_concat.mp inner).2 first outer action mem_cons_self
    · exact absurd greater (Nat.lt_asymm less)

/-- What one move keeps. -/
theorem shift (orderly : Orderly pending log) {events : List Event}
    (shifted : Shift pending next events) : Orderly next (log ++ events) := by
  cases shifted with
  | still =>
    rw [append_nil]
    exact orderly
  | hand scope =>
    exact orderly.quiet (by simp) (Sublist.refl _) rfl (orderly.released_mono _)
      (orderly.nested_mono _)
  | immediate => exact orderly.immediate
  | add => exact orderly.add
  | release queues waiting count scope =>
    apply orderly.quiet (by simp)
    · simp [Pending.actions]
    · rfl
    · intro action member
      rw [flatten_append, flatten_singleton] at member
      rcases mem_append.mp member with queued | released
      · exact orderly.released_mono _ action queued
      · exact ⟨scope, waiting, released, by simp⟩
    · exact nested_concat.mpr ⟨orderly.nested_mono _, fun _ _ _ none => absurd none not_mem_nil⟩
  | drop queues kept lost count scope =>
    apply orderly.quiet (by simp)
    · exact (sublist_append_left kept lost).append_left _
    · rfl
    · exact orderly.released_mono _
    · obtain ⟨lower, upper⟩ := nested_concat.mp (orderly.nested_mono [.rolledBack scope])
      exact nested_concat.mpr ⟨lower, fun first member second inKept =>
        upper first member second (mem_append_left _ inKept)⟩
  | run => exact orderly.run
  | finish queues waiting count =>
    apply orderly.quiet (by simp)
    · simp [Pending.actions]
    · rfl
    · intro action member
      apply orderly.released_mono
      simpa using member
    · have nested := orderly.nested_mono []
      rw [Nested, append_assoc] at nested
      exact Pairwise.sublist (Sublist.append_left (by simp) _) nested

end Orderly

variable {state : State} {after : State} {events : List Event}

/-! ## Scopes -/

def Committed (log : List Event) (scope : Nat) : Prop := ∃ released, .committed scope released ∈ log

def Ended (log : List Event) (scope : Nat) : Prop := Committed log scope ∨ .rolledBack scope ∈ log

/-- Scopes are numbered from the outermost on, and no open scope has ended. -/
structure Numbered (state : State) : Prop where
  decreasing : (state.scopes.map Scope.name).Pairwise (· > ·)
  bound : ∀ name ∈ state.scopes.map Scope.name, name ≤ state.opened
  ended : ∀ name, Ended state.log name → name ≤ state.opened ∧ name ∉ state.scopes.map Scope.name
  exclusive : ∀ name, Committed state.log name → .rolledBack name ∉ state.log

theorem committed_append {events : List Event} {name : Nat} :
    Committed (log ++ events) name ↔ Committed log name ∨ Committed events name := by
  unfold Committed
  rw [← exists_or]
  exact exists_congr fun released => mem_append

theorem Committed.mono {name : Nat} (committed : Committed log name) (events : List Event) :
    Committed (log ++ events) name :=
  committed_append.mpr (Or.inl committed)

theorem numbered_initial : Numbered State.initial where
  decreasing := Pairwise.nil
  bound := nofun
  ended := by
    rintro name (⟨_, member⟩ | member)
    · exact absurd member not_mem_nil
    · exact absurd member not_mem_nil
  exclusive := fun _ _ => not_mem_nil

/-- What a move that ends no scope keeps. -/
theorem Numbered.quiet (numbered : Numbered state)
    (names : after.scopes.map Scope.name = state.scopes.map Scope.name)
    (opened : after.opened = state.opened) (log : after.log = state.log ++ events)
    (harmless : ∀ name, ¬Ended events name) : Numbered after := by
  have committed : ∀ name, Committed after.log name → Committed state.log name := by
    intro name done
    rw [log] at done
    exact (committed_append.mp done).resolve_right fun new => harmless name (.inl new)
  have rolledBack : ∀ name, .rolledBack name ∈ after.log → .rolledBack name ∈ state.log := by
    intro name lost
    rw [log] at lost
    exact (mem_append.mp lost).resolve_right fun new => harmless name (.inr new)
  refine ⟨names ▸ numbered.decreasing, names ▸ opened ▸ numbered.bound, ?_, ?_⟩
  · rw [names, opened]
    exact fun name ended => numbered.ended name (ended.imp (committed name) (rolledBack name))
  · exact fun name done lost => numbered.exclusive name (committed name done) (rolledBack name lost)

/-- What the end of the innermost scope keeps. -/
theorem Numbered.end (numbered : Numbered state) {name : Nat}
    (names : state.scopes.map Scope.name = name :: after.scopes.map Scope.name)
    (opened : after.opened = state.opened) (log : after.log = state.log ++ events)
    (only : (∃ released, events = [.committed name released]) ∨ events = [.rolledBack name]) :
    Numbered after := by
  have bound := names ▸ numbered.bound
  obtain ⟨below, decreasing⟩ := pairwise_cons.mp (names ▸ numbered.decreasing)
  have stillOpen : ¬Ended state.log name := fun finished =>
    (numbered.ended name finished).2 (names ▸ mem_cons_self)
  have committed : ∀ other, Committed after.log other → Committed state.log other ∨
      other = name ∧ .rolledBack name ∉ events := by
    intro other done
    rw [log] at done
    refine (committed_append.mp done).imp id ?_
    rintro ⟨_, new⟩
    rcases only with ⟨_, rfl⟩ | rfl
    · cases mem_singleton.mp new
      exact ⟨rfl, by simp⟩
    · cases mem_singleton.mp new
  have rolledBack : ∀ other, .rolledBack other ∈ after.log → .rolledBack other ∈ state.log ∨
      other = name ∧ .rolledBack name ∈ events := by
    intro other lost
    rw [log] at lost
    refine (mem_append.mp lost).imp id fun new => ?_
    rcases only with ⟨_, rfl⟩ | rfl
    · cases mem_singleton.mp new
    · cases mem_singleton.mp new
      exact ⟨rfl, mem_cons_self⟩
  refine ⟨decreasing, fun other member => opened ▸ bound other (mem_cons_of_mem _ member), ?_,
    ?_⟩
  · intro other finished
    have before : Ended state.log other ∨ other = name := by
      rcases finished with done | lost
      · exact (committed other done).imp .inl And.left
      · exact (rolledBack other lost).imp .inr And.left
    rcases before with old | rfl
    · have past := names ▸ numbered.ended other old
      exact ⟨opened ▸ past.1, fun member => past.2 (mem_cons_of_mem _ member)⟩
    · exact ⟨opened ▸ bound _ mem_cons_self, fun member => Nat.lt_irrefl _ (below _ member)⟩
  · intro other done lost
    rcases committed other done with old | ⟨rfl, absent⟩
    · rcases rolledBack other lost with lost | ⟨rfl, _⟩
      · exact numbered.exclusive other old lost
      · exact stillOpen (.inl old)
    · rcases rolledBack other lost with lost | ⟨_, present⟩
      · exact stillOpen (.inr lost)
      · exact absent present

theorem numbered_moved (numbered : Numbered state) (moved : Moved state after events) :
    Numbered after := by
  have log := moved.log
  cases moved with
  | still => exact numbered
  | opened =>
    refine ⟨pairwise_cons.mpr ⟨fun name member => ?_, numbered.decreasing⟩,
      fun name member => ?_, fun name finished => ?_, numbered.exclusive⟩
    · exact Nat.lt_succ_of_le (numbered.bound name member)
    · rcases mem_cons.mp member with rfl | old
      · exact Nat.le_refl _
      · exact Nat.le_succ_of_le (numbered.bound name old)
    · have past := numbered.ended name finished
      refine ⟨Nat.le_succ_of_le past.1, fun member => ?_⟩
      rcases mem_cons.mp member with rfl | old
      · exact Nat.not_succ_le_self _ past.1
      · exact past.2 old
  | outside | ran | finished => exact numbered.quiet rfl rfl log (by simp [Ended, Committed])
  | inside listed =>
    refine numbered.quiet ?_ rfl log (by simp [Ended, Committed])
    rw [listed]
    rfl
  | released listed | handed listed => exact numbered.end (congrArg _ listed) rfl log (.inl ⟨_, rfl⟩)
  | rolledBack listed => exact numbered.end (congrArg _ listed) rfl log (.inr rfl)

/-! ## What becomes of an action -/

section Shifted

variable {pending next : Pending} {events : List Event} {action : Nat}

theorem Shift.queued (shifted : Shift pending next events) (member : action ∈ pending.queues.flatten) :
    action ∈ next.queues.flatten ∨ .ran action ∈ events := by
  cases shifted with
  | run queues first rest waiting count =>
    simp only [flatten_append, flatten_singleton, mem_append, mem_cons] at member
    rcases member with outer | rfl | inner
    · exact Or.inl (by simp only [flatten_append, mem_append]; exact Or.inl outer)
    · exact Or.inr mem_cons_self
    · exact Or.inl (by simp [inner])
  | release => exact Or.inl (by simp only [flatten_append, mem_append]; exact Or.inl member)
  | finish => exact Or.inl (by simpa using member)
  | _ => exact Or.inl member

theorem Shift.actions (shifted : Shift pending next events) (member : action ∈ next.actions) :
    action ∈ pending.actions ∨ action = pending.count := by
  unfold Pending.actions at member ⊢
  cases shifted with
  | add =>
    rw [← append_assoc, mem_append, mem_singleton] at member
    exact member
  | release => exact Or.inl (by simpa using member)
  | drop queues kept lost count scope =>
    rw [← append_assoc]
    exact Or.inl (mem_append_left _ member)
  | run queues first rest waiting count =>
    simp only [flatten_append, flatten_singleton, mem_append, mem_cons] at member ⊢
    tauto
  | finish => exact Or.inl (by simpa using member)
  | _ => exact Or.inl member

theorem Shift.ran (shifted : Shift pending next events) (member : .ran action ∈ events) :
    action ∈ pending.actions ∨ action = pending.count := by
  cases shifted with
  | immediate => exact Or.inr (by simpa using member)
  | run queues first rest waiting count =>
    cases mem_singleton.mp member
    exact Or.inl (by simp [Pending.actions])
  | still | finish => exact absurd member not_mem_nil
  | _ => cases mem_singleton.mp member

theorem Shift.registered (shifted : Shift pending next events) {first second : List Nat}
    (one : .registered action first ∈ events) :
    action = pending.count ∧ (.registered action second ∈ events → first = second) := by
  cases shifted with
  | immediate queues count =>
    have here : action = count ∧ first = [] := by simpa using one
    refine ⟨here.1, fun other => ?_⟩
    have there : action = count ∧ second = [] := by simpa using other
    rw [here.2, there.2]
  | add =>
    cases mem_singleton.mp one
    refine ⟨rfl, fun other => ?_⟩
    cases mem_singleton.mp other
    rfl
  | still | finish => exact absurd one not_mem_nil
  | _ => cases mem_singleton.mp one

end Shifted

/-- What has become of an action that was registered in the named scopes. -/
inductive Fate (state : State) (action : Nat) (names : List Nat) : Prop where
  /-- It waits in a scope that is open, and the scopes inside that one are committed. -/
  | waits {closed : List Nat} {inner outer : List Scope} {scope : Scope}
      (scopes : state.scopes = inner ++ scope :: outer) (member : action ∈ scope.waiting)
      (listed : names = closed ++ (scope :: outer).map Scope.name)
      (committed : ∀ name ∈ closed, Committed state.log name)
  /-- All its scopes are committed, and it is queued or has been run. -/
  | released (committed : ∀ name ∈ names, Committed state.log name)
      (queued : action ∈ state.pending.queues.flatten ∨ .ran action ∈ state.log)
  /-- One of its scopes is rolled back, and it is neither pending nor run. -/
  | dropped (lost : ∃ name ∈ names, .rolledBack name ∈ state.log)
      (gone : action ∉ state.pending.actions) (unran : .ran action ∉ state.log)

theorem Fate.mem_waiting {inner outer : List Scope} {scope : Scope}
    (scopes : state.scopes = inner ++ scope :: outer) (member : action ∈ scope.waiting) :
    action ∈ state.pending.waiting :=
  Deferred.mem_waiting.mpr ⟨scope, scopes ▸ mem_append_right _ mem_cons_self, member⟩

theorem mem_actions_of_waiting {pending : Pending} (member : action ∈ pending.waiting) :
    action ∈ pending.actions :=
  mem_append_right _ member

/-- An action is not both queued and waiting. -/
theorem Orderly.not_queued {pending : Pending} (orderly : Orderly pending log)
    (member : action ∈ pending.waiting) : action ∉ pending.queues.flatten :=
  fun queued => Nat.lt_irrefl _
    ((pairwise_append.mp orderly.sorted).2.2 action queued action member)

/-- The fate of an action that waits, after a move of the open scopes. -/
theorem Fate.wait_moved (orderly : Orderly state.pending state.log)
    (moved : Moved state after events) {names closed : List Nat} {inner outer : List Scope}
    {scope : Scope} (scopes : state.scopes = inner ++ scope :: outer)
    (member : action ∈ scope.waiting) (names_ : names = closed ++ (scope :: outer).map Scope.name)
    (committed : ∀ name ∈ closed, Committed state.log name) : Fate after action names := by
  have kept : ∀ name ∈ closed, Committed after.log name := fun name inClosed =>
    moved.log ▸ (committed name inClosed).mono events
  cases moved with
  | still | outside | ran | finished => exact .waits scopes member names_ kept
  | opened => exact .waits ((congrArg _ scopes).trans cons_append.symm) member names_ kept
  | inside listed =>
    rw [listed] at scopes
    cases inner with
    | nil =>
      cases scopes
      exact .waits (nil_append _).symm (mem_append_left _ member) names_ kept
    | cons first inner =>
      cases scopes
      exact .waits cons_append.symm member names_ kept
  | released listed =>
    rw [listed] at scopes
    cases inner with
    | nil =>
      cases scopes
      refine .released (fun name inNames => ?_) (.inl ?_)
      · rw [names_] at inNames
        rcases mem_append.mp inNames with old | new
        · exact kept name old
        · cases mem_singleton.mp new
          exact ⟨_, mem_append_right _ mem_cons_self⟩
      · unfold State.pending
        rw [reverse_cons, flatten_append, flatten_singleton]
        exact mem_append_right _ member
    | cons first inner =>
      exact absurd (cons.inj scopes).2.symm
        (append_ne_nil_of_right_ne_nil _ (cons_ne_nil _ _))
  | handed listed =>
    rw [listed] at scopes
    match inner with
    | [] =>
      cases scopes
      refine .waits (nil_append _).symm (mem_append_right _ member)
        (names_.trans (append_cons closed _ _)) fun name inClosed => ?_
      rcases mem_append.mp inClosed with old | new
      · exact kept name old
      · cases mem_singleton.mp new
        exact ⟨[], mem_append_right _ mem_cons_self⟩
    | [first] =>
      cases scopes
      exact .waits (nil_append _).symm (mem_append_left _ member) names_ kept
    | first :: second :: inner =>
      cases scopes
      exact .waits cons_append.symm member names_ kept
  | rolledBack listed =>
    cases inner with
    | nil =>
      cases listed.symm.trans scopes
      have here := Fate.mem_waiting scopes member
      refine .dropped ⟨scope.name, ?_, mem_append_right _ mem_cons_self⟩ ?_ ?_
      · rw [names_]
        exact mem_append_right _ mem_cons_self
      · intro found
        rcases mem_append.mp found with queued | waits
        · exact orderly.not_queued here queued
        · have sorted : (waiting state.scopes).Pairwise (· < ·) :=
            (pairwise_append.mp orderly.sorted).2.1
          rw [listed] at sorted
          exact Nat.lt_irrefl _
            ((pairwise_append.mp sorted).2.2 action waits action member)
      · intro ran
        exact orderly.fresh action (mem_actions_of_waiting here)
          ((mem_append.mp ran).resolve_right (by simp))
    | cons first inner =>
      cases listed.symm.trans scopes
      exact .waits rfl member names_ kept

theorem Fate.moved (orderly : Orderly state.pending state.log) (moved : Moved state after events)
    {names : List Nat} (old : action < state.registered) (fate : Fate state action names) :
    Fate after action names := by
  cases fate with
  | waits scopes member listed committed =>
    exact wait_moved orderly moved scopes member listed committed
  | released committed queued =>
    refine .released (fun name member => moved.log ▸ (committed name member).mono events) ?_
    rw [moved.log, mem_append]
    rcases queued with queued | ran
    · exact (moved.shift.queued queued).imp id Or.inr
    · exact Or.inr (Or.inl ran)
  | dropped lost gone unran =>
    obtain ⟨name, member, lost⟩ := lost
    have elsewhere : ¬ (action ∈ state.pending.actions ∨ action = state.pending.count) :=
      fun either => either.elim gone fun same => Nat.lt_irrefl _ (same ▸ old)
    refine .dropped ⟨name, member, moved.log ▸ mem_append_left _ lost⟩ ?_ ?_
    · exact fun found => elsewhere (moved.shift.actions found)
    · rw [moved.log, mem_append]
      rintro (ran | ran)
      · exact unran ran
      · exact elsewhere (moved.shift.ran ran)

/-! ## Every run -/

/-- What holds in every state that is reached. -/
structure Sound (state : State) : Prop where
  orderly : Orderly state.pending state.log
  numbered : Numbered state
  fate : ∀ action names, .registered action names ∈ state.log →
    action < state.registered ∧ Fate state action names
  unique : ∀ action first second, .registered action first ∈ state.log →
    .registered action second ∈ state.log → first = second
  root : ∀ scope released, .committed scope released ∈ state.log → ∀ action ∈ released,
    action < state.registered ∧ ∀ names, .registered action names ∈ state.log →
      names.getLast? = some scope

theorem sound_initial : Sound State.initial where
  orderly := orderly_initial
  numbered := numbered_initial
  fate := nofun
  unique := nofun
  root := nofun

theorem Moved.registered_le (moved : Moved state after events) :
    state.registered ≤ after.registered := by
  cases moved with
  | outside | inside => exact Nat.le_succ _
  | _ => exact Nat.le_refl _

/-- An action that is registered now waits in the innermost scope, or has been run. -/
theorem Moved.registered (moved : Moved state after events) {names : List Nat}
    (registered : .registered action names ∈ after.log) :
    .registered action names ∈ state.log ∨ action = state.registered ∧
      action < after.registered ∧ Fate after action names := by
  rw [moved.log] at registered
  refine (mem_append.mp registered).imp id fun new => ?_
  cases moved with
  | outside listed =>
    obtain ⟨rfl, rfl⟩ : action = state.registered ∧ names = [] := by simpa using new
    exact ⟨rfl, Nat.lt_succ_self _, .released (by simp) (.inr (mem_append_right _ (by simp)))⟩
  | inside listed =>
    cases mem_singleton.mp new
    exact ⟨rfl, Nat.lt_succ_self _, .waits (nil_append _).symm
      (mem_append_right _ mem_cons_self)
      ((congrArg _ listed).trans (nil_append _).symm) (by simp)⟩
  | _ => simp at new

/-- The actions that a commit releases were waiting in the outermost scope. -/
theorem Moved.committed (moved : Moved state after events) {name : Nat} {released : List Nat}
    (committed : .committed name released ∈ after.log) :
    .committed name released ∈ state.log ∨ ∀ action ∈ released,
      action ∈ waiting state.scopes ∧ state.scopes.map Scope.name = [name] ∧
        ∀ other names, .registered other names ∈ after.log →
          .registered other names ∈ state.log := by
  rw [moved.log] at committed
  refine (mem_append.mp committed).imp id fun new => ?_
  cases moved with
  | released listed =>
    cases mem_singleton.mp new
    rw [listed]
    refine fun action member => ⟨mem_append_right _ member, rfl, ?_⟩
    exact fun other names registered => (mem_append.mp registered).resolve_right (by simp)
  | handed listed =>
    cases mem_singleton.mp new
    exact nofun
  | _ => simp at new

theorem sound_move (sound : Sound state) (step : Move) : Sound (move state step) := by
  obtain ⟨events, moved⟩ := move_moved state step
  refine ⟨moved.log ▸ sound.orderly.shift moved.shift, numbered_moved sound.numbered moved, ?_, ?_, ?_⟩
  · intro action names registered
    rcases moved.registered registered with old | ⟨_, bound, fate⟩
    · obtain ⟨bound, fate⟩ := sound.fate action names old
      exact ⟨Nat.lt_of_lt_of_le bound moved.registered_le, fate.moved sound.orderly moved bound⟩
    · exact ⟨bound, fate⟩
  · intro action first second one other
    rw [moved.log, mem_append] at one other
    have past : ∀ {names}, .registered action names ∈ state.log → action ≠ state.registered :=
      fun earlier => Nat.ne_of_lt (sound.fate action _ earlier).1
    rcases one with one | one
    · rcases other with other | other
      · exact sound.unique action first second one other
      · have same := (@Shift.registered _ _ _ _ moved.shift _ [] other).1
        exact absurd same (past one)
    · obtain ⟨same, unique⟩ := @Shift.registered _ _ _ _ moved.shift _ second one
      exact unique (other.resolve_left fun earlier => past earlier same)
  · intro scope released committed action member
    rcases moved.committed committed with old | new
    · obtain ⟨bound, root⟩ := sound.root scope released old action member
      refine ⟨Nat.lt_of_lt_of_le bound moved.registered_le, fun names registered => ?_⟩
      rcases moved.registered registered with earlier | ⟨rfl, _⟩
      · exact root names earlier
      · exact absurd bound (Nat.lt_irrefl _)
    · obtain ⟨waits, single, earlier⟩ := new action member
      have pending : action ∈ state.pending.actions := mem_actions_of_waiting waits
      refine ⟨Nat.lt_of_lt_of_le (sound.orderly.bound action pending) moved.registered_le,
        fun names registered => ?_⟩
      cases (sound.fate action names (earlier action names registered)).2 with
      | @waits closed inner outer last scopes _ listed _ =>
        rw [scopes, map_append] at single
        have ended := (append_eq_singleton_iff.mp single).resolve_right (by simp)
        rw [listed, ended.2, getLast?_append]
        rfl
      | released _ queued =>
        rcases queued with queued | ran
        · exact absurd queued (sound.orderly.not_queued waits)
        · exact absurd ran (sound.orderly.fresh action pending)
      | dropped _ gone _ => exact absurd pending gone

namespace Sound

variable {state : State} (sound : Sound state) {action : Nat} {names : List Nat}
  (registered : .registered action names ∈ state.log)

include sound registered

/-- An action runs only if all its scopes are committed. -/
theorem committed_of_ran (ran : .ran action ∈ state.log) : ∀ name ∈ names, Committed state.log name := by
  cases (sound.fate action names registered).2 with
  | waits scopes member _ _ =>
    exact absurd ran (sound.orderly.fresh action
      (mem_actions_of_waiting (Fate.mem_waiting scopes member)))
  | released committed _ => exact committed
  | dropped _ _ unran => exact absurd ran unran

/-- An action whose scopes are all committed has run when no queue is left. -/
theorem ran_of_committed (idle : state.queues = [])
    (committed : ∀ name ∈ names, Committed state.log name) : .ran action ∈ state.log := by
  cases (sound.fate action names registered).2 with
  | @waits _ _ _ scope scopes _ listed _ =>
    have named : scope.name ∈ names := by
      rw [listed]
      exact mem_append_right _ mem_cons_self
    have stillOpen : scope.name ∈ state.scopes.map Scope.name := by
      rw [scopes]
      exact mem_map_of_mem (mem_append_right _ mem_cons_self)
    exact absurd stillOpen (sound.numbered.ended _ (Or.inl (committed _ named))).2
  | released _ queued =>
    rcases queued with queued | ran
    · rw [State.pending, idle] at queued
      exact absurd queued not_mem_nil
    · exact ran
  | dropped lost _ _ =>
    obtain ⟨name, member, lost⟩ := lost
    exact absurd lost (sound.numbered.exclusive name (committed name member))

/-- An action runs after the commit of its outermost scope, which released it. -/
theorem released_before_ran (inside : names ≠ []) (ran : .ran action ∈ state.log) :
    ∃ scope released, names.getLast? = some scope ∧ action ∈ released ∧
      [.committed scope released, .ran action].Sublist state.log := by
  rcases sound.orderly.after action ran with immediate | ⟨scope, released, member, pair⟩
  · exact absurd (sound.unique action names [] registered immediate) inside
  · exact ⟨scope, released, (sound.root scope released (pair.subset mem_cons_self) action
      member).2 names registered, member, pair⟩

omit registered in
/-- An action runs at most once. -/
theorem count_le_one (action : Nat) : state.log.count (.ran action) ≤ 1 := by
  rw [count_rans]
  exact nodup_iff_count_le_one.mp sound.orderly.once action

theorem not_ran_of_rolledBack {name : Nat} (member : name ∈ names)
    (lost : .rolledBack name ∈ state.log) : .ran action ∉ state.log :=
  fun ran => sound.numbered.exclusive name (sound.committed_of_ran registered ran name member) lost

end Sound

end Gungnir.Library.Deferred
