import Gungnir.Core.TimerInvariant
import Mathlib.Algebra.BigOperators.Group.Finset.Piecewise

/-!
# Delivery of timers

What the scheduler and its executor do by themselves comes to an end: every step of theirs
decreases a weight. At rest, every timer that is due has been delivered. The resume functions
return.
-/

namespace Gungnir.Core.Timer

open Gungnir.Library List

variable {ω : Type} {state : State ω}

/-! ## The weight of a state -/

def Worker.weight : Worker → Nat
  | .waiting false => 0
  | .waiting true | .check => 1
  | .running _ => 2

def Phase.weight (now : Int) (notified : Bool) : Phase → Nat
  | .check => 1
  | .pumpWait | .emptyWait => notified.toNat
  | .deadlineWait deadline => (notified || decide (deadline ≤ now)).toNat
  | .dispatching _ => 2

def State.dueCount (state : State ω) : Nat :=
  state.timers.countP fun entry => decide (entry.deadline ≤ state.now)

def State.weight [Fintype ω] (state : State ω) : Nat :=
  8 * state.dueCount + 5 * (state.fallback.batch.length + state.batches.flatten.length) +
    2 * state.queue.length + 2 * state.posted + 2 * state.notifies +
    state.fallback.weight state.now state.notified + ∑ worker, (state.workers worker).weight

theorem countP_left_of_collectDue {now : Int} {entries : List Entry} (sorted : Sorted entries) :
    (collectDue now entries).2.countP (fun entry => decide (entry.deadline ≤ now)) = 0 := by
  rw [countP_eq_zero]
  intro entry member
  rw [decide_eq_true_eq, not_le]
  exact left_of_collectDue sorted entry member

theorem dueCount_eq_length (sorted : Sorted state.timers) :
    state.dueCount = (collectDue state.now state.timers).1.length := by
  have all : (collectDue state.now state.timers).1.countP
      (fun entry => decide (entry.deadline ≤ state.now)) =
      (collectDue state.now state.timers).1.length := by
    rw [countP_eq_length]
    exact fun entry member => decide_eq_true (due_of_collectDue entry member)
  unfold State.dueCount
  nth_rewrite 1 [← collectDue_append state.now state.timers]
  rw [countP_append, countP_left_of_collectDue sorted, all, Nat.add_zero]

theorem length_collectDue_pos {now : Int} {top : Entry} {rest : List Entry}
    (due : top.deadline ≤ now) : 0 < (collectDue now (top :: rest)).1.length := by
  unfold collectDue
  rw [if_pos due]
  exact Nat.succ_pos _

theorem weight_of_woken (woken : state.woken = true) :
    state.fallback.weight state.now state.notified = 1 := by
  unfold State.woken at woken
  cases phase : state.fallback with
  | check => rfl
  | dispatching rest =>
    rw [phase] at woken
    cases woken
  | pumpWait | emptyWait | deadlineWait deadline =>
    rw [phase] at woken
    dsimp only [Phase.weight] at woken ⊢
    rw [woken]
    rfl

theorem Phase.weight_notified_le (now : Int) (notified other : Bool) (phase : Phase) :
    phase.weight now notified ≤ phase.weight now other + 1 := by
  cases phase with
  | check => exact Nat.le_succ _
  | dispatching rest => exact Nat.le_succ _
  | pumpWait | emptyWait | deadlineWait deadline =>
    exact (Bool.toNat_le _).trans (Nat.le_add_left _ _)

section Workers

variable [DecidableEq ω] [Fintype ω]

/-- One worker moves on. -/
theorem sum_weight_update {workers : ω → Worker} {worker : ω} {phase : Worker} {before after : Nat}
    (was : (workers worker).weight = before) (becomes : phase.weight = after) :
    (∑ other, (Function.update workers worker phase other).weight) + before =
      (∑ other, (workers other).weight) + after := by
  have others : ∑ other ∈ Finset.univ.erase worker,
      (Function.update workers worker phase other).weight =
      ∑ other ∈ Finset.univ.erase worker, (workers other).weight :=
    Finset.sum_congr rfl fun other member => by
      rw [Function.update_of_ne (Finset.ne_of_mem_erase member)]
  rw [← Finset.add_sum_erase _ _ (Finset.mem_univ worker), others, Function.update_self,
    ← Finset.add_sum_erase _ (fun other => (workers other).weight) (Finset.mem_univ worker)]
  omega

theorem weight_work {worker : ω} (ready : (state.workers worker).weight = 1) :
    (state.work worker).weight < state.weight := by
  unfold State.work
  cases queue : state.queue with
  | nil =>
    have moved := @sum_weight_update _ _ _ _ _ (.waiting false) _ 0 ready rfl
    dsimp only [State.setWorker, State.weight, State.dueCount]
    omega
  | cons entry rest =>
    have moved := @sum_weight_update _ _ _ _ _ (.running entry) _ 2 ready rfl
    have shorter : state.queue.length = rest.length + 1 := by rw [queue, length_cons]
    dsimp only [State.setWorker, State.weight, State.dueCount]
    omega

omit [DecidableEq ω] in
theorem weight_dispatchOne {capacity : Nat} {entry : Entry} {refused : Bool}
    {batches : List (List Entry)} {fallback : Phase}
    (left : state.fallback.batch.length + state.batches.flatten.length =
      fallback.batch.length + batches.flatten.length + 1)
    (kept : fallback.weight state.now state.notified =
      state.fallback.weight state.now state.notified) :
    State.weight { state.dispatchOne capacity entry refused with
      batches := batches, fallback := fallback } < state.weight := by
  refine dispatchOne_cases (Q := fun after => State.weight { after with
    batches := batches, fallback := fallback } < state.weight) ?_ ?_ capacity refused
  · dsimp only [State.weight, State.dueCount]
    omega
  · dsimp only [State.weight, State.dueCount]
    rw [length_append, length_singleton]
    omega

omit [DecidableEq ω] in
theorem weight_wake (sorted : Sorted state.timers) (woken : state.woken = true) :
    state.wake.weight < state.weight := by
  have before := weight_of_woken woken
  have outside : ∀ rest, state.fallback ≠ .dispatching rest := by
    intro rest phase
    rw [phase] at before
    cases before
  have idle : state.fallback.batch = [] := by
    cases phase : state.fallback with
    | dispatching rest => exact absurd phase (outside rest)
    | check | pumpWait | emptyWait | deadlineWait deadline => rfl
  have asleep : ∀ phase : Phase, phase.batch = [] → phase.weight state.now false = 0 →
      State.weight { state with fallback := phase, notified := false } < state.weight := by
    intro phase empty zero
    unfold State.weight
    dsimp only [State.dueCount]
    rw [idle, before, empty, zero]
    omega
  rw [wake_eq_loop outside]
  rcases loop_cases state with ⟨_, same⟩ | ⟨_, _, same⟩ | ⟨top, rest, _, _, early, same⟩ |
    ⟨top, rest, _, timers, due, same⟩
  · rw [same]
    exact asleep .pumpWait rfl rfl
  · rw [same]
    exact asleep .emptyWait rfl rfl
  · rw [same]
    refine asleep (.deadlineWait top.deadline) rfl ?_
    dsimp only [Phase.weight]
    rw [decide_eq_false (not_le.mpr early)]
    rfl
  · have taken := dueCount_eq_length sorted
    have none := @countP_left_of_collectDue state.now _ sorted
    have some : 0 < (collectDue state.now state.timers).1.length := by
      rw [timers]
      exact length_collectDue_pos due
    rw [same]
    unfold State.weight
    rw [taken, before, idle]
    dsimp only [State.dueCount, Phase.weight, Phase.batch]
    omega

omit [DecidableEq ω] in
theorem weight_dispatchDue (sorted : Sorted state.timers)
    (internal : Internal state .dispatchDue) : state.dispatchDue.weight < state.weight := by
  obtain ⟨attached, top, first, due⟩ := internal
  have taken := dueCount_eq_length sorted
  have none := @countP_left_of_collectDue state.now _ sorted
  have some : 0 < (collectDue state.now state.timers).1.length := by
    obtain ⟨rest, timers⟩ := head?_eq_some_iff.mp (Option.mem_def.mp first)
    rw [timers]
    exact length_collectDue_pos due
  unfold State.dispatchDue
  rw [if_neg attached]
  unfold State.weight
  rw [taken]
  dsimp only [State.dueCount]
  rw [none, flatten_append, flatten_singleton, length_append]
  omega

/-- Every step that the scheduler and its executor take by themselves decreases the weight. -/
theorem weight_next {capacity : Nat} {event : Event ω} (sorted : Sorted state.timers)
    (enabled : Enabled state event) (internal : Internal state event) :
    (next capacity state event).weight < state.weight := by
  cases event with
  | tick | schedule | attach | detach | spurious | workerSpurious => exact internal.elim
  | dispatchDue => exact weight_dispatchDue sorted internal
  | notify =>
    have pending : 0 < state.notifies := enabled
    have raised := state.fallback.weight_notified_le state.now
      (state.fallback.waits || state.notified) state.notified
    dsimp only [next, State.notify, State.weight, State.dueCount]
    omega
  | post call refused =>
    obtain ⟨entry, rest, found, same⟩ := exists_of_post enabled
    rw [same]
    refine weight_dispatchOne ?_ rfl
    rw [(flatten_set found).length_eq, length_cons]
    omega
  | fallback => exact weight_wake sorted enabled
  | fallbackPost refused =>
    obtain ⟨entry, rest, found, same⟩ := exists_of_fallbackPost enabled
    rw [same]
    refine weight_dispatchOne ?_ ?_
    · rw [found]
      dsimp only [Phase.batch]
      rw [length_cons]
      omega
    · rw [found]
      rfl
  | fallbackDone =>
    have finished : state.fallback = .dispatching [] := enabled
    dsimp only [next]
    unfold State.weight
    rw [finished]
    dsimp only [State.dueCount, Phase.weight, Phase.batch]
    omega
  | postNotify worker =>
    cases worker with
    | none =>
      have pending : 0 < state.posted := enabled.1
      dsimp only [next, State.weight, State.dueCount]
      omega
    | some worker =>
      obtain ⟨pending, waits⟩ := enabled
      have was : (state.workers worker).weight = 0 := by
        rw [waits]
        rfl
      have moved := @sum_weight_update _ _ _ _ _ (.waiting true) _ 1 was rfl
      dsimp only [next, State.setWorker, State.weight, State.dueCount]
      omega
  | worker worker =>
    refine weight_work ?_
    rcases enabled with phase | phase
    · rw [phase]
      rfl
    · rw [phase]
      rfl
  | workerDone worker =>
    obtain ⟨entry, running⟩ := enabled
    have was : (state.workers worker).weight = 2 := by
      rw [running]
      rfl
    have moved := @sum_weight_update _ _ _ _ _ .check _ 1 was rfl
    dsimp only [next, State.setWorker, State.weight, State.dueCount]
    omega

end Workers

/-! ## At rest -/

/-- Neither the scheduler nor its executor has anything left to do, and the pump has no reason
to call `dispatch_due`. -/
def Resting (state : State ω) : Prop :=
  ∀ event, Internal state event → ¬Enabled state event

structure Invariant (state : State ω) : Prop where
  placed : Placed state
  awake : Awake state
  manned : Manned state

theorem invariant_initial : Invariant (State.initial : State ω) where
  placed := placed_initial
  awake := fun _ _ => trivial
  manned := fun filled => absurd rfl filled

/-- A timer that is due is not left to a thread that sleeps. -/
theorem Invariant.not_lost (invariant : Invariant state) {entry : Entry}
    (queued : entry ∈ state.timers) (due : entry.deadline ≤ state.now)
    (detached : state.pumpToken = 0) (waits : state.fallback.waits = true) :
    state.notified = true ∨ 0 < state.notifies ∨
      ∃ deadline ≤ state.now, state.fallback = .deadlineWait deadline := by
  by_cases quiet : state.notified = true
  · exact .inl quiet
  · by_cases none : state.notifies = 0
    · have agrees := invariant.awake (Bool.eq_false_of_not_eq_true quiet) none
      cases phase : state.fallback with
      | check | dispatching _ =>
        rw [phase] at waits
        cases waits
      | pumpWait =>
        rw [phase] at agrees
        exact absurd detached agrees
      | emptyWait =>
        rw [phase] at agrees
        rw [agrees.2] at queued
        exact absurd queued not_mem_nil
      | deadlineWait deadline =>
        rw [phase] at agrees
        exact .inr (.inr ⟨deadline, (agrees.2 entry queued).trans due, rfl⟩)
    · exact .inr (.inl (Nat.pos_of_ne_zero none))

theorem workers_of_resting [DecidableEq ω] (resting : Resting state) (worker : ω) :
    state.workers worker = .waiting false := by
  cases phase : state.workers worker with
  | check => exact absurd (.inl phase) (resting (.worker worker) trivial)
  | running entry => exact absurd ⟨entry, phase⟩ (resting (.workerDone worker) trivial)
  | waiting notified =>
    cases notified with
    | false => rfl
    | true => exact absurd (.inr phase) (resting (.worker worker) trivial)

theorem queue_of_resting [Nonempty ω] (invariant : Invariant state) (resting : Resting state) :
    state.queue = [] := by
  classical
  by_contra filled
  have worker := Classical.arbitrary ω
  rcases invariant.manned filled with posted | ⟨other, awake⟩
  · exact resting (.postNotify (some worker)) trivial ⟨posted, workers_of_resting resting worker⟩
  · exact awake (workers_of_resting resting other)

theorem batches_of_resting (resting : Resting state) : state.batches.flatten = [] := by
  rw [flatten_eq_nil_iff]
  intro batch member
  obtain ⟨call, found⟩ := mem_iff_getElem?.mp member
  by_contra filled
  refine resting (.post call false) trivial ?_
  change (state.batches[call]?).any (fun batch => !batch.isEmpty) = true
  rw [found, Option.any_some, Bool.not_eq_true', isEmpty_eq_false_iff]
  exact filled

theorem fallback_of_resting (resting : Resting state) :
    state.fallback.waits = true ∧ state.fallback.batch = [] ∧ state.woken = false := by
  have asleep : state.woken = false :=
    Bool.eq_false_of_not_eq_true (resting .fallback trivial)
  have empty : state.fallback.batch = [] := not_not.mp (resting (.fallbackPost false) trivial)
  refine ⟨?_, empty, asleep⟩
  cases phase : state.fallback with
  | pumpWait | emptyWait | deadlineWait deadline => rfl
  | check =>
    unfold State.woken at asleep
    rw [phase] at asleep
    cases asleep
  | dispatching rest =>
    rw [phase] at empty
    have finished : state.fallback = .dispatching [] := phase.trans (congrArg _ empty)
    exact absurd finished (resting .fallbackDone trivial)

/-- No timer that is due is left in the queue. -/
theorem timers_of_resting (invariant : Invariant state) (resting : Resting state) :
    ∀ entry ∈ state.timers, state.now < entry.deadline := by
  intro entry queued
  by_contra late
  obtain ⟨waits, _, asleep⟩ := fallback_of_resting resting
  have none : ¬0 < state.notifies := resting .notify trivial
  by_cases detached : state.pumpToken = 0
  · unfold State.woken at asleep
    rcases invariant.not_lost queued (not_lt.mp late) detached waits with notified | pending |
      ⟨deadline, passed, phase⟩
    · cases phase : state.fallback with
      | check | dispatching _ =>
        rw [phase] at waits
        cases waits
      | pumpWait | emptyWait | deadlineWait _ =>
        rw [phase, notified] at asleep
        cases asleep
    · exact none pending
    · rw [phase] at asleep
      dsimp only at asleep
      rw [decide_eq_true passed, Bool.or_true] at asleep
      cases asleep
  · refine resting .dispatchDue ⟨detached, ?_⟩ trivial
    cases timers : state.timers with
    | nil =>
      rw [timers] at queued
      exact absurd queued not_mem_nil
    | cons top rest =>
      have sorted := invariant.placed.timers
      rw [timers] at sorted queued
      refine ⟨top, rfl, ?_⟩
      rcases mem_cons.mp queued with first | after
      · rw [← first]
        exact not_lt.mp late
      · have before := deadline_le_of_later ((pairwise_cons.mp sorted).1 entry after)
        exact before.trans (not_lt.mp late)

theorem Invariant.delivered [Nonempty ω] (invariant : Invariant state) (resting : Resting state)
    {entry : Entry} (scheduled : entry ∈ state.scheduled) (due : entry.deadline ≤ state.now) :
    (state.ran.map Prod.fst).count entry = 1 := by
  have once := congrArg (Multiset.count entry) invariant.placed.once
  have nodup : state.scheduled.Nodup := invariant.placed.distinct.of_map _
  have absent : state.timers.count entry = 0 :=
    count_eq_zero.mpr fun queued =>
      absurd due (not_le.mpr (timers_of_resting invariant resting entry queued))
  unfold State.placed at once
  rw [(fallback_of_resting resting).2.1, batches_of_resting resting,
    queue_of_resting invariant resting] at once
  simp only [Multiset.coe_nil, add_zero, Multiset.count_add, Multiset.coe_count] at once
  rw [absent, count_eq_one_of_mem nodup scheduled, Nat.zero_add] at once
  exact once

/-! ## Runs -/

variable [DecidableEq ω]

theorem invariant_next [Nonempty ω] {capacity : Nat} {event : Event ω}
    (enabled : Enabled state event) (invariant : Invariant state) :
    Invariant (next capacity state event) where
  placed := placed_next invariant.placed enabled
  awake := awake_next invariant.placed invariant.awake enabled
  manned := manned_next invariant.manned enabled

/-- Two timers of one and two milliseconds and an executor whose queue holds one entry: the
second is refused and runs in the fallback thread. -/
def twoTimers : List (Event (Fin 1)) :=
  [.worker 0, .fallback, .schedule 2, .notify, .fallback, .schedule 1, .notify, .tick 3000000,
    .fallback, .fallbackPost false, .fallbackPost false, .fallbackDone, .fallback,
    .postNotify (some 0), .worker 0, .workerDone 0, .worker 0]

theorem resting_twoTimers : Resting (runFrom (next 1) State.initial twoTimers) := by
  intro event internal
  cases event with
  | tick | schedule | attach | detach | spurious | workerSpurious => exact internal.elim
  | dispatchDue => exact absurd rfl internal.1
  | post call refused => exact fun enabled => nomatch (enabled : false = true)
  | notify | fallback | fallbackDone => decide
  | fallbackPost refused => exact fun filled => absurd rfl filled
  | postNotify worker =>
    cases worker with
    | none => decide
    | some worker => exact fun enabled => absurd enabled.1 (by decide)
  | worker worker =>
    clear internal
    decide +revert +kernel
  | workerDone worker =>
    clear internal
    decide +revert +kernel

end Gungnir.Core.Timer
