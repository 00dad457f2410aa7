import Gungnir.Core.Timer
import Mathlib.Algebra.Order.Group.Multiset
import Mathlib.Tactic.Abel

/-!
# Invariants of the timer scheduler

Every scheduled entry is in exactly one place: in the queue, in a batch that is being
dispatched, in the executor's queue, or among the entries whose resume function has been
started. What the fallback thread waits for has not come yet, unless a notification has come
or is still to be sent.
-/

namespace Gungnir.Core.Timer

open List

/-! ## The priority queue -/

/-- The order of `Later`, top first. -/
def Sorted (entries : List Entry) : Prop :=
  entries.Pairwise fun left right => later left right = false

variable {left right : Entry}

theorem later_eq_false :
    later left right = false ↔ left.deadline < right.deadline ∨
      (left.deadline = right.deadline ∧ left.sequence.toNat ≤ right.sequence.toNat) := by
  unfold later
  split
  · rw [decide_eq_false_iff_not, UInt64.lt_iff_toNat_lt]
    omega
  · rw [decide_eq_false_iff_not]
    omega

theorem later_trans {first second third : Entry} (left : later first second = false)
    (right : later second third = false) : later first third = false := by
  rw [later_eq_false] at left right ⊢
  omega

theorem later_asymm (after : later left right = true) : later right left = false := by
  rw [← Bool.not_eq_false, later_eq_false] at after
  rw [later_eq_false]
  omega

theorem deadline_le_of_later (order : later left right = false) :
    left.deadline ≤ right.deadline := by
  rw [later_eq_false] at order
  omega

theorem push_perm (entry : Entry) (entries : List Entry) :
    (push entry entries).Perm (entry :: entries) := by
  induction entries with
  | nil => exact .refl _
  | cons top rest ih =>
    unfold push
    split
    · exact .refl _
    · exact (ih.cons top).trans (.swap entry top rest)

variable {entries : List Entry}

theorem push_sorted (entry : Entry) (sorted : Sorted entries) : Sorted (push entry entries) := by
  induction entries with
  | nil => exact pairwise_singleton _ _
  | cons top rest ih =>
    obtain ⟨first, others⟩ := pairwise_cons.mp sorted
    unfold push
    split
    · rename_i after
      have before := later_asymm after
      refine pairwise_cons.mpr ⟨fun other member => ?_, sorted⟩
      rcases mem_cons.mp member with rfl | inside
      · exact before
      · exact later_trans before (first other inside)
    · rename_i notAfter
      refine pairwise_cons.mpr ⟨fun other member => ?_, ih others⟩
      rcases mem_cons.mp ((push_perm entry rest).mem_iff.mp member) with rfl | inside
      · exact Bool.not_eq_true _ ▸ notAfter
      · exact first other inside

theorem collectDue_append (now : Int) (entries : List Entry) :
    (collectDue now entries).1 ++ (collectDue now entries).2 = entries := by
  induction entries with
  | nil => rfl
  | cons top rest ih =>
    unfold collectDue
    split
    · rw [cons_append, ih]
    · rfl

theorem due_of_collectDue {now : Int} :
    ∀ entry ∈ (collectDue now entries).1, entry.deadline ≤ now := by
  induction entries with
  | nil => exact nofun
  | cons top rest ih =>
    unfold collectDue
    split
    · rename_i due
      exact forall_mem_cons.mpr ⟨due, ih⟩
    · exact nofun

/-- Nothing that is due is left. -/
theorem left_of_collectDue {now : Int} (sorted : Sorted entries) :
    ∀ entry ∈ (collectDue now entries).2, now < entry.deadline := by
  induction entries with
  | nil => exact nofun
  | cons top rest ih =>
    obtain ⟨first, others⟩ := pairwise_cons.mp sorted
    unfold collectDue
    split
    · exact ih others
    · rename_i early
      refine forall_mem_cons.mpr ⟨not_le.mp early, fun entry member => ?_⟩
      exact lt_of_lt_of_le (not_le.mp early) (deadline_le_of_later (first entry member))

theorem collectDue_sorted (now : Int) (sorted : Sorted entries) :
    Sorted (collectDue now entries).1 ∧ Sorted (collectDue now entries).2 := by
  rw [← collectDue_append now entries] at sorted
  obtain ⟨due, left, _⟩ := pairwise_append.mp sorted
  exact ⟨due, left⟩

variable {entry : Entry} {rest : List Entry} {batches : List (List Entry)} {call : Nat}

theorem flatten_set (found : batches[call]? = some (entry :: rest)) :
    batches.flatten.Perm (entry :: (batches.set call rest).flatten) := by
  induction batches generalizing call with
  | nil => cases found
  | cons batch others ih =>
    cases call with
    | zero =>
      cases found
      exact .refl _
    | succ position =>
      have inner := ih found
      exact (inner.append_left batch).trans perm_middle

/-! ## The loop of the fallback thread -/

variable {ω : Type} {state : State ω}

/-- Whatever the thread waited for, it goes on at the head of its loop. -/
theorem wake_eq_loop (outside : ∀ rest, state.fallback ≠ .dispatching rest) :
    state.wake = state.loop := by
  unfold State.wake
  split
  · rfl
  · rfl
  · rename_i waits
    split
    · rfl
    · rename_i attached
      unfold State.loop
      rw [if_pos attached, ← waits]
  · rename_i waits
    split
    · rfl
    · rename_i still
      simp only [ne_eq, Bool.or_eq_true, decide_eq_true_eq, Bool.not_eq_eq_eq_not, Bool.not_true,
        isEmpty_eq_false_iff, not_or, not_not] at still
      unfold State.loop
      rw [if_neg (not_not.mpr still.1), still.2, ← waits]
  · rename_i rest waits
    exact absurd waits (outside rest)

theorem wake_dispatching (phase : state.fallback = .dispatching rest) : state.wake = state := by
  unfold State.wake
  rw [phase]

/-- Where the loop leads. -/
theorem loop_cases (state : State ω) :
    (state.pumpToken ≠ 0 ∧
      state.loop = { state with fallback := .pumpWait, notified := false }) ∨
    (state.pumpToken = 0 ∧ state.timers = [] ∧
      state.loop = { state with fallback := .emptyWait, notified := false }) ∨
    (∃ top rest, state.pumpToken = 0 ∧ state.timers = top :: rest ∧ state.now < top.deadline ∧
      state.loop = { state with fallback := .deadlineWait top.deadline, notified := false }) ∨
    (∃ top rest, state.pumpToken = 0 ∧ state.timers = top :: rest ∧ top.deadline ≤ state.now ∧
      state.loop = { state with
        fallback := .dispatching (collectDue state.now state.timers).1
        timers := (collectDue state.now state.timers).2
        notified := false }) := by
  unfold State.loop
  by_cases attached : state.pumpToken = 0
  · rw [if_neg (not_not.mpr attached)]
    cases timers : state.timers with
    | nil => exact .inr (.inl ⟨attached, rfl, rfl⟩)
    | cons top rest =>
      by_cases early : state.now < top.deadline
      · refine .inr (.inr (.inl ⟨top, rest, attached, rfl, early, ?_⟩))
        dsimp only
        rw [if_pos early]
      · refine .inr (.inr (.inr ⟨top, rest, attached, rfl, not_lt.mp early, ?_⟩))
        dsimp only
        rw [if_neg early]
  · rw [if_pos attached]
    exact .inl ⟨attached, rfl⟩

theorem suffix_of_collectDue (now : Int) (entries : List Entry) :
    (collectDue now entries).2 <:+ entries :=
  ⟨(collectDue now entries).1, collectDue_append now entries⟩

/-- All that the fallback thread changes under the mutex. -/
theorem wake_frame (state : State ω) : ∃ phase timers notified, timers <:+ state.timers ∧
    state.wake = { state with fallback := phase, timers := timers, notified := notified } := by
  cases phase : state.fallback with
  | dispatching rest =>
    exact ⟨state.fallback, state.timers, state.notified, suffix_refl _,
      wake_dispatching phase⟩
  | check | pumpWait | emptyWait | deadlineWait deadline =>
    rw [wake_eq_loop (by simp [phase])]
    rcases loop_cases state with ⟨_, same⟩ | ⟨_, _, same⟩ | ⟨_, _, _, _, _, same⟩ |
      ⟨_, _, _, _, _, same⟩
    · exact ⟨_, _, _, suffix_refl _, same⟩
    · exact ⟨_, _, _, suffix_refl _, same⟩
    · exact ⟨_, _, _, suffix_refl _, same⟩
    · exact ⟨_, _, _, suffix_of_collectDue _ _, same⟩

/-! ## What the other steps do -/

/-- `attach` and `detach` move the token and leave a notification to be sent, or do nothing. -/
theorem pump_cases {Q : State ω → Prop} (same : Q state)
    (moved : ∀ token following, Q { state with
      pumpToken := token, nextPumpToken := following, notifies := state.notifies + 1 }) :
    Q state.attach ∧ ∀ token, Q (state.detach token) := by
  constructor
  · unfold State.attach
    split
    · exact same
    · exact moved _ _
  · intro token
    unfold State.detach
    split
    · exact same
    · split
      · exact moved 0 state.nextPumpToken
      · exact same

theorem dispatchOne_cases {Q : State ω → Prop}
    (ran : Q { state with ran := (entry, state.now) :: state.ran })
    (queued : Q { state with queue := state.queue ++ [entry], posted := state.posted + 1 })
    (capacity : Nat) (refused : Bool) : Q (state.dispatchOne capacity entry refused) := by
  unfold State.dispatchOne
  split
  · exact ran
  · exact queued

theorem dispatchOne_frame :
    (state.dispatchOne capacity entry refused).batches = state.batches ∧
      (state.dispatchOne capacity entry refused).fallback = state.fallback :=
  dispatchOne_cases (Q := fun after => after.batches = state.batches ∧
    after.fallback = state.fallback) ⟨rfl, rfl⟩ ⟨rfl, rfl⟩ capacity refused

variable {refused : Bool}

theorem exists_of_post [DecidableEq ω] (enabled : Enabled state (.post call refused)) :
    ∃ entry rest, state.batches[call]? = some (entry :: rest) ∧
      ∀ capacity, next capacity state (.post call refused) =
        { state.dispatchOne capacity entry refused with
          batches := state.batches.set call rest, fallback := state.fallback } := by
  have found : (state.batches[call]?).any (fun batch => !batch.isEmpty) = true := enabled
  cases batch : state.batches[call]? with
  | none =>
    rw [batch] at found
    cases found
  | some entries =>
    cases entries with
    | nil =>
      rw [batch] at found
      cases found
    | cons entry rest =>
      refine ⟨entry, rest, rfl, fun capacity => ?_⟩
      dsimp only [next]
      rw [batch]
      simp only [dispatchOne_frame]

theorem exists_of_fallbackPost [DecidableEq ω] (enabled : Enabled state (.fallbackPost refused)) :
    ∃ entry rest, state.fallback = .dispatching (entry :: rest) ∧
      ∀ capacity, next capacity state (.fallbackPost refused) =
        { state.dispatchOne capacity entry refused with
          batches := state.batches, fallback := .dispatching rest } := by
  have found : state.fallback.batch ≠ [] := enabled
  cases phase : state.fallback with
  | check | pumpWait | emptyWait | deadlineWait _ =>
    rw [phase] at found
    exact absurd rfl found
  | dispatching entries =>
    cases entries with
    | nil =>
      rw [phase] at found
      exact absurd rfl found
    | cons entry rest =>
      refine ⟨entry, rest, rfl, fun capacity => ?_⟩
      dsimp only [next]
      rw [phase]
      simp only [dispatchOne_frame]

/-! ## Where the entries are -/

/-- Every entry that the state holds, wherever it is. -/
def State.placed (state : State ω) : Multiset Entry :=
  ↑state.timers + ↑state.fallback.batch + ↑state.batches.flatten + ↑state.queue +
    ↑(state.ran.map Prod.fst)

structure Placed (state : State ω) : Prop where
  timers : Sorted state.timers
  batches : ∀ batch ∈ state.batches, Sorted batch
  fallback : Sorted state.fallback.batch
  due : ∀ entry ∈ state.fallback.batch ++ state.batches.flatten ++ state.queue,
    entry.deadline ≤ state.now
  ran : ∀ run ∈ state.ran, run.1.deadline ≤ run.2 ∧ run.2 ≤ state.now
  once : state.placed = ↑state.scheduled
  numbers : ∀ entry ∈ state.scheduled, entry.resume < state.scheduled.length
  distinct : (state.scheduled.map Entry.resume).Nodup

theorem placed_initial : Placed (State.initial : State ω) where
  timers := .nil
  batches := nofun
  fallback := .nil
  due := nofun
  ran := nofun
  once := rfl
  numbers := nofun
  distinct := .nil

variable {capacity : Nat}

theorem coe_collectDue (now : Int) (entries : List Entry) :
    (↑(collectDue now entries).1 + ↑(collectDue now entries).2 : Multiset Entry) = ↑entries := by
  rw [Multiset.coe_add, collectDue_append]

section

variable (placed : Placed state)
include placed

theorem Placed.tick {time : Int} (later : state.now ≤ time) : Placed { state with now := time } :=
  { placed with
    due := fun entry member => (placed.due entry member).trans later
    ran := fun run member => ⟨(placed.ran run member).1, (placed.ran run member).2.trans later⟩ }

theorem Placed.schedule (duration : Int) : Placed (state.schedule duration) := by
  have moved := push_perm
    ⟨state.now + duration * 1000000, state.sequence, state.scheduled.length⟩ state.timers
  refine ⟨push_sorted _ placed.timers, placed.batches, placed.fallback, placed.due, placed.ran,
    ?_, fun entry member => ?_, ?_⟩
  · have once := placed.once
    unfold State.placed State.schedule at *
    rw [Multiset.coe_eq_coe.mpr moved, ← Multiset.cons_coe, ← Multiset.cons_coe, ← once]
    simp only [Multiset.cons_add]
  · rcases mem_cons.mp member with rfl | before
    · exact Nat.lt_succ_self _
    · exact Nat.lt_succ_of_lt (placed.numbers entry before)
  · refine nodup_cons.mpr ⟨fun repeated => ?_, placed.distinct⟩
    obtain ⟨entry, member, same⟩ := mem_map.mp repeated
    exact absurd (placed.numbers entry member) (by rw [same]; exact Nat.lt_irrefl _)

theorem Placed.dispatchDue : Placed state.dispatchDue := by
  unfold State.dispatchDue
  split
  · exact placed
  · obtain ⟨due, left⟩ := collectDue_sorted state.now placed.timers
    refine ⟨left, fun batch member => ?_, placed.fallback, fun entry member => ?_, placed.ran, ?_,
      placed.numbers, placed.distinct⟩
    · rcases mem_append.mp member with before | new
      · exact placed.batches batch before
      · rw [mem_singleton.mp new]
        exact due
    · simp only [flatten_append, flatten_singleton, mem_append] at member
      have kept := placed.due entry
      simp only [mem_append] at kept
      rcases member with (before | before | new) | before
      · exact kept (.inl (.inl before))
      · exact kept (.inl (.inr before))
      · exact due_of_collectDue entry new
      · exact kept (.inr before)
    · have once := placed.once
      unfold State.placed at *
      rw [← once, flatten_append, flatten_singleton, ← Multiset.coe_add,
        ← coe_collectDue state.now state.timers]
      abel

/-- The fallback thread takes what is due. -/
theorem Placed.loop (idle : state.fallback.batch = []) : Placed state.loop := by
  have still : ∀ phase : Phase, phase.batch = [] →
      Placed { state with fallback := phase, notified := false } := by
    intro phase empty
    refine ⟨placed.timers, placed.batches, ?_, ?_, placed.ran, ?_, placed.numbers, placed.distinct⟩
    · rw [empty]
      exact .nil
    · rw [empty, ← idle]
      exact placed.due
    · have once := placed.once
      unfold State.placed at *
      rw [empty, ← idle]
      exact once
  rcases loop_cases state with ⟨_, same⟩ | ⟨_, _, same⟩ | ⟨top, rest, _, _, _, same⟩ |
    ⟨top, rest, _, _, _, same⟩
  · rw [same]
    exact still .pumpWait rfl
  · rw [same]
    exact still .emptyWait rfl
  · rw [same]
    exact still (.deadlineWait top.deadline) rfl
  · obtain ⟨due, left⟩ := collectDue_sorted state.now placed.timers
    rw [same]
    refine ⟨left, placed.batches, due, fun entry member => ?_, placed.ran, ?_, placed.numbers,
      placed.distinct⟩
    · simp only [mem_append] at member
      have kept := placed.due entry
      simp only [mem_append] at kept
      rcases member with (new | before) | before
      · exact due_of_collectDue entry new
      · exact kept (.inl (.inr before))
      · exact kept (.inr before)
    · have once := placed.once
      unfold State.placed at *
      rw [← once, idle, ← coe_collectDue state.now state.timers]
      simp only [Phase.batch, Multiset.coe_nil]
      abel

/-- An entry leaves the batch it is first in, for the executor's queue or to run at once. -/
theorem Placed.dispatchOne {fallback : Phase}
    (left : (↑state.fallback.batch + ↑state.batches.flatten : Multiset Entry) =
      entry ::ₘ (↑fallback.batch + ↑batches.flatten))
    (sorted : ∀ batch ∈ batches, Sorted batch) (first : Sorted fallback.batch) :
    Placed { state.dispatchOne capacity entry refused with
      batches := batches, fallback := fallback } := by
  have moved : ∀ other, other ∈ entry :: (fallback.batch ++ batches.flatten) →
      other.deadline ≤ state.now := by
    intro other member
    refine placed.due other (mem_append_left _ ?_)
    rw [← Multiset.mem_coe, ← Multiset.coe_add, left, Multiset.coe_add, Multiset.cons_coe]
    exact member
  have due := moved entry mem_cons_self
  have queued : ∀ other ∈ state.queue, other.deadline ≤ state.now :=
    fun other member => placed.due other (mem_append_right _ member)
  have once := placed.once
  unfold State.placed at once
  rw [add_assoc (state.timers : Multiset Entry), left] at once
  refine dispatchOne_cases (Q := fun after => Placed { after with batches := batches, fallback := fallback })
    ?_ ?_ capacity refused
  · refine ⟨placed.timers, sorted, first, fun other member => ?_,
      forall_mem_cons.mpr ⟨⟨due, le_refl _⟩, placed.ran⟩, ?_, placed.numbers, placed.distinct⟩
    · rcases mem_append.mp member with before | before
      · exact moved other (mem_cons_of_mem _ before)
      · exact queued other before
    · unfold State.placed
      rw [← once, map_cons, ← Multiset.cons_coe]
      simp only [Multiset.add_cons, Multiset.cons_add, add_assoc]
  · refine ⟨placed.timers, sorted, first, fun other member => ?_, placed.ran, ?_, placed.numbers,
      placed.distinct⟩
    · rcases mem_append.mp member with before | before
      · exact moved other (mem_cons_of_mem _ before)
      · rcases mem_append.mp before with inside | new
        · exact queued other inside
        · rw [mem_singleton.mp new]
          exact due
    · unfold State.placed
      rw [← once, ← Multiset.coe_add, Multiset.coe_singleton, ← Multiset.singleton_add]
      abel

theorem Placed.post (found : state.batches[call]? = some (entry :: rest)) :
    Placed { state.dispatchOne capacity entry refused with
      batches := state.batches.set call rest, fallback := state.fallback } := by
  refine placed.dispatchOne ?_ (fun batch member => ?_) placed.fallback
  · rw [Multiset.coe_eq_coe.mpr (flatten_set found), ← Multiset.cons_coe, Multiset.add_cons]
  · rcases mem_or_eq_of_mem_set member with before | new
    · exact placed.batches batch before
    · rw [new]
      exact (pairwise_cons.mp (placed.batches _ (mem_of_getElem? found))).2

theorem Placed.fallbackPost (found : state.fallback = .dispatching (entry :: rest)) :
    Placed { state.dispatchOne capacity entry refused with
      batches := state.batches, fallback := .dispatching rest } := by
  have first := placed.fallback
  rw [found] at first
  refine placed.dispatchOne ?_ placed.batches (pairwise_cons.mp first).2
  rw [found]
  dsimp only [Phase.batch]
  rw [← Multiset.cons_coe, Multiset.cons_add]

theorem Placed.wake : Placed state.wake := by
  cases phase : state.fallback with
  | dispatching rest =>
    rw [wake_dispatching phase]
    exact placed
  | check | pumpWait | emptyWait | deadlineWait deadline =>
    rw [wake_eq_loop (by simp [phase])]
    exact placed.loop (by simp [phase, Phase.batch])

end

variable [DecidableEq ω]

theorem Placed.work (placed : Placed state) (worker : ω) : Placed (state.work worker) := by
  unfold State.work
  cases queue : state.queue with
  | nil =>
    exact ⟨placed.timers, placed.batches, placed.fallback, placed.due, placed.ran, placed.once,
      placed.numbers, placed.distinct⟩
  | cons entry rest =>
    have due := placed.due
    have once := placed.once
    unfold State.placed at once
    rw [queue] at due once
    refine ⟨placed.timers, placed.batches, placed.fallback, fun other member => ?_,
      forall_mem_cons.mpr ⟨⟨?_, le_refl _⟩, placed.ran⟩, ?_, placed.numbers, placed.distinct⟩
    · refine due other ?_
      rcases mem_append.mp member with before | before
      · exact mem_append_left _ before
      · exact mem_append_right _ (mem_cons_of_mem _ before)
    · exact due entry (mem_append_right _ mem_cons_self)
    · unfold State.placed
      dsimp only [State.setWorker]
      rw [← once, map_cons, ← Multiset.cons_coe, ← Multiset.cons_coe]
      simp only [Multiset.add_cons, Multiset.cons_add]

variable {event : Event ω}

theorem placed_next (placed : Placed state) (enabled : Enabled state event) :
    Placed (next capacity state event) := by
  have pump := pump_cases placed fun _ _ => { placed with }
  cases event with
  | tick time => exact placed.tick enabled
  | schedule duration => exact placed.schedule duration
  | attach => exact pump.1
  | detach token => exact pump.2 token
  | dispatchDue => exact placed.dispatchDue
  | notify | workerDone worker => exact { placed with }
  | post call refused =>
    obtain ⟨entry, rest, found, same⟩ := exists_of_post enabled
    rw [same]
    exact placed.post found
  | fallback | spurious => exact placed.wake
  | fallbackPost refused =>
    obtain ⟨entry, rest, found, same⟩ := exists_of_fallbackPost enabled
    rw [same]
    exact placed.fallbackPost found
  | fallbackDone =>
    have finished : state.fallback = .dispatching [] := enabled
    have due := placed.due
    have once := placed.once
    unfold State.placed at once
    rw [finished] at due once
    exact ⟨placed.timers, placed.batches, .nil, due, placed.ran, once, placed.numbers,
      placed.distinct⟩
  | postNotify worker =>
    cases worker with
    | none | some worker => exact { placed with }
  | worker worker | workerSpurious worker => exact placed.work worker

/-! ## No wake-up is lost -/

/-- What the fallback thread waits for has not come yet. -/
def Phase.Agrees (state : State ω) : Phase → Prop
  | .pumpWait => state.pumpToken ≠ 0
  | .emptyWait => state.pumpToken = 0 ∧ state.timers = []
  | .deadlineWait deadline =>
    state.pumpToken = 0 ∧ ∀ entry ∈ state.timers, deadline ≤ entry.deadline
  | .check | .dispatching _ => True

/-- As long as no notification has come or is to be sent. -/
def Awake (state : State ω) : Prop :=
  state.notified = false → state.notifies = 0 → state.fallback.Agrees state

/-- Where the executor's queue is not empty, a worker is awake or will be notified. -/
def Manned (state : State ω) : Prop :=
  state.queue ≠ [] → 0 < state.posted ∨ ∃ worker, state.workers worker ≠ .waiting false

omit [DecidableEq ω] in
theorem agrees_of_attached {phase : Phase} (attached : state.pumpToken ≠ 0)
    (agrees : phase.Agrees state) (timers : List Entry) :
    phase.Agrees { state with timers := timers } := by
  cases phase with
  | pumpWait => exact agrees
  | emptyWait | deadlineWait deadline => exact absurd agrees.1 attached
  | check => trivial
  | dispatching rest => trivial

omit [DecidableEq ω] in
theorem awake_schedule (awake : Awake state) (duration : Int) :
    Awake (state.schedule duration) := by
  intro quiet none
  by_cases attached : state.pumpToken = 0
  · simp only [State.schedule, attached, if_true] at none
    cases none
  · simp only [State.schedule, attached, if_false] at none
    exact agrees_of_attached attached (awake quiet none) _

omit [DecidableEq ω] in
theorem awake_loop (placed : Placed state) : Awake state.loop := by
  rcases loop_cases state with ⟨attached, same⟩ | ⟨detached, empty, same⟩ |
    ⟨top, rest, detached, timers, _, same⟩ | ⟨top, rest, _, _, _, same⟩
  · rw [same]
    exact fun _ _ => attached
  · rw [same]
    exact fun _ _ => ⟨detached, empty⟩
  · rw [same]
    refine fun _ _ => ⟨detached, fun entry member => ?_⟩
    have sorted := placed.timers
    have inside : entry ∈ state.timers := member
    rw [timers] at sorted inside
    rcases mem_cons.mp inside with first | later
    · rw [first]
    · exact deadline_le_of_later ((pairwise_cons.mp sorted).1 entry later)
  · rw [same]
    exact fun _ _ => trivial

omit [DecidableEq ω] in
theorem awake_wake (placed : Placed state) : Awake state.wake := by
  cases phase : state.fallback with
  | dispatching rest =>
    rw [wake_dispatching phase]
    intro _ _
    rw [phase]
    trivial
  | check | pumpWait | emptyWait | deadlineWait deadline =>
    rw [wake_eq_loop (by simp [phase])]
    exact awake_loop placed

theorem awake_next (placed : Placed state) (awake : Awake state) (enabled : Enabled state event) :
    Awake (next capacity state event) := by
  have pump := pump_cases awake fun _ _ _ none => absurd none (Nat.succ_ne_zero _)
  cases event with
  | tick time => exact awake
  | schedule duration => exact awake_schedule awake duration
  | attach => exact pump.1
  | detach token => exact pump.2 token
  | dispatchDue =>
    change Awake state.dispatchDue
    unfold State.dispatchDue
    split
    · exact awake
    · rename_i attached
      exact fun quiet none => agrees_of_attached attached (awake quiet none) _
  | notify =>
    intro quiet _
    obtain ⟨still, _⟩ := Bool.or_eq_false_iff.mp quiet
    change state.fallback.Agrees state.notify
    cases phase : state.fallback with
    | check => trivial
    | dispatching rest => trivial
    | pumpWait | emptyWait | deadlineWait deadline =>
      rw [phase] at still
      cases still
  | post call refused =>
    obtain ⟨entry, rest, _, same⟩ := exists_of_post enabled
    rw [same]
    exact dispatchOne_cases (Q := fun after => Awake { after with batches := _, fallback := _ })
      awake awake capacity refused
  | fallback | spurious => exact awake_wake placed
  | fallbackPost refused =>
    obtain ⟨entry, rest, _, same⟩ := exists_of_fallbackPost enabled
    rw [same]
    exact fun _ _ => trivial
  | fallbackDone => exact fun _ _ => trivial
  | postNotify worker =>
    cases worker with
    | none => exact awake
    | some worker => exact awake
  | worker worker | workerSpurious worker =>
    change Awake (state.work worker)
    unfold State.work
    cases state.queue with
    | nil => exact awake
    | cons entry rest => exact awake
  | workerDone worker => exact awake

theorem manned_of_update {after : State ω} {worker : ω} {phase : Worker}
    (busy : phase ≠ .waiting false)
    (moved : after.workers = Function.update state.workers worker phase) : Manned after := by
  refine fun _ => .inr ⟨worker, ?_⟩
  rw [moved, Function.update_self]
  exact busy

theorem manned_work (worker : ω) : Manned (state.work worker) := by
  unfold State.work
  cases queue : state.queue with
  | nil => exact fun filled => absurd queue filled
  | cons entry rest =>
    have busy : Worker.running entry ≠ .waiting false := nofun
    exact manned_of_update busy rfl

omit [DecidableEq ω] in
theorem manned_dispatchOne (manned : Manned state) :
    Manned (state.dispatchOne capacity entry refused) :=
  dispatchOne_cases manned (fun _ => .inl (Nat.succ_pos _)) capacity refused

theorem manned_next [Nonempty ω] (manned : Manned state) (enabled : Enabled state event) :
    Manned (next capacity state event) := by
  have pump := pump_cases manned fun _ _ => manned
  cases event with
  | tick | schedule | notify | fallbackDone => exact manned
  | attach => exact pump.1
  | detach token => exact pump.2 token
  | dispatchDue =>
    change Manned state.dispatchDue
    unfold State.dispatchDue
    split
    · exact manned
    · exact manned
  | post call refused =>
    obtain ⟨entry, rest, _, same⟩ := exists_of_post enabled
    rw [same]
    exact manned_dispatchOne manned
  | fallbackPost refused =>
    obtain ⟨entry, rest, _, same⟩ := exists_of_fallbackPost enabled
    rw [same]
    exact manned_dispatchOne manned
  | fallback | spurious =>
    change Manned state.wake
    obtain ⟨phase, timers, notified, _, same⟩ := wake_frame state
    rw [same]
    exact manned
  | postNotify worker =>
    cases worker with
    | none =>
      have busy := enabled.2 (Classical.arbitrary ω)
      exact fun _ => .inr ⟨_, busy⟩
    | some worker =>
      have busy : Worker.waiting true ≠ .waiting false := nofun
      exact manned_of_update busy rfl
  | worker worker | workerSpurious worker => exact manned_work worker
  | workerDone worker =>
    have busy : Worker.check ≠ .waiting false := nofun
    exact manned_of_update busy rfl

/-! ## Leaving the queue -/

/-- Only `schedule` puts an entry into the queue. -/
theorem frame_next {capacity : Nat} {event : Event ω} (enabled : Enabled state event) :
    (∃ duration, event = .schedule duration) ∨
      ((next capacity state event).scheduled = state.scheduled ∧
        (next capacity state event).timers <:+ state.timers) := by
  let Q (after : State ω) : Prop :=
    after.scheduled = state.scheduled ∧ after.timers <:+ state.timers
  have same : Q state := ⟨rfl, suffix_refl _⟩
  have pump := pump_cases same fun _ _ => same
  cases event with
  | schedule duration => exact .inl ⟨duration, rfl⟩
  | tick | notify | fallbackDone | workerDone => exact .inr same
  | attach => exact .inr pump.1
  | detach token => exact .inr (pump.2 token)
  | dispatchDue =>
    refine .inr (show Q state.dispatchDue from ?_)
    unfold State.dispatchDue
    split
    · exact same
    · exact ⟨rfl, suffix_of_collectDue _ _⟩
  | post call refused =>
    obtain ⟨entry, rest, _, kept⟩ := exists_of_post enabled
    rw [kept]
    exact .inr (dispatchOne_cases (Q := Q) same same capacity refused)
  | fallbackPost refused =>
    obtain ⟨entry, rest, _, kept⟩ := exists_of_fallbackPost enabled
    rw [kept]
    exact .inr (dispatchOne_cases (Q := Q) same same capacity refused)
  | fallback | spurious =>
    obtain ⟨phase, timers, notified, shorter, kept⟩ := wake_frame state
    refine .inr (show Q state.wake from ?_)
    rw [kept]
    exact ⟨rfl, shorter⟩
  | postNotify worker =>
    cases worker with
    | none | some worker => exact .inr same
  | worker worker | workerSpurious worker =>
    refine .inr (show Q (state.work worker) from ?_)
    unfold State.work
    cases state.queue with
    | nil => exact same
    | cons entry rest => exact same

/-- The entry has been scheduled and is no longer in the queue. -/
def Left (entry : Entry) (state : State ω) : Prop :=
  entry ∈ state.scheduled ∧ entry ∉ state.timers

theorem left_next (placed : Placed state) (enabled : Enabled state event)
    (left : Left entry state) :
    Left entry (next capacity state event) := by
  rcases @frame_next _ _ _ capacity _ enabled with ⟨duration, rfl⟩ | ⟨kept, shorter⟩
  · refine ⟨mem_cons_of_mem _ left.1, fun member => ?_⟩
    rcases mem_cons.mp ((push_perm _ _).mem_iff.mp member) with new | before
    · have number := placed.numbers entry left.1
      rw [new] at number
      exact Nat.lt_irrefl _ number
    · exact left.2 before
  · refine ⟨?_, fun member => left.2 (shorter.subset member)⟩
    rw [kept]
    exact left.1

end Gungnir.Core.Timer
