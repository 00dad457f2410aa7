import Gungnir.Queue.RedisFencing

/-!
# No job is lost

A stored id leaves the queue through an acknowledgement under the current lease,
through `forget_failed` or through `flush`, and through nothing else. A pop moves
every due and every expired id to the ready list, and the ready list is served
from the front, so an active job is handed out after finitely many pops whatever
became of the workers that held it.
-/

namespace Gungnir.Queue

open Gungnir.Core Gungnir.Library List

/-- How often an id stands in the three queues and the failed hash together. -/
def places (state : RedisState) (id : Bytes) : Nat :=
  occurrences state id + if id ∈ state.failed then 1 else 0

def Stored (state : RedisState) (id : Bytes) : Prop := id ∈ state.jobs ∨ id ∈ state.failed

theorem places_of_stored {state : RedisState} {id : Bytes} (holds : Consistent none state)
    (stored : Stored state id) : places state id = 1 := by
  unfold places
  rcases stored with job | failed
  · rw [holds.once id job nofun, if_neg (holds.apart id job)]
  · have inactive : id ∉ state.jobs := fun job => holds.apart id job failed
    rw [holds.nowhere id (Or.inl inactive), if_pos failed]

/-- The operation takes `id` out of the queue for good. -/
def Removes (id : Bytes) (state : RedisState) (operation : Operation) : Prop :=
  (∃ job, operation = .acknowledge job ∧ job.id = id ∧ state.Leased id job.reservation) ∨
    operation = .forgetFailed id ∨ operation = .flush

/-! ## Nothing else removes a job -/

section

variable {state : RedisState} {now : Int} {id : Bytes}

theorem enqueueAfter_jobs (delay : Int) (other : Bytes) :
    (state.enqueueAfter now delay other).jobs = state.jobs := by
  unfold RedisState.enqueueAfter
  split <;> rfl

theorem enqueueAfter_failed (delay : Int) (other : Bytes) :
    (state.enqueueAfter now delay other).failed = state.failed := by
  unfold RedisState.enqueueAfter
  split <;> rfl

theorem reclaimExpired_keeps (state : RedisState) (id : Bytes) :
    (reclaimExpired state id).jobs = state.jobs ∧
      (reclaimExpired state id).failed = state.failed := by
  unfold reclaimExpired
  dsimp only
  split <;> exact ⟨rfl, rfl⟩

theorem refill_records :
    (refill now state).jobs = state.jobs ∧ (refill now state).failed = state.failed := by
  unfold refill
  rw [foldl_keeps RedisState.jobs fun state id => (reclaimExpired_keeps state id).1,
    foldl_keeps RedisState.failed fun state id => (reclaimExpired_keeps state id).2,
    foldl_keeps RedisState.jobs fun state id => (promoteDue_keeps state id).1,
    foldl_keeps RedisState.failed fun state id => (promoteDue_keeps state id).2.1]
  exact ⟨rfl, rfl⟩

theorem popScript_records {visibility : Int} {token : Bytes} (holds : Consistent none state) :
    (popScript now visibility token state).2.jobs = state.jobs ∧
      (popScript now visibility token state).2.failed = state.failed := by
  rcases popScript_cases now visibility token holds with ⟨_, same⟩ | ⟨_, _, _, _, _, same⟩
  · rw [same]
    exact refill_records
  · rw [same]
    exact refill_records

theorem stored_effect {settings : RedisSettings} {operation : Operation} {after : RedisState}
    (effect : Effect settings now state operation after) (holds : Consistent none state)
    (kept : ¬ Removes id state operation) (stored : Stored state id) : Stored after id := by
  unfold Stored at stored ⊢
  cases effect with
  | unchanged => exact stored
  | enqueued | released =>
    rw [enqueueAfter_jobs, enqueueAfter_failed]
    exact stored.imp_left fun job => (AList.mem_insert _).mpr (Or.inr job)
  | popped token =>
    rw [(popScript_records holds).1, (popScript_records holds).2]
    exact stored
  | acknowledged job current =>
    refine stored.imp_left fun member => AList.mem_erase.mpr ⟨fun same => ?_, member⟩
    exact kept (Or.inl ⟨job, rfl, same.symm, same ▸ current⟩)
  | renewed => exact stored
  | failed job =>
    -- a failed job changes hashes but stays stored
    by_cases same : id = job.id
    · exact Or.inr ((AList.mem_insert _).mpr (Or.inl same))
    · exact stored.imp (fun member => AList.mem_erase.mpr ⟨same, member⟩)
        fun member => (AList.mem_insert _).mpr (Or.inr member)
  | @retried retriedId =>
    by_cases same : id = retriedId
    · exact Or.inl ((AList.mem_insert _).mpr (Or.inl same))
    · exact stored.imp (fun member => (AList.mem_insert _).mpr (Or.inr member))
        fun member => AList.mem_erase.mpr ⟨same, member⟩
  | forgotten forgottenId =>
    refine stored.imp_right fun member => AList.mem_erase.mpr ⟨fun same => ?_, member⟩
    exact kept (Or.inr (Or.inl (congrArg Operation.forgetFailed same.symm)))
  | flushed => exact absurd (Or.inr (Or.inr rfl)) kept

theorem stored_of_pushed {settings : RedisSettings} {retrying : Option Retry}
    {operation : Operation} {job : Envelope} {delay : Int}
    (called : enqueued operation = some (job, delay))
    (returned : (execute settings now retrying operation state).1 = .ok .done) :
    Stored (execute settings now retrying operation state).2 job.id := by
  cases operation with
  | push context pushed =>
    cases called
    revert returned
    simp only [execute, push]
    split
    · intro failed
      cases failed
    · intro failed
      cases failed
    · intro returned
      unfold pushScript at returned ⊢
      split
      · rename_i known
        rw [if_pos known] at returned
        cases returned
      · exact Or.inl ((AList.mem_insert _).mpr (Or.inl rfl))
  | pushLater context pushed wait =>
    cases called
    revert returned
    simp only [execute, pushLater]
    split
    · intro failed
      cases failed
    · intro failed
      cases failed
    · intro returned
      unfold pushLaterScript at returned ⊢
      split
      · rename_i known
        rw [if_pos known] at returned
        cases returned
      · refine Or.inl ?_
        rw [enqueueAfter_jobs]
        exact (AList.mem_insert _).mpr (Or.inl rfl)
  | _ => cases called

/-! ## A pop moves due and expired jobs -/

/-- The refill appends first the due ids and then the expired ones. -/
theorem ready_refill (holds : Consistent none state) :
    (refill now state).ready =
      state.ready ++ SortedSet.rangeByScore state.delayed now ++
        SortedSet.rangeByScore state.reserved now := by
  have promoted := readies_promoteDue.due holds now
  have reclaimed := readies_reclaimExpired.due promoted.1 now
  unfold refill
  rw [reclaimed.2, promoted.2,
    foldl_keeps RedisState.reserved fun state id => (promoteDue_keeps state id).2.2.2]

/-- The id is delayed until a time that has come, or reserved under a lease that
has run out. -/
def Overdue (state : RedisState) (now : Int) (id : Bytes) : Prop :=
  (∃ due, state.delayed.lookup id = some due ∧ due ≤ now) ∨
    ∃ deadline, state.reserved.lookup id = some deadline ∧ deadline ≤ now

theorem mem_ready_refill (holds : Consistent none state)
    (available : id ∈ state.ready ∨ Overdue state now id) : id ∈ (refill now state).ready := by
  rw [ready_refill holds, append_assoc]
  rcases available with ready | due | expired
  · exact mem_append_left _ ready
  · exact mem_append_right _ (mem_append_left _ (SortedSet.mem_rangeByScore.mpr due))
  · exact mem_append_right _ (mem_append_right _ (SortedSet.mem_rangeByScore.mpr expired))

/-- A pop leaves an available id on the ready list or hands it out. -/
theorem popScript_available (visibility : Int) (token : Bytes) (holds : Consistent none state)
    (available : id ∈ state.ready ∨ Overdue state now id) :
    id ∈ (popScript now visibility token state).2.ready ∨
      ∃ payload, (popScript now visibility token state).1 = some (id, payload) := by
  have member := mem_ready_refill holds available
  rcases popScript_cases now visibility token holds with
    ⟨empty, _⟩ | ⟨front, payload, rest, split, _, same⟩
  · rw [empty] at member
    exact absurd member not_mem_nil
  · rw [same]
    rw [split] at member
    rcases mem_cons.mp member with rfl | member
    · exact Or.inr ⟨payload, rfl⟩
    · exact Or.inl member

end

/-! ## Runs -/

section

variable {ι : Type*} [DecidableEq ι] {settings : ι → RedisSettings} {id : Bytes}

theorem stored_trace {first last : System ι} {transitions : List (Transition (System ι) (Event ι))}
    (trace : Trace (Step settings) first transitions last) (holds : Consistent none first.redis)
    (kept : ∀ transition ∈ transitions,
      ¬ Removes id transition.before.redis transition.label.operation)
    (stored : Stored first.redis id) : Stored last.redis id :=
  (trace.preserves_where (fun system => Consistent none system.redis ∧ Stored system.redis id)
    (fun transition => ¬ Removes id transition.before.redis transition.label.operation)
    (fun kept step holds => ⟨consistent_step step holds.1,
      stored_effect (step_effect step) holds.1 kept holds.2⟩) kept ⟨holds, stored⟩).2

def popEvent (driver : ι) (now : Int) (token : Bytes) : Event ι := ⟨driver, now, .pop token⟩

variable {driver : ι} {system : System ι} {now : Int} {token : Bytes} {after : System ι}

theorem handsOut_of_popScript {payload : Bytes} (holds : Consistent none system.redis)
    (found : (popScript now (settings driver).visibilityTimeout token system.redis).1 = some (id, payload)) :
    ∃ job, HandsOut settings job ⟨system, popEvent driver now token, after⟩ ∧ job.id = id := by
  have stored : (refill now system.redis).jobs.lookup id = some payload := by
    rcases popScript_cases now (settings driver).visibilityTimeout token holds with
      ⟨_, same⟩ | ⟨_, _, _, _, stored, same⟩
    · rw [same] at found
      cases found
    · rw [same] at found
      cases found
      exact stored
  obtain ⟨job, decoded, named⟩ := (consistent_refill now holds).jobsDecode id payload stored
  refine ⟨{ job with reservation := token }, ⟨token, rfl, ?_⟩, named⟩
  simp only [System.next, popEvent, execute, pop, found, popReply, decoded]
  rw [if_neg (fun different => different named)]

theorem exists_pop (settings : ι → RedisSettings) (idle : system.retrying driver = none)
    (later : system.clock ≤ now) :
    ∃ token, Step settings system (popEvent driver now token)
      (system.next settings (popEvent driver now token)).2 := by
  obtain ⟨token, fresh⟩ := Infinite.exists_notMem_finset system.issued.toFinset
  refine ⟨token, idle, later, fun drawnToken member => ?_, rfl⟩
  rw [mem_singleton.mp member]
  exact fun issued => fresh (mem_toFinset.mpr issued)

theorem idle_after_pop :
    (system.next settings (popEvent driver now token)).2.retrying driver = none := by
  exact Function.update_self driver none system.retrying

/-- A run of pops by one driver that hands the job out. -/
def ServedBy (settings : ι → RedisSettings) (driver : ι) (id : Bytes) (system : System ι) : Prop :=
  ∃ transitions last, Trace (Step settings) system transitions last ∧
    (∀ transition ∈ transitions, transition.label.driver = driver ∧
      ∃ token, transition.label.operation = .pop token) ∧
    ∃ transition ∈ transitions, ∃ job, HandsOut settings job transition ∧ job.id = id

theorem servedBy_now (step : Step settings system (popEvent driver now token) after)
    (hands : ∃ job, HandsOut settings job ⟨system, popEvent driver now token, after⟩ ∧ job.id = id) :
    ServedBy settings driver id system := by
  refine ⟨_, after, .single step, fun transition member => ?_, _, mem_singleton_self _, hands⟩
  rw [mem_singleton.mp member]
  exact ⟨rfl, token, rfl⟩

theorem servedBy_later (step : Step settings system (popEvent driver now token) after)
    (served : ServedBy settings driver id after) : ServedBy settings driver id system := by
  obtain ⟨transitions, last, trace, pops, transition, member, hands⟩ := served
  refine ⟨_, last, .cons step trace, fun other inside => ?_, transition,
    mem_cons_of_mem _ member, hands⟩
  rcases mem_cons.mp inside with rfl | inside
  · exact ⟨rfl, token, rfl⟩
  · exact pops other inside

/-- Each pop takes one id off the front, and the refill only appends behind. -/
theorem popScript_front {state : RedisState} (visibility : Int) (token : Bytes)
    {rest : List Bytes} (holds : Consistent none state) (front : state.ready = id :: rest) :
    ∃ payload, (popScript now visibility token state).1 = some (id, payload) ∧
      (popScript now visibility token state).2.ready =
        rest ++ SortedSet.rangeByScore state.delayed now ++
          SortedSet.rangeByScore state.reserved now := by
  rcases popScript_cases now visibility token holds with
    ⟨empty, _⟩ | ⟨popped, payload, left, split, _, same⟩
  · rw [ready_refill holds, front] at empty
    cases empty
  · rw [ready_refill holds, front] at split
    cases split
    rw [same]
    exact ⟨payload, rfl, rfl⟩

theorem servedBy_of_ready (driver : ι) (id : Bytes) (ahead : List Bytes) :
    ∀ (behind : List Bytes) (system : System ι), Consistent none system.redis →
      system.retrying driver = none → system.redis.ready = ahead ++ id :: behind →
      ServedBy settings driver id system := by
  induction ahead with
  | nil =>
    intro behind system holds idle front
    obtain ⟨token, step⟩ := exists_pop settings idle (le_refl system.clock)
    obtain ⟨payload, handed, _⟩ := popScript_front _ token holds front
    exact servedBy_now step (handsOut_of_popScript holds handed)
  | cons first ahead ih =>
    intro behind system holds idle front
    obtain ⟨token, step⟩ := exists_pop settings idle (le_refl system.clock)
    rw [cons_append] at front
    obtain ⟨_, _, remaining⟩ := popScript_front _ token holds front
    rw [append_assoc, append_assoc] at remaining
    exact servedBy_later step (ih _ _ (consistent_step step holds) idle_after_pop remaining)

/-- An active job is available at every time late enough. -/
theorem exists_available {state : RedisState} (clock : Int) (holds : Consistent none state)
    (stored : id ∈ state.jobs) :
    ∃ now, clock ≤ now ∧ (id ∈ state.ready ∨ Overdue state now id) := by
  have standing : occurrences state id ≠ 0 := by
    rw [holds.once id stored nofun]
    exact Nat.one_ne_zero
  rw [Ne, occurrences_zero_iff] at standing
  by_cases ready : id ∈ state.ready
  · exact ⟨clock, le_refl clock, Or.inl ready⟩
  · by_cases delayed : id ∈ state.delayed
    · obtain ⟨due, found⟩ := Hash.mem_iff_lookup.mp delayed
      exact ⟨max clock due, le_max_left _ _, Or.inr (Or.inl ⟨due, found, le_max_right _ _⟩)⟩
    · have reserved : id ∈ state.reserved := by
        by_contra missing
        exact standing ⟨ready, delayed, missing⟩
      obtain ⟨deadline, found⟩ := Hash.mem_iff_lookup.mp reserved
      exact ⟨max clock deadline, le_max_left _ _,
        Or.inr (Or.inr ⟨deadline, found, le_max_right _ _⟩)⟩

theorem servedBy_of_stored (holds : Consistent none system.redis)
    (idle : system.retrying driver = none) (stored : id ∈ system.redis.jobs) :
    ServedBy settings driver id system := by
  obtain ⟨now, later, available⟩ := exists_available system.clock holds stored
  obtain ⟨token, step⟩ := exists_pop settings idle later
  rcases popScript_available (settings driver).visibilityTimeout token holds available with
    ready | ⟨payload, handed⟩
  · obtain ⟨ahead, behind, split⟩ := append_of_mem ready
    exact servedBy_later step
      (servedBy_of_ready driver id ahead behind _ (consistent_step step holds) idle_after_pop split)
  · exact servedBy_now step (handsOut_of_popScript holds handed)

/-- No job is lost: after a push has returned, its id stands in exactly one place
until one of the three removing operations; every pop makes each overdue job
ready or hands it out; and from every state of every run an active job can still
be handed out by pops alone. -/
theorem no_job_lost (settings : ι → RedisSettings) (clock : Int)
    {transitions : List (Transition (System ι) (Event ι))} {system : System ι}
    (trace : Trace (Step settings) (.initial clock) transitions system) :
    (∀ early pushing late job delay, transitions = early ++ pushing :: late →
      enqueued pushing.label.operation = some (job, delay) →
      (pushing.before.next settings pushing.label).1 = .ok .done →
      (∀ transition ∈ late,
        ¬ Removes job.id transition.before.redis transition.label.operation) →
      places system.redis job.id = 1) ∧
    (∀ transition ∈ transitions, ∀ token id, transition.label.operation = .pop token →
      Overdue transition.before.redis transition.label.now id →
      id ∈ transition.after.redis.ready ∨
        ∃ job, HandsOut settings job transition ∧ job.id = id) ∧
    ∀ driver id, system.retrying driver = none → id ∈ system.redis.jobs →
      ServedBy settings driver id system := by
  refine ⟨?_, ?_, ?_⟩
  · intro early pushing late job delay cut called returned kept
    subst cut
    obtain ⟨earlyTrace, step, lateTrace⟩ := trace.split
    have before := earlyTrace.preserves (fun state => Consistent none state.redis)
      consistent_step consistent_empty
    have stored : Stored pushing.after.redis job.id := by
      rw [step.result]
      exact stored_of_pushed called returned
    exact places_of_stored (consistent_reachable ⟨_, trace⟩)
      (stored_trace lateTrace (consistent_step step before) kept stored)
  · intro transition member token id popped overdue
    obtain ⟨holds, step, _⟩ := trace.forall_mem (fun state => Consistent none state.redis)
      consistent_step consistent_empty transition member
    obtain ⟨before, ⟨driver, now, operation⟩, after⟩ := transition
    cases popped
    rcases popScript_available (settings driver).visibilityTimeout token holds
      (Or.inr overdue) with ready | ⟨payload, handed⟩
    · exact Or.inl (by rw [step.result]; exact ready)
    · exact Or.inr (handsOut_of_popScript holds handed)
  · intro driver id idle stored
    exact servedBy_of_stored (consistent_reachable ⟨_, trace⟩) idle stored

theorem no_job_lost_sample : places sampleEnd.redis (ascii "j") = 1 := by
  refine (no_job_lost sampleSettings 0 sampleRun).1 [] _ _ sampleJob 5 rfl rfl rfl ?_
  have keeps : ∀ (state : RedisState) token, ¬ Removes sampleJob.id state (.pop token) := by
    rintro state token (⟨job, acknowledged, _⟩ | forgotten | flushed)
    · cases acknowledged
    · cases forgotten
    · cases flushed
  intro transition member
  simp only [transitionsFrom, mem_cons, not_mem_nil, or_false] at member
  rcases member with rfl | rfl
  · exact keeps _ _
  · exact keeps _ _

/-! ## The order of the ready jobs -/

theorem ready_effect {settings : RedisSettings} {state after : RedisState} {operation : Operation}
    (effect : Effect settings now state operation after) (waits : drawn operation = [])
    (kept : operation ≠ .flush) : state.ready <+: after.ready := by
  cases effect with
  | unchanged | acknowledged | renewed | failed | forgotten => exact prefix_rfl
  | enqueued | released =>
    unfold RedisState.enqueueAfter
    split
    · exact prefix_append _ _
    · exact prefix_rfl
  | retried => exact prefix_append _ _
  | popped => cases waits
  | flushed => exact absurd rfl kept

/-- Jobs are added behind the ready ones, and a pop takes the first. -/
theorem ready_step {event : Event ι} (step : Step settings system event after)
    (holds : Consistent none system.redis) (kept : event.operation ≠ .flush) :
    system.redis.ready.drop (drawn event.operation).length <+: after.redis.ready := by
  obtain ⟨driver, now, operation⟩ := event
  cases operation with
  | pop token =>
    rw [step.result]
    cases front : system.redis.ready with
    | nil => exact nil_prefix
    | cons first rest =>
      obtain ⟨_, _, remaining⟩ := popScript_front _ token holds front
      exact ⟨_, (remaining.trans (append_assoc ..)).symm⟩
  | _ => exact ready_effect (step_effect step) rfl kept

/-- First in, first out: whatever the drivers do from a reachable state on, without a flush, a
ready job is handed out by the pop before which there have been as many pops as there were
jobs ahead of it. -/
theorem ready_in_order {clock : Int} {last : System ι} {ahead : List Bytes}
    {transitions : List (Transition (System ι) (Event ι))}
    (reached : Reachable (Step settings) (.initial clock) system)
    (ready : ahead ++ [id] <+: system.redis.ready)
    (trace : Trace (Step settings) system transitions last)
    (kept : ∀ transition ∈ transitions, transition.label.operation ≠ .flush)
    (pops : (transitions.flatMap (drawn ·.label.operation)).length = ahead.length) :
    ∃ job, (last.next settings (popEvent driver now token)).1 = .ok (.reserved (some job)) ∧
      job.id = id := by
  have holds := consistent_reachable reached
  clear reached
  -- One step moves the job ahead by the number of its pops.
  induction trace generalizing ahead with
  | nil system =>
    obtain rfl := length_eq_zero_iff.mp pops.symm
    obtain ⟨rest, front⟩ := ready
    obtain ⟨payload, handed, _⟩ :=
      popScript_front (settings driver).visibilityTimeout token holds front.symm
    obtain ⟨job, ⟨_, _, answer⟩, same⟩ :
        ∃ job, HandsOut settings job ⟨system, popEvent driver now token, system⟩ ∧ job.id = id :=
      handsOut_of_popScript holds handed
    exact ⟨job, answer, same⟩
  | @cons _ _ _ event rest step _ ih =>
    obtain ⟨first, others⟩ := forall_mem_cons.mp kept
    rw [flatMap_cons, length_append] at pops
    dsimp only at pops
    have moved := (ready.drop _).trans (ready_step step holds first)
    rw [drop_append_of_le_length (by omega)] at moved
    exact ih moved others (by rw [length_drop]; omega) (consistent_step step holds)

def samplePushes : List (Event Unit) :=
  [⟨(), 0, .push none sampleJob⟩, ⟨(), 1, .push none { sampleJob with id := ascii "k" }⟩]

theorem ready_in_order_sample :
    let pushed := runFrom (System.after sampleSettings) sampleStart samplePushes
    let popped := System.after sampleSettings pushed (popEvent () 2 (ascii "t"))
    ∃ job, (popped.next sampleSettings (popEvent () 3 (ascii "u"))).1 =
      .ok (.reserved (some job)) ∧ job.id = ascii "k" := by
  intro pushed popped
  have enabled : EnabledFrom (System.after sampleSettings) System.Enabled sampleStart samplePushes :=
    ⟨⟨rfl, by decide, by decide⟩, ⟨rfl, by decide, by decide⟩, trivial⟩
  have reached : Reachable (Step sampleSettings) sampleStart pushed :=
    ⟨_, enabled.trace fun enabled => ⟨enabled.1, enabled.2.1, enabled.2.2, rfl⟩⟩
  have popping : Step sampleSettings pushed (popEvent () 2 (ascii "t")) popped :=
    ⟨rfl, by decide, by decide, rfl⟩
  have ready : [ascii "j"] ++ [ascii "k"] <+: pushed.redis.ready := ⟨[], rfl⟩
  exact ready_in_order reached ready (.single popping) (by simp [popEvent]) rfl

end

end Gungnir.Queue
