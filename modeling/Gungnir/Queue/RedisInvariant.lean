import Gungnir.Queue.RedisDriver

/-!
# The state invariant of the Redis queue

An id with a stored job stands in exactly one of the three queues. Scripts take
an id out of one queue before they put it into another, so the invariant is
stated with the id that is in between, and each elementary update either opens
or closes that gap.
-/

namespace Gungnir.Queue

open Gungnir.Core Gungnir.Library List

/-- How often a sorted set holds an id. -/
def tally (set : SortedSet Bytes) (id : Bytes) : Nat := if id ∈ set then 1 else 0

def occurrences (state : RedisState) (id : Bytes) : Nat :=
  state.ready.count id + tally state.delayed id + tally state.reserved id

/-- The invariant, except that the job of `moving` stands in no queue. -/
structure Consistent (moving : Option Bytes) (state : RedisState) : Prop where
  once : ∀ id, id ∈ state.jobs → moving ≠ some id → occurrences state id = 1
  nowhere : ∀ id, id ∉ state.jobs ∨ moving = some id → occurrences state id = 0
  leased : ∀ id, id ∈ state.reserved ↔ id ∈ state.leases
  apart : ∀ id, id ∈ state.jobs → id ∉ state.failed
  jobsDecode : ∀ id payload, state.jobs.lookup id = some payload → DecodesTo payload id
  failedDecode : ∀ id payload, state.failed.lookup id = some payload → DecodesTo payload id

theorem consistent_empty : Consistent none RedisState.empty where
  once _ member := absurd member (AList.notMem_empty _)
  nowhere _ _ := rfl
  leased _ := Iff.rfl
  apart _ member := absurd member (AList.notMem_empty _)
  jobsDecode _ _ found := by cases found
  failedDecode _ _ found := by cases found

/-! ## Occurrences under elementary updates -/

section

variable {state : RedisState} {id other : Bytes} {set : SortedSet Bytes}

theorem tally_zero_iff : tally set id = 0 ↔ id ∉ set := by
  simp [tally]

theorem count_other (different : other ≠ id) : [id].count other = 0 :=
  count_eq_zero_of_not_mem fun member => different (mem_singleton.mp member)

theorem tally_erase (member : id ∈ set) (other : Bytes) :
    tally (set.erase id) other + [id].count other = tally set other := by
  by_cases same : other = id
  · simp [tally, same, member]
  · simp [tally, same, count_other same]

theorem tally_insert {score : Int} (missing : id ∉ set) (other : Bytes) :
    tally (set.insert id score) other = tally set other + [id].count other := by
  by_cases same : other = id
  · simp [tally, same, missing]
  · simp [tally, same, count_other same]

theorem occurrences_zero_iff :
    occurrences state id = 0 ↔ id ∉ state.ready ∧ id ∉ state.delayed ∧ id ∉ state.reserved := by
  unfold occurrences
  rw [Nat.add_eq_zero_iff, Nat.add_eq_zero_iff, count_eq_zero, and_assoc,
    tally_zero_iff, tally_zero_iff]

/-- The first state has one occurrence of `id` less than the second. -/
def Lacks (id : Bytes) (fewer more : RedisState) : Prop :=
  ∀ other, occurrences fewer other + [id].count other = occurrences more other

theorem lacks_unlease (member : id ∈ state.reserved) : Lacks id (state.unlease id) state := by
  intro other
  have erased := tally_erase member other
  simp only [occurrences, RedisState.unlease]
  omega

theorem lacks_undelay (member : id ∈ state.delayed) :
    Lacks id { state with delayed := state.delayed.erase id } state := by
  intro other
  have erased := tally_erase member other
  simp only [occurrences]
  omega

theorem lacks_unready {rest : List Bytes} (front : state.ready = id :: rest) :
    Lacks id { state with ready := rest } state := by
  intro other
  have taken : state.ready.count other = [id].count other + rest.count other := by
    rw [front, ← singleton_append, count_append]
  simp only [occurrences]
  omega

theorem lacks_pushReady : Lacks id state (state.pushReady id) := by
  intro other
  simp only [occurrences, RedisState.pushReady, count_append]
  omega

theorem lacks_delay {due : Int} (missing : id ∉ state.delayed) :
    Lacks id state { state with delayed := state.delayed.insert id due } := by
  intro other
  simp only [occurrences, tally_insert missing other]
  omega

theorem lacks_lease {token : Bytes} {deadline : Int} (missing : id ∉ state.reserved) :
    Lacks id state { state with
      leases := state.leases.insert id token
      reserved := state.reserved.insert id deadline } := by
  intro other
  simp only [occurrences, tally_insert missing other]
  omega

end

namespace Consistent

variable {moving : Option Bytes} {state : RedisState} {id payload : Bytes}

section

variable (holds : Consistent moving state)
include holds

theorem job_of_occurs (occurs : occurrences state id ≠ 0) : id ∈ state.jobs ∧ moving ≠ some id := by
  by_contra missing
  exact occurs (holds.nowhere id (by tauto))

theorem job_of_reserved (member : id ∈ state.reserved) : id ∈ state.jobs ∧ moving ≠ some id :=
  holds.job_of_occurs fun none => (occurrences_zero_iff.mp none).2.2 member

theorem job_of_delayed (member : id ∈ state.delayed) : id ∈ state.jobs ∧ moving ≠ some id :=
  holds.job_of_occurs fun none => (occurrences_zero_iff.mp none).2.1 member

theorem job_of_ready (member : id ∈ state.ready) : id ∈ state.jobs ∧ moving ≠ some id :=
  holds.job_of_occurs fun none => (occurrences_zero_iff.mp none).1 member

theorem reserved_of_leased {token : Bytes} (current : state.Leased id token) :
    id ∈ state.reserved :=
  (holds.leased id).mpr (Hash.mem_iff_lookup.mpr ⟨token, current⟩)

end

/-! ## Opening the gap

The queue an id leaves is the only one it stood in: all other ids are untouched and the
moved one lost its single occurrence. -/

theorem opened {after : RedisState} (holds : Consistent none state)
    (jobs : after.jobs = state.jobs) (failed : after.failed = state.failed)
    (leased : ∀ other, other ∈ after.reserved ↔ other ∈ after.leases)
    (lacks : Lacks id after state) : Consistent (some id) after := by
  refine ⟨?_, ?_, leased, ?_, jobs ▸ holds.jobsDecode, failed ▸ holds.failedDecode⟩
  · rw [jobs]
    intro other member different
    have absent := count_other fun same : other = id => different (congrArg some same.symm)
    have single := holds.once other member nofun
    have fewer := lacks other
    omega
  · rw [jobs]
    intro other outside
    have fewer := lacks other
    rcases outside with missing | same
    · have unseen := holds.nowhere other (Or.inl missing)
      omega
    · cases same
      rw [count_singleton_self] at fewer
      have occurs : occurrences state id ≠ 0 := by omega
      have single := holds.once id (holds.job_of_occurs occurs).1 nofun
      omega
  · rw [jobs, failed]
    exact holds.apart

theorem unlease (holds : Consistent none state) (member : id ∈ state.reserved) :
    Consistent (some id) (state.unlease id) := by
  refine holds.opened rfl rfl (fun other => ?_) (lacks_unlease member)
  simp only [RedisState.unlease, AList.mem_erase, holds.leased other]

theorem undelay (holds : Consistent none state) (member : id ∈ state.delayed) :
    Consistent (some id) { state with delayed := state.delayed.erase id } :=
  holds.opened rfl rfl holds.leased (lacks_undelay member)

theorem unready {rest : List Bytes} (holds : Consistent none state)
    (front : state.ready = id :: rest) : Consistent (some id) { state with ready := rest } :=
  holds.opened rfl rfl holds.leased (lacks_unready front)

/-- Storing a job, either a new one or a new record of the one being moved. -/
theorem storeJob (holds : Consistent moving state)
    (free : moving = some id ∨ moving = none ∧ id ∉ state.jobs) (unfailed : id ∉ state.failed)
    (decodes : DecodesTo payload id) :
    Consistent (some id) { state with jobs := state.jobs.insert id payload } := by
  refine ⟨?_, ?_, holds.leased, ?_, ?_, holds.failedDecode⟩
  · intro other member different
    have apart : other ≠ id := fun same => different (congrArg some same.symm)
    have stored : other ∈ state.jobs := ((AList.mem_insert state.jobs).mp member).resolve_left apart
    refine holds.once other stored fun equal => ?_
    rcases free with moved | ⟨idle, _⟩
    · exact different (moved.symm.trans equal)
    · exact nomatch idle.symm.trans equal
  · intro other outside
    refine holds.nowhere other ?_
    rcases outside with missing | same
    · exact Or.inl fun member => missing ((AList.mem_insert state.jobs).mpr (Or.inr member))
    · cases Option.some.inj same
      exact free.symm.imp And.right (fun moved => moved)
  · intro other member
    rcases (AList.mem_insert state.jobs).mp member with rfl | member
    · exact unfailed
    · exact holds.apart other member
  · intro other record
    rw [Hash.lookup_insert_of]
    split
    · rename_i same
      subst same
      exact fun equal => Option.some.inj equal ▸ decodes
    · exact holds.jobsDecode other record

/-! ## Closing the gap -/

section

variable (holds : Consistent (some id) state)
include holds

section

variable (stored : id ∈ state.jobs)
include stored

theorem closed {after : RedisState} (jobs : after.jobs = state.jobs)
    (failed : after.failed = state.failed)
    (leased : ∀ other, other ∈ after.reserved ↔ other ∈ after.leases)
    (lacks : Lacks id state after) : Consistent none after := by
  refine ⟨?_, ?_, leased, ?_, jobs ▸ holds.jobsDecode, failed ▸ holds.failedDecode⟩
  · rw [jobs]
    intro other member _
    by_cases same : other = id
    · rw [← lacks other, same, holds.nowhere id (Or.inr rfl), count_singleton_self]
    · rw [← lacks other, count_other same]
      exact holds.once other member fun equal => same (Option.some.inj equal).symm
  · rw [jobs]
    intro other outside
    have missing : other ∉ state.jobs := outside.resolve_right nofun
    have different : other ≠ id := fun same => missing (same ▸ stored)
    rw [← lacks other, count_other different]
    exact holds.nowhere other (Or.inl missing)
  · rw [jobs, failed]
    exact holds.apart

theorem pushReady : Consistent none (state.pushReady id) :=
  holds.closed stored rfl rfl holds.leased lacks_pushReady

theorem delay {due : Int} : Consistent none { state with delayed := state.delayed.insert id due } :=
  holds.closed stored rfl rfl holds.leased
    (lacks_delay (occurrences_zero_iff.mp (holds.nowhere id (Or.inr rfl))).2.1)

theorem enqueueAfter {now wait : Int} : Consistent none (state.enqueueAfter now wait id) := by
  unfold RedisState.enqueueAfter
  split
  · exact holds.pushReady stored
  · exact holds.delay stored

theorem lease {token : Bytes} {deadline : Int} :
    Consistent none { state with
      leases := state.leases.insert id token
      reserved := state.reserved.insert id deadline } := by
  have missing := (occurrences_zero_iff.mp (holds.nowhere id (Or.inr rfl))).2.2
  refine holds.closed stored rfl rfl (fun other => ?_) (lacks_lease missing)
  simp only [AList.mem_insert, holds.leased other]

end

theorem dropJob : Consistent none { state with jobs := state.jobs.erase id } := by
  refine ⟨?_, ?_, holds.leased, ?_, ?_, holds.failedDecode⟩
  · intro other member _
    obtain ⟨different, stored⟩ := AList.mem_erase.mp member
    exact holds.once other stored fun equal => different (Option.some.inj equal).symm
  · intro other outside
    have missing : other ∉ state.jobs.erase id := outside.resolve_right nofun
    refine holds.nowhere other ?_
    by_cases same : other = id
    · exact Or.inr (congrArg some same.symm)
    · exact Or.inl fun stored => missing (AList.mem_erase.mpr ⟨same, stored⟩)
  · exact fun other member => holds.apart other (AList.mem_erase.mp member).2
  · intro other record
    rw [Hash.lookup_erase_of]
    split
    · exact nofun
    · exact holds.jobsDecode other record

end

/-! ## Updates that move no job -/

theorem renew {deadline : Int} (holds : Consistent none state) (member : id ∈ state.reserved) :
    Consistent none { state with reserved := state.reserved.insert id deadline } := by
  have present (other : Bytes) : other ∈ state.reserved.insert id deadline ↔ other ∈ state.reserved := by
    rw [AList.mem_insert]
    exact ⟨fun either => either.elim (fun same => same ▸ member) (fun already => already), Or.inr⟩
  have same (other : Bytes) :
      occurrences { state with reserved := state.reserved.insert id deadline } other =
        occurrences state other := by
    simp only [occurrences, tally, present]
  refine ⟨fun other stored idle => ?_, fun other outside => ?_, fun other => ?_,
    holds.apart, holds.jobsDecode, holds.failedDecode⟩
  · rw [same]
    exact holds.once other stored idle
  · rw [same]
    exact holds.nowhere other outside
  · rw [← holds.leased other]
    exact present other

theorem storeFailed (holds : Consistent none state) (missing : id ∉ state.jobs)
    (decodes : DecodesTo payload id) :
    Consistent none { state with failed := state.failed.insert id payload } := by
  refine ⟨holds.once, holds.nowhere, holds.leased, ?_, holds.jobsDecode, ?_⟩
  · intro other member failed
    rcases (AList.mem_insert state.failed).mp failed with rfl | failed
    · exact missing member
    · exact holds.apart other member failed
  · intro other record
    rw [Hash.lookup_insert_of]
    split
    · rename_i same
      subst same
      exact fun equal => Option.some.inj equal ▸ decodes
    · exact holds.failedDecode other record

theorem dropFailed (id : Bytes) (holds : Consistent none state) :
    Consistent none { state with failed := state.failed.erase id } := by
  refine ⟨holds.once, holds.nowhere, holds.leased, ?_, holds.jobsDecode, ?_⟩
  · exact fun other member failed => holds.apart other member (AList.mem_erase.mp failed).2
  · intro other record
    rw [Hash.lookup_erase_of]
    split
    · exact nofun
    · exact holds.failedDecode other record

end Consistent

/-! ## Scripts -/

section

variable {state : RedisState} {id token payload : Bytes}

/-- One round of a loop over ids of `queue` moves its id from there to the end of the
ready list. -/
def Readies (queue : RedisState → SortedSet Bytes)
    (round : RedisState → Bytes → RedisState) : Prop :=
  ∀ ⦃state id⦄, Consistent none state → id ∈ queue state → Consistent none (round state id) ∧
    (round state id).ready = state.ready ++ [id] ∧ queue (round state id) = (queue state).erase id

theorem readies_promoteDue : Readies RedisState.delayed promoteDue := by
  intro state id holds member
  have stored := (holds.job_of_delayed member).1
  have moved : promoteDue state id = { state with delayed := state.delayed.erase id }.pushReady id :=
    if_pos stored
  rw [moved]
  exact ⟨(holds.undelay member).pushReady stored, rfl, rfl⟩

theorem readies_reclaimExpired : Readies RedisState.reserved reclaimExpired := by
  intro state id holds member
  have stored := (holds.job_of_reserved member).1
  have moved : reclaimExpired state id = (state.unlease id).pushReady id := if_pos stored
  rw [moved]
  exact ⟨(holds.unlease member).pushReady stored, rfl, rfl⟩

section

variable {queue : RedisState → SortedSet Bytes} {round : RedisState → Bytes → RedisState}

/-- The ids are distinct, so each round finds its id still in the queue. -/
theorem Readies.foldl (readies : Readies queue round) {ids : List Bytes} (distinct : ids.Nodup)
    (holds : Consistent none state) (members : ∀ id ∈ ids, id ∈ queue state) :
    Consistent none (ids.foldl round state) ∧
      (ids.foldl round state).ready = state.ready ++ ids := by
  induction ids generalizing state with
  | nil => exact ⟨holds, (append_nil _).symm⟩
  | cons id rest ih =>
    obtain ⟨fresh, distinct⟩ := nodup_cons.mp distinct
    obtain ⟨kept, ready, erased⟩ := readies holds (members id mem_cons_self)
    have still : ∀ other ∈ rest, other ∈ queue (round state id) := by
      intro other inside
      rw [erased]
      refine AList.mem_erase.mpr ⟨fun same => fresh (same ▸ inside), ?_⟩
      exact members other (mem_cons_of_mem _ inside)
    rw [foldl_cons, (ih distinct kept still).2, ready, append_assoc]
    exact ⟨(ih distinct kept still).1, rfl⟩

/-- What no round changes is the same after the loop. -/
theorem foldl_keeps {α : Type*} (view : RedisState → α)
    (same : ∀ state id, view (round state id) = view state) (ids : List Bytes) :
    view (ids.foldl round state) = view state := by
  induction ids generalizing state with
  | nil => rfl
  | cons first rest ih => rw [foldl_cons, ih, same]

end

theorem promoteDue_keeps (state : RedisState) (id : Bytes) :
    (promoteDue state id).jobs = state.jobs ∧ (promoteDue state id).failed = state.failed ∧
      (promoteDue state id).leases = state.leases ∧
      (promoteDue state id).reserved = state.reserved := by
  unfold promoteDue
  dsimp only
  split <;> exact ⟨rfl, rfl, rfl, rfl⟩

theorem mem_of_mem_rangeByScore {set : SortedSet Bytes} {maximum : Int}
    (member : id ∈ SortedSet.rangeByScore set maximum) : id ∈ set := by
  obtain ⟨score, found, _⟩ := SortedSet.mem_rangeByScore.mp member
  exact Hash.mem_iff_lookup.mpr ⟨score, found⟩

theorem Readies.due {queue : RedisState → SortedSet Bytes} {round : RedisState → Bytes → RedisState}
    (readies : Readies queue round) (holds : Consistent none state) (now : Int) :
    Consistent none ((SortedSet.rangeByScore (queue state) now).foldl round state) ∧
      ((SortedSet.rangeByScore (queue state) now).foldl round state).ready =
        state.ready ++ SortedSet.rangeByScore (queue state) now :=
  readies.foldl (SortedSet.nodup_rangeByScore _ now) holds fun _ => mem_of_mem_rangeByScore

theorem consistent_refill (now : Int) (holds : Consistent none state) :
    Consistent none (refill now state) :=
  (readies_reclaimExpired.due (readies_promoteDue.due holds now).1 now).1

/-- The front of the ready list after a successful reservation. -/
def reserve (deadline : Int) (token id : Bytes) (rest : List Bytes) (state : RedisState) :
    RedisState :=
  { state with
    ready := rest
    leases := state.leases.insert id token
    reserved := state.reserved.insert id deadline }

/-- On a consistent state the loop looks at the front of the ready list only. -/
theorem popScript_cases (now visibility : Int) (token : Bytes) (holds : Consistent none state) :
    ((refill now state).ready = [] ∧
      popScript now visibility token state = (none, refill now state)) ∨
    ∃ id payload rest, (refill now state).ready = id :: rest ∧
      (refill now state).jobs.lookup id = some payload ∧
      popScript now visibility token state =
        (some (id, payload), reserve (now + visibility) token id rest (refill now state)) := by
  have filled := consistent_refill now holds
  unfold popScript
  cases front : (refill now state).ready with
  | nil =>
    refine Or.inl ⟨rfl, ?_⟩
    dsimp only
    rw [front, reserveNext, ← front]
  | cons id rest =>
    have stored := (filled.job_of_ready (front ▸ mem_cons_self)).1
    obtain ⟨payload, found⟩ := Hash.mem_iff_lookup.mp stored
    refine Or.inr ⟨id, payload, rest, rfl, found, ?_⟩
    dsimp only
    rw [front, reserveNext, found]
    rfl

theorem consistent_reserve {deadline : Int} {rest : List Bytes} (holds : Consistent none state)
    (front : state.ready = id :: rest) : Consistent none (reserve deadline token id rest state) := by
  have member : id ∈ state.ready := front ▸ mem_cons_self
  have stored := (holds.job_of_ready member).1
  exact (holds.unready front).lease stored

theorem consistent_popScript {now visibility : Int} (holds : Consistent none state) :
    Consistent none (popScript now visibility token state).2 := by
  rcases popScript_cases now visibility token holds with ⟨_, same⟩ | ⟨id, payload, rest, front, _, same⟩
  · rw [same]
    exact consistent_refill now holds
  · rw [same]
    exact consistent_reserve (consistent_refill now holds) front

/-- Every operation keeps the invariant. -/
theorem consistent_effect {settings : RedisSettings} {now : Int} {operation : Operation}
    {after : RedisState} (effect : Effect settings now state operation after)
    (holds : Consistent none state) : Consistent none after := by
  cases effect with
  | unchanged => exact holds
  | enqueued called unknown unfailed decodes =>
    exact (holds.storeJob (Or.inr ⟨rfl, unknown⟩) unfailed decodes).enqueueAfter
      ((AList.mem_insert _).mpr (Or.inl rfl))
  | popped token => exact consistent_popScript holds
  | acknowledged job current =>
    exact (holds.unlease (holds.reserved_of_leased current)).dropJob
  | @released _ job delay payload called current decodes =>
    have member := holds.reserved_of_leased current
    have unfailed := holds.apart job.id (holds.job_of_reserved member).1
    exact ((holds.unlease member).storeJob (Or.inl rfl) unfailed decodes).enqueueAfter
      ((AList.mem_insert _).mpr (Or.inl rfl))
  | renewed job current => exact holds.renew (holds.reserved_of_leased current)
  | failed job current decodes =>
    have dropped := (holds.unlease (holds.reserved_of_leased current)).dropJob
    exact dropped.storeFailed (fun member => (AList.mem_erase.mp member).1 rfl) decodes
  | @retried id persisted reset recorded inactive decodes =>
    have cleared : id ∉ state.failed.erase id := fun member => (AList.mem_erase.mp member).1 rfl
    have resetDecodes := decodes (holds.failedDecode id persisted recorded)
    exact ((holds.dropFailed id).storeJob (Or.inr ⟨rfl, inactive⟩) cleared
      resetDecodes).pushReady ((AList.mem_insert _).mpr (Or.inl rfl))
  | forgotten id => exact holds.dropFailed id
  | flushed => exact consistent_empty

end

/-! ## Runs of the system -/

section

variable {ι : Type*} [DecidableEq ι] {settings : ι → RedisSettings} {state : RedisState}

theorem consistent_step {before after : System ι} {event : Event ι}
    (step : Step settings before event after) (holds : Consistent none before.redis) :
    Consistent none after.redis := by
  rw [step.result]
  exact consistent_effect (execute_effect _ event.operation) holds

theorem consistent_reachable {clock : Int} {system : System ι}
    (reachable : Reachable (Step settings) (.initial clock) system) :
    Consistent none system.redis := by
  obtain ⟨transitions, trace⟩ := reachable
  exact trace.preserves (fun system => Consistent none system.redis) consistent_step consistent_empty

/-- On a consistent state `pop` never throws: the stored record decodes, and to a
job with the id it is stored under. -/
theorem pop_answers (holds : Consistent none state) (settings : RedisSettings) (now : Int)
    (token : Bytes) : ∃ job, (pop settings now token state).1 = .ok (.reserved job) := by
  unfold pop
  rcases popScript_cases now settings.visibilityTimeout token holds with
    ⟨_, same⟩ | ⟨id, payload, rest, _, found, same⟩
  · exact ⟨none, by rw [same]; rfl⟩
  · obtain ⟨job, decoded, named⟩ := (consistent_refill now holds).jobsDecode id payload found
    refine ⟨some { job with reservation := token }, ?_⟩
    rw [same]
    simp only [popReply, decoded]
    rw [if_neg (fun different => different named)]

/-- The state invariant of the queue after every step of every interleaving. -/
theorem queue_invariant (settings : ι → RedisSettings) (clock : Int)
    {transitions : List (Transition (System ι) (Event ι))} {system : System ι}
    (trace : Trace (Step settings) (.initial clock) transitions system) :
    (∀ id, id ∈ system.redis.jobs → occurrences system.redis id = 1) ∧
    (∀ id, id ∈ system.redis.ready ∨ id ∈ system.redis.delayed ∨ id ∈ system.redis.reserved →
      id ∈ system.redis.jobs) ∧
    (∀ id, id ∈ system.redis.reserved ↔ id ∈ system.redis.leases) ∧
    (∀ id, ¬ (id ∈ system.redis.jobs ∧ id ∈ system.redis.failed)) ∧
    (∀ id payload, system.redis.jobs.lookup id = some payload ∨
      system.redis.failed.lookup id = some payload →
        ∃ job, decode payload = .ok job ∧ job.id = id) ∧
    ∀ driver now token, ∃ job,
      (pop (settings driver) now token system.redis).1 = .ok (.reserved job) := by
  have holds := consistent_reachable ⟨transitions, trace⟩
  refine ⟨fun id stored => holds.once id stored nofun, fun id standing => ?_, holds.leased,
    fun id both => holds.apart id both.1 both.2, fun id payload stored => ?_,
    fun driver now token => pop_answers holds (settings driver) now token⟩
  · rcases standing with ready | delayed | reserved
    · exact (holds.job_of_ready ready).1
    · exact (holds.job_of_delayed delayed).1
    · exact (holds.job_of_reserved reserved).1
  · exact stored.elim (holds.jobsDecode id payload) (holds.failedDecode id payload)

theorem queue_invariant_sample : occurrences sampleEnd.redis (ascii "j") = 1 :=
  (queue_invariant sampleSettings 0 sampleRun).1 (ascii "j") (by decide)

end

end Gungnir.Queue
