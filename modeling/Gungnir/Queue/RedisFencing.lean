import Gungnir.Queue.RedisInvariant

/-!
# Lease fencing

A reservation token is written by exactly one pop and is compared by every
operation on the reservation. Once the token has left the lease hash it cannot
come back, because later pops draw other tokens; so at most one operation that
settles a reservation takes effect, and a superseded worker changes nothing.
-/

namespace Gungnir.Queue

open Gungnir.Core Gungnir.Library

/-! ## Operations that present a token -/

/-- The envelope of an operation that ends a reservation. -/
def settling : Operation → Option Envelope
  | .acknowledge job => some job
  | .release job => some job
  | .releaseAfter job _ => some job
  | .fail job => some job
  | _ => none

/-- The envelope whose reservation an operation presents. -/
def presented : Operation → Option Envelope
  | .renew job => some job
  | operation => settling operation

def envelope : Operation → Option Envelope
  | .push _ job => some job
  | .pushLater _ job _ => some job
  | operation => presented operation

variable {operation : Operation} {job : Envelope}

theorem presented_of_settling (carries : settling operation = some job) :
    presented operation = some job := by
  cases operation with
  | renew => cases carries
  | _ => exact carries

theorem envelope_of_presented (carries : presented operation = some job) :
    envelope operation = some job := by
  cases operation with
  | push | pushLater => cases carries
  | _ => exact carries

theorem envelope_of_released {delay : Int} (called : released operation = some (job, delay)) :
    envelope operation = some job := by
  cases operation with
  | release | releaseAfter => cases called; rfl
  | _ => cases called

theorem envelope_of_enqueued {delay : Int} (called : enqueued operation = some (job, delay)) :
    envelope operation = some job ∧ presented operation = none := by
  cases operation with
  | push | pushLater => cases called; exact ⟨rfl, rfl⟩
  | _ => cases called

section

variable {settings : RedisSettings} {now : Int} {state after : RedisState}
  {operation : Operation} {job : Envelope}

/-- Without the stored token an operation on a reservation changes nothing, and
neither does a push while the id is in use. -/
theorem effect_without_lease (effect : Effect settings now state operation after)
    (carries : envelope operation = some job) (stale : ¬ state.Leased job.id job.reservation)
    (idle : presented operation = some job ∨ job.id ∈ state.jobs) : after = state := by
  cases effect with
  | unchanged => rfl
  | enqueued called unknown =>
    obtain ⟨called, unpresented⟩ := envelope_of_enqueued called
    cases called.symm.trans carries
    rcases idle with carried | stored
    · cases unpresented.symm.trans carried
    · exact absurd stored unknown
  | acknowledged other current | renewed other current | failed other current =>
    cases carries; exact absurd current stale
  | released called current =>
    cases (envelope_of_released called).symm.trans carries
    exact absurd current stale
  | popped | retried | forgotten | flushed => cases carries

/-! ## How operations change the lease hash -/

theorem leases_enqueueAfter (now delay : Int) (id : Bytes) :
    (state.enqueueAfter now delay id).leases = state.leases := by
  unfold RedisState.enqueueAfter
  split <;> rfl

variable {other token : Bytes}

theorem leased_unlease {id : Bytes} :
    (state.unlease id).Leased other token ↔ other ≠ id ∧ state.Leased other token := by
  unfold RedisState.Leased RedisState.unlease
  rw [Hash.lookup_erase_of]
  by_cases same : other = id
  · simp [same]
  · simp [same]

theorem leased_foldl_reclaimExpired {expired : List Bytes}
    (current : (expired.foldl reclaimExpired state).Leased other token) :
    state.Leased other token := by
  induction expired generalizing state with
  | nil => exact current
  | cons id rest ih =>
    have reclaimed := ih current
    have kept : (reclaimExpired state id).leases = (state.unlease id).leases := by
      unfold reclaimExpired
      dsimp only
      split <;> rfl
    unfold RedisState.Leased at reclaimed
    rw [kept] at reclaimed
    exact (leased_unlease.mp reclaimed).2

theorem leased_refill (current : (refill now state).Leased other token) :
    state.Leased other token := by
  have promoted := leased_foldl_reclaimExpired current
  unfold RedisState.Leased at promoted ⊢
  rwa [foldl_keeps RedisState.leases fun state id => (promoteDue_keeps state id).2.2.1] at promoted

/-- A lease found after a pop was there before, or is the one the pop wrote. -/
theorem leased_popScript {visibility : Int} {drawnToken : Bytes} (holds : Consistent none state)
    (current : (popScript now visibility drawnToken state).2.Leased other token) :
    state.Leased other token ∨ token = drawnToken ∧
      ∃ payload, (popScript now visibility drawnToken state).1 = some (other, payload) := by
  rcases popScript_cases now visibility drawnToken holds with
    ⟨_, same⟩ | ⟨popped, payload, rest, _, _, same⟩
  · rw [same] at current
    exact Or.inl (leased_refill current)
  · rw [same] at current ⊢
    unfold RedisState.Leased reserve at current
    rw [Hash.lookup_insert_of] at current
    split at current
    · rename_i handed
      subst handed
      exact Or.inr ⟨(Option.some.inj current).symm, payload, rfl⟩
    · exact Or.inl (leased_refill current)

theorem leased_effect (effect : Effect settings now state operation after)
    (holds : Consistent none state) (current : after.Leased other token) :
    state.Leased other token ∨ operation = .pop token ∧
      ∃ payload, (popScript now settings.visibilityTimeout token state).1 = some (other, payload) := by
  cases effect with
  | unchanged | renewed | retried | forgotten => exact Or.inl current
  | enqueued =>
    unfold RedisState.Leased at current
    rw [leases_enqueueAfter] at current
    exact Or.inl current
  | popped drawnToken =>
    rcases leased_popScript holds current with old | ⟨rfl, handed⟩
    · exact Or.inl old
    · exact Or.inr ⟨rfl, handed⟩
  | acknowledged | failed => exact Or.inl (leased_unlease.mp current).2
  | released =>
    unfold RedisState.Leased at current
    rw [leases_enqueueAfter] at current
    exact Or.inl (leased_unlease.mp current).2
  | flushed => cases current

/-- An operation that settles a reservation and changes the state was called with
the stored token, and drops that lease. -/
theorem settling_effect (effect : Effect settings now state operation after)
    (carries : settling operation = some job) (changed : after ≠ state) :
    state.Leased job.id job.reservation ∧ ¬ after.Leased job.id job.reservation := by
  have current : state.Leased job.id job.reservation := by
    by_contra stale
    have presents := presented_of_settling carries
    exact changed (effect_without_lease effect (envelope_of_presented presents) stale
      (Or.inl presents))
  refine ⟨current, ?_⟩
  cases effect with
  | unchanged => exact absurd rfl changed
  | enqueued called =>
    have unpresented := (envelope_of_enqueued called).2
    cases unpresented.symm.trans (presented_of_settling carries)
  | acknowledged | failed => cases carries; exact fun kept => (leased_unlease.mp kept).1 rfl
  | released called =>
    have presents := envelope_of_presented (presented_of_settling carries)
    cases (envelope_of_released called).symm.trans presents
    unfold RedisState.Leased
    rw [leases_enqueueAfter]
    exact fun kept => (leased_unlease.mp kept).1 rfl
  | popped | renewed | retried | forgotten | flushed => cases carries

end

/-! ## Tokens along a run -/

section

variable {ι : Type*} [DecidableEq ι] {settings : ι → RedisSettings}

/-- Every lease holds a drawn token, and no two leases hold the same one. -/
structure Fenced (system : System ι) : Prop where
  consistent : Consistent none system.redis
  issued : ∀ {id token}, system.redis.Leased id token → token ∈ system.issued
  unique : ∀ {first second token},
    system.redis.Leased first token → system.redis.Leased second token → first = second

omit [DecidableEq ι] in
theorem fenced_initial (clock : Int) : Fenced (.initial clock : System ι) where
  consistent := consistent_empty
  issued current := by cases current
  unique current := by cases current

section

variable {before after : System ι} {event : Event ι}

section

variable (step : Step settings before event after)
include step

theorem step_effect :
    Effect (settings event.driver) event.now before.redis event.operation after.redis := by
  rw [step.result]
  exact execute_effect _ event.operation

theorem step_issued : after.issued = drawn event.operation ++ before.issued := by
  rw [step.result]
  rfl

/-- A lease after a step was there before, unless its token is the new one. -/
theorem step_leased {id token : Bytes} (holds : Fenced before)
    (current : after.redis.Leased id token) :
    before.redis.Leased id token ∨ token ∉ before.issued ∧ event.operation = .pop token ∧
      ∃ payload, (popScript event.now (settings event.driver).visibilityTimeout token
        before.redis).1 = some (id, payload) := by
  rcases leased_effect (step_effect step) holds.consistent current with old | ⟨popped, handed⟩
  · exact Or.inl old
  · refine Or.inr ⟨step.fresh token ?_, popped, handed⟩
    rw [popped]
    exact List.mem_singleton_self token

theorem fenced_step (holds : Fenced before) : Fenced after where
  consistent := consistent_step step holds.consistent
  issued {id token} current := by
    rw [step_issued step]
    rcases step_leased step holds current with old | ⟨_, popped, _⟩
    · exact List.mem_append_right _ (holds.issued old)
    · rw [popped]
      exact List.mem_append_left _ (List.mem_singleton_self token)
  unique {first second token} current other := by
    rcases step_leased step holds current with old | ⟨unissued, _, payload, handed⟩
    · rcases step_leased step holds other with otherOld | ⟨unissued, _⟩
      · exact holds.unique old otherOld
      · exact absurd (holds.issued old) unissued
    · rcases step_leased step holds other with otherOld | ⟨_, _, otherPayload, otherHanded⟩
      · exact absurd (holds.issued otherOld) unissued
      · have same := Option.some.inj (handed.symm.trans otherHanded)
        exact congrArg Prod.fst same

end

/-- The token was drawn, and no lease holds it any more outside `allowed`. -/
def Confined (token : Bytes) (allowed : Option Bytes) (system : System ι) : Prop :=
  Fenced system ∧ token ∈ system.issued ∧
    ∀ id, system.redis.Leased id token → allowed = some id

theorem confined_step {token : Bytes} {allowed : Option Bytes}
    (step : Step settings before event after) (holds : Confined token allowed before) :
    Confined token allowed after := by
  obtain ⟨fenced, issued, confined⟩ := holds
  refine ⟨fenced_step step fenced, ?_, fun id current => ?_⟩
  · rw [step_issued step]
    exact List.mem_append_right _ issued
  · rcases step_leased step fenced current with old | ⟨unissued, _⟩
    · exact confined id old
    · exact absurd issued unissued

end

/-- The transition settles the reservation of `token` with an effect. -/
def Settles (token : Bytes) (transition : Transition (System ι) (Event ι)) : Prop :=
  (∃ job, settling transition.label.operation = some job ∧ job.reservation = token) ∧
    transition.after.redis ≠ transition.before.redis

variable {transition : Transition (System ι) (Event ι)}

section

variable (step : Step settings transition.before transition.label transition.after)
include step

theorem confined_of_settles {token : Bytes} (fenced : Fenced transition.before)
    (settles : Settles token transition) : Confined token none transition.after := by
  obtain ⟨⟨job, carries, rfl⟩, changed⟩ := settles
  obtain ⟨current, dropped⟩ := settling_effect (step_effect step) carries changed
  refine ⟨fenced_step step fenced, ?_, fun id kept => ?_⟩
  · rw [step_issued step]
    exact List.mem_append_right _ (fenced.issued current)
  · exfalso
    rcases step_leased step fenced kept with old | ⟨unissued, _⟩
    · rw [fenced.unique old current] at kept
      exact dropped kept
    · exact unissued (fenced.issued current)

theorem not_settles_of_confined {token : Bytes} (confined : Confined token none transition.before) :
    ¬ Settles token transition := by
  rintro ⟨⟨job, carries, rfl⟩, changed⟩
  have current := (settling_effect (step_effect step) carries changed).1
  cases confined.2.2 job.id current

end

theorem settles_pairwise {token : Bytes} {first last : System ι}
    {transitions : List (Transition (System ι) (Event ι))}
    (trace : Trace (Step settings) first transitions last) (fenced : Fenced first) :
    transitions.Pairwise fun earlier later => ¬ (Settles token earlier ∧ Settles token later) := by
  induction trace with
  | nil => exact .nil
  | cons step rest ih =>
    refine .cons (fun later member both => ?_) (ih (fenced_step step fenced))
    have confined := confined_of_settles step fenced both.1
    obtain ⟨held, laterStep, _⟩ :=
      rest.forall_mem (Confined token none) confined_step confined later member
    exact not_settles_of_confined laterStep held both.2

/-! ## Superseded reservations -/

/-- The transition is a pop that handed out `job`. -/
def HandsOut (settings : ι → RedisSettings) (job : Envelope)
    (transition : Transition (System ι) (Event ι)) : Prop :=
  ∃ token, transition.label.operation = .pop token ∧
    (transition.before.next settings transition.label).1 = .ok (.reserved (some job))

theorem leased_of_handsOut {job : Envelope}
    (step : Step settings transition.before transition.label transition.after)
    (fenced : Fenced transition.before) (hands : HandsOut settings job transition) :
    transition.label.operation = .pop job.reservation ∧
      transition.after.redis.Leased job.id job.reservation := by
  obtain ⟨token, popped, answer⟩ := hands
  have popAnswer : popReply token (popScript transition.label.now
      (settings transition.label.driver).visibilityTimeout token transition.before.redis).1 =
      .ok (.reserved (some job)) := by
    simpa only [System.next, popped, execute, pop] using answer
  have popState : transition.after.redis = (popScript transition.label.now
      (settings transition.label.driver).visibilityTimeout token transition.before.redis).2 := by
    rw [step.result]
    simp only [System.next, popped, execute, pop]
  rcases popScript_cases transition.label.now
      (settings transition.label.driver).visibilityTimeout token fenced.consistent with
    ⟨_, same⟩ | ⟨id, payload, rest, _, _, same⟩
  · rw [same] at popAnswer
    cases popAnswer
  · rw [same] at popAnswer popState
    unfold popReply at popAnswer
    cases decoded : decode payload with
    | error invalid => simp only [decoded] at popAnswer; cases popAnswer
    | ok stored =>
      simp only [decoded] at popAnswer
      split at popAnswer
      · cases popAnswer
      · rename_i named
        rw [not_not] at named
        cases popAnswer
        refine ⟨popped, ?_⟩
        rw [popState]
        unfold RedisState.Leased reserve
        rw [Hash.lookup_insert_of, if_pos named]

/-- After a second pop of the same job the first token is in no lease again. -/
theorem confined_of_superseded {first last : System ι} {old new : Envelope}
    {early middle late : List (Transition (System ι) (Event ι))}
    {firstPop secondPop : Transition (System ι) (Event ι)}
    (trace : Trace (Step settings) first (early ++ firstPop :: (middle ++ secondPop :: late)) last)
    (fenced : Fenced first) (firstHands : HandsOut settings old firstPop)
    (secondHands : HandsOut settings new secondPop) (sameJob : new.id = old.id) :
    Confined old.reservation none last := by
  obtain ⟨earlyTrace, firstStep, restTrace⟩ := trace.split
  obtain ⟨middleTrace, secondStep, lateTrace⟩ := restTrace.split
  have beforeFirst := earlyTrace.preserves Fenced fenced_step fenced
  obtain ⟨_, firstLeased⟩ := leased_of_handsOut firstStep beforeFirst firstHands
  have afterFirst := fenced_step firstStep beforeFirst
  have confinedFirst : Confined old.reservation (some old.id) firstPop.after :=
    ⟨afterFirst, afterFirst.issued firstLeased,
      fun id current => congrArg some (afterFirst.unique firstLeased current)⟩
  have beforeSecond :=
    middleTrace.preserves (Confined old.reservation (some old.id)) confined_step confinedFirst
  have afterSecond := confined_step secondStep beforeSecond
  obtain ⟨popped, secondLeased⟩ := leased_of_handsOut secondStep beforeSecond.1 secondHands
  -- the token drawn by the second pop is new, so it replaced the first one
  have replaced : Confined old.reservation none secondPop.after := by
    refine ⟨afterSecond.1, afterSecond.2.1, fun id current => ?_⟩
    exfalso
    cases afterSecond.2.2 id current
    rw [sameJob] at secondLeased
    have sameToken : new.reservation = old.reservation :=
      Option.some.inj (secondLeased.symm.trans current)
    have unissued := secondStep.fresh new.reservation (by
      rw [popped]
      exact List.mem_singleton_self _)
    rw [sameToken] at unissued
    exact unissued beforeSecond.2.1
  exact lateTrace.preserves (Confined old.reservation none) confined_step replaced

/-- Lease fencing along every interleaving: an operation whose token is not the
stored lease changes nothing; at most one settling operation takes effect for a
token; and after a second pop of a job nothing called with the first envelope
changes the state, a push included while the job is still there. -/
theorem lease_fencing (settings : ι → RedisSettings) (clock : Int)
    {transitions : List (Transition (System ι) (Event ι))} {system : System ι}
    (trace : Trace (Step settings) (.initial clock) transitions system) :
    (∀ driver now retrying operation job, presented operation = some job →
      ¬ system.redis.Leased job.id job.reservation →
      (execute (settings driver) now retrying operation system.redis).2 = system.redis) ∧
    (∀ token, transitions.Pairwise fun earlier later =>
      ¬ (Settles token earlier ∧ Settles token later)) ∧
    ∀ early firstPop middle secondPop late old new,
      transitions = early ++ firstPop :: (middle ++ secondPop :: late) →
      HandsOut settings old firstPop → HandsOut settings new secondPop → new.id = old.id →
      ∀ driver now retrying operation job, envelope operation = some job →
        job.id = old.id → job.reservation = old.reservation →
        (presented operation = some job ∨ job.id ∈ system.redis.jobs) →
        (execute (settings driver) now retrying operation system.redis).2 = system.redis := by
  refine ⟨?_, fun token => settles_pairwise trace (fenced_initial clock), ?_⟩
  · intro driver now retrying operation job presents stale
    exact effect_without_lease (execute_effect retrying operation)
      (envelope_of_presented presents) stale (Or.inl presents)
  · intro early firstPop middle secondPop late old new cut firstHands secondHands sameJob
    subst cut
    have confined :=
      confined_of_superseded trace (fenced_initial clock) firstHands secondHands sameJob
    intro driver now retrying operation job carries _ sameToken idle
    refine effect_without_lease (execute_effect retrying operation) carries (fun current => ?_) idle
    rw [sameToken] at current
    cases confined.2.2 job.id current

/-- The first worker of the small run acknowledges too late. -/
theorem lease_fencing_sample :
    (execute (sampleSettings ()) 70001 none
      (.acknowledge { sampleJob with reservation := ascii "t" }) sampleEnd.redis).2 =
      sampleEnd.redis :=
  (lease_fencing sampleSettings 0 sampleRun).2.2 [_] _ [] _ []
    { sampleJob with reservation := ascii "t" } { sampleJob with reservation := ascii "u" } rfl
    ⟨_, rfl, rfl⟩ ⟨_, rfl, rfl⟩ rfl () 70001 none
    (.acknowledge { sampleJob with reservation := ascii "t" }) _ rfl rfl rfl (Or.inl rfl)

end

end Gungnir.Queue
