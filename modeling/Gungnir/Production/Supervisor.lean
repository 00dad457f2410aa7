import Gungnir.Core.Text
import Gungnir.Library.Transition

/-!
# The supervisor

`Supervisor::runtime` and `Supervisor::request_stop` on any number of threads. A registration
tests the flag inside its mutex section, but the flag is set outside of it, so the section is
two steps here: the test, and what follows it. The stop actions are called through the
pointer into the list, without the mutex.
-/

namespace Gungnir.Production

open Gungnir.Core Gungnir.Library List

/-- A runtime without its running check; `requestStop` numbers the stop actions. -/
structure Runtime where
  name : Bytes
  requestStop : Nat
  deriving DecidableEq, Repr

/-- Where the call of `request_stop` stands that has set the flag. -/
inductive Phase where
  | running
  | cancelling
  /-- The snapshot is taken; `calling` while a stop action runs. -/
  | stopping (index count : Nat) (calling : Bool)
  | returned
  deriving DecidableEq, Repr

def Phase.snapshot : Phase → Bool
  | running | cancelling => false
  | stopping _ _ _ | returned => true

structure State where
  stopping : Bool
  names : List Bytes
  runtimes : List Runtime
  /-- The registration that holds the mutex and has found the flag unset. -/
  holder : Option Runtime
  phase : Phase
  /-- How the registrations have ended. -/
  results : List (Runtime × Except Exception Unit)
  /-- The stop actions that have been called. -/
  called : List Runtime

inductive Event where
  /-- `runtime`, with or without its callbacks, up to the test of the flag. -/
  | runtime (runtime : Runtime) (callbacks : Bool)
  /-- The rest of its mutex section, where `push_back` may throw. -/
  | register (thrown : Option Exception)
  | requestStop
  | snapshot
  | call
  | finish (thrown : Option Exception)
  | returns

namespace State

def initial : State := ⟨false, [], [], none, .running, [], []⟩

variable (state : State)

/-- The runtimes whose registration has returned normally. -/
def registered : List Runtime :=
  state.results.filterMap fun result => result.2.toOption.map fun _ => result.1

def conclude (runtime : Runtime) (result : Except Exception Unit) : State :=
  { state with results := (runtime, result) :: state.results }

def runtime (runtime : Runtime) (callbacks : Bool) : State :=
  if runtime.name = [] then
    state.conclude runtime (.error (.invalidArgument "Supervised runtime name must not be empty"))
  else if callbacks = false then
    state.conclude runtime (.error
      (.invalidArgument "Supervised runtime requires stop and running callbacks"))
  else if state.stopping then
    state.conclude runtime (.error
      (.logicError "Cannot register a runtime after supervisor shutdown begins"))
  else { state with holder := some runtime }

def register (runtime : Runtime) (thrown : Option Exception) : State :=
  if runtime.name ∈ state.names then
    { state.conclude runtime (.error ⟨.logicError,
        ascii "Supervised runtime is already registered: " ++ runtime.name⟩) with holder := none }
  else
    match thrown with
    | some thrown =>
      { state.conclude runtime (.error thrown) with
        holder := none, names := runtime.name :: state.names }
    | none =>
      { state.conclude runtime (.ok ()) with
        holder := none
        names := runtime.name :: state.names
        runtimes := state.runtimes ++ [runtime] }

end State

def next (state : State) : Event → State
  | .runtime runtime callbacks => state.runtime runtime callbacks
  | .register thrown =>
    match state.holder with
    | some runtime => state.register runtime thrown
    | none => state
  | .requestStop =>
    if state.stopping then state else { state with stopping := true, phase := .cancelling }
  | .snapshot => { state with phase := .stopping 0 state.runtimes.length false }
  | .call =>
    match state.phase with
    | .stopping index count false =>
      { state with
        phase := .stopping index count true
        called := state.called ++ state.runtimes[index]?.toList }
    | _ => state
  -- What a stop action throws is caught.
  | .finish _ =>
    match state.phase with
    | .stopping index count true => { state with phase := .stopping (index + 1) count false }
    | _ => state
  | .returns => { state with phase := .returned }

/-- The mutex is free where it is needed, and the call of `request_stop` has come that far. -/
def enabled (state : State) : Event → Bool
  | .runtime runtime callbacks => runtime.name.isEmpty || !callbacks || state.holder.isNone
  | .register _ => state.holder.isSome
  | .requestStop => true
  | .snapshot => state.phase == .cancelling && state.holder.isNone
  | .call =>
    match state.phase with
    | .stopping index count false => index < count
    | _ => false
  | .finish _ =>
    match state.phase with
    | .stopping _ _ true => true
    | _ => false
  | .returns =>
    match state.phase with
    | .stopping index count false => index == count
    | _ => false

def Enabled (state : State) (event : Event) : Prop := enabled state event = true

instance (state : State) (event : Event) : Decidable (Enabled state event) :=
  inferInstanceAs (Decidable (_ = true))

/-! ## What holds in every run -/

/-- How far the stop actions have been called. -/
def Progress (runtimes called : List Runtime) : Phase → Prop
  | .running | .cancelling => called = []
  | .stopping index count calling =>
    count = runtimes.length ∧ called = runtimes.take (index + calling.toNat)
  | .returned => called = runtimes

/-- The runtimes are the registered ones, under different names. -/
structure Listed (names : List Bytes) (runtimes registered : List Runtime) : Prop where
  registered : registered = runtimes.reverse
  distinct : (runtimes.map Runtime.name).Nodup
  named : ∀ runtime ∈ runtimes, runtime.name ∈ names

structure Invariant (state : State) : Prop where
  listed : Listed state.names state.runtimes state.registered
  /-- No registration that has found the flag unset is left. -/
  closed : state.phase.snapshot = true → state.holder = none
  flag : state.phase = .running ∨ state.stopping = true
  progress : Progress state.runtimes state.called state.phase

theorem invariant_initial : Invariant State.initial where
  listed := ⟨rfl, .nil, nofun⟩
  closed := nofun
  flag := .inl rfl
  progress := rfl

section Steps

variable {state : State} (invariant : Invariant state)
include invariant

theorem Invariant.runtime (runtime : Runtime) (callbacks : Bool) :
    Invariant (state.runtime runtime callbacks) := by
  have failed : ∀ thrown, Invariant (state.conclude runtime (.error thrown)) := fun _ =>
    ⟨invariant.listed, invariant.closed, invariant.flag, invariant.progress⟩
  unfold State.runtime
  split
  · exact failed _
  · split
    · exact failed _
    · split
      · exact failed _
      · rename_i unset
        refine ⟨invariant.listed, fun taken => ?_, invariant.flag, invariant.progress⟩
        have running : state.phase = .running := invariant.flag.resolve_right unset
        have early : Phase.snapshot state.phase = true := taken
        rw [running] at early
        cases early

theorem Invariant.register {runtime : Runtime} (held : state.holder = some runtime)
    (thrown : Option Exception) : Invariant (state.register runtime thrown) := by
  unfold State.register
  split
  · exact ⟨invariant.listed, fun _ => rfl, invariant.flag, invariant.progress⟩
  · rename_i new
    obtain ⟨registered, distinct, named⟩ := invariant.listed
    have known : ∀ other ∈ state.runtimes, other.name ∈ runtime.name :: state.names :=
      fun other member => mem_cons_of_mem _ (named other member)
    cases thrown with
    | some thrown =>
      exact ⟨⟨registered, distinct, known⟩, fun _ => rfl, invariant.flag, invariant.progress⟩
    | none =>
      refine ⟨⟨?_, ?_, forall_mem_append.mpr ⟨known, forall_mem_singleton.mpr mem_cons_self⟩⟩,
        fun _ => rfl, invariant.flag, ?_⟩
      · show runtime :: state.registered = (state.runtimes ++ [runtime]).reverse
        rw [registered, reverse_append]
        rfl
      · rw [map_append, nodup_append_comm]
        refine nodup_cons.mpr ⟨fun member => new ?_, distinct⟩
        obtain ⟨other, listed, same⟩ := mem_map.mp member
        exact same ▸ named other listed
      · -- The mutex is held, so the snapshot is not taken.
        show Progress _ state.called state.phase
        have progress := invariant.progress
        have closed := invariant.closed
        cases phase : state.phase with
        | running | cancelling =>
          rw [phase] at progress
          exact progress
        | stopping | returned =>
          rw [phase] at closed
          cases held.symm.trans (closed rfl)

/-- The call of `request_stop` goes on behind its snapshot. -/
theorem Invariant.proceed {index count : Nat} {calling : Bool} {phase : Phase}
    {called : List Runtime} (stopping : state.phase = .stopping index count calling)
    (progress : Progress state.runtimes called phase) :
    Invariant { state with phase := phase, called := called } := by
  have flag := invariant.flag
  have closed := invariant.closed
  rw [stopping] at flag closed
  exact ⟨invariant.listed, fun _ => closed rfl, .inr (flag.resolve_left nofun), progress⟩

theorem Invariant.step {event : Event} (possible : Enabled state event) :
    Invariant (next state event) := by
  have progress := invariant.progress
  cases event with
  | runtime runtime callbacks => exact invariant.runtime runtime callbacks
  | register thrown =>
    obtain ⟨runtime, held⟩ := Option.isSome_iff_exists.mp possible
    simp only [next, held]
    exact invariant.register held thrown
  | requestStop =>
    simp only [next]
    split
    · exact invariant
    · rename_i unset
      rw [invariant.flag.resolve_right unset] at progress
      exact ⟨invariant.listed, nofun, .inr rfl, progress⟩
  | snapshot =>
    simp only [Enabled, enabled, Bool.and_eq_true, beq_iff_eq, Option.isNone_iff_eq_none]
      at possible
    have flag := invariant.flag
    rw [possible.1] at progress flag
    exact ⟨invariant.listed, fun _ => possible.2, .inr (flag.resolve_left nofun), rfl, progress⟩
  | call =>
    simp only [Enabled, enabled] at possible
    split at possible
    · rename_i index count phase
      rw [phase] at progress
      simp only [next, phase]
      refine invariant.proceed phase ⟨progress.1, ?_⟩
      rw [progress.2]
      exact take_add_one.symm
    · cases possible
  | finish =>
    simp only [Enabled, enabled] at possible
    split at possible
    · rename_i index count phase
      rw [phase] at progress
      simp only [next, phase]
      exact invariant.proceed phase progress
    · cases possible
  | returns =>
    simp only [Enabled, enabled] at possible
    split at possible
    · rename_i index count phase
      rw [phase] at progress
      refine invariant.proceed phase (progress.2.trans ?_)
      exact take_of_length_le (progress.1 ▸ Nat.le_of_eq (beq_iff_eq.mp possible).symm)
    · cases possible

end Steps

/-- What every step shows. -/
structure Covered (transition : Transition State Event) : Prop where
  /-- Once the call has returned, every stop action has been called exactly once. -/
  once : transition.after.phase = .returned → ∀ runtime ∈ transition.after.registered,
    transition.after.called.count runtime = 1
  /-- Behind the snapshot no registration succeeds. -/
  refused : transition.before.phase.snapshot = true →
    transition.after.registered = transition.before.registered
  /-- Behind the snapshot the list stays as it is. -/
  untouched : transition.before.phase.snapshot = true →
    transition.after.runtimes = transition.before.runtimes

variable {state : State} {event : Event}

theorem Invariant.untouched (invariant : Invariant state) (taken : state.phase.snapshot = true) :
    (next state event).runtimes = state.runtimes := by
  cases event with
  | runtime runtime callbacks =>
    simp only [next, State.runtime]
    split_ifs <;> rfl
  | register thrown => simp only [next, invariant.closed taken]
  | requestStop | call | finish =>
    simp only [next]
    split <;> rfl
  | snapshot | returns => rfl

theorem Invariant.covered (invariant : Invariant state) (possible : Enabled state event) :
    Covered ⟨state, event, next state event⟩ := by
  have later := invariant.step possible
  refine ⟨fun returned runtime member => ?_, fun taken => ?_, invariant.untouched⟩
  · have progress := later.progress
    rw [show (next state event).phase = _ from returned] at progress
    rw [later.listed.registered, mem_reverse] at member
    rw [show (next state event).called = _ from progress]
    exact count_eq_one_of_mem later.listed.distinct.of_map member
  · rw [later.listed.registered, invariant.listed.registered, invariant.untouched taken]

/-- Every runtime that is registered has its stop action called exactly once by the time
`request_stop` returns; behind its snapshot the list does not change. -/
theorem supervisor_stops (events : List Event)
    (enabled : EnabledFrom next Enabled State.initial events) :
    ∀ transition ∈ transitionsFrom next State.initial events, Covered transition :=
  enabled.forall_mem_where Invariant (fun _ => True) (fun possible _ holds => holds.step possible)
    (fun _ _ => trivial) invariant_initial fun possible _ holds => holds.covered possible

/-- The second runtime is registered after the flag is set, the third too late. -/
def sampleRun : List Event :=
  [.runtime ⟨ascii "http", 0⟩ true, .register none, .runtime ⟨ascii "queue", 1⟩ true,
    .requestStop, .register none, .snapshot, .runtime ⟨ascii "cron", 2⟩ true, .call, .requestStop,
    .finish none, .call, .finish (some .undefinedBehavior), .returns]

theorem supervisor_stops_sample :
    (runFrom next State.initial sampleRun).called = [⟨ascii "http", 0⟩, ⟨ascii "queue", 1⟩] ∧
    ∀ transition ∈ transitionsFrom next State.initial sampleRun, Covered transition :=
  ⟨by decide, supervisor_stops sampleRun (by decide)⟩

end Gungnir.Production
