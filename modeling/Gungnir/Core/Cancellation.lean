import Gungnir.Library.Transition
import Mathlib.Data.Fintype.Basic
import Mathlib.Data.List.AList

/-!
# Cancellation callbacks

`CancellationToken::on_cancel`, `CancellationRegistration::reset` and
`CancellationSource::cancel` on any number of threads, each mutex section one step, and the
two functions that register a callback for the time of a call: `retry_sleep`, whose callback
uses the caller's stack frame, and `Connection::execute`, whose callback cancels whatever
the connection's driver runs.
-/

namespace Gungnir.Core.Cancellation

open Gungnir.Library List

/-- The calls that hold a registration while they run. -/
inductive Purpose where
  | retrySleep
  | execute (connection : Nat)
  deriving DecidableEq, Repr

/-- What a thread is in the middle of. Callbacks are named by the number of their
`on_cancel` call. -/
inductive Frame where
  /-- A call that holds the registration of its callback. -/
  | holding (callback : Nat) (purpose : Purpose)
  /-- `Connection::execute` without this token. -/
  | executing (connection : Nat)
  /-- `on_cancel` has found the token cancelled. -/
  | invokeNow (callback : Nat)
  /-- A callback is running. -/
  | call (callback : Nat)
  /-- `cancel` has set the flag. -/
  | cancelling
  /-- `cancel` has these callbacks still to run. -/
  | batch (rest : List Nat)
  deriving DecidableEq, Repr

/-- The callbacks that run, or are to run without any further check. -/
def Frame.callbacks : Frame → List Nat
  | invokeNow callback | call callback => [callback]
  | batch rest => rest
  | holding _ _ | executing _ | cancelling => []

/-- The connection whose mutex a call holds. -/
def Frame.connection : Frame → Option Nat
  | holding _ (.execute connection) | executing connection => some connection
  | _ => none

/-- `CancellationState`, with the threads and the connections around it. -/
structure State (ι : Type) where
  cancelled : Bool
  callbacks : AList fun _ : UInt64 => Nat
  nextId : UInt64
  /-- The number of calls of `on_cancel`. -/
  count : Nat
  /-- The `id_` of every registration. -/
  ids : Nat → UInt64
  threads : ι → List Frame
  /-- The connections whose mutex is held, each as often as it is. -/
  locked : List Nat
  /-- The callbacks whose registration has been reset by a thread that does not run them. -/
  returned : List Nat

inductive Event (ι : Type) where
  | onCancel (thread : ι)
  | reset (thread : ι) (callback : Nat)
  | enter (thread : ι) (purpose : Purpose)
  | leave (thread : ι)
  | execute (thread : ι) (connection : Nat)
  | executed (thread : ι)
  | exchange (thread : ι)
  | swap (thread : ι) (order : List Nat)
  | start (thread : ι)
  | finish (thread : ι)
  | cancelled (thread : ι)
  deriving DecidableEq, Repr

variable {ι : Type}

namespace State

def initial : State ι := ⟨false, ∅, 1, 0, fun _ => 0, fun _ => [], [], []⟩

/-- The callbacks that a thread runs or is to run. -/
def taken (state : State ι) (thread : ι) : List Nat :=
  (state.threads thread).flatMap Frame.callbacks

def lock (state : State ι) : Purpose → State ι
  | .retrySleep => state
  | .execute connection => { state with locked := connection :: state.locked }

def unlock (state : State ι) : Purpose → State ι
  | .retrySleep => state
  | .execute connection => { state with locked := state.locked.erase connection }

variable [DecidableEq ι] (state : State ι) (thread : ι)

def set (stack : List Frame) : State ι :=
  { state with threads := Function.update state.threads thread stack }

/-- `on_cancel`, up to the end of its mutex section; an empty registration has the id 0. -/
def onCancel (stack : List Frame) : State ι :=
  if state.cancelled then
    { state.set thread (.invokeNow state.count :: stack) with
      count := state.count + 1
      ids := Function.update state.ids state.count 0 }
  else
    let id := if state.nextId = 0 then 1 else state.nextId
    { state.set thread stack with
      callbacks := if (state.callbacks.lookup id).isSome then state.callbacks
        else state.callbacks.insert id state.count
      nextId := id + 1
      count := state.count + 1
      ids := Function.update state.ids state.count id }

/-- `reset` and the destructor. -/
def reset (callback : Nat) (stack : List Frame) : State ι :=
  { state.set thread stack with
    callbacks := if state.ids callback = 0 then state.callbacks
      else state.callbacks.erase (state.ids callback)
    ids := Function.update state.ids callback 0
    returned := if callback ∈ state.taken thread then state.returned
      else callback :: state.returned }

end State

def next [DecidableEq ι] (state : State ι) : Event ι → State ι
  | .onCancel thread => state.onCancel thread (state.threads thread)
  | .reset thread callback => state.reset thread callback (state.threads thread)
  | .enter thread purpose =>
    (state.onCancel thread (.holding state.count purpose :: state.threads thread)).lock purpose
  | .leave thread =>
    match state.threads thread with
    | .holding callback purpose :: rest => (state.reset thread callback rest).unlock purpose
    | _ => state
  | .execute thread connection =>
    (state.set thread (.executing connection :: state.threads thread)).lock (.execute connection)
  | .executed thread =>
    match state.threads thread with
    | .executing connection :: rest => (state.set thread rest).unlock (.execute connection)
    | _ => state
  | .exchange thread =>
    if state.cancelled then state
    else { state.set thread (.cancelling :: state.threads thread) with cancelled := true }
  | .swap thread order =>
    match state.threads thread with
    | .cancelling :: rest => { state.set thread (.batch order :: rest) with callbacks := ∅ }
    | _ => state
  | .start thread =>
    match state.threads thread with
    | .batch (callback :: others) :: rest =>
      state.set thread (.call callback :: .batch others :: rest)
    | .invokeNow callback :: rest => state.set thread (.call callback :: rest)
    | _ => state
  | .finish thread =>
    match state.threads thread with
    | .call _ :: rest => state.set thread rest
    | _ => state
  | .cancelled thread =>
    match state.threads thread with
    | .batch [] :: rest => state.set thread rest
    | _ => state

/-- A thread that runs its own code or the code of a callback. -/
def free : List Frame → Bool
  | [] | .call _ :: _ => true
  | _ => false

variable (state : State ι)

def Enabled : Event ι → Prop
  | .onCancel thread | .exchange thread => free (state.threads thread) = true
  | .reset thread callback =>
    free (state.threads thread) = true ∧ callback < state.count ∧ state.ids callback ≠ 0
  | .enter thread .retrySleep => free (state.threads thread) = true
  | .enter thread (.execute connection) | .execute thread connection =>
    free (state.threads thread) = true ∧ (connection ∉ state.locked ∨
      -- The mutex of a connection is recursive.
      ∃ frame ∈ state.threads thread, frame.connection = some connection)
  | .leave thread => (state.threads thread).head?.any (fun frame => match frame with
      | .holding _ _ => true
      | _ => false) = true
  | .executed thread => (state.threads thread).head?.any (fun frame => match frame with
      | .executing _ => true
      | _ => false) = true
  | .swap thread order => (state.threads thread).head? = some .cancelling ∧
      order.Perm (state.callbacks.entries.map Sigma.snd)
  | .start thread => (state.threads thread).head?.any (fun frame => match frame with
      | .batch (_ :: _) | .invokeNow _ => true
      | _ => false) = true
  | .finish thread => (state.threads thread).head?.any (fun frame => match frame with
      | .call _ => true
      | _ => false) = true
  | .cancelled thread => (state.threads thread).head? = some (.batch [])

instance (state : State ι) : (event : Event ι) → Decidable (Enabled state event)
  | .onCancel _ | .exchange _ | .leave _ | .executed _ | .start _ | .finish _
  | .enter _ .retrySleep => inferInstanceAs (Decidable (_ = true))
  | .reset _ _ | .enter _ (.execute _) | .execute _ _ | .swap _ _ =>
    inferInstanceAs (Decidable (_ ∧ _))
  | .cancelled _ => inferInstanceAs (Decidable (_ = _))

/-- No callback runs whose registration has been reset by another thread. -/
def Quiet : Prop :=
  ∀ callback ∈ state.returned, ∀ thread, Frame.call callback ∉ state.threads thread

/-- The callback whose registration a step resets. -/
def resets : Event ι → Option (ι × Nat)
  | .reset thread callback => some (thread, callback)
  | .leave thread =>
    match state.threads thread with
    | .holding callback _ :: _ => some (thread, callback)
    | _ => none
  | _ => none

/-- A registration is reset only while no other thread has taken its callback to run it. -/
def Untaken (transition : Transition (State ι) (Event ι)) : Prop :=
  ∀ reset ∈ resets transition.before transition.label, ∀ other, other ≠ reset.1 →
    reset.2 ∉ transition.before.taken other

instance [DecidableEq ι] [Fintype ι] (transition : Transition (State ι) (Event ι)) :
    Decidable (Untaken transition) :=
  inferInstanceAs (Decidable (∀ reset ∈ _, _))

/-! ## What holds in every run -/

structure Invariant (state : State ι) : Prop where
  registry : ∀ id callback, state.callbacks.lookup id = some callback →
    id ≠ 0 ∧ state.ids callback = id ∧ callback < state.count
  taken : ∀ thread, ∀ callback ∈ state.taken thread, callback < state.count
  held : ∀ thread callback purpose, Frame.holding callback purpose ∈ state.threads thread →
    callback < state.count
  returned : ∀ callback ∈ state.returned, callback < state.count ∧
    (∀ id, state.callbacks.lookup id ≠ some callback) ∧ ∀ thread, callback ∉ state.taken thread

theorem invariant_initial : Invariant (State.initial : State ι) where
  registry := nofun
  taken := nofun
  held := nofun
  returned := nofun

theorem Invariant.quiet {state : State ι} (invariant : Invariant state) : Quiet state := by
  intro callback returned thread running
  have taken : callback ∈ state.taken thread :=
    mem_flatMap.mpr ⟨.call callback, running, mem_singleton_self callback⟩
  exact (invariant.returned callback returned).2.2 thread taken

variable {state : State ι}

theorem Invariant.lock (invariant : Invariant state) (purpose : Purpose) :
    Invariant (state.lock purpose) := by
  cases purpose with
  | retrySleep => exact invariant
  | execute connection =>
    exact ⟨invariant.registry, invariant.taken, invariant.held, invariant.returned⟩

theorem Invariant.unlock (invariant : Invariant state) (purpose : Purpose) :
    Invariant (state.unlock purpose) := by
  cases purpose with
  | retrySleep => exact invariant
  | execute connection =>
    exact ⟨invariant.registry, invariant.taken, invariant.held, invariant.returned⟩

/-- A callback gets its name. -/
def State.name (state : State ι) (id : UInt64) : State ι :=
  { state with
    count := state.count + 1
    ids := Function.update state.ids state.count id }

theorem Invariant.name (invariant : Invariant state) (id : UInt64) : Invariant (state.name id) := by
  have later : ∀ {callback}, callback < state.count → callback < state.count + 1 :=
    fun below => Nat.lt_succ_of_lt below
  refine ⟨fun key callback found => ?_, fun other callback member => ?_,
    fun other callback purpose member => ?_, fun callback returned => ?_⟩
  · obtain ⟨positive, same, below⟩ := invariant.registry key callback found
    refine ⟨positive, ?_, later below⟩
    exact (Function.update_of_ne (Nat.ne_of_lt below) ..).trans same
  · exact later (invariant.taken other callback member)
  · exact later (invariant.held other callback purpose member)
  · obtain ⟨below, untouched⟩ := invariant.returned callback returned
    exact ⟨later below, untouched⟩

theorem Invariant.emplace (invariant : Invariant state) {id : UInt64} {callback : Nat}
    (positive : id ≠ 0) (named : state.ids callback = id) (below : callback < state.count)
    (active : callback ∉ state.returned) :
    Invariant { state with
      callbacks := if (state.callbacks.lookup id).isSome then state.callbacks
        else state.callbacks.insert id callback } := by
  have registered : ∀ key other, AList.lookup key (if (state.callbacks.lookup id).isSome
      then state.callbacks else state.callbacks.insert id callback) = some other →
      (key = id ∧ other = callback) ∨ state.callbacks.lookup key = some other := by
    intro key other found
    split at found
    · exact .inr found
    · by_cases same : key = id
      · rw [same, AList.lookup_insert] at found
        exact .inl ⟨same, (Option.some.inj found).symm⟩
      · rw [AList.lookup_insert_ne same] at found
        exact .inr found
  refine ⟨fun key other found => ?_, invariant.taken, invariant.held, fun other returned => ?_⟩
  · rcases registered key other found with ⟨rfl, rfl⟩ | before
    · exact ⟨positive, named, below⟩
    · exact invariant.registry key other before
  · obtain ⟨belowOther, unregistered, untaken⟩ := invariant.returned other returned
    refine ⟨belowOther, fun key found => ?_, untaken⟩
    rcases registered key other found with ⟨_, rfl⟩ | before
    · exact active returned
    · exact unregistered key before

variable {thread : ι} {frame : Frame} {rest : List Frame}

theorem taken_of_rest (same : state.threads thread = frame :: rest) :
    ∀ callback ∈ rest.flatMap Frame.callbacks, callback ∈ state.taken thread := by
  intro callback member
  rw [State.taken, same, flatMap_cons]
  exact mem_append_right _ member

theorem held_of_rest (same : state.threads thread = frame :: rest) :
    ∀ callback purpose, Frame.holding callback purpose ∈ rest →
      Frame.holding callback purpose ∈ state.threads thread := by
  intro callback purpose member
  rw [same]
  exact mem_cons_of_mem _ member

variable [DecidableEq ι] {stack : List Frame}

theorem taken_set (state : State ι) (thread other : ι) (stack : List Frame) :
    (state.set thread stack).taken other =
      if other = thread then stack.flatMap Frame.callbacks else state.taken other := by
  split
  · rename_i same
    rw [same]
    exact congrArg _ (Function.update_self ..)
  · rename_i differs
    exact congrArg _ (Function.update_of_ne differs ..)

theorem mem_threads_set {other : ι} (member : frame ∈ (state.set thread stack).threads other) :
    frame ∈ stack ∨ frame ∈ state.threads other := by
  by_cases same : other = thread
  · rw [same] at member
    exact .inl (Function.update_self thread stack state.threads ▸ member)
  · exact .inr (Function.update_of_ne same stack state.threads ▸ member)

section

variable (invariant : Invariant state)
include invariant

/-- One thread moves on. -/
theorem Invariant.set
    (taken : ∀ callback ∈ stack.flatMap Frame.callbacks, callback ∈ state.taken thread ∨
      (callback < state.count ∧ callback ∉ state.returned))
    (held : ∀ callback purpose, Frame.holding callback purpose ∈ stack → callback < state.count) :
    Invariant (state.set thread stack) := by
  refine ⟨invariant.registry, fun other callback member => ?_,
    fun other callback purpose member => ?_, fun callback returned => ?_⟩
  · rw [taken_set] at member
    split at member
    · rcases taken callback member with before | new
      · exact invariant.taken thread callback before
      · exact new.1
    · exact invariant.taken other callback member
  · rcases mem_threads_set member with new | before
    · exact held callback purpose new
    · exact invariant.held other callback purpose before
  · obtain ⟨below, unregistered, untaken⟩ := invariant.returned callback returned
    refine ⟨below, unregistered, fun other member => ?_⟩
    rw [taken_set] at member
    split at member
    · rcases taken callback member with before | new
      · exact untaken thread before
      · exact new.2 returned
    · exact untaken other member

section

variable (taken : ∀ callback ∈ stack.flatMap Frame.callbacks, callback ∈ state.taken thread)
include taken

/-- A thread moves on with what it has. -/
theorem Invariant.advance
    (held : ∀ callback purpose, Frame.holding callback purpose ∈ stack →
      Frame.holding callback purpose ∈ state.threads thread) :
    Invariant (state.set thread stack) :=
  invariant.set (fun callback member => .inl (taken callback member))
    fun callback purpose member => invariant.held thread callback purpose (held _ _ member)

theorem Invariant.onCancel
    (held : ∀ callback purpose, Frame.holding callback purpose ∈ stack → callback = state.count ∨
      Frame.holding callback purpose ∈ state.threads thread) :
    Invariant (state.onCancel thread stack) := by
  have active : state.count ∉ state.returned :=
    fun returned => Nat.lt_irrefl _ (invariant.returned _ returned).1
  have holding : ∀ callback purpose, Frame.holding callback purpose ∈ stack →
      callback < state.count + 1 := by
    intro callback purpose member
    rcases held callback purpose member with rfl | before
    · exact Nat.lt_succ_self _
    · exact Nat.lt_succ_of_lt (invariant.held thread callback purpose before)
  unfold State.onCancel
  split
  · refine @Invariant.set _ (state.name 0) thread _ (.invokeNow state.count :: stack)
      (invariant.name 0) (fun callback member => ?_) fun callback purpose member => ?_
    · rcases mem_cons.mp member with rfl | before
      · exact .inr ⟨Nat.lt_succ_self _, active⟩
      · exact .inl (taken callback before)
    · rcases mem_cons.mp member with impossible | before
      · cases impossible
      · exact holding callback purpose before
  · have positive : (if state.nextId = 0 then 1 else state.nextId) ≠ 0 := by
      split
      · decide
      · assumption
    have emplaced := (invariant.name (if state.nextId = 0 then 1 else state.nextId)).emplace positive
      (Function.update_self ..) (Nat.lt_succ_self _) active
    have moved := emplaced.set (fun callback member => .inl (taken callback member)) holding
    exact ⟨moved.registry, moved.taken, moved.held, moved.returned⟩

end

/-- A registration that is reset while no other thread has taken its callback. -/
theorem Invariant.reset {callback : Nat} (below : callback < state.count)
    (untaken : ∀ other, other ≠ thread → callback ∉ state.taken other)
    (taken : ∀ callback ∈ stack.flatMap Frame.callbacks, callback ∈ state.taken thread)
    (held : ∀ callback purpose, Frame.holding callback purpose ∈ stack →
      Frame.holding callback purpose ∈ state.threads thread) :
    Invariant (state.reset thread callback stack) := by
  have moved := invariant.advance taken held
  have registered : ∀ key other, AList.lookup key (if state.ids callback = 0 then state.callbacks
      else state.callbacks.erase (state.ids callback)) = some other →
      other ≠ callback ∧ state.callbacks.lookup key = some other := by
    intro key other found
    split at found
    · rename_i empty
      obtain ⟨positive, same, _⟩ := invariant.registry key other found
      refine ⟨fun equal => positive ?_, found⟩
      rw [← same, equal, empty]
    · by_cases same : key = state.ids callback
      · rw [same, AList.lookup_erase] at found
        cases found
      · rw [AList.lookup_erase_ne same] at found
        refine ⟨fun equal => same ?_, found⟩
        rw [← equal]
        exact (invariant.registry key other found).2.1.symm
  refine ⟨fun key other found => ?_, moved.taken, moved.held, fun other returned => ?_⟩
  · obtain ⟨differs, before⟩ := registered key other found
    obtain ⟨positive, same, belowOther⟩ := invariant.registry key other before
    exact ⟨positive, (Function.update_of_ne differs ..).trans same, belowOther⟩
  · by_cases before : other ∈ state.returned
    · obtain ⟨belowOther, unregistered, untakenOther⟩ := moved.returned other before
      exact ⟨belowOther, fun key found => unregistered key (registered key other found).2,
        untakenOther⟩
    · have fresh : other = callback ∧ callback ∉ state.taken thread := by
        unfold State.reset at returned
        dsimp only at returned
        split at returned
        · exact absurd returned before
        · rename_i apart
          rcases mem_cons.mp returned with same | old
          · exact ⟨same, apart⟩
          · exact absurd old before
      obtain ⟨rfl, apart⟩ := fresh
      refine ⟨below, fun key found => (registered key other found).1 rfl, fun third member => ?_⟩
      change other ∈ (state.set thread stack).taken third at member
      rw [taken_set] at member
      split at member
      · exact apart (taken other member)
      · rename_i differs
        exact untaken third differs member

theorem Invariant.pop (same : state.threads thread = frame :: rest) :
    Invariant (state.set thread rest) :=
  invariant.advance (taken_of_rest same) (held_of_rest same)

/-- A thread enters a frame that takes nothing. -/
theorem Invariant.push {frame : Frame} (taken : frame.callbacks = [])
    (held : ∀ callback purpose, Frame.holding callback purpose ≠ frame) :
    Invariant (state.set thread (frame :: state.threads thread)) := by
  refine invariant.advance (fun callback member => ?_) fun callback purpose member => ?_
  · rw [flatMap_cons, taken] at member
    exact member
  · exact (mem_cons.mp member).resolve_left (held callback purpose)

theorem Invariant.start : Invariant (Cancellation.next state (.start thread)) := by
  unfold Cancellation.next
  dsimp only
  split
  · rename_i callback others rest same
    refine invariant.advance (fun other member => ?_) fun other purpose member => ?_
    · rw [State.taken, same]
      exact member
    · rw [same]
      rcases mem_cons.mp member with impossible | below
      · cases impossible
      · rcases mem_cons.mp below with impossible | below
        · cases impossible
        · exact mem_cons_of_mem _ below
  · rename_i callback rest same
    refine invariant.advance (fun other member => ?_) fun other purpose member => ?_
    · rw [State.taken, same]
      exact member
    · rw [same]
      rcases mem_cons.mp member with impossible | below
      · cases impossible
      · exact mem_cons_of_mem _ below
  · exact invariant

/-- `cancel` takes what is in the registry, so nothing that has been reset. -/
theorem Invariant.swap {order : List Nat}
    (permuted : order.Perm (state.callbacks.entries.map Sigma.snd)) :
    Invariant (Cancellation.next state (.swap thread order)) := by
  unfold Cancellation.next
  dsimp only
  split
  · rename_i rest same
    have registered : ∀ callback ∈ order, ∃ id, state.callbacks.lookup id = some callback := by
      intro callback member
      obtain ⟨⟨id, found⟩, listed, rfl⟩ := mem_map.mp (permuted.mem_iff.mp member)
      exact ⟨id, AList.mem_lookup_iff.mpr listed⟩
    have moved : Invariant (state.set thread (.batch order :: rest)) := by
      refine invariant.set (fun callback member => ?_) fun callback purpose member => ?_
      · rcases mem_append.mp member with new | before
        · obtain ⟨id, found⟩ := registered callback new
          exact .inr ⟨(invariant.registry id callback found).2.2,
            fun returned => (invariant.returned callback returned).2.1 id found⟩
        · exact .inl (taken_of_rest same callback before)
      · rcases mem_cons.mp member with impossible | before
        · cases impossible
        · exact invariant.held thread callback purpose (held_of_rest same _ _ before)
    refine ⟨nofun, moved.taken, moved.held, fun callback returned => ?_⟩
    obtain ⟨below, _, untaken⟩ := moved.returned callback returned
    exact ⟨below, nofun, untaken⟩
  · exact invariant

/-- A step keeps the invariant if the registration that it resets is untaken. -/
theorem Invariant.next {event : Event ι} (enabled : Enabled state event)
    (untaken : Untaken ⟨state, event, Cancellation.next state event⟩) :
    Invariant (Cancellation.next state event) := by
  cases event with
  | onCancel thread =>
    exact invariant.onCancel (fun _ member => member) fun _ _ member => .inr member
  | reset thread callback =>
    exact invariant.reset enabled.2.1 (untaken (thread, callback) rfl) (fun _ member => member)
      fun _ _ member => member
  | enter thread purpose =>
    refine (@Invariant.onCancel ι state thread _ (.holding state.count purpose :: _) invariant
      (fun _ member => member) fun callback other member => ?_).lock purpose
    rcases mem_cons.mp member with same | before
    · cases same
      exact .inl rfl
    · exact .inr before
  | leave thread =>
    unfold Untaken resets at untaken
    unfold Cancellation.next
    dsimp only at untaken ⊢
    split
    · rename_i callback purpose rest same
      rw [same] at untaken
      refine (invariant.reset ?_ (untaken _ rfl) (taken_of_rest same)
        (held_of_rest same)).unlock purpose
      exact invariant.held thread callback purpose (same ▸ mem_cons_self)
    · exact invariant
  | execute thread connection =>
    exact (@Invariant.push ι state thread _ invariant (.executing connection) rfl nofun).lock
      (.execute connection)
  | executed thread =>
    unfold Cancellation.next
    dsimp only
    split
    · rename_i connection rest same
      exact (invariant.pop same).unlock (.execute connection)
    · exact invariant
  | exchange thread =>
    unfold Cancellation.next
    dsimp only
    split
    · exact invariant
    · have moved := @Invariant.push ι state thread _ invariant .cancelling rfl nofun
      exact ⟨moved.registry, moved.taken, moved.held, moved.returned⟩
  | swap thread order => exact invariant.swap enabled.2
  | start thread => exact invariant.start
  | finish thread | cancelled thread =>
    unfold Cancellation.next
    dsimp only
    split
    · rename_i callback rest same
      exact invariant.pop same
    · exact invariant

end

/-! ## Runs -/

/-- In every run in which registrations are reset only while no other thread has taken their
callback, no callback runs once its registration has been reset. -/
theorem callbacks_end_with_registration (events : List (Event ι))
    (enabled : EnabledFrom next Enabled State.initial events)
    (untaken : ∀ transition ∈ transitionsFrom next State.initial events, Untaken transition) :
    Quiet (runFrom next State.initial events) := by
  have invariant := enabled.preserves_where Invariant Untaken
    (fun possible allowed holds => holds.next possible allowed) untaken invariant_initial
  exact invariant.quiet

/-- Thread 0 executes a statement on connection 7 with the token, thread 1 cancels the token,
and thread 2 executes a statement of its own on the connection. -/
def lateCancel : List (Event (Fin 3)) :=
  [.enter 0 (.execute 7), .exchange 1, .swap 1 [0], .leave 0, .execute 2 7, .start 1]

/-- The callback cancels the statement of thread 2, after the call that registered it has
returned. -/
theorem callback_after_reset :
    EnabledFrom next Enabled State.initial lateCancel ∧
    (runFrom next State.initial lateCancel).returned = [0] ∧
    (runFrom next State.initial lateCancel).threads 1 = [.call 0, .batch []] ∧
    (runFrom next State.initial lateCancel).threads 2 = [.executing 7] := by
  decide

/-- Thread 0 sleeps and is woken before `cancel` takes the callback; thread 1 cancels. -/
theorem callbacks_end_with_registration_sample :
    Quiet (runFrom next (State.initial : State (Fin 3))
      [.enter 0 .retrySleep, .onCancel 2, .exchange 1, .leave 0, .swap 1 [1], .start 1, .finish 1,
        .cancelled 1]) :=
  callbacks_end_with_registration _ (by decide) (by decide)

end Gungnir.Core.Cancellation
