import Gungnir.Library.Transition
import Mathlib.Data.Fintype.Basic

/-!
# The timer scheduler

`TimerScheduler` with its fallback thread, the callers of `dispatch_due`, and the executor
that runs the resume functions. Every mutex section is one step; a notification is sent in a
step of its own, after the section, and reaches a thread only if it waits. Times are in
nanoseconds. The scheduler is not being destroyed.
-/

namespace Gungnir.Core.Timer

/-- A timer; `resume` numbers the resume functions. -/
structure Entry where
  deadline : Int
  sequence : UInt64
  resume : Nat
  deriving DecidableEq, Repr

/-- `Later`: the order of the priority queue. -/
def later (left right : Entry) : Bool :=
  if left.deadline = right.deadline then right.sequence < left.sequence
  else right.deadline < left.deadline

/-- The queue is kept as a list, its top first. -/
def push (entry : Entry) : List Entry → List Entry
  | [] => [entry]
  | top :: rest => if later top entry then entry :: top :: rest else top :: push entry rest

/-- `collect_due_locked`: what is due, and what is left. -/
def collectDue (now : Int) : List Entry → List Entry × List Entry
  | [] => ([], [])
  | top :: rest =>
    if top.deadline ≤ now then (top :: (collectDue now rest).1, (collectDue now rest).2)
    else ([], top :: rest)

/-- Where the fallback thread stands. -/
inductive Phase where
  /-- At the head of its loop. -/
  | check
  | pumpWait
  | emptyWait
  | deadlineWait (deadline : Int)
  | dispatching (rest : List Entry)
  deriving DecidableEq, Repr

def Phase.waits : Phase → Bool
  | pumpWait | emptyWait | deadlineWait _ => true
  | check | dispatching _ => false

def Phase.batch : Phase → List Entry
  | dispatching rest => rest
  | check | pumpWait | emptyWait | deadlineWait _ => []

/-- Where a worker of the executor stands. -/
inductive Worker where
  | check
  | waiting (notified : Bool)
  | running (entry : Entry)
  deriving DecidableEq, Repr

structure State (ω : Type) where
  now : Int
  timers : List Entry
  sequence : UInt64
  nextPumpToken : UInt64
  pumpToken : UInt64
  fallback : Phase
  /-- The fallback thread has been notified since it waits. -/
  notified : Bool
  /-- The notifications of the fallback thread that are still to be sent. -/
  notifies : Nat
  /-- What the calls of `dispatch_due` still have to dispatch. -/
  batches : List (List Entry)
  /-- `Executor::queue_`. -/
  queue : List Entry
  /-- The notifications of the workers that are still to be sent. -/
  posted : Nat
  workers : ω → Worker
  scheduled : List Entry
  /-- Every resume function that has been started, with the time. -/
  ran : List (Entry × Int)

inductive Event (ω : Type) where
  | tick (time : Int)
  /-- `schedule`, with a duration in milliseconds. -/
  | schedule (duration : Int)
  | attach
  | detach (token : UInt64)
  | dispatchDue
  | notify
  /-- One round of `dispatch` in a call of `dispatch_due`; `refused` if `post` throws for
  another reason than a full queue. -/
  | post (call : Nat) (refused : Bool)
  /-- The fallback thread gets the mutex. -/
  | fallback
  | spurious
  | fallbackPost (refused : Bool)
  | fallbackDone
  | postNotify (worker : Option ω)
  | worker (worker : ω)
  | workerSpurious (worker : ω)
  | workerDone (worker : ω)
  deriving DecidableEq, Repr

namespace State

variable {ω : Type}

def initial : State ω :=
  ⟨0, [], 0, 1, 0, .check, false, 0, [], [], 0, fun _ => .check, [], []⟩

def schedule (state : State ω) (duration : Int) : State ω :=
  let entry : Entry :=
    ⟨state.now + duration * 1000000, state.sequence, state.scheduled.length⟩
  { state with
    timers := push entry state.timers
    sequence := state.sequence + 1
    notifies := if state.pumpToken = 0 then state.notifies + 1 else state.notifies
    scheduled := entry :: state.scheduled }

/-- A second pump is refused. -/
def attach (state : State ω) : State ω :=
  if state.pumpToken ≠ 0 then state
  else
    let token := if state.nextPumpToken = 0 then 1 else state.nextPumpToken
    { state with
      pumpToken := token
      nextPumpToken := token + 1
      notifies := state.notifies + 1 }

def detach (state : State ω) (token : UInt64) : State ω :=
  if token = 0 then state
  else if state.pumpToken = token then
    { state with pumpToken := 0, notifies := state.notifies + 1 }
  else state

def dispatchDue (state : State ω) : State ω :=
  if state.pumpToken = 0 then state
  else
    { state with
      timers := (collectDue state.now state.timers).2
      batches := state.batches ++ [(collectDue state.now state.timers).1] }

/-- `notify_one` and `notify_all`: only the fallback thread waits. -/
def notify (state : State ω) : State ω :=
  { state with
    notifies := state.notifies - 1
    notified := state.fallback.waits || state.notified }

/-- One round of `dispatch`: a resume function that cannot be posted runs at once. -/
def dispatchOne (capacity : Nat) (state : State ω) (entry : Entry) (refused : Bool) : State ω :=
  if refused || decide (capacity ≤ state.queue.length) then
    { state with ran := (entry, state.now) :: state.ran }
  else { state with queue := state.queue ++ [entry], posted := state.posted + 1 }

/-- The loop of `run_fallback`, from its head to the next wait or to `dispatch`. -/
def loop (state : State ω) : State ω :=
  if state.pumpToken ≠ 0 then { state with fallback := .pumpWait, notified := false }
  else
    match state.timers with
    | [] => { state with fallback := .emptyWait, notified := false }
    | top :: _ =>
      if state.now < top.deadline then
        { state with fallback := .deadlineWait top.deadline, notified := false }
      else
        { state with
          fallback := .dispatching (collectDue state.now state.timers).1
          timers := (collectDue state.now state.timers).2
          notified := false }

/-- The fallback thread has the mutex again: a wait checks its predicate first. -/
def wake (state : State ω) : State ω :=
  match state.fallback with
  | .check | .deadlineWait _ => state.loop
  | .pumpWait =>
    if state.pumpToken = 0 then state.loop else { state with notified := false }
  | .emptyWait =>
    if state.pumpToken ≠ 0 || !state.timers.isEmpty then state.loop
    else { state with notified := false }
  | .dispatching _ => state

variable [DecidableEq ω]

def setWorker (state : State ω) (worker : ω) (phase : Worker) : State ω :=
  { state with workers := Function.update state.workers worker phase }

/-- `worker_loop`, up to the next wait or the start of a resume function. -/
def work (state : State ω) (worker : ω) : State ω :=
  match state.queue with
  | [] => state.setWorker worker (.waiting false)
  | entry :: rest =>
    { state.setWorker worker (.running entry) with
      queue := rest
      ran := (entry, state.now) :: state.ran }

end State

variable {ω : Type} [DecidableEq ω] (capacity : Nat) (state : State ω)

def next : Event ω → State ω
  | .tick time => { state with now := time }
  | .schedule duration => state.schedule duration
  | .attach => state.attach
  | .detach token => state.detach token
  | .dispatchDue => state.dispatchDue
  | .notify => state.notify
  | .post call refused =>
    match state.batches[call]? with
    | some (entry :: rest) =>
      { state.dispatchOne capacity entry refused with batches := state.batches.set call rest }
    | _ => state
  | .fallback | .spurious => state.wake
  | .fallbackPost refused =>
    match state.fallback with
    | .dispatching (entry :: rest) =>
      { state.dispatchOne capacity entry refused with fallback := .dispatching rest }
    | _ => state
  | .fallbackDone => { state with fallback := .check }
  | .postNotify none => { state with posted := state.posted - 1 }
  | .postNotify (some worker) =>
    { state.setWorker worker (.waiting true) with posted := state.posted - 1 }
  | .worker worker | .workerSpurious worker => state.work worker
  | .workerDone worker => state.setWorker worker .check

/-- The fallback thread may go on: it has been notified, or its time-out is over. -/
def State.woken : Bool :=
  match state.fallback with
  | .check => true
  | .pumpWait | .emptyWait => state.notified
  | .deadlineWait deadline => state.notified || decide (deadline ≤ state.now)
  | .dispatching _ => false

def Enabled : Event ω → Prop
  | .tick time => state.now ≤ time
  | .schedule _ | .attach | .detach _ | .dispatchDue => True
  | .notify => 0 < state.notifies
  | .post call _ => (state.batches[call]?).any (fun batch => !batch.isEmpty) = true
  | .fallback => state.woken = true
  | .spurious => state.fallback.waits = true
  | .fallbackPost _ => state.fallback.batch ≠ []
  | .fallbackDone => state.fallback = .dispatching []
  | .postNotify none => 0 < state.posted ∧ ∀ worker, state.workers worker ≠ .waiting false
  | .postNotify (some worker) => 0 < state.posted ∧ state.workers worker = .waiting false
  | .worker worker => state.workers worker = .check ∨ state.workers worker = .waiting true
  | .workerSpurious worker => state.workers worker = .waiting false
  | .workerDone worker => ∃ entry, state.workers worker = .running entry

instance Enabled.decidable [Fintype ω] (state : State ω) :
    (event : Event ω) → Decidable (Enabled state event)
  | .tick _ => inferInstanceAs (Decidable (_ ≤ _))
  | .notify => inferInstanceAs (Decidable (_ < _))
  | .schedule _ | .attach | .detach _ | .dispatchDue => isTrue trivial
  | .post _ _ | .fallback | .spurious => inferInstanceAs (Decidable (_ = true))
  | .fallbackPost _ => inferInstanceAs (Decidable (_ ≠ _))
  | .fallbackDone | .workerSpurious _ => inferInstanceAs (Decidable (_ = _))
  | .postNotify none => inferInstanceAs (Decidable (_ ∧ ∀ _, _))
  | .postNotify (some _) => inferInstanceAs (Decidable (_ ∧ _))
  | .worker _ => inferInstanceAs (Decidable (_ ∨ _))
  | .workerDone worker =>
    match phase : state.workers worker with
    | .running entry => isTrue ⟨entry, phase⟩
    | .check | .waiting _ => isFalse fun ⟨_, running⟩ => nomatch phase.symm.trans running

/-- The steps that the scheduler and its executor take by themselves, and the call of
`dispatch_due` that the attached pump makes when a timer is due. -/
def Internal : Event ω → Prop
  | .tick _ | .schedule _ | .attach | .detach _ | .spurious | .workerSpurious _ => False
  | .dispatchDue => state.pumpToken ≠ 0 ∧ ∃ top ∈ state.timers.head?, top.deadline ≤ state.now
  | _ => True

end Gungnir.Core.Timer
