import Gungnir.Scheduler.Execution
import Gungnir.Scheduler.LockStore

/-!
# Tasks on one server

Any number of schedulers share a lock store. The action of a task that is to run on one
server is started only by a scheduler to which the lock of the occurrence has been granted, and
nobody releases that lock. So as long as the store keeps its promise, an occurrence
is executed once until the lock has expired.
-/

namespace Gungnir.Scheduler

open Gungnir.Core Gungnir.Library Interaction List

/-! ## What precedes a call -/

def granted (key : Bytes) (ttl : Int) (lease : LockLease) : Exchange :=
  ⟨.acquire key ttl, (.ok (some lease) : Except Exception (Option LockLease))⟩

/-- An action on one server comes after the grant of its occurrence, with no action in between, and
a lock that is released is an overlap lock. -/
structure Careful (trace : List Exchange) (request : Request) : Prop where
  act : ∀ task now, request = .act task now → task.oneServer = true →
    ∃ slot early lease late, task.slot now = .ok slot ∧ acts late = [] ∧
      trace = early ++ granted (Task.occurrenceKey task.name slot) task.oneServerTtl lease :: late
  release : ∀ lease, request = .release lease →
    ∃ task : Task, granted task.overlapLockKey task.overlapTtl lease ∈ trace

variable {trace : List Exchange}

theorem Careful.append {request : Request} (early : List Exchange)
    (careful : Careful trace request) : Careful (early ++ trace) request where
  act := by
    intro task now same oneServer
    obtain ⟨slot, before, lease, late, found, silent, rfl⟩ := careful.act task now same oneServer
    exact ⟨slot, early ++ before, lease, late, found, silent, (append_assoc _ _ _).symm⟩
  release := by
    intro lease same
    obtain ⟨task, member⟩ := careful.release lease same
    exact ⟨task, mem_append_right _ member⟩

/-- Nothing is asked of the other calls. -/
theorem careful_acquire (trace : List Exchange) (key : Bytes) (ttl : Int) :
    Careful trace (.acquire key ttl) :=
  ⟨fun _ _ => Request.noConfusion, fun _ => Request.noConfusion⟩

variable {lease : LockLease}

theorem careful_release {task : Task}
    (member : granted task.overlapLockKey task.overlapTtl lease ∈ trace) :
    Careful trace (.release lease) where
  act := fun _ _ same => Request.noConfusion same
  release := by
    intro other same
    rw [← Request.release.inj same]
    exact ⟨task, member⟩

theorem careful_act {task : Task} {now : TimePoint}
    (preceded : task.oneServer = true →
      ∃ slot early lease late, task.slot now = .ok slot ∧ acts late = [] ∧ trace = early ++
        granted (Task.occurrenceKey task.name slot) task.oneServerTtl lease :: late) :
    Careful trace (.act task now) where
  act := by
    intro other instant same
    obtain ⟨rfl, rfl⟩ := Request.act.inj same
    exact preceded
  release := fun _ same => Request.noConfusion same

namespace Task

variable {task : Task} {now : TimePoint} {local_ : LocalDateTime} {trace : List Exchange}
  {request : Request} {next : request.Reply → Program (Except Exception Bool × Task)}

theorem releaseThen_call {lease : Option LockLease} {result : Except Exception Bool}
    (reaches : Reaches (releaseThen lease result task) trace (.call request next)) :
    ∃ own, lease = some own ∧ request = .release own := by
  cases lease with
  | none => cases reaches
  | some own =>
    rcases Reaches.call_cases reaches with ⟨_, same⟩ | ⟨reply, rest, _, behind⟩
    · cases same
      exact ⟨own, rfl, rfl⟩
    · match reply with
      | .ok _ | .error _ => cases behind

section

variable (converts : task.Converts now local_)
include converts

theorem runLocked_call {lease : Option LockLease}
    (reaches : Reaches ((runLocked lease now).run.run task) trace (.call request next)) :
    trace = [] ∧ request = .act task now ∨ ∃ own, lease = some own ∧ request = .release own := by
  rw [runLocked_eq converts] at reaches
  rcases Reaches.call_cases reaches with ⟨rfl, same⟩ | ⟨reply, rest, _, behind⟩
  · cases same
    exact .inl ⟨rfl, rfl⟩
  · match reply with
    | .ok () | .error _ => exact .inr (releaseThen_call behind)

/-- The calls behind the occurrence lock. -/
theorem overlapProgram_call
    (reaches : Reaches (overlapProgram task now local_) trace (.call request next)) :
    (∃ key ttl, request = .acquire key ttl) ∨ request = .act task now ∧ acts trace = [] ∨
      ∃ lease, request = .release lease ∧
        granted task.overlapLockKey task.overlapTtl lease ∈ trace := by
  unfold overlapProgram at reaches
  split at reaches
  · rcases Reaches.call_cases reaches with ⟨_, same⟩ | ⟨reply, rest, rfl, behind⟩
    · cases same
      exact .inl ⟨_, _, rfl⟩
    · match reply with
      | .error _ | .ok none => cases behind
      | .ok (some lease) =>
        rcases runLocked_call converts behind with ⟨rfl, same⟩ | ⟨own, equal, same⟩
        · exact .inr (.inl ⟨same, rfl⟩)
        · cases equal
          exact .inr (.inr ⟨lease, same, mem_cons_self⟩)
  · rcases runLocked_call converts reaches with ⟨rfl, same⟩ | ⟨own, equal, _⟩
    · exact .inr (.inl ⟨same, rfl⟩)
    · cases equal

theorem execute_careful {slot : Slot} (found : task.slot now = .ok slot) {locks : Bool}
    (reaches : Reaches ((execute now locks).run.run task) trace (.call request next)) :
    Careful trace request := by
  rw [execute_eq converts found] at reaches
  split at reaches
  · rename_i plain
    rcases runLocked_call converts reaches with ⟨rfl, rfl⟩ | ⟨own, equal, _⟩
    · refine careful_act fun oneServer => ?_
      rw [oneServer, Bool.not_true, Bool.and_false] at plain
      cases plain
    · cases equal
  · split at reaches
    · cases reaches
    · split at reaches
      · rcases Reaches.call_cases reaches with ⟨_, same⟩ | ⟨reply, rest, rfl, behind⟩
        · cases same
          exact careful_acquire _ _ _
        · match reply with
          | .error _ | .ok none => cases behind
          | .ok (some lease) =>
            rcases overlapProgram_call converts behind with
              ⟨key, ttl, rfl⟩ | ⟨rfl, silent⟩ | ⟨own, rfl, member⟩
            · exact careful_acquire _ _ _
            · exact careful_act fun _ => ⟨slot, [], lease, rest, found, silent, rfl⟩
            · exact careful_release (mem_cons_of_mem _ member)
      · rename_i several
        rcases overlapProgram_call converts reaches with
          ⟨key, ttl, rfl⟩ | ⟨rfl, _⟩ | ⟨own, rfl, member⟩
        · exact careful_acquire _ _ _
        · exact careful_act fun oneServer => absurd oneServer several
        · exact careful_release member

end

end Task

/-- A run of a scheduler up to one of its calls. -/
theorem runDueUntil_careful {locks : Bool} {now : TimePoint} {tasks : List Task} {request : Request}
    {next : request.Reply → Program (Except Exception Nat × List Task)}
    (reaches : Reaches (runDueUntil locks now tasks) trace (.call request next)) :
    Careful trace request := by
  induction tasks generalizing trace request next with
  | nil => cases reaches
  | cons task rest ih =>
    rcases Reaches.call_cases reaches with ⟨_, same⟩ | ⟨stopping, trace, rfl, behind⟩
    · cases same
      exact ⟨fun _ _ => Request.noConfusion, fun _ => Request.noConfusion⟩
    · clear reaches
      refine Careful.append [⟨.stopping, stopping⟩] ?_
      change Bool at stopping
      cases stopping with
      | true => cases behind
      | false =>
        simp only [Interaction.bind, Bool.false_eq_true, if_false] at behind
        cases isDue : task.due now with
        | error raised =>
          rw [isDue] at behind
          cases behind
        | ok due =>
          cases due with
          | false =>
            rw [isDue] at behind
            rcases Reaches.bind_call behind with
              ⟨own, reached⟩ | ⟨early, late, ⟨count, others⟩, _, _, last⟩
            · exact ih reached
            · cases last
          | true =>
            rw [isDue] at behind
            obtain ⟨local_, slot, converts, found⟩ := Task.due_converts isDue
            rcases Reaches.bind_call behind with
              ⟨own, reached⟩ | ⟨early, late, ⟨outcome, middle⟩, rfl, _, last⟩
            · exact Task.execute_careful converts found reached
            · refine Careful.append early ?_
              cases outcome with
              | error raised => cases last
              | ok executed =>
                rcases Reaches.bind_call last with
                  ⟨own, reached⟩ | ⟨one, two, ⟨count, others⟩, _, _, ending⟩
                · exact ih reached
                · cases ending

/-! ## Schedulers on their hosts -/

structure Host where
  tasks : List Task
  locks : Bool
  running : Option (Program (Except Exception Nat × List Task))

inductive Move where
  | begin (now : TimePoint)
  | exchange (exchange : Exchange)
  | finish

/-- Something that happens on a host, at a time of the lock store. -/
structure Event (ι : Type) where
  time : Int
  host : ι
  move : Move

variable {ι : Type}

/-- The event starts the action of a task on one server, for the given slot. -/
def Event.executes (name : Bytes) (slot : Task.Slot) (event : Event ι) : Bool :=
  match event.move with
  | .exchange ⟨.act task now, _⟩ =>
    task.oneServer && decide (task.name = name) && decide ((task.slot now).toOption = some slot)
  | _ => false

def Event.Grants (name : Bytes) (slot : Task.Slot) (ttl : Int) (event : Event ι) : Prop :=
  ∃ lease, event.move = .exchange (granted (Task.occurrenceKey name slot) ttl lease)

variable {name : Bytes} {slot : Task.Slot} {event : Event ι}

theorem Event.executes_act (executes : event.executes name slot = true) :
    ∃ task now reply, event.move = .exchange ⟨.act task now, reply⟩ ∧ task.oneServer = true ∧
      task.name = name ∧ task.slot now = .ok slot := by
  unfold Event.executes at executes
  split at executes
  · rename_i task now reply moved
    rw [Bool.and_eq_true_iff, Bool.and_eq_true_iff, decide_eq_true_iff, decide_eq_true_iff] at executes
    obtain ⟨⟨oneServer, named⟩, found⟩ := executes
    refine ⟨task, now, reply, moved, oneServer, named, ?_⟩
    cases converted : task.slot now with
    | error raised =>
      rw [converted] at found
      cases found
    | ok other =>
      rw [converted] at found
      cases found
      rfl
  · cases executes

/-! ## What a lock store promises -/

/-- The events come in the order of their times. -/
def InOrder (events : List (Event ι)) : Prop :=
  events.Pairwise fun first second => first.time ≤ second.time

/-- A lock store that guarantees mutual exclusion: a lock is granted again before it has expired
only if its lease has been released. -/
structure Excludes (events : List (Event ι)) : Prop where
  keyed : ∀ event ∈ events, ∀ key ttl lease, event.move = .exchange (granted key ttl lease) →
    lease.key = key
  exclusive : ∀ early first middle second late key ttl lease ttl' lease',
    events = early ++ first :: (middle ++ second :: late) →
    first.move = .exchange (granted key ttl lease) →
    second.move = .exchange (granted key ttl' lease') →
    second.time < first.time + nanoseconds ttl →
    ∃ event ∈ middle, ∃ reply, event.move = .exchange ⟨.release lease, reply⟩

/-- A memory store answers the calls of all hosts. -/
def MemoryLockStore.Serves : MemoryLockStore → List (Event ι) → Prop
  | _, [] => True
  | store, event :: rest =>
    match event.move with
    | .exchange ⟨.acquire key ttl, reply⟩ =>
      reply = (store.acquire event.time key ttl).1 ∧
        Serves (store.acquire event.time key ttl).2 rest
    | .exchange ⟨.release lease, reply⟩ =>
      reply = .ok (store.release event.time lease).1 ∧
        Serves (store.release event.time lease).2 rest
    | _ => Serves store rest

namespace MemoryLockStore

variable {store : MemoryLockStore} {rest : List (Event ι)} {event : Event ι}

theorem Serves.tail (serves : store.Serves (event :: rest)) :
    ∃ after : MemoryLockStore, after.Serves rest := by
  unfold Serves at serves
  split at serves
  · exact ⟨_, serves.2⟩
  · exact ⟨_, serves.2⟩
  · exact ⟨_, serves⟩

theorem Serves.later {early late : List (Event ι)} (serves : store.Serves (early ++ late)) :
    ∃ after : MemoryLockStore, after.Serves late := by
  induction early generalizing store with
  | nil => exact ⟨store, serves⟩
  | cons event rest ih =>
    obtain ⟨after, others⟩ := serves.tail
    exact ih others

theorem Serves.grant {key : Bytes} {ttl : Int} (serves : store.Serves (event :: rest))
    (called : event.move = .exchange (granted key ttl lease)) :
    ∃ after : MemoryLockStore, store.acquire event.time key ttl = (.ok (some lease), after) ∧
      after.Serves rest := by
  unfold Serves at serves
  rw [called] at serves
  exact ⟨_, Prod.ext serves.1.symm rfl, serves.2⟩

/-- A lock stays while its time has not come and its lease is not released. -/
theorem Serves.held {middle late : List (Event ι)} {key : Bytes} {entry : LockEntry}
    (serves : store.Serves (middle ++ late)) (found : store.locks.lookup key = some entry)
    (early : ∀ event ∈ middle, event.time < entry.expiresAt)
    (kept : ∀ event ∈ middle, ∀ reply,
      event.move ≠ .exchange ⟨.release ⟨key, entry.owner⟩, reply⟩) :
    ∃ after : MemoryLockStore, after.Serves late ∧ after.locks.lookup key = some entry := by
  induction middle generalizing store with
  | nil => exact ⟨store, serves, found⟩
  | cons event rest ih =>
    have earlyRest := fun other member => early other (mem_cons_of_mem event member)
    have keptRest := fun other member => kept other (mem_cons_of_mem event member)
    rw [cons_append] at serves
    unfold Serves at serves
    split at serves
    · exact ih serves.2
        (acquire_locked found (early event mem_cons_self) rfl).1 earlyRest keptRest
    · rename_i lease reply released
      have other : lease ≠ ⟨key, entry.owner⟩ := by
        rintro rfl
        exact kept event mem_cons_self reply released
      exact ih serves.2 (release_locked found other rfl) earlyRest keptRest
    · exact ih serves found earlyRest keptRest

theorem Serves.excludes {events : List (Event ι)} (serves : store.Serves events)
    (ordered : InOrder events) : Excludes events where
  keyed := by
    intro event member key ttl lease called
    obtain ⟨early, late, rfl⟩ := append_of_mem member
    obtain ⟨_, from_⟩ := serves.later
    obtain ⟨_, acquired, _⟩ := from_.grant called
    exact (acquire_granted acquired).1
  exclusive := by
    rintro early first middle second late key ttl lease ttl' lease' rfl one two soon
    by_contra kept
    push Not at kept
    obtain ⟨_, from_⟩ := serves.later
    obtain ⟨after, acquired, others⟩ := from_.grant one
    obtain ⟨keyed, found⟩ := acquire_granted acquired
    have whole := (pairwise_cons.mp (pairwise_append.mp ordered).2.1).2
    obtain ⟨last, still, held⟩ := others.held found
      (fun event member => Int.lt_of_le_of_lt
        ((pairwise_append.mp whole).2.2 event member second mem_cons_self) soon)
      (fun event member reply => by
        rw [← keyed]
        exact kept event member reply)
    obtain ⟨_, again, _⟩ := still.grant two
    exact (acquire_locked held soon again).2 rfl lease' rfl

end MemoryLockStore

/-! ## Interleavings -/

variable [DecidableEq ι]

inductive Step : (ι → Host) → Event ι → (ι → Host) → Prop where
  | begin {hosts : ι → Host} {host : ι} (time : Int) (now : TimePoint)
      (idle : (hosts host).running = none) :
      Step hosts ⟨time, host, .begin now⟩ (Function.update hosts host { hosts host with
        running := some (runDueUntil (hosts host).locks now (hosts host).tasks) })
  | exchange {hosts : ι → Host} {host : ι} {request : Request}
      {next : request.Reply → Program (Except Exception Nat × List Task)} (time : Int)
      (reply : request.Reply) (calling : (hosts host).running = some (.call request next)) :
      Step hosts ⟨time, host, .exchange ⟨request, reply⟩⟩
        (Function.update hosts host { hosts host with running := some (next reply) })
  | finish {hosts : ι → Host} {host : ι} {result : Except Exception Nat} {tasks : List Task}
      (time : Int) (ended : (hosts host).running = some (.done (result, tasks))) :
      Step hosts ⟨time, host, .finish⟩
        (Function.update hosts host { hosts host with tasks := tasks, running := none })

theorem Step.others {hosts after : ι → Host} {event : Event ι} (step : Step hosts event after)
    {host : ι} (other : host ≠ event.host) : after host = hosts host := by
  cases step <;> exact Function.update_of_ne other ..

/-- The runs of the hosts in any order of their steps. -/
inductive Interleaving : (ι → Host) → List (Event ι) → (ι → Host) → Prop where
  | nil (hosts : ι → Host) : Interleaving hosts [] hosts
  | cons {first middle last : ι → Host} {event : Event ι} {rest : List (Event ι)}
      (step : Step first event middle) (others : Interleaving middle rest last) :
      Interleaving first (event :: rest) last

/-- The calls of the run that a host is in. -/
def current (host : ι) (events : List (Event ι)) : List Exchange :=
  events.foldl (fun trace event =>
    if event.host = host then
      match event.move with
      | .begin _ => []
      | .exchange exchange => trace ++ [exchange]
      | .finish => []
    else trace) []

theorem current_snoc (host : ι) (events : List (Event ι)) (event : Event ι) :
    current host (events ++ [event]) =
      if event.host = host then
        match event.move with
        | .begin _ => []
        | .exchange exchange => current host events ++ [exchange]
        | .finish => []
      else current host events :=
  foldl_concat ..

/-- Every program that runs has come from the beginning of its run. -/
def Underway (events : List (Event ι)) (hosts : ι → Host) : Prop :=
  ∀ host program, (hosts host).running = some program →
    ∃ locks now tasks, Reaches (runDueUntil locks now tasks) (current host events) program

variable {events : List (Event ι)}

theorem Underway.step {hosts after : ι → Host} (underway : Underway events hosts)
    (step : Step hosts event after) : Underway (events ++ [event]) after := by
  intro host program running
  rw [current_snoc]
  by_cases own : event.host = host
  · rw [if_pos own]
    cases step with
    | @begin moved time now idle =>
      subst own
      rw [Function.update_self] at running
      cases running
      exact ⟨_, _, _, .here _⟩
    | @exchange moved request next time reply calling =>
      subst own
      rw [Function.update_self] at running
      cases running
      obtain ⟨locks, now, tasks, reaches⟩ := underway _ _ calling
      exact ⟨locks, now, tasks, reaches.append (.step reply (.here _))⟩
    | @finish moved result tasks time ended =>
      subst own
      rw [Function.update_self] at running
      cases running
  · rw [if_neg own]
    rw [step.others (Ne.symm own)] at running
    exact underway host program running

/-- Every call is preceded by what it needs on its own host. -/
def CarefulEvents (events : List (Event ι)) : Prop :=
  ∀ early event late request reply, events = early ++ event :: late →
    event.move = .exchange ⟨request, reply⟩ → Careful (current event.host early) request

theorem Interleaving.careful {start last : ι → Host} {past events : List (Event ι)}
    (interleaving : Interleaving start events last) (underway : Underway past start)
    {early late : List (Event ι)} {event : Event ι} {request : Request} {reply : request.Reply}
    (cut : events = early ++ event :: late) (called : event.move = .exchange ⟨request, reply⟩) :
    Careful (current event.host (past ++ early)) request := by
  induction interleaving generalizing past early with
  | nil => exact absurd cut.symm (append_ne_nil_of_right_ne_nil _ (cons_ne_nil _ _))
  | @cons first middle last head rest step others ih =>
    cases early with
    | nil =>
      obtain ⟨rfl, rfl⟩ := cons.inj cut
      rw [append_nil]
      cases step with
      | begin time now idle => cases called
      | finish time ended => cases called
      | @exchange host request next time reply calling =>
        cases called
        obtain ⟨locks, now, tasks, reaches⟩ := underway host _ calling
        exact runDueUntil_careful reaches
    | cons other early =>
      obtain ⟨rfl, tail⟩ := cons.inj cut
      have careful := ih (underway.step step) tail
      rw [append_assoc] at careful
      exact careful

theorem carefulEvents {start last : ι → Host} (interleaving : Interleaving start events last)
    (idle : ∀ host, (start host).running = none) : CarefulEvents events := by
  intro early event late request reply cut called
  refine @Interleaving.careful _ _ _ _ [] _ interleaving ?_ early late event request reply cut called
  intro host program running
  rw [idle host] at running
  cases running

/-! ## Grants -/

/-- A call in the run of a host is an event, and so are the calls behind it. -/
theorem current_split {host : ι} {early late : List Exchange} {exchange : Exchange}
    (cut : current host events = early ++ exchange :: late) :
    ∃ before event after, events = before ++ event :: after ∧ event.host = host ∧
      event.move = .exchange exchange ∧
      ∀ other ∈ after, other.host = host → ∃ later ∈ late, other.move = .exchange later := by
  induction events using reverseRecOn generalizing late with
  | nil => exact absurd cut.symm (append_ne_nil_of_right_ne_nil _ (cons_ne_nil _ _))
  | append_singleton events last ih =>
    rw [current_snoc] at cut
    by_cases same : last.host = host
    · rw [if_pos same] at cut
      cases moved : last.move with
      | begin now | finish =>
        rw [moved] at cut
        exact absurd cut.symm (append_ne_nil_of_right_ne_nil _ (cons_ne_nil _ _))
      | exchange newest =>
        rw [moved] at cut
        cases late using reverseRecOn with
        | nil =>
          obtain ⟨_, equal⟩ := append_inj' cut rfl
          cases equal
          exact ⟨events, last, [], rfl, same, moved, forall_mem_nil _⟩
        | append_singleton late final =>
          rw [← cons_append, ← append_assoc] at cut
          obtain ⟨shorter, equal⟩ := append_inj' cut rfl
          cases equal
          obtain ⟨before, event, after, rfl, own, called, behind⟩ := ih shorter
          refine ⟨before, event, after ++ [last], ?_, own, called, fun other member here => ?_⟩
          · rw [append_assoc, cons_append]
          · rcases mem_append.mp member with inside | added
            · obtain ⟨later, listed, moves⟩ := behind other inside here
              exact ⟨later, mem_append_left _ listed, moves⟩
            · rw [mem_singleton.mp added]
              exact ⟨newest, mem_append_right _ mem_cons_self, moved⟩
    · rw [if_neg same] at cut
      obtain ⟨before, event, after, rfl, own, called, behind⟩ := ih cut
      refine ⟨before, event, after ++ [last], ?_, own, called, fun other member here => ?_⟩
      · rw [append_assoc, cons_append]
      · rcases mem_append.mp member with inside | added
        · exact behind other inside here
        · rw [mem_singleton.mp added] at here
          exact absurd here same

theorem mem_current {host : ι} {exchange : Exchange} (member : exchange ∈ current host events) :
    ∃ event ∈ events, event.move = .exchange exchange := by
  obtain ⟨early, late, cut⟩ := append_of_mem member
  obtain ⟨before, event, after, rfl, _, called, _⟩ := current_split cut
  exact ⟨event, mem_append_right _ mem_cons_self, called⟩

/-- Nobody releases the lock of an occurrence. -/
theorem release_key (careful : CarefulEvents events) (store : Excludes events)
    (member : event ∈ events) {reply : (Request.release lease).Reply}
    (released : event.move = .exchange ⟨.release lease, reply⟩) (name : Bytes) (slot : Task.Slot) :
    lease.key ≠ Task.occurrenceKey name slot := by
  obtain ⟨early, late, rfl⟩ := append_of_mem member
  obtain ⟨task, listed⟩ := (careful early event late _ reply rfl released).release lease rfl
  obtain ⟨grant, there, called⟩ := mem_current listed
  have key := store.keyed grant (mem_append_left _ there) _ _ _ called
  rw [key]
  exact (Task.occurrenceKey_ne_overlap name task.name slot).symm

variable {early late middle : List (Event ι)} {first second : Event ι}

/-- Grants of one occurrence are as far apart as the first of them lasts. -/
theorem grants_apart (careful : CarefulEvents events) (store : Excludes events) {ttl ttl' : Int}
    {lease lease' : LockLease} (cut : events = early ++ first :: (middle ++ second :: late))
    (one : first.move = .exchange (granted (Task.occurrenceKey name slot) ttl lease))
    (two : second.move = .exchange (granted (Task.occurrenceKey name slot) ttl' lease')) :
    first.time + nanoseconds ttl ≤ second.time := by
  by_contra overlapping
  obtain ⟨event, inside, reply, released⟩ := store.exclusive early first middle second late _ ttl
    lease ttl' lease' cut one two (Int.not_le.mp overlapping)
  have firstIn : first ∈ events := by
    rw [cut]
    exact mem_append_right _ mem_cons_self
  have eventIn : event ∈ events := by
    rw [cut]
    exact mem_append_right _ (mem_cons_of_mem _ (mem_append_left _ inside))
  exact release_key careful store eventIn released name slot
    (store.keyed first firstIn _ ttl lease one)

/-! ## Executions -/

/-- The action starts on a host to which the lock has been granted since its last action. -/
theorem execution_granted (careful : CarefulEvents events) (cut : events = early ++ event :: late)
    (executes : event.executes name slot = true) :
    ∃ before grant after ttl, early = before ++ grant :: after ∧ grant.host = event.host ∧
      grant.Grants name slot ttl ∧
      ∀ other ∈ after, other.host = event.host → other.executes name slot = false := by
  obtain ⟨task, now, reply, moved, oneServer, rfl, found⟩ := event.executes_act executes
  obtain ⟨other, past, lease, rest, again, silent, trace⟩ :=
    (careful early event late _ reply cut moved).act task now rfl oneServer
  cases found.symm.trans again
  obtain ⟨before, grant, after, rfl, here, called, behind⟩ := current_split trace
  refine ⟨before, grant, after, _, rfl, here, ⟨lease, called⟩, fun later member same => ?_⟩
  obtain ⟨exchange, listed, moves⟩ := behind later member same
  by_contra starts
  obtain ⟨other, instant, answer, acted, _⟩ :=
    later.executes_act (Bool.of_not_eq_false starts)
  cases moves.symm.trans acted
  have quiet := filterMap_eq_nil_iff.mp silent _ listed
  cases quiet

theorem two_places {α : Type} {first second firstRest secondRest : List α} {one two : α}
    (same : first ++ one :: firstRest = second ++ two :: secondRest) :
    (first = second ∧ one = two) ∨ (∃ middle, second = first ++ one :: middle) ∨
      ∃ middle, first = second ++ two :: middle := by
  rcases append_eq_append_iff.mp same with ⟨middle, longer, rest⟩ | ⟨middle, longer, rest⟩
  · cases middle with
    | nil => exact .inl ⟨(append_nil first ▸ longer).symm, (cons.inj rest).1⟩
    | cons head tail =>
      obtain ⟨rfl, _⟩ := cons.inj rest
      exact .inr (.inl ⟨tail, longer⟩)
  · cases middle with
    | nil => exact .inl ⟨append_nil second ▸ longer, (cons.inj rest).1.symm⟩
    | cons head tail =>
      obtain ⟨rfl, _⟩ := cons.inj rest
      exact .inr (.inr ⟨tail, longer⟩)

theorem two_grants (careful : CarefulEvents events)
    (cut : events = early ++ first :: (middle ++ second :: late))
    (one : first.executes name slot = true) (two : second.executes name slot = true) :
    ∃ before inner after earlier later ttl ttl',
      early ++ first :: middle = before ++ earlier :: (inner ++ later :: after) ∧
        earlier.Grants name slot ttl ∧ later.Grants name slot ttl' := by
  obtain ⟨firstBefore, firstGrant, firstAfter, ttl, rfl, firstHost, firstGrants, _⟩ :=
    execution_granted careful cut one
  have again : events = (firstBefore ++ firstGrant :: firstAfter ++ first :: middle) ++
      second :: late := by
    rw [append_assoc _ (first :: middle)]
    exact cut
  obtain ⟨before, grant, after, ttl', shape, host, grants, idle⟩ :=
    execution_granted careful again two
  rw [append_assoc] at shape ⊢
  rcases two_places shape with ⟨rfl, rfl⟩ | ⟨inner, rfl⟩ | ⟨inner, rfl⟩
  · -- One grant for both would mean that the first execution came after it on the same host.
    have rest : firstAfter ++ first :: middle = after :=
      (cons.inj (append_cancel_left shape)).2
    have inside : first ∈ after := by
      rw [← rest]
      exact mem_append_right _ mem_cons_self
    have starts := idle first inside (firstHost.symm.trans host)
    rw [one] at starts
    cases starts
  · refine ⟨firstBefore, inner, after, firstGrant, grant, ttl, ttl', ?_, firstGrants, grants⟩
    rw [shape, append_assoc]
    rfl
  · refine ⟨before, inner, firstAfter ++ first :: middle, grant, firstGrant, ttl', ttl, ?_, grants,
      firstGrants⟩
    rw [append_assoc]
    rfl

theorem pairwise_of_places {α : Type} {Related : α → α → Prop} {items : List α}
    (related : ∀ early first middle second late,
      items = early ++ first :: (middle ++ second :: late) → Related first second) :
    items.Pairwise Related := by
  induction items with
  | nil => exact .nil
  | cons head tail ih =>
    refine pairwise_cons.mpr ⟨fun other member => ?_, ih fun early first middle second late cut => ?_⟩
    · obtain ⟨middle, late, rfl⟩ := append_of_mem member
      exact related [] head middle other late rfl
    · exact related (head :: early) first middle second late (congrArg _ cut)

/-- Any number of schedulers in any interleaving, with a lock store that keeps its promise. Every
execution of a slot on one server comes after a grant of the lock of the slot to its host. Of two
executions of a slot the second comes when the lock that has been granted first has expired. Keys
of different tasks or slots are different, and none is an overlap key. -/
theorem one_server_once {start last : ι → Host} {events : List (Event ι)}
    (idle : ∀ host, (start host).running = none) (interleaving : Interleaving start events last)
    (ordered : InOrder events) (store : Excludes events) :
    (∀ name slot early event late, events = early ++ event :: late →
      event.executes name slot = true → ∃ grant ∈ early, grant.host = event.host ∧
        ∃ ttl, grant.Grants name slot ttl) ∧
    (∀ name slot early grant late ttl, events = early ++ grant :: late →
      grant.Grants name slot ttl → (∀ earlier ∈ early, ∀ ttl, ¬earlier.Grants name slot ttl) →
      (events.filter (Event.executes name slot)).Pairwise fun _ second =>
        grant.time + nanoseconds ttl ≤ second.time) ∧
    (∀ name other slot slot', Task.occurrenceKey name slot = Task.occurrenceKey other slot' →
      name = other ∧ slot = slot') ∧
    ∀ name slot (task : Task), Task.occurrenceKey name slot ≠ task.overlapLockKey := by
  have careful := carefulEvents interleaving idle
  refine ⟨?_, ?_, ?_, ?_⟩
  · intro name slot early event late cut executes
    obtain ⟨before, grant, after, ttl, rfl, host, grants, _⟩ :=
      execution_granted careful cut executes
    exact ⟨grant, mem_append_right _ mem_cons_self, host, ttl, grants⟩
  · intro name slot early grant late ttl cut grants first
    refine pairwise_filter.mpr (pairwise_of_places fun before one middle two after shape => ?_)
    intro oneExecutes twoExecutes
    obtain ⟨front, inner, back, earlier, later, _, _, past, earlierGrants, laterGrants⟩ :=
      two_grants careful shape oneExecutes twoExecutes
    -- The later one of the two grants is not the first of all.
    have whole : events = (front ++ earlier :: inner) ++ later :: (back ++ two :: after) := by
      have joined : events = (before ++ one :: middle) ++ two :: after := by
        rw [append_assoc]
        exact shape
      rw [joined, past, append_assoc, append_assoc, cons_append, cons_append,
        append_assoc]
      rfl
    have expired : grant.time + nanoseconds ttl ≤ later.time := by
      rcases two_places (cut.symm.trans whole) with ⟨rfl, _⟩ | ⟨between, equal⟩ | ⟨between, rfl⟩
      · exact absurd earlierGrants (first earlier (mem_append_right _ mem_cons_self) _)
      · obtain ⟨lease, called⟩ := grants
        obtain ⟨lease', again⟩ := laterGrants
        have spread : events = early ++ grant :: (between ++ later :: (back ++ two :: after)) := by
          rw [whole, equal, append_assoc]
          rfl
        exact grants_apart careful store spread called again
      · exact absurd earlierGrants (first earlier (mem_append_left _
          (mem_append_right _ mem_cons_self)) _)
    have afterwards : later.time ≤ two.time := by
      unfold InOrder at ordered
      rw [whole] at ordered
      exact (pairwise_cons.mp (pairwise_append.mp ordered).2.1).1 two
        (mem_append_right _ mem_cons_self)
    exact Int.le_trans expired afterwards
  · exact fun name other slot slot' same => Task.occurrenceKey_injective same
  · exact fun name slot task => Task.occurrenceKey_ne_overlap name task.name slot

/-- A task of every second on one server, with a lock of a millisecond. -/
def tick : Task :=
  { Task.make (ascii "tick") (.interval 1000) with
    oneServer := true, oneServerTtl := 1, oneServerTtl_pos := by decide }

def tickKey : Bytes := Task.occurrenceKey (ascii "tick") (.number 0)

/-- Two hosts run the task at one instant, and the second asks when the lock has expired. -/
def tickEvents : List (Event Bool) :=
  [⟨0, true, .begin 0⟩, ⟨0, false, .begin 0⟩,
    ⟨0, true, .exchange ⟨.stopping, false⟩⟩, ⟨0, false, .exchange ⟨.stopping, false⟩⟩,
    ⟨0, true, .exchange (granted tickKey 1 ⟨tickKey, ascii "1"⟩)⟩,
    ⟨5, true, .exchange ⟨.act tick 0, (.ok () : Except Exception Unit)⟩⟩,
    ⟨1000000, false, .exchange (granted tickKey 1 ⟨tickKey, ascii "2"⟩)⟩,
    ⟨1000001, false, .exchange ⟨.act tick 0, (.ok () : Except Exception Unit)⟩⟩]

theorem tickEvents_interleaving :
    ∃ last, Interleaving (fun _ : Bool => Host.mk [tick] true none) tickEvents last := by
  exact ⟨_, .cons (.begin 0 0 rfl) (.cons (.begin 0 0 rfl) (.cons (.exchange 0 _ rfl)
    (.cons (.exchange 0 _ rfl) (.cons (.exchange 0 _ rfl) (.cons (.exchange 5 _ rfl)
    (.cons (.exchange 1000000 _ rfl) (.cons (.exchange 1000001 _ rfl) (.nil _))))))))⟩

/-- Both hosts execute the slot, the second when the lock of the first has expired. -/
theorem one_server_once_tick :
    (tickEvents.filter (Event.executes (ascii "tick") (.number 0))).length = 2 ∧
      (tickEvents.filter (Event.executes (ascii "tick") (.number 0))).Pairwise fun _ second =>
        0 + nanoseconds 1 ≤ second.time := by
  obtain ⟨last, interleaving⟩ := tickEvents_interleaving
  have ordered : InOrder tickEvents := by
    unfold InOrder tickEvents
    decide
  have serves : MemoryLockStore.initial.Serves tickEvents :=
    ⟨rfl, rfl, trivial⟩
  have once := (one_server_once (fun _ => rfl) interleaving ordered (serves.excludes ordered)).2.1
  have first : ∀ earlier ∈ tickEvents.take 4, ∀ ttl,
      ¬earlier.Grants (ascii "tick") (.number 0) ttl := by
    rintro earlier member ttl ⟨lease, called⟩
    simp only [tickEvents, take_succ_cons, take_zero, mem_cons, not_mem_nil,
      or_false] at member
    rcases member with rfl | rfl | rfl | rfl <;> cases called
  refine ⟨by decide, ?_⟩
  exact once (ascii "tick") (.number 0) (tickEvents.take 4) _ (tickEvents.drop 5) 1 rfl ⟨_, rfl⟩
    first

end Gungnir.Scheduler
