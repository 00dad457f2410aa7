import Gungnir.Library.Transition
import Gungnir.Queue.Envelope
import Gungnir.Library.SortedSet

/-!
# Redis drivers sharing one queue

Every driver operation is one atomic command, except `retry_failed`, which reads
the failed record and then runs its script. A driver holds its mutex during an
operation, so between the two commands of a retry only other drivers move. The
system keeps the time of the last command and the reservation tokens drawn so
far; a step is enabled when time has not gone backwards and a drawn token is new.
-/

namespace Gungnir.Queue

open Gungnir.Core Gungnir.Library

/-! ## The Lua scripts

One queue namespace holds six Redis structures. Each script runs atomically and
is a function of its arguments and of that state; `now` is the server time in
milliseconds that the script reads with `TIME`. An integer reply is returned as
the script returns it, so `0` marks a refused operation. -/

structure RedisState where
  jobs : Hash Bytes Bytes
  ready : List Bytes
  delayed : SortedSet Bytes
  reserved : SortedSet Bytes
  leases : Hash Bytes Bytes
  failed : Hash Bytes Bytes

namespace RedisState

/-- A namespace none of whose keys exists. -/
def empty : RedisState := ⟨∅, [], ∅, ∅, ∅, ∅⟩

def pushReady (id : Bytes) (state : RedisState) : RedisState :=
  { state with ready := state.ready ++ [id] }

/-- The common tail of the delayed push and the delayed release. -/
def enqueueAfter (now delay : Int) (id : Bytes) (state : RedisState) : RedisState :=
  if delay ≤ 0 then state.pushReady id
  else { state with delayed := state.delayed.insert id (now + delay) }

/-- Drop the lease of `id` together with its entry in the reserved set. -/
def unlease (id : Bytes) (state : RedisState) : RedisState :=
  { state with leases := state.leases.erase id, reserved := state.reserved.erase id }

/-- `token ~= ARGV[2]` is the refusing test of the four lease scripts. -/
def Leased (id token : Bytes) (state : RedisState) : Prop :=
  state.leases.lookup id = some token

instance (id token : Bytes) (state : RedisState) : Decidable (state.Leased id token) :=
  inferInstanceAs (Decidable (_ = _))

end RedisState

def pushScript (id payload : Bytes) (state : RedisState) : Int × RedisState :=
  if id ∈ state.jobs ∨ id ∈ state.failed then (0, state)
  else (1, { state with jobs := state.jobs.insert id payload }.pushReady id)

variable (now : Int)

def pushLaterScript (id payload : Bytes) (delay : Int) (state : RedisState) : Int × RedisState :=
  if id ∈ state.jobs ∨ id ∈ state.failed then (0, state)
  else (1, { state with jobs := state.jobs.insert id payload }.enqueueAfter now delay id)

variable (state : RedisState) (id : Bytes)

/-- One round of the loop over the due members of the delayed set. -/
def promoteDue : RedisState :=
  let state := { state with delayed := state.delayed.erase id }
  if id ∈ state.jobs then state.pushReady id else state

/-- One round of the loop over the expired members of the reserved set. -/
def reclaimExpired : RedisState :=
  let state := state.unlease id
  if id ∈ state.jobs then state.pushReady id else state

/-- The `while true` loop: ids whose payload is gone are dropped from the list. -/
def reserveNext (deadline : Int) (token : Bytes) (state : RedisState) :
    List Bytes → Option (Bytes × Bytes) × RedisState
  | [] => (none, { state with ready := [] })
  | id :: rest =>
    match state.jobs.lookup id with
    | some payload =>
      (some (id, payload),
        { state with
          ready := rest
          leases := state.leases.insert id token
          reserved := state.reserved.insert id deadline })
    | none => reserveNext deadline token state rest

/-- What `pop` does before it looks at the ready list. -/
def refill : RedisState :=
  let state := (SortedSet.rangeByScore state.delayed now).foldl promoteDue state
  (SortedSet.rangeByScore state.reserved now).foldl reclaimExpired state

def popScript (visibility : Int) (token : Bytes) (state : RedisState) :
    Option (Bytes × Bytes) × RedisState :=
  let state := refill now state
  reserveNext (now + visibility) token state state.ready

variable (token : Bytes)

def acknowledgeScript (state : RedisState) : Int × RedisState :=
  if state.Leased id token then
    (1, { state.unlease id with jobs := state.jobs.erase id })
  else (0, state)

def releaseAfterScript (payload : Bytes) (delay : Int) (state : RedisState) : Int × RedisState :=
  if state.Leased id token then
    (1, { state.unlease id with jobs := state.jobs.insert id payload }.enqueueAfter now delay id)
  else (0, state)

def renewScript (visibility : Int) (state : RedisState) : Int × RedisState :=
  if state.Leased id token then
    (1, { state with reserved := state.reserved.insert id (now + visibility) })
  else (0, state)

def failScript (payload : Bytes) (state : RedisState) : Int × RedisState :=
  if state.Leased id token then
    (1, { state.unlease id with
      failed := state.failed.insert id payload
      jobs := state.jobs.erase id })
  else (0, state)

def retryFailedScript (persisted reset : Bytes) (state : RedisState) : Int × RedisState :=
  if state.failed.lookup id ≠ some persisted then (0, state)
  else if id ∈ state.jobs then (-1, state)
  else
    (1, { state with
      failed := state.failed.erase id
      jobs := state.jobs.insert id reset }.pushReady id)

/-! ## The drivers -/

/-- The settings the constructor of a driver has accepted. -/
structure RedisSettings where
  visibilityTimeout : Int
  positive : 0 < visibilityTimeout

inductive Operation where
  | push (context : Option TraceContext) (job : Envelope)
  | pushLater (context : Option TraceContext) (job : Envelope) (delay : Int)
  | pop (token : Bytes)
  | acknowledge (job : Envelope)
  | release (job : Envelope)
  | releaseAfter (job : Envelope) (delay : Int)
  | renew (job : Envelope)
  | fail (job : Envelope)
  | retryLookup (id : Bytes)
  | retryFailed
  | forgetFailed (id : Bytes)
  | flush
  | disconnect
  deriving DecidableEq

inductive Reply where
  | done
  | flag (value : Bool)
  | reserved (job : Option Envelope)
  | retrying
  deriving DecidableEq

/-- The record a driver has read for a retry that has not reached its script. -/
structure Retry where
  id : Bytes
  persisted : Bytes
  deriving DecidableEq

abbrev Outcome := Except Exception Reply

/-! ## Single operations -/

variable (id : Bytes)

def alreadyExists : Exception :=
  ⟨.logicError, ascii "Queued job id already exists: " ++ id⟩

/-- The job as `push` and `push_later` persist it. -/
def persistedJob (context : Option TraceContext) (job : Envelope) : Envelope :=
  (inheritTrace context job).unreserved

def push (context : Option TraceContext) (job : Envelope) (state : RedisState) :
    Outcome × RedisState :=
  match validateJob job, encode (persistedJob context job) with
  | .error invalid, _ => (.error invalid, state)
  | _, .error large => (.error large, state)
  | .ok _, .ok payload =>
    let result := pushScript job.id payload state
    (if result.1 = 0 then .error (alreadyExists job.id) else .ok .done, result.2)

def pushLater (now : Int) (context : Option TraceContext) (job : Envelope) (delay : Int)
    (state : RedisState) : Outcome × RedisState :=
  match validateJob job, encode (persistedJob context job) with
  | .error invalid, _ => (.error invalid, state)
  | _, .error large => (.error large, state)
  | .ok _, .ok payload =>
    let result := pushLaterScript now job.id payload delay state
    (if result.1 = 0 then .error (alreadyExists job.id) else .ok .done, result.2)

def identityMismatch : Exception := ⟨.runtimeError, ascii "Redis queue job identity mismatch"⟩

/-- What `pop` makes of the script's reply. -/
def popReply (token : Bytes) : Option (Bytes × Bytes) → Outcome
  | none => .ok (.reserved none)
  | some (id, payload) =>
    match decode payload with
    | .error invalid => .error invalid
    | .ok job =>
      if job.id ≠ id then .error identityMismatch
      else .ok (.reserved (some { job with reservation := token }))

variable (settings : RedisSettings) (now : Int)

def pop (token : Bytes) (state : RedisState) : Outcome × RedisState :=
  let result := popScript now settings.visibilityTimeout token state
  (popReply token result.1, result.2)

def acknowledge (job : Envelope) (state : RedisState) : Outcome × RedisState :=
  if job.id = [] ∨ job.reservation = [] then (.ok .done, state)
  else (.ok .done, (acknowledgeScript job.id job.reservation state).2)

def releaseAfter (job : Envelope) (delay : Int) (state : RedisState) : Outcome × RedisState :=
  match validateJob job, encode job.unreserved with
  | .error invalid, _ => (.error invalid, state)
  | .ok _, encoded =>
    if job.reservation = [] then
      (.error ⟨.invalidArgument, ascii "Released Redis job has no reservation"⟩, state)
    else
      match encoded with
      | .error large => (.error large, state)
      | .ok payload =>
        (.ok .done, (releaseAfterScript now job.id job.reservation payload delay state).2)

def release (job : Envelope) (state : RedisState) : Outcome × RedisState :=
  releaseAfter now job 0 state

def renew (job : Envelope) (state : RedisState) : Outcome × RedisState :=
  if job.id = [] ∨ job.reservation = [] then (.ok (.flag false), state)
  else
    let result := renewScript now job.id job.reservation settings.visibilityTimeout state
    (.ok (.flag (result.1 = 1)), result.2)

def fail (job : Envelope) (state : RedisState) : Outcome × RedisState :=
  match validateJob job, encode job.unreserved with
  | .error invalid, _ => (.error invalid, state)
  | .ok _, encoded =>
    if job.reservation = [] then (.ok .done, state)
    else
      match encoded with
      | .error large => (.error large, state)
      | .ok payload => (.ok .done, (failScript job.id job.reservation payload state).2)

def forgetFailed (state : RedisState) : Outcome × RedisState :=
  if id = [] then (.ok (.flag false), state)
  else (.ok (.flag (id ∈ state.failed)), { state with failed := state.failed.erase id })

/-- The `HGET` of `retry_failed`: what the caller gets when the record is absent,
or the record the script is about to be run with. -/
def retryLookup (state : RedisState) : Outcome × Option Retry :=
  if id = [] then (.ok (.flag false), none)
  else
    match state.failed.lookup id with
    | none => (.ok (.flag false), none)
    | some persisted => (.ok .retrying, some ⟨id, persisted⟩)

def cannotRetry : Exception :=
  ⟨.logicError, ascii "Cannot retry failed job because its id is already active: " ++ id⟩

/-- The record a retried job is stored with. -/
def resetJob (job : Envelope) : Envelope := { job with attempts := 0, reservation := [] }

def retryFailed (retry : Retry) (state : RedisState) : Outcome × RedisState :=
  match decode retry.persisted with
  | .error invalid => (.error invalid, state)
  | .ok job =>
    match encode (resetJob job) with
    | .error large => (.error large, state)
    | .ok reset =>
      let result := retryFailedScript retry.id retry.persisted reset state
      (if result.1 < 0 then .error (cannotRetry retry.id) else .ok (.flag (result.1 = 1)),
        result.2)

def flush : Outcome × RedisState := (.ok .done, RedisState.empty)

/-- The connection is lost before the next command reaches Redis. -/
def connectionLost : Exception :=
  ⟨.runtimeError, ascii "Redis queue command failed: connection unavailable"⟩

/-! ## What one operation can do to Redis -/

variable (retrying : Option Retry)

/-- What the command sent by a driver does to Redis, and the driver's answer. A
retry in flight is passed to the one operation that finishes it. -/
def execute : Operation → RedisState → Outcome × RedisState
  | .push context job, state => push context job state
  | .pushLater context job delay, state => pushLater now context job delay state
  | .pop token, state => pop settings now token state
  | .acknowledge job, state => acknowledge job state
  | .release job, state => release now job state
  | .releaseAfter job delay, state => releaseAfter now job delay state
  | .renew job, state => renew settings now job state
  | .fail job, state => fail job state
  | .retryLookup id, state => ((retryLookup id state).1, state)
  | .retryFailed, state =>
    match retrying with
    | some retry => retryFailed retry state
    | none => (.ok .done, state)
  | .forgetFailed id, state => forgetFailed id state
  | .flush, _ => flush
  | .disconnect, state => (.error connectionLost, state)

/-- The stored record is the encoding of a job with the id it is stored under. -/
def DecodesTo (payload id : Bytes) : Prop := ∃ job, decode payload = .ok job ∧ job.id = id

def enqueued : Operation → Option (Envelope × Int)
  | .push _ job => some (job, 0)
  | .pushLater _ job delay => some (job, delay)
  | _ => none

/-- The reserved job an operation gives back, with its delay. -/
def released : Operation → Option (Envelope × Int)
  | .release job => some (job, 0)
  | .releaseAfter job delay => some (job, delay)
  | _ => none

/-- Every change of the Redis state by one operation. Refused and read-only
operations leave it unchanged. -/
inductive Effect (settings : RedisSettings) (now : Int) (state : RedisState) :
    Operation → RedisState → Prop where
  | unchanged (operation : Operation) : Effect settings now state operation state
  | enqueued {operation : Operation} {job : Envelope} {delay : Int} {payload : Bytes}
      (called : enqueued operation = some (job, delay)) (unknown : job.id ∉ state.jobs)
      (unfailed : job.id ∉ state.failed) (decodes : DecodesTo payload job.id) :
      Effect settings now state operation
        ({ state with jobs := state.jobs.insert job.id payload }.enqueueAfter now delay job.id)
  | popped (token : Bytes) :
      Effect settings now state (.pop token)
        (popScript now settings.visibilityTimeout token state).2
  | acknowledged (job : Envelope) (current : state.Leased job.id job.reservation) :
      Effect settings now state (.acknowledge job)
        { state.unlease job.id with jobs := state.jobs.erase job.id }
  | released {operation : Operation} {job : Envelope} {delay : Int} {payload : Bytes}
      (called : released operation = some (job, delay))
      (current : state.Leased job.id job.reservation) (decodes : DecodesTo payload job.id) :
      Effect settings now state operation
        ({ state.unlease job.id with
          jobs := state.jobs.insert job.id payload }.enqueueAfter now delay job.id)
  | renewed (job : Envelope) (current : state.Leased job.id job.reservation) :
      Effect settings now state (.renew job)
        { state with
          reserved := state.reserved.insert job.id (now + settings.visibilityTimeout) }
  | failed {payload : Bytes} (job : Envelope) (current : state.Leased job.id job.reservation)
      (decodes : DecodesTo payload job.id) :
      Effect settings now state (.fail job)
        { state.unlease job.id with
          failed := state.failed.insert job.id payload
          jobs := state.jobs.erase job.id }
  | retried {id persisted reset : Bytes} (recorded : state.failed.lookup id = some persisted)
      (inactive : id ∉ state.jobs) (decodes : DecodesTo persisted id → DecodesTo reset id) :
      Effect settings now state .retryFailed
        ({ state with
          failed := state.failed.erase id
          jobs := state.jobs.insert id reset }.pushReady id)
  | forgotten (id : Bytes) :
      Effect settings now state (.forgetFailed id) { state with failed := state.failed.erase id }
  | flushed : Effect settings now state .flush RedisState.empty

theorem decodesTo_of_encode {job : Envelope} {payload : Bytes} (written : encode job = .ok payload) :
    DecodesTo payload job.id :=
  ⟨job.unreserved, decode_encode written, rfl⟩

theorem persistedJob_id (context : Option TraceContext) (job : Envelope) :
    (persistedJob context job).id = job.id := by
  unfold persistedJob inheritTrace
  split
  · rfl
  · cases context <;> rfl

section

variable {settings : RedisSettings} {now : Int} {state : RedisState} (context : Option TraceContext)
  (job : Envelope)

theorem push_effect : Effect settings now state (.push context job) (push context job state).2 := by
  unfold push
  split
  · exact .unchanged _
  · exact .unchanged _
  · rename_i payload _ written
    unfold pushScript
    split
    · exact .unchanged _
    · rename_i unknown
      rw [not_or] at unknown
      have decodes := decodesTo_of_encode written
      rw [persistedJob_id] at decodes
      have called : enqueued (.push context job) = some (job, 0) := rfl
      exact .enqueued called unknown.1 unknown.2 decodes

theorem pushLater_effect (delay : Int) :
    Effect settings now state (.pushLater context job delay)
      (pushLater now context job delay state).2 := by
  unfold pushLater
  split
  · exact .unchanged _
  · exact .unchanged _
  · rename_i payload _ written
    unfold pushLaterScript
    split
    · exact .unchanged _
    · rename_i unknown
      rw [not_or] at unknown
      have decodes := decodesTo_of_encode written
      rw [persistedJob_id] at decodes
      exact .enqueued rfl unknown.1 unknown.2 decodes

theorem acknowledge_effect :
    Effect settings now state (.acknowledge job) (acknowledge job state).2 := by
  unfold acknowledge
  split
  · exact .unchanged _
  · unfold acknowledgeScript
    split
    · rename_i current
      exact .acknowledged job current
    · exact .unchanged _

theorem releaseAfter_effect {operation : Operation} {job : Envelope} {delay : Int}
    (called : released operation = some (job, delay)) :
    Effect settings now state operation (releaseAfter now job delay state).2 := by
  unfold releaseAfter
  split
  · exact .unchanged _
  · split
    · exact .unchanged _
    · split
      · exact .unchanged _
      · rename_i written
        unfold releaseAfterScript
        split
        · rename_i current
          exact .released called current (decodesTo_of_encode written)
        · exact .unchanged _

theorem renew_effect : Effect settings now state (.renew job) (renew settings now job state).2 := by
  unfold renew
  split
  · exact .unchanged _
  · unfold renewScript
    split
    · rename_i current
      exact .renewed job current
    · exact .unchanged _

theorem fail_effect : Effect settings now state (.fail job) (fail job state).2 := by
  unfold fail
  split
  · exact .unchanged _
  · split
    · exact .unchanged _
    · split
      · exact .unchanged _
      · rename_i written
        unfold failScript
        split
        · rename_i current
          exact .failed job current (decodesTo_of_encode written)
        · exact .unchanged _

/-- The script compares the record it was run with, so the reset record has the
id it is stored under even when the failed record changed since it was read. -/
theorem retryFailed_effect (retry : Retry) :
    Effect settings now state .retryFailed (retryFailed retry state).2 := by
  unfold retryFailed
  split
  · exact .unchanged _
  · rename_i job decoded
    split
    · exact .unchanged _
    · rename_i reset written
      unfold retryFailedScript
      split
      · exact .unchanged _
      · rename_i recorded
        rw [not_not] at recorded
        split
        · exact .unchanged _
        · rename_i inactive
          refine .retried recorded inactive ?_
          rintro ⟨stored, storedDecoded, named⟩
          have same : job = stored := Except.ok.inj (decoded.symm.trans storedDecoded)
          have resetDecodes := decodesTo_of_encode written
          rw [← named, ← same]
          exact resetDecodes

theorem forgetFailed_effect :
    Effect settings now state (.forgetFailed id) (forgetFailed id state).2 := by
  unfold forgetFailed
  split
  · exact .unchanged _
  · exact .forgotten id

theorem execute_effect (operation : Operation) :
    Effect settings now state operation (execute settings now retrying operation state).2 := by
  cases operation with
  | push context job => exact push_effect context job
  | pushLater context job delay => exact pushLater_effect context job delay
  | pop token => exact .popped token
  | acknowledge job => exact acknowledge_effect job
  | release job =>
    have called : released (.release job) = some (job, 0) := rfl
    exact releaseAfter_effect called
  | releaseAfter job delay =>
    have called : released (.releaseAfter job delay) = some (job, delay) := rfl
    exact releaseAfter_effect called
  | renew job => exact renew_effect job
  | fail job => exact fail_effect job
  | retryLookup id => exact .unchanged _
  | retryFailed =>
    cases retrying with
    | none => exact .unchanged _
    | some retry => exact retryFailed_effect retry
  | forgetFailed id => exact forgetFailed_effect id
  | flush => exact .flushed
  | disconnect => exact .unchanged _

end

/-! ## The system of all drivers -/

structure Event (ι : Type*) where
  driver : ι
  now : Int
  operation : Operation

structure System (ι : Type*) where
  redis : RedisState
  retrying : ι → Option Retry
  clock : Int
  issued : List Bytes

section

variable {ι : Type*}

/-- The retry a driver has in flight after an operation. -/
def retryAfter (operation : Operation) (state : RedisState) : Option Retry :=
  match operation with
  | .retryLookup id => (retryLookup id state).2
  | _ => none

def drawn : Operation → List Bytes
  | .pop token => [token]
  | _ => []

/-- A driver with a retry in flight can only finish it or lose its connection, and
no other operation finishes one. -/
def Ready : Operation → Prop
  | .retryFailed => retrying ≠ none
  | .disconnect => True
  | _ => retrying = none

variable (settings : ι → RedisSettings) [DecidableEq ι] (system : System ι) (event : Event ι)

def System.next : Outcome × System ι :=
  let result := execute (settings event.driver) event.now (system.retrying event.driver)
    event.operation system.redis
  (result.1,
    { redis := result.2
      retrying := Function.update system.retrying event.driver
        (retryAfter event.operation system.redis)
      clock := event.now
      issued := drawn event.operation ++ system.issued })

structure Step (before : System ι) (event : Event ι) (after : System ι) : Prop where
  ready : Ready (before.retrying event.driver) event.operation
  monotone : before.clock ≤ event.now
  fresh : ∀ token ∈ drawn event.operation, token ∉ before.issued
  result : after = (before.next settings event).2

def System.initial (clock : Int) : System ι := ⟨RedisState.empty, fun _ => none, clock, []⟩

/-- The event may happen in the state. -/
def System.Enabled : Prop :=
  Ready (system.retrying event.driver) event.operation ∧ system.clock ≤ event.now ∧
    ∀ token ∈ drawn event.operation, token ∉ system.issued

def System.after : System ι :=
  (system.next settings event).2

end

/-! ## A small run

A job is pushed with a delay, popped once it is due, and popped again when the
first lease has run out. -/

def sampleJob : Envelope := ⟨ascii "j", ascii "mail", ascii "1:x", 0, 3, [], [], []⟩

def sampleSettings : Unit → RedisSettings := fun _ => ⟨60000, by decide⟩

def sampleEvents : List (Event Unit) :=
  [⟨(), 0, .pushLater none sampleJob 5⟩, ⟨(), 9, .pop (ascii "t")⟩, ⟨(), 70000, .pop (ascii "u")⟩]

def sampleStart : System Unit := .initial 0

def sampleEnd : System Unit := runFrom (System.after sampleSettings) sampleStart sampleEvents

theorem sampleEvents_enabled :
    EnabledFrom (System.after sampleSettings) System.Enabled sampleStart sampleEvents := by
  refine ⟨⟨rfl, by decide, by decide⟩, ⟨rfl, by decide, by decide⟩,
    ⟨rfl, by decide, by decide⟩, trivial⟩

theorem sampleRun :
    Trace (Step sampleSettings) sampleStart
      (transitionsFrom (System.after sampleSettings) sampleStart sampleEvents) sampleEnd :=
  sampleEvents_enabled.trace fun enabled => ⟨enabled.1, enabled.2.1, enabled.2.2, rfl⟩

end Gungnir.Queue
