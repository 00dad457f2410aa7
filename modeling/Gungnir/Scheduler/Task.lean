import Gungnir.Library.Interaction
import Gungnir.Core.Text
import Gungnir.Library.Calendar

/-!
# Tasks and schedulers

`CronExpression` of `scheduler/cron.hpp`, `Task` of `scheduler/task.hpp` and the loop of
`scheduler/scheduler.hpp` over the tasks that are due. A run of a scheduler is a program
that asks a lock store, starts actions and may be told to stop. Intervals and times to
live are in milliseconds. Spans and metrics are left out.
-/

namespace Gungnir.Scheduler

open Gungnir.Core Gungnir.Library

/-! ## Time zones

`scheduler/timezone.hpp`. Time points are nanoseconds since the epoch of the system clock,
offsets and times of day are minutes. -/

abbrev TimePoint := Int

structure LocalDateTime where
  year : Int
  month : Nat
  day : Nat
  hour : Nat
  minute : Nat
  weekday : Nat
  offsetMinutes : Int
  daylight : Bool
  deriving DecidableEq, Repr

structure WallMinute where
  year : Int
  month : Nat
  day : Nat
  hour : Nat
  minute : Nat
  deriving DecidableEq, Repr

def wallMinute (value : LocalDateTime) : WallMinute :=
  ⟨value.year, value.month, value.day, value.hour, value.minute⟩

/-- The interface of time zones. -/
structure TimeZone where
  name : Bytes
  toLocal : TimePoint → Except Exception LocalDateTime

def nanosecondsPerMinute : Int := 60000000000

def minutesPerDay : Int := 1440

/-- `std::chrono::floor<std::chrono::minutes>`. -/
def floorMinutes (point : TimePoint) : Int := point / nanosecondsPerMinute

def localFromOffset (point : TimePoint) (offset : Int) (daylight : Bool) : LocalDateTime :=
  let minutes := floorMinutes (point + offset * nanosecondsPerMinute)
  let days := minutes / minutesPerDay
  let date := Calendar.fromDays days
  let time := (minutes - days * minutesPerDay).toNat
  ⟨date.year, date.month, date.day, time / 60, time % 60, Calendar.weekday days, offset, daylight⟩

def utcTimeZone : TimeZone := ⟨ascii "UTC", fun point => .ok (localFromOffset point 0 false)⟩

def validateOffset (offset : Int) : Except Exception Unit :=
  if offset ≤ -1440 ∨ offset ≥ 1440 then
    .error (.invalidArgument "Timezone offset must be between -24 and +24 hours")
  else .ok ()

def emptyName : Exception := .invalidArgument "Timezone name must not be empty"

structure TransitionRule where
  month : Nat
  occurrence : Nat
  weekday : Nat
  at_ : Int
  deriving DecidableEq, Repr

def validateRule (rule : TransitionRule) : Except Exception Unit := do
  if rule.month < 1 ∨ rule.month > 12 then
    throw (.invalidArgument "Timezone transition month must be between 1 and 12")
  if rule.occurrence < 1 ∨ rule.occurrence > 5 then
    throw (.invalidArgument "Timezone transition occurrence must be between 1 and 5")
  if rule.weekday > 6 then
    throw (.invalidArgument "Timezone transition weekday must be between 0 and 6")
  if rule.at_ < 0 ∨ rule.at_ ≥ 1440 then
    throw (.invalidArgument "Timezone transition time must be within one local day")

/-- The last day of a month is the one before the first of the next month. -/
def lastDayOfMonth (year : Int) (month : Nat) : Int :=
  if month = 12 then Calendar.toDays ⟨year + 1, 1, 1⟩ - 1
  else Calendar.toDays ⟨year, month + 1, 1⟩ - 1

def transitionDay (year : Int) (rule : TransitionRule) : Except Exception Int :=
  if rule.occurrence = 5 then
    let lastDay := lastDayOfMonth year rule.month
    .ok (lastDay - ((Calendar.weekday lastDay + 7 - rule.weekday) % 7 : Nat))
  else
    let firstDay := Calendar.toDays ⟨year, rule.month, 1⟩
    let delta := (rule.weekday + 7 - Calendar.weekday firstDay) % 7
    let candidate := firstDay + (delta + 7 * (rule.occurrence - 1) : Nat)
    if (Calendar.fromDays candidate).month ≠ rule.month then
      .error (.invalidArgument
        "Timezone transition occurrence does not exist in the selected month")
    else .ok candidate

def transitionInstant (year : Int) (rule : TransitionRule) (offsetBefore : Int) :
    Except Exception TimePoint := do
  let day ← transitionDay year rule
  return (day * minutesPerDay + rule.at_ - offsetBefore) * nanosecondsPerMinute

structure RecurringRules where
  standardOffset : Int
  daylightOffset : Int
  daylightStart : TransitionRule
  daylightEnd : TransitionRule
  deriving DecidableEq, Repr

variable (rules : RecurringRules)

def daylightAt (point : TimePoint) : Except Exception Bool := do
  let standardLocal := floorMinutes (point + rules.standardOffset * nanosecondsPerMinute)
  let year := (Calendar.fromDays (standardLocal / minutesPerDay)).year
  let start ← transitionInstant year rules.daylightStart rules.standardOffset
  let finish ← transitionInstant year rules.daylightEnd rules.daylightOffset
  if start < finish then return start ≤ point ∧ point < finish
  return start ≤ point ∨ point < finish

def recurringToLocal (point : TimePoint) :
    Except Exception LocalDateTime := do
  let daylight ← daylightAt rules point
  return localFromOffset point
    (if daylight then rules.daylightOffset else rules.standardOffset) daylight

def recurringTimeZone (name : Bytes) (rules : RecurringRules) : Except Exception TimeZone := do
  if name = [] then throw emptyName
  validateOffset rules.standardOffset
  validateOffset rules.daylightOffset
  validateRule rules.daylightStart
  validateRule rules.daylightEnd
  return ⟨name, recurringToLocal rules⟩

/-! ## Minutes -/

theorem floorMinutes_add (point : TimePoint) (offset : Int) :
    floorMinutes (point + offset * nanosecondsPerMinute) = floorMinutes point + offset :=
  Int.add_mul_ediv_right point offset (by decide)

theorem wallMinute_localFromOffset_congr {first second offset : Int} (daylight : Bool)
    (same : floorMinutes first = floorMinutes second) :
    wallMinute (localFromOffset first offset daylight) =
      wallMinute (localFromOffset second offset daylight) := by
  unfold localFromOffset
  rw [floorMinutes_add, floorMinutes_add, same]

/-- A wall minute is that of one local minute only. -/
theorem wallMinute_localFromOffset_inj {first second offset other : Int} {early late : Bool}
    (same : wallMinute (localFromOffset first offset early) =
      wallMinute (localFromOffset second other late)) :
    floorMinutes first + offset = floorMinutes second + other := by
  unfold wallMinute localFromOffset at same
  dsimp only at same
  rw [floorMinutes_add, floorMinutes_add] at same
  obtain ⟨year, month, day, hour, minute⟩ := WallMinute.mk.inj same
  have dates : Calendar.fromDays ((floorMinutes first + offset) / minutesPerDay) =
      Calendar.fromDays ((floorMinutes second + other) / minutesPerDay) := by
    cases one : Calendar.fromDays ((floorMinutes first + offset) / minutesPerDay)
    cases two : Calendar.fromDays ((floorMinutes second + other) / minutesPerDay)
    rw [one, two] at year month day
    exact congr (congr (congrArg Calendar.Date.mk year) month) day
  have days := Function.LeftInverse.injective Calendar.toDays_fromDays dates
  unfold minutesPerDay at *
  omega

/-- The minute of the hour is that of the local minute. -/
theorem minute_localFromOffset (point offset : Int) (daylight : Bool) :
    ((localFromOffset point offset daylight).minute : Int) = (floorMinutes point + offset) % 60 := by
  unfold localFromOffset
  rw [floorMinutes_add]
  unfold minutesPerDay
  dsimp only
  omega

/-- Transitions happen at whole minutes. -/
theorem daylightAt_congr {first second : TimePoint}
    (same : floorMinutes first = floorMinutes second) :
    daylightAt rules first = daylightAt rules second := by
  have reached : ∀ minutes : Int, minutes * nanosecondsPerMinute ≤ first ↔
      minutes * nanosecondsPerMinute ≤ second := by
    intro minutes
    rw [← Int.le_ediv_iff_mul_le (by decide), ← Int.le_ediv_iff_mul_le (by decide)]
    exact iff_of_eq (congrArg (minutes ≤ ·) same)
  unfold daylightAt transitionInstant
  simp only [floorMinutes_add, same, bind_assoc, pure_bind, ← not_le, reached]

/-! ## Cron expressions -/

namespace Cron

structure Field where
  minimum : Nat
  maximum : Nat
  wildcard : Bool
  values : List Bool
  deriving DecidableEq, Repr

def Field.contains (field : Field) (value : Nat) : Bool :=
  if value < field.minimum ∨ value > field.maximum then false
  else field.values.getD (value - field.minimum) false

def intMax : Nat := 2147483647

/-- `std::toupper` in the C locale. -/
def toUpper (character : UInt8) : UInt8 :=
  if 97 ≤ character ∧ character ≤ 122 then character - 32 else character

def uppercase (value : Bytes) : Bytes := value.map toUpper

/-- `std::isspace` in the C locale. -/
def isSpace (character : UInt8) : Bool := character = 32 ∨ (9 ≤ character ∧ character ≤ 13)

def parseNumber (value : Bytes) (minimum maximum : Nat) (names : List Bytes) :
    Except Exception Nat :=
  let normalized := uppercase value
  match names.findIdx? fun name => name ≠ [] ∧ normalized = name with
  | some index => .ok (minimum + index)
  | none =>
    match fromChars (intMax + 1) normalized with
    | none =>
      .error ⟨.invalidArgument, ascii "Cron field contains an invalid value: " ++ value⟩
    | some output =>
      if output < minimum ∨ output > maximum then
        .error ⟨.invalidArgument,
          ascii "Cron field value is outside its allowed range: " ++ value⟩
      else .ok output

def parseStep (value : Bytes) : Except Exception Nat :=
  if value = [] then .error (.invalidArgument "Cron step cannot be empty")
  else
    match fromChars (intMax + 1) value with
    | none | some 0 => .error (.invalidArgument "Cron step must be a positive integer")
    | some step => .ok step

/-- `field.values[value - field.minimum] = true`, which must stay inside the table. -/
def enable (minimum value : Nat) (values : List Bool) : Except Exception (List Bool) :=
  if minimum ≤ value ∧ value - minimum < values.length then .ok (values.set (value - minimum) true)
  else .error .undefinedBehavior

/-- The loop of `enable_range`, whose counter must not overflow. Each round uses one unit of
fuel. -/
def enableFrom (minimum last step : Nat) : Nat → Nat → List Bool → Except Exception (List Bool)
  | 0, _, values => .ok values
  | fuel + 1, value, values =>
    if value > last then .ok values
    else do
      let values ← enable minimum value values
      if value + step > intMax then throw .undefinedBehavior
      enableFrom minimum last step fuel (value + step) values

def enableRange (field : Field) (first last step : Nat) : Except Exception Field := do
  if first > last then throw (.invalidArgument "Cron ranges must be ascending")
  let values ← enableFrom field.minimum last step (last - first + 1) first field.values
  return { field with values := values }

/-- The step of a list entry, and what stands before it. -/
def splitStep (token : Bytes) : Except Exception (Nat × Bytes) :=
  match token.dropWhile (· ≠ 47) with
  | [] => .ok (1, token)
  | _ :: rest =>
    if (47 : UInt8) ∈ rest then
      .error (.invalidArgument "Cron field contains multiple step separators")
    else do
      let step ← parseStep rest
      return (step, token.takeWhile (· ≠ 47))

def parseToken (names : List Bytes) (field : Field) (token : Bytes) : Except Exception Field := do
  if token = [] then throw (.invalidArgument "Cron lists cannot contain empty entries")
  let (step, token) ← splitStep token
  if token = ascii "*" then enableRange field field.minimum field.maximum step
  else
    match token.dropWhile (· ≠ 45) with
    | [] =>
      let value ← parseNumber token field.minimum field.maximum names
      let values ← enable field.minimum value field.values
      return { field with values := values }
    | _ :: rest =>
      if (45 : UInt8) ∈ rest then
        throw (.invalidArgument "Cron field contains multiple range separators")
      let first ← parseNumber (token.takeWhile (· ≠ 45)) field.minimum field.maximum names
      let last ← parseNumber rest field.minimum field.maximum names
      enableRange field first last step

/-- The loop over the entries of a list; a comma may stand behind the last one. -/
def parseTokens (names : List Bytes) : Nat → Bytes → Field → Except Exception Field
  | 0, _, field => .ok field
  | _ + 1, [], field => .ok field
  | fuel + 1, source, field => do
    let field ← parseToken names field (source.takeWhile (· ≠ 44))
    match source.dropWhile (· ≠ 44) with
    | [] => return field
    | _ :: rest => parseTokens names fuel rest field

def parseField (source : Bytes) (minimum maximum : Nat) (names : List Bytes) :
    Except Exception Field := do
  let field ← parseTokens names (source.length + 1) source
    ⟨minimum, maximum, source = ascii "*", List.replicate (maximum - minimum + 1) false⟩
  if field.values.all (· = false) then
    throw (.invalidArgument "Cron field does not select any values")
  return field

def monthNames : List Bytes :=
  [ascii "JAN", ascii "FEB", ascii "MAR", ascii "APR", ascii "MAY", ascii "JUN", ascii "JUL",
    ascii "AUG", ascii "SEP", ascii "OCT", ascii "NOV", ascii "DEC"]

def weekdayNames : List Bytes :=
  [ascii "SUN", ascii "MON", ascii "TUE", ascii "WED", ascii "THU", ascii "FRI", ascii "SAT",
    [], [], [], [], []]

end Cron

open Cron

structure CronExpression where
  minute : Field
  hour : Field
  dayOfMonth : Field
  month : Field
  dayOfWeek : Field
  deriving DecidableEq, Repr

namespace CronExpression

/-- The words between spaces. -/
def words (view : Bytes) : List Bytes :=
  (view.splitOnP isSpace).filter (· ≠ [])

def parse (expression : Bytes) : Except Exception CronExpression :=
  match words expression with
  | [minute, hour, dayOfMonth, month, dayOfWeek] => do
    let minute ← parseField minute 0 59 []
    let hour ← parseField hour 0 23 []
    let dayOfMonth ← parseField dayOfMonth 1 31 []
    let month ← parseField month 1 12 monthNames
    let dayOfWeek ← parseField dayOfWeek 0 7 weekdayNames
    return ⟨minute, hour, dayOfMonth, month, dayOfWeek⟩
  | _ => .error (.invalidArgument "Cron expressions must contain exactly five fields")

/-! ## Matching -/

def «matches» (cron : CronExpression) (local_ : LocalDateTime) : Bool :=
  if !cron.minute.contains local_.minute || !cron.hour.contains local_.hour ||
      !cron.month.contains local_.month then false
  else
    let dayOfMonth := cron.dayOfMonth.contains local_.day
    let dayOfWeek := cron.dayOfWeek.contains local_.weekday ||
      (local_.weekday = 0 && cron.dayOfWeek.contains 7)
    if cron.dayOfMonth.wildcard && cron.dayOfWeek.wildcard then true
    else if cron.dayOfMonth.wildcard then dayOfWeek
    else if cron.dayOfWeek.wildcard then dayOfMonth
    else dayOfMonth || dayOfWeek

end CronExpression

/-! ## Tasks -/

structure LockLease where
  key : Bytes
  owner : Bytes
  deriving DecidableEq, Repr

inductive Schedule where
  | interval (width : Int)
  | cron (expression : CronExpression) (timezone : TimeZone)

structure Task where
  name : Bytes
  schedule : Schedule
  preventOverlap : Bool
  oneServer : Bool
  overlapTtl : Int
  oneServerTtl : Int
  lastRun : TimePoint
  hasRun : Bool
  lastCronSlot : Option WallMinute
  overlapTtl_pos : 0 < overlapTtl
  oneServerTtl_pos : 0 < oneServerTtl

namespace Task

/-- A task as its constructors make it. -/
def make (name : Bytes) (schedule : Schedule) : Task where
  name := name
  schedule := schedule
  preventOverlap := false
  oneServer := false
  overlapTtl := 86400000
  oneServerTtl := 86400000
  lastRun := 0
  hasRun := false
  lastCronSlot := none
  overlapTtl_pos := by decide
  oneServerTtl_pos := by decide

variable (task : Task)

variable (now : TimePoint)

def due : Except Exception Bool :=
  match task.schedule with
  | .interval width => .ok (!task.hasRun || now - task.lastRun ≥ width * 1000000)
  | .cron expression timezone => do
    let local_ ← timezone.toLocal now
    return expression.matches local_ && decide (task.lastCronSlot ≠ some (wallMinute local_))

/-! ## Lock keys -/

def overlapLockKey : Bytes := ascii "gungnir:scheduler:overlap:" ++ task.name

/-- What an occurrence of a task is: a minute on the wall or the number of an interval. -/
inductive Slot where
  | wall (minute : WallMinute)
  | number (index : Int)
  deriving DecidableEq, Repr

/-- `milliseconds / width` rounds towards zero, and so does the conversion to milliseconds. -/
def slot : Except Exception Slot :=
  match task.schedule with
  | .interval width =>
    let milliseconds := now.tdiv 1000000
    .ok (.number (if width > 0 then milliseconds.tdiv width else milliseconds))
  | .cron _ timezone => do return .wall (wallMinute (← timezone.toLocal now))

def Slot.text : Slot → Bytes
  | wall minute =>
    stdToStringSigned minute.year ++ ascii "-" ++ stdToString minute.month ++ ascii "-" ++
      stdToString minute.day ++ ascii "-" ++ stdToString minute.hour ++ ascii "-" ++
      stdToString minute.minute
  | number index => stdToStringSigned index

def occurrenceKey (name : Bytes) (slot : Slot) : Bytes :=
  ascii "gungnir:scheduler:single:" ++ name ++ ascii ":" ++ slot.text

def occurrenceLockKey : Except Exception Bytes := do
  return occurrenceKey task.name (← task.slot now)

end Task

/-! ## What a run asks of its environment -/

inductive Request where
  /-- Shall the run end before the next task? -/
  | stopping
  | acquire (key : Bytes) (ttl : Int)
  | release (lease : LockLease)
  /-- The action of a task, in a run at the given time. -/
  | act (task : Task) (now : TimePoint)

def Request.Reply : Request → Type
  | stopping => Bool
  | acquire _ _ => Except Exception (Option LockLease)
  | release _ => Except Exception Bool
  | act _ _ => Except Exception Unit

abbrev Program := Interaction Request Request.Reply

abbrev Exchange := Interaction.Exchange Request Request.Reply

abbrev TaskRun := Interaction.Stateful Request Request.Reply Exception Task

/-- A call that may throw. -/
def ask {α : Type} (request : Request) (read : request.Reply → Except Exception α) : TaskRun α :=
  ExceptT.mk fun task => .call request fun reply => .done (read reply, task)

namespace Task

def acquire (key : Bytes) (ttl : Int) : TaskRun (Option LockLease) := ask (.acquire key ttl) id

def release (lease : LockLease) : TaskRun Bool := ask (.release lease) id

variable (now : TimePoint)

def invokeAction : TaskRun Unit := do
  ask (.act (← get) now) id

def markObserved : TaskRun Unit := do
  modify fun task => { task with lastRun := now, hasRun := true }
  match (← get).schedule with
  | .interval _ => return
  | .cron _ timezone =>
    let local_ ← (timezone.toLocal now : Except Exception LocalDateTime)
    modify fun task => { task with lastCronSlot := some (wallMinute local_) }

def run : TaskRun Unit := do
  invokeAction now
  markObserved now

/-- A task whose lock is not to be had. -/
def skip : TaskRun Bool := do
  markObserved now
  return false

def releaseOverlap (lease : Option LockLease) : TaskRun Unit :=
  match lease with
  | none => pure ()
  | some lease => do
    let _ ← release lease
    return

/-- The action, with the lock that is released behind it. -/
def runLocked (lease : Option LockLease) (now : TimePoint) : TaskRun Bool := do
  tryCatch (run now) fun raised => do
    releaseOverlap lease
    throw raised
  releaseOverlap lease
  return true

def executeUnlessOverlapping : TaskRun Bool := do
  let task ← get
  if task.preventOverlap then
    match ← acquire task.overlapLockKey task.overlapTtl with
    | none => skip now
    | some lease => runLocked (some lease) now
  else runLocked none now

def requiresLocks (name : Bytes) : Exception :=
  ⟨.logicError, ascii "Scheduled task requires a configured lock store: " ++ name⟩

/-- `execute`, where `locks` says whether there is a lock store. -/
def execute (locks : Bool) : TaskRun Bool := do
  let task ← get
  if !task.preventOverlap && !task.oneServer then
    run now
    return true
  else if !locks then throw (requiresLocks task.name)
  else if task.oneServer then
    let key ← (task.occurrenceLockKey now : Except Exception Bytes)
    match ← acquire key task.oneServerTtl with
    | none => skip now
    | some _ => executeUnlessOverlapping now
  else executeUnlessOverlapping now

end Task

/-! ## The scheduler -/

/-- `run_due_until`: the tasks that are due, with how they are left. -/
def runDueUntil (locks : Bool) (now : TimePoint) :
    List Task → Program (Except Exception Nat × List Task)
  | [] => return (.ok 0, [])
  | task :: rest => do
    let stopping : Bool ← Interaction.perform Request.stopping
    if stopping then return (.ok 0, task :: rest)
    else
      match task.due now with
      | .error raised => return (.error raised, task :: rest)
      | .ok false =>
        let (count, others) ← runDueUntil locks now rest
        return (count, task :: others)
      | .ok true =>
        match ← (Task.execute now locks).run.run task with
        | (.error raised, after) => return (.error raised, after :: rest)
        | (.ok executed, after) =>
          let (count, others) ← runDueUntil locks now rest
          return (count.map (· + if executed then 1 else 0), after :: others)

end Gungnir.Scheduler
