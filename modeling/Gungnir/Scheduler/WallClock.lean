import Gungnir.Scheduler.Execution

/-!
# Minutes on the wall

A cron task remembers the wall minute of its last run only. So a minute that comes again
because the clock is set back is skipped if no other matching minute has been seen in between, and
is run again otherwise.
-/

namespace Gungnir.Scheduler

open Gungnir.Core Gungnir.Library Interaction List

/-! ## Histories -/

/-- A run of the scheduler at an instant, with what it has asked and heard. -/
structure Run where
  now : TimePoint
  trace : List Exchange

/-- Runs one after the other. -/
inductive Runs (locks : Bool) : List Task → List Run → List Task → Prop where
  | nil (tasks : List Task) : Runs locks tasks [] tasks
  | cons {now : TimePoint} {trace : List Exchange} {result : Except Exception Nat}
      {tasks middle last : List Task} {rest : List Run}
      (first : Returns (runDueUntil locks now tasks) trace (result, middle))
      (others : Runs locks middle rest last) : Runs locks tasks (⟨now, trace⟩ :: rest) last

/-- The executions of a task. -/
def executions (name : Bytes) (history : List Run) : List Performed :=
  history.flatMap fun run => actionsOf name (acts run.trace)

def wallMinuteAt (timezone : TimeZone) (now : TimePoint) : Option WallMinute :=
  (timezone.toLocal now).toOption.map wallMinute

/-- The wall minutes of the executions of a task are all different: for any tasks beside it, any
lock store and any instants in their order. Whether actions may throw is a parameter. -/
def OncePerMinute (throwing : Bool) (expression : CronExpression) (timezone : TimeZone) : Prop :=
  ∀ (locks : Bool) (tasks last : List Task) (history : List Run), Runs locks tasks history last →
    (tasks.map Task.name).Nodup → (history.map Run.now).Pairwise (· ≤ ·) →
    ∀ task ∈ tasks, task.schedule = .cron expression timezone →
      (throwing = false → ∀ action ∈ executions task.name history, action.succeeded = true) →
      ((executions task.name history).map fun action => wallMinuteAt timezone action.now).Nodup

/-- An instant at which the expression matches. -/
def MatchesAt (expression : CronExpression) (timezone : TimeZone) (now : TimePoint)
    (minute : WallMinute) : Prop :=
  ∃ local_, timezone.toLocal now = .ok local_ ∧ expression.matches local_ = true ∧
    wallMinute local_ = minute

variable {now : TimePoint} {minute : WallMinute}

theorem MatchesAt.wallMinuteAt {expression : CronExpression} {timezone : TimeZone}
    (matching : MatchesAt expression timezone now minute) :
    wallMinuteAt timezone now = some minute := by
  obtain ⟨local_, converted, _, rfl⟩ := matching
  unfold Scheduler.wallMinuteAt
  rw [converted]
  rfl

/-- No matching minute comes again after another matching minute. -/
def NoReturn (expression : CronExpression) (timezone : TimeZone) : Prop :=
  ∀ first second third minute other, first ≤ second → second ≤ third →
    MatchesAt expression timezone first minute → MatchesAt expression timezone second other →
    MatchesAt expression timezone third minute → other = minute

/-! ## What the task remembers -/

variable {expression : CronExpression} {timezone : TimeZone}

/-- Some executions, and the task behind them at an instant. -/
structure Remembers (expression : CronExpression) (timezone : TimeZone) (task : Task)
    (actions : List Performed) (instant : TimePoint) : Prop where
  schedule : task.schedule = .cron expression timezone
  distinct : (actions.map fun action => wallMinuteAt timezone action.now).Nodup
  seen : ∀ action ∈ actions, ∃ minute, MatchesAt expression timezone action.now minute ∧
    ∃ recorded other, action.now ≤ recorded ∧ recorded ≤ instant ∧
      MatchesAt expression timezone recorded other ∧ task.lastCronSlot = some other

variable {task : Task}

theorem due_matches (schedule : task.schedule = .cron expression timezone)
    (isDue : task.due now = .ok true) :
    ∃ minute, MatchesAt expression timezone now minute ∧ task.lastCronSlot ≠ some minute ∧
      ∀ local_, task.Converts now local_ →
        (task.observed now local_).lastCronSlot = some minute := by
  unfold Task.due at isDue
  rw [schedule] at isDue
  cases converted : timezone.toLocal now with
  | error raised =>
    simp only [converted] at isDue
    cases isDue
  | ok local_ =>
    simp only [converted] at isDue
    obtain ⟨matching, other⟩ := Bool.and_eq_true_iff.mp (Except.ok.inj isDue)
    refine ⟨wallMinute local_, ⟨local_, converted, matching, rfl⟩, of_decide_eq_true other,
      fun again converts => ?_⟩
    unfold Task.Converts at converts
    rw [schedule] at converts
    cases converted.symm.trans converts
    unfold Task.observed
    rw [schedule]

theorem observed_schedule (task : Task) (now : TimePoint) (local_ : LocalDateTime) :
    (task.observed now local_).schedule = task.schedule := by
  unfold Task.observed
  split
  · rename_i schedule
    exact schedule ▸ rfl
  · rename_i schedule
    exact schedule ▸ rfl

variable {actions : List Performed} {earlier : TimePoint} {after : Task}

theorem Remembers.observe (remembers : Remembers expression timezone task actions earlier)
    (later : earlier ≤ now) (matching : MatchesAt expression timezone now minute)
    (schedule : after.schedule = task.schedule) (slot : after.lastCronSlot = some minute) :
    Remembers expression timezone after actions now where
  schedule := schedule.trans remembers.schedule
  distinct := remembers.distinct
  seen := by
    intro action member
    obtain ⟨one, itself, recorded, _, before, until_, _⟩ := remembers.seen action member
    exact ⟨one, itself, now, minute, before.trans (until_.trans later), Int.le_refl _, matching, slot⟩

section

variable (noReturn : NoReturn expression timezone)
include noReturn

/-- The first run in a minute that does not come again. -/
theorem Remembers.act (remembers : Remembers expression timezone task actions earlier)
    (later : earlier ≤ now) (matching : MatchesAt expression timezone now minute)
    (new : task.lastCronSlot ≠ some minute) (schedule : after.schedule = task.schedule)
    (slot : after.lastCronSlot = some minute) :
    Remembers expression timezone after (actions ++ [⟨task, now, true⟩]) now := by
  have observed := remembers.observe later matching schedule slot
  refine ⟨observed.schedule, ?_, fun action member => ?_⟩
  · rw [map_append, map_singleton]
    refine nodup_append'.mpr ⟨remembers.distinct, nodup_singleton _, ?_⟩
    rw [disjoint_singleton]
    intro repeated
    obtain ⟨action, member, same⟩ := mem_map.mp repeated
    obtain ⟨one, itself, recorded, other, before, until_, seen, last⟩ :=
      remembers.seen action member
    rw [itself.wallMinuteAt, matching.wallMinuteAt] at same
    cases same
    have equal := noReturn action.now recorded now minute other before (until_.trans later) itself
      seen matching
    exact new (last.trans (congrArg some equal))
  · rcases mem_append.mp member with before | added
    · exact observed.seen action before
    · rw [mem_singleton.mp added]
      exact ⟨minute, matching, now, minute, Int.le_refl _, Int.le_refl _, matching, slot⟩

/-- One run, in which no action throws at an instant that matches. -/
theorem Remembers.step {own : List Performed}
    (remembers : Remembers expression timezone task actions earlier) (later : earlier ≤ now)
    (step : task.Step now own after) (successful : ∀ action ∈ own, ∀ minute,
      MatchesAt expression timezone action.now minute → action.succeeded = true) :
    Remembers expression timezone after (actions ++ own) now := by
  have waits : Remembers expression timezone task actions now := by
    refine ⟨remembers.schedule, remembers.distinct, fun action member => ?_⟩
    obtain ⟨one, itself, recorded, other, before, until_, rest⟩ := remembers.seen action member
    exact ⟨one, itself, recorded, other, before, until_.trans later, rest⟩
  cases step with
  | untouched =>
    rw [append_nil]
    exact waits
  | @due local_ _ _ isDue converts outcome =>
    obtain ⟨minute, matching, new, slot⟩ := due_matches remembers.schedule isDue
    cases outcome with
    | kept =>
      rw [append_nil]
      exact waits
    | skipped =>
      rw [append_nil]
      exact remembers.observe later matching (observed_schedule task now local_)
        (slot local_ converts)
    | succeeded =>
      exact remembers.act noReturn later matching new (observed_schedule task now local_)
        (slot local_ converts)
    | failed => cases successful _ mem_cons_self minute matching

theorem Runs.remembers {locks : Bool} {tasks last : List Task} {history : List Run}
    (runs : Runs locks tasks history last) (distinct : (tasks.map Task.name).Nodup)
    (ordered : (history.map Run.now).Pairwise (· ≤ ·))
    (later : ∀ run ∈ history, earlier ≤ run.now) (member : task ∈ tasks)
    (remembers : Remembers expression timezone task actions earlier)
    (successful : ∀ action ∈ executions task.name history, ∀ minute,
      MatchesAt expression timezone action.now minute → action.succeeded = true) :
    ((actions ++ executions task.name history).map fun action =>
      wallMinuteAt timezone action.now).Nodup := by
  induction runs generalizing earlier task actions with
  | nil tasks =>
    rw [executions, flatMap_nil, append_nil]
    exact remembers.distinct
  | @cons now trace result tasks middle last rest first others ih =>
    have steps := runDueUntil_steps first
    obtain ⟨left, listed, step⟩ := steps.of_mem distinct member
    obtain ⟨next, afterwards⟩ := forall_mem_cons.mp later
    rw [map_cons, pairwise_cons] at ordered
    have split : executions task.name (⟨now, trace⟩ :: rest) =
        actionsOf task.name (acts trace) ++ executions task.name rest := flatMap_cons
    rw [split] at successful ⊢
    have kept := remembers.step noReturn next step fun action own =>
      successful action (mem_append_left _ own)
    have name := step.name
    rw [← name] at successful ⊢
    rw [← append_assoc]
    rw [← name] at kept
    refine ih (steps.names ▸ distinct) ordered.2 (fun run there => ?_) listed kept
      fun action there => successful action (mem_append_right _ there)
    exact ordered.1 run.now (mem_map_of_mem there)

theorem oncePerMinute_of_noReturn {throwing : Bool}
    (unmatched : throwing = true → ∀ now minute, ¬MatchesAt expression timezone now minute) :
    OncePerMinute throwing expression timezone := by
  intro locks tasks last history runs distinct ordered task member schedule successful
  cases history with
  | nil => exact .nil
  | cons run rest =>
    have remembers : Remembers expression timezone task [] run.now :=
      ⟨schedule, .nil, forall_mem_nil _⟩
    have later : ∀ other ∈ run :: rest, run.now ≤ other.now :=
      forall_mem_cons.mpr ⟨Int.le_refl _, fun other there =>
        (pairwise_cons.mp ordered).1 other.now (mem_map_of_mem there)⟩
    refine runs.remembers noReturn distinct ordered later member remembers
      fun action listed minute matching => ?_
    cases throwing with
    | false => exact successful rfl action listed
    | true => exact absurd matching (unmatched rfl action.now minute)

end

/-! ## Minutes that come again -/

/-- A task without locks that is due, alone in a scheduler. -/
theorem returns_single {local_ : LocalDateTime}
    (plain : task.preventOverlap = false ∧ task.oneServer = false) (isDue : task.due now = .ok true)
    (converts : task.Converts now local_) (reply : Except Exception Unit) :
    ∃ result, Returns (runDueUntil false now [task]) [⟨.stopping, false⟩, ⟨.act task now, reply⟩]
      (result, [if reply.isOk then task.observed now local_ else task]) := by
  obtain ⟨_, slot, _, found⟩ := Task.due_converts isDue
  have executes : (Task.execute now false).run.run task = (Task.runLocked none now).run.run task := by
    rw [Task.execute_eq converts found, plain.1, plain.2]
    rfl
  rw [runDueUntil, isDue]
  dsimp only
  rw [executes, Task.runLocked_eq converts]
  cases reply with
  | ok value =>
    refine ⟨.ok 1, Reaches.step _ ?_⟩
    exact Reaches.step _ (.here _)
  | error raised =>
    refine ⟨.error raised, Reaches.step _ ?_⟩
    exact Reaches.step _ (.here _)

/-- A task of the expression without locks, as it is registered. -/
def plainTask (expression : CronExpression) (timezone : TimeZone) (last : Option WallMinute)
    (lastRun : TimePoint) (hasRun : Bool) : Task :=
  { Task.make (ascii "task") (.cron expression timezone) with
    lastCronSlot := last, lastRun := lastRun, hasRun := hasRun }

theorem plainTask_due {last : Option WallMinute}
    (matching : MatchesAt expression timezone now minute) (other : last ≠ some minute)
    (lastRun : TimePoint) (hasRun : Bool) :
    ∃ local_, (plainTask expression timezone last lastRun hasRun).due now = .ok true ∧
      (plainTask expression timezone last lastRun hasRun).Converts now local_ ∧
      (plainTask expression timezone last lastRun hasRun).observed now local_ =
        plainTask expression timezone (some minute) now true := by
  obtain ⟨local_, converted, matches_, rfl⟩ := matching
  refine ⟨local_, ?_, converted, rfl⟩
  unfold Task.due plainTask
  dsimp only [Task.make]
  rw [converted]
  change Except.ok (_ && _) = _
  rw [matches_, decide_eq_true other]
  rfl

/-- A run in which the action of such a task is started. -/
theorem runs_plainTask {now : TimePoint} {minute : WallMinute} {last : Option WallMinute}
    (matching : MatchesAt expression timezone now minute) (other : last ≠ some minute)
    (lastRun : TimePoint) (hasRun : Bool) (reply : Except Exception Unit) {rest : List Run}
    {left : List Task}
    (others : Runs false [if reply.isOk then plainTask expression timezone (some minute) now true
      else plainTask expression timezone last lastRun hasRun] rest left) :
    Runs false [plainTask expression timezone last lastRun hasRun]
      (⟨now, [⟨.stopping, false⟩,
        ⟨.act (plainTask expression timezone last lastRun hasRun) now, reply⟩]⟩ :: rest) left := by
  obtain ⟨local_, isDue, converts, observed⟩ := plainTask_due matching other lastRun hasRun
  obtain ⟨result, returns⟩ := returns_single ⟨rfl, rfl⟩ isDue converts reply
  rw [observed] at returns
  exact .cons returns others

/-- The first and the last of three runs are in one minute and the second is not. -/
theorem noReturn_of_oncePerMinute (once : OncePerMinute false expression timezone) :
    NoReturn expression timezone := by
  intro first second third minute other before after one two three
  by_contra different
  have again := @runs_plainTask _ _ _ _ (some other) three
    (fun same => different (Option.some.inj same)) second true (.ok ()) _ _ (.nil _)
  have between := @runs_plainTask _ _ _ _ (some minute) two
    (fun same => different (Option.some.inj same).symm) first true (.ok ()) _ _ again
  have runs := @runs_plainTask _ _ _ _ none one nofun 0 false (.ok ()) _ _ between
  have ordered : [first, second, third].Pairwise (· ≤ ·) :=
    pairwise_cons.mpr ⟨forall_mem_cons.mpr ⟨before, forall_mem_singleton.mpr
      (Int.le_trans before after)⟩, pairwise_pair.mpr after⟩
  have distinct := once false _ _ _ runs (nodup_singleton _) ordered _ mem_cons_self rfl
    fun _ => forall_mem_cons.mpr ⟨rfl, forall_mem_cons.mpr
      ⟨rfl, forall_mem_singleton.mpr rfl⟩⟩
  have repeated : ([wallMinuteAt timezone first, wallMinuteAt timezone second,
      wallMinuteAt timezone third]).Nodup := distinct
  rw [one.wallMinuteAt, three.wallMinuteAt] at repeated
  exact (nodup_cons.mp repeated).1 (mem_cons_of_mem _ mem_cons_self)

/-- If an action may throw, it is started again in the same minute. -/
theorem not_oncePerMinute_throwing (matching : MatchesAt expression timezone now minute) :
    ¬OncePerMinute true expression timezone := by
  intro once
  let raised : Except Exception Unit := .error ⟨.runtimeError, []⟩
  have again := @runs_plainTask _ _ _ _ none matching nofun 0 false raised _ _ (.nil _)
  have runs := @runs_plainTask _ _ _ _ none matching nofun 0 false raised _ _ again
  have distinct := once false _ _ _ runs (nodup_singleton _)
    (pairwise_pair.mpr (Int.le_refl now)) _ mem_cons_self rfl nofun
  have repeated : [wallMinuteAt timezone now, wallMinuteAt timezone now].Nodup := distinct
  exact (nodup_cons.mp repeated).1 mem_cons_self

/-- An action that does not throw is executed once per wall minute, for every sequence of instants,
if and only if no matching minute comes again after another matching minute. If actions may throw,
this holds for an expression that never matches only. -/
theorem wall_minute_once (expression : CronExpression) (timezone : TimeZone) :
    (OncePerMinute false expression timezone ↔ NoReturn expression timezone) ∧
      (OncePerMinute true expression timezone ↔
        ∀ now minute, ¬MatchesAt expression timezone now minute) := by
  refine ⟨⟨noReturn_of_oncePerMinute, fun noReturn => ?_⟩, ⟨?_, fun never => ?_⟩⟩
  · exact oncePerMinute_of_noReturn noReturn fun impossible => absurd impossible (by decide)
  · exact fun once now minute matching => not_oncePerMinute_throwing matching once
  · have noReturn : NoReturn expression timezone :=
      fun first _ _ minute _ _ _ one => absurd one (never first minute)
    exact oncePerMinute_of_noReturn noReturn fun _ => never

/-- If the clock is set forth and back by an hour, an expression that matches one minute of an
hour does not return to a minute: what lies between is less than an hour. -/
theorem noReturn_recurring {expression : CronExpression} {minute : Nat}
    (hourly : ∀ value, expression.minute.contains value = true → value = minute) (name : Bytes)
    {rules : RecurringRules} (hour : rules.daylightOffset = rules.standardOffset + 60) :
    NoReturn expression ⟨name, recurringToLocal rules⟩ := by
  have converted : ∀ {now wall}, MatchesAt expression ⟨name, recurringToLocal rules⟩ now wall →
      ∃ offset daylight, daylightAt rules now = .ok daylight ∧
        offset = (if daylight then rules.daylightOffset else rules.standardOffset) ∧
        wallMinute (localFromOffset now offset daylight) = wall ∧
        (floorMinutes now + offset) % 60 = minute := by
    rintro now _ ⟨local_, found, matching, rfl⟩
    dsimp only [recurringToLocal] at found
    cases known : daylightAt rules now with
    | error raised =>
      rw [known] at found
      cases found
    | ok daylight =>
      rw [known] at found
      cases found
      refine ⟨_, daylight, rfl, rfl, rfl, ?_⟩
      rw [← minute_localFromOffset _ _ daylight]
      refine congrArg _ (hourly _ (Bool.eq_true_of_not_eq_false fun other => ?_))
      rw [CronExpression.matches, other] at matching
      cases matching
  have agree : ∀ {one two wall other}, MatchesAt expression ⟨name, recurringToLocal rules⟩ one wall →
      MatchesAt expression ⟨name, recurringToLocal rules⟩ two other →
      floorMinutes two = floorMinutes one → other = wall := by
    intro one two wall other first second same
    obtain ⟨_, daylight, known, rfl, rfl, _⟩ := converted first
    obtain ⟨_, others, found, rfl, rfl, _⟩ := converted second
    rw [daylightAt_congr rules same, known] at found
    cases found
    exact wallMinute_localFromOffset_congr daylight same
  intro first second third wall other before after one two three
  obtain ⟨early, _, _, earlyOffset, earlyWall, atFirst⟩ := converted one
  obtain ⟨middle, _, _, middleOffset, _, atSecond⟩ := converted two
  obtain ⟨late, _, _, lateOffset, lateWall, atThird⟩ := converted three
  have ends := wallMinute_localFromOffset_inj (earlyWall.trans lateWall.symm)
  have up : floorMinutes first ≤ floorMinutes second := Int.ediv_le_ediv (by decide) before
  have down : floorMinutes second ≤ floorMinutes third := Int.ediv_le_ediv (by decide) after
  have near : floorMinutes second = floorMinutes first ∨ floorMinutes second = floorMinutes third := by
    rw [hour] at earlyOffset middleOffset lateOffset
    split at earlyOffset <;> split at middleOffset <;> split at lateOffset <;> omega
  rcases near with same | same
  · exact agree one two same
  · exact agree three two same

/-! ## A night in autumn -/

/-- Replies without refusals and exceptions. -/
def granting : (request : Request) → request.Reply
  | .stopping => false
  | .acquire key _ => (.ok (some ⟨key, []⟩) : Except Exception (Option LockLease))
  | .release _ => (.ok true : Except Exception Bool)
  | .act _ _ => (.ok () : Except Exception Unit)

/-- Runs at some instants, with such replies. -/
def simulate (locks : Bool) : List Task → List TimePoint → List Run × List Task
  | tasks, [] => ([], tasks)
  | tasks, now :: rest =>
    let ran := interpret granting (runDueUntil locks now tasks)
    let later := simulate locks ran.2.2 rest
    (⟨now, ran.1⟩ :: later.1, later.2)

theorem runs_simulate (locks : Bool) (tasks : List Task) (instants : List TimePoint) :
    Runs locks tasks (simulate locks tasks instants).1 (simulate locks tasks instants).2 := by
  induction instants generalizing tasks with
  | nil => exact .nil tasks
  | cons now rest ih => exact .cons (returns_interpret granting _) (ih _)

/-- New York, with the rules of the test of the repository. -/
def eastern : TimeZone :=
  match recurringTimeZone (ascii "America/New_York")
    ⟨-300, -240, ⟨3, 2, 0, 120⟩, ⟨11, 1, 0, 120⟩⟩ with
  | .ok timezone => timezone
  | .error _ => utcTimeZone

/-- Every half hour between one and two. -/
def halfHourly : CronExpression :=
  match CronExpression.parse (ascii "*/30 1 * * *") with
  | .ok expression => expression
  | .error _ => ⟨⟨0, 0, true, []⟩, ⟨0, 0, true, []⟩, ⟨0, 0, true, []⟩, ⟨0, 0, true, []⟩,
      ⟨0, 0, true, []⟩⟩

def report : Task := .make (ascii "report") (.cron halfHourly eastern)

/-- 5:00, 5:30 and 6:00 UTC on the first of November 2026. -/
def autumnNight : List TimePoint :=
  [1793509200000000000, 1793511000000000000, 1793512800000000000]

theorem minute_run_again :
    Runs false [report] (simulate false [report] autumnNight).1
        (simulate false [report] autumnNight).2 ∧
      (executions (ascii "report") (simulate false [report] autumnNight).1).map
          (fun action => wallMinuteAt eastern action.now) =
        [some ⟨2026, 11, 1, 1, 0⟩, some ⟨2026, 11, 1, 1, 30⟩, some ⟨2026, 11, 1, 1, 0⟩] :=
  ⟨runs_simulate false [report] autumnNight, by decide⟩

/-- Every hour. -/
def hourly : CronExpression :=
  match CronExpression.parse (ascii "0 * * * *") with
  | .ok expression => expression
  | .error _ => halfHourly

theorem wall_minute_once_eastern : OncePerMinute false hourly eastern := by
  have once : ∀ value, hourly.minute.contains value = true → value = 0 := by
    intro value contained
    have listed : ∀ value < 60, hourly.minute.contains value = true → value = 0 := by decide +kernel
    by_cases small : value < 60
    · exact listed value small contained
    · have none : hourly.minute.contains value = false := if_pos (Or.inr (Nat.not_lt.mp small))
      cases none.symm.trans contained
  exact (wall_minute_once hourly eastern).1.mpr (noReturn_recurring once _ rfl)

end Gungnir.Scheduler
