import Gungnir.Scheduler.Task

/-!
# What the execution of a task does

The programs of a task, call by call, and what a task looks like behind them.
-/

namespace Gungnir.Scheduler

open Gungnir.Core Gungnir.Library Interaction List

namespace Task

variable {task : Task} {now : TimePoint}

/-- The task after `mark_observed`, if the time can be converted. -/
def observed (task : Task) (now : TimePoint) (local_ : LocalDateTime) : Task :=
  match task.schedule with
  | .interval _ => { task with lastRun := now, hasRun := true }
  | .cron _ _ =>
    { task with lastRun := now, hasRun := true, lastCronSlot := some (wallMinute local_) }

/-- The time of a cron task can be converted. -/
def Converts (task : Task) (now : TimePoint) (local_ : LocalDateTime) : Prop :=
  match task.schedule with
  | .interval _ => True
  | .cron _ timezone => timezone.toLocal now = .ok local_

variable {local_ : LocalDateTime}

def releaseThen (lease : Option LockLease) (result : Except Exception Bool) (task : Task) :
    Program (Except Exception Bool × Task) :=
  match lease with
  | none => .done (result, task)
  | some lease => .call (.release lease) fun reply : Except Exception Bool =>
    match reply with
    | .ok _ => .done (result, task)
    | .error raised => .done (.error raised, task)

theorem releaseOverlap_bind (lease : Option LockLease) (next : TaskRun Bool)
    {result : Except Exception Bool} (ends : next.run.run task = .done (result, task)) :
    (do releaseOverlap lease; next : TaskRun Bool).run.run task = releaseThen lease result task := by
  cases lease with
  | none => exact ends
  | some lease =>
    change Interaction.call _ _ = Interaction.call _ _
    congr 1
    funext reply
    cases reply with
    | ok value => exact ends
    | error raised => rfl

/-- The overlap lock and what follows it. -/
def overlapProgram (task : Task) (now : TimePoint) (local_ : LocalDateTime) :
    Program (Except Exception Bool × Task) :=
  if task.preventOverlap then
    .call (.acquire task.overlapLockKey task.overlapTtl)
      fun reply : Except Exception (Option LockLease) =>
        match reply with
        | .error raised => .done (.error raised, task)
        | .ok none => .done (.ok false, task.observed now local_)
        | .ok (some lease) => (runLocked (some lease) now).run.run task
  else (runLocked none now).run.run task

section

variable (converts : task.Converts now local_)
include converts

theorem markObserved_eq :
    (markObserved now).run.run task = .done (.ok (), task.observed now local_) := by
  have unfolded : (markObserved now).run.run task =
      (match task.schedule with
        | .interval _ => pure ()
        | .cron _ timezone => do
          let local_ ← (timezone.toLocal now : Except Exception LocalDateTime)
          modify fun task => { task with lastCronSlot := some (wallMinute local_) } :
        TaskRun Unit).run.run { task with lastRun := now, hasRun := true } := rfl
  rw [unfolded]
  unfold observed
  unfold Converts at converts
  cases schedule : task.schedule with
  | interval width => rfl
  | cron expression timezone =>
    rw [schedule] at converts
    dsimp only at converts ⊢
    rw [converts]
    rfl

theorem run_eq :
    (run now).run.run task = .call (.act task now) fun reply : Except Exception Unit =>
      match reply with
      | .ok () => .done (.ok (), task.observed now local_)
      | .error raised => .done (.error raised, task) := by
  have unfolded : (run now).run.run task = .call (.act task now) fun reply : Except Exception Unit =>
      match reply with
      | .ok () => (markObserved now).run.run task
      | .error raised => .done (.error raised, task) := by
    change Interaction.call _ _ = _
    congr 1
    funext reply
    cases reply with
    | ok value => rfl
    | error raised => rfl
  rw [unfolded, markObserved_eq converts]

theorem skip_eq : (skip now).run.run task = .done (.ok false, task.observed now local_) := by
  unfold skip
  rw [run_bind, markObserved_eq converts]
  rfl

theorem runLocked_eq (lease : Option LockLease) :
    (runLocked lease now).run.run task =
      .call (.act task now) fun reply : Except Exception Unit =>
        match reply with
        | .ok () => releaseThen lease (.ok true) (task.observed now local_)
        | .error raised => releaseThen lease (.error raised) task := by
  unfold runLocked
  rw [run_bind, run_tryCatch, run_eq converts]
  change Interaction.call _ _ = Interaction.call _ _
  congr 1
  funext reply
  cases reply with
  | ok value => exact releaseOverlap_bind lease (pure true) rfl
  | error raised =>
    cases lease with
    | none => rfl
    | some lease =>
      change Interaction.call _ _ = Interaction.call _ _
      congr 1
      funext released
      cases released with
      | ok value => rfl
      | error other => rfl

theorem executeUnlessOverlapping_eq :
    (executeUnlessOverlapping now).run.run task = overlapProgram task now local_ := by
  have unfolded : (executeUnlessOverlapping now).run.run task =
      (if task.preventOverlap then do
        match ← acquire task.overlapLockKey task.overlapTtl with
        | none => skip now
        | some lease => runLocked (some lease) now
      else runLocked none now : TaskRun Bool).run.run task := rfl
  rw [unfolded]
  unfold overlapProgram
  split
  · change Interaction.call _ _ = Interaction.call _ _
    congr 1
    funext reply
    match reply with
    | .error raised => rfl
    | .ok none => exact skip_eq converts
    | .ok (some lease) => rfl
  · rfl

theorem execute_eq {slot : Slot} (found : task.slot now = .ok slot) (locks : Bool) :
    (execute now locks).run.run task =
      if !task.preventOverlap && !task.oneServer then (runLocked none now).run.run task
      else if !locks then .done (.error (requiresLocks task.name), task)
      else if task.oneServer then
        .call (.acquire (occurrenceKey task.name slot) task.oneServerTtl)
          fun reply : Except Exception (Option LockLease) =>
            match reply with
            | .error raised => .done (.error raised, task)
            | .ok none => .done (.ok false, task.observed now local_)
            | .ok (some _) => overlapProgram task now local_
      else overlapProgram task now local_ := by
  have unfolded : (execute now locks).run.run task =
      (if !task.preventOverlap && !task.oneServer then do
        run now
        return true
      else if !locks then throw (requiresLocks task.name)
      else if task.oneServer then do
        let key ← (task.occurrenceLockKey now : Except Exception Bytes)
        match ← acquire key task.oneServerTtl with
        | none => skip now
        | some _ => executeUnlessOverlapping now
      else executeUnlessOverlapping now : TaskRun Bool).run.run task := rfl
  have key : task.occurrenceLockKey now = .ok (occurrenceKey task.name slot) := by
    unfold occurrenceLockKey
    rw [found]
    rfl
  rw [unfolded, key]
  split
  · rw [run_bind, run_eq converts, runLocked_eq converts]
    change Interaction.call _ _ = Interaction.call _ _
    congr 1
    funext reply
    cases reply with
    | ok value => rfl
    | error raised => rfl
  · split
    · rfl
    · split
      · change Interaction.call _ _ = Interaction.call _ _
        congr 1
        funext reply
        match reply with
        | .error raised => rfl
        | .ok none => exact skip_eq converts
        | .ok (some lease) => exact executeUnlessOverlapping_eq converts
      · exact executeUnlessOverlapping_eq converts

end

/-- A task that is due has a time and a slot. -/
theorem due_converts (isDue : task.due now = .ok true) :
    ∃ local_ slot, task.Converts now local_ ∧ task.slot now = .ok slot := by
  unfold due at isDue
  unfold Converts Task.slot
  cases schedule : task.schedule with
  | interval width => exact ⟨⟨0, 0, 0, 0, 0, 0, 0, false⟩, _, trivial, rfl⟩
  | cron expression timezone =>
    rw [schedule] at isDue
    dsimp only at isDue ⊢
    cases converted : timezone.toLocal now with
    | error raised =>
      rw [converted] at isDue
      cases isDue
    | ok local_ => exact ⟨local_, .wall (wallMinute local_), rfl, rfl⟩

end Task

/-! ## Actions in a trace -/

/-- An action that has been started, and whether it has returned. -/
structure Performed where
  task : Task
  now : TimePoint
  succeeded : Bool

def performed : Exchange → Option Performed
  | ⟨.act task now, reply⟩ => some ⟨task, now, Except.isOk (reply : Except Exception Unit)⟩
  | ⟨.stopping, _⟩ | ⟨.acquire _ _, _⟩ | ⟨.release _, _⟩ => none

def acts (trace : List Exchange) : List Performed := trace.filterMap performed

theorem acts_append (early late : List Exchange) : acts (early ++ late) = acts early ++ acts late :=
  filterMap_append

namespace Task

variable {task : Task} {now : TimePoint}

/-- What the execution of a task that is due comes to. -/
inductive Outcome (task : Task) (now : TimePoint) (local_ : LocalDateTime) :
    List Performed → Task → Prop where
  | kept : Outcome task now local_ [] task
  | skipped : Outcome task now local_ [] (task.observed now local_)
  | succeeded : Outcome task now local_ [⟨task, now, true⟩] (task.observed now local_)
  | failed : Outcome task now local_ [⟨task, now, false⟩] task

variable {local_ : LocalDateTime} {trace : List Exchange} {result : Except Exception Bool}
  {after : Task}

theorem acts_releaseThen {lease : Option LockLease} {outcome : Except Exception Bool}
    (returns : Returns (releaseThen lease outcome task) trace (result, after)) :
    acts trace = [] ∧ after = task := by
  cases lease with
  | none =>
    cases returns
    exact ⟨rfl, rfl⟩
  | some lease =>
    obtain ⟨reply, rest, rfl, behind⟩ := Returns.of_call returns
    match reply with
    | .ok _ | .error _ =>
      cases behind
      exact ⟨rfl, rfl⟩

section

variable (converts : task.Converts now local_)
include converts

theorem runLocked_outcome {lease : Option LockLease}
    (returns : Returns ((runLocked lease now).run.run task) trace (result, after)) :
    Outcome task now local_ (acts trace) after := by
  rw [runLocked_eq converts] at returns
  obtain ⟨reply, rest, rfl, behind⟩ := Returns.of_call returns
  match reply with
  | .ok () =>
    obtain ⟨none, rfl⟩ := acts_releaseThen behind
    have listed : acts (⟨.act task now, .ok ()⟩ :: rest) = [⟨task, now, true⟩] := congrArg _ none
    rw [listed]
    exact .succeeded
  | .error raised =>
    obtain ⟨none, rfl⟩ := acts_releaseThen behind
    have listed : acts (⟨.act after now, .error raised⟩ :: rest) = [⟨after, now, false⟩] :=
      congrArg _ none
    rw [listed]
    exact .failed

theorem overlapProgram_outcome
    (returns : Returns (overlapProgram task now local_) trace (result, after)) :
    Outcome task now local_ (acts trace) after := by
  unfold overlapProgram at returns
  split at returns
  · obtain ⟨reply, rest, rfl, behind⟩ := Returns.of_call returns
    match reply with
    | .error raised =>
      cases behind
      exact .kept
    | .ok none =>
      cases behind
      exact .skipped
    | .ok (some lease) =>
      change Outcome task now local_ (acts rest) after
      exact runLocked_outcome converts behind
  · exact runLocked_outcome converts returns

theorem execute_outcome {slot : Slot} (found : task.slot now = .ok slot) {locks : Bool}
    (returns : Returns ((execute now locks).run.run task) trace (result, after)) :
    Outcome task now local_ (acts trace) after := by
  rw [execute_eq converts found] at returns
  split at returns
  · exact runLocked_outcome converts returns
  · split at returns
    · cases returns
      exact .kept
    · split at returns
      · obtain ⟨reply, rest, rfl, behind⟩ := Returns.of_call returns
        match reply with
        | .error raised =>
          cases behind
          exact .kept
        | .ok none =>
          cases behind
          exact .skipped
        | .ok (some lease) =>
          change Outcome task now local_ (acts rest) after
          exact overlapProgram_outcome converts behind
      · exact overlapProgram_outcome converts returns

end

theorem observed_name (task : Task) (now : TimePoint) (local_ : LocalDateTime) :
    (task.observed now local_).name = task.name := by
  unfold observed
  split
  · rfl
  · rfl

theorem Outcome.name {own : List Performed} (outcome : Outcome task now local_ own after) :
    after.name = task.name := by
  cases outcome with
  | kept | failed => rfl
  | skipped | succeeded => exact observed_name task now local_

theorem Outcome.own {own : List Performed} (outcome : Outcome task now local_ own after) :
    ∀ action ∈ own, action.task = task ∧ action.now = now := by
  cases outcome with
  | kept | skipped => exact forall_mem_nil _
  | succeeded | failed => exact forall_mem_singleton.mpr ⟨rfl, rfl⟩

/-- What a run of the scheduler does to a task. -/
inductive Step (now : TimePoint) (task : Task) : List Performed → Task → Prop where
  | untouched : Step now task [] task
  | due {local_ : LocalDateTime} {own : List Performed} {after : Task}
      (isDue : task.due now = .ok true) (converts : task.Converts now local_)
      (outcome : Outcome task now local_ own after) : Step now task own after

theorem Step.name {own : List Performed} (step : Step now task own after) :
    after.name = task.name := by
  cases step with
  | untouched => rfl
  | due isDue converts outcome => exact outcome.name

theorem Step.own {own : List Performed} (step : Step now task own after) :
    ∀ action ∈ own, action.task = task ∧ action.now = now := by
  cases step with
  | untouched => exact forall_mem_nil _
  | due isDue converts outcome => exact outcome.own

end Task

/-! ## A run of the scheduler -/

/-- The tasks one by one, with the actions of each. -/
inductive Steps (now : TimePoint) : List Task → List Performed → List Task → Prop where
  | nil : Steps now [] [] []
  | cons {task after : Task} {own others : List Performed} {rest left : List Task}
      (step : task.Step now own after) (steps : Steps now rest others left) :
      Steps now (task :: rest) (own ++ others) (after :: left)

theorem Steps.untouched (now : TimePoint) (tasks : List Task) : Steps now tasks [] tasks := by
  induction tasks with
  | nil => exact .nil
  | cons task rest ih => exact .cons .untouched ih

variable {now : TimePoint} {tasks after : List Task}

theorem runDueUntil_steps {locks : Bool} {trace : List Exchange} {result : Except Exception Nat}
    (returns : Returns (runDueUntil locks now tasks) trace (result, after)) :
    Steps now tasks (acts trace) after := by
  induction tasks generalizing trace result after with
  | nil =>
    cases returns
    exact .nil
  | cons task rest ih =>
    obtain ⟨stopping, trace, rfl, behind⟩ := Returns.of_call returns
    have silent : acts (⟨.stopping, stopping⟩ :: trace) = acts trace := rfl
    rw [silent]
    change Bool at stopping
    cases stopping with
    | true =>
      cases behind
      exact .untouched now _
    | false =>
      simp only [Interaction.bind, Bool.false_eq_true, if_false] at behind
      cases isDue : task.due now with
      | error raised =>
        rw [isDue] at behind
        cases behind
        exact .untouched now _
      | ok due =>
        cases due with
        | false =>
          rw [isDue] at behind
          obtain ⟨early, late, ⟨count, others⟩, rfl, first, last⟩ := Returns.of_bind behind
          cases last
          rw [append_nil]
          exact .cons .untouched (ih first)
        | true =>
          rw [isDue] at behind
          obtain ⟨local_, slot, converts, found⟩ := Task.due_converts isDue
          obtain ⟨early, late, ⟨outcome, middle⟩, rfl, first, last⟩ := Returns.of_bind behind
          have step : task.Step now (acts early) middle :=
            .due isDue converts (Task.execute_outcome converts found first)
          rw [acts_append]
          cases outcome with
          | error raised =>
            cases last
            exact .cons step (.untouched now rest)
          | ok executed =>
            obtain ⟨one, two, ⟨count, others⟩, rfl, second, third⟩ := Returns.of_bind last
            cases third
            rw [append_nil]
            exact .cons step (ih second)

variable {actions : List Performed}

def actionsOf (name : Bytes) (actions : List Performed) : List Performed :=
  actions.filter fun action => action.task.name = name

section

variable (steps : Steps now tasks actions after)
include steps

theorem Steps.names : after.map Task.name = tasks.map Task.name := by
  induction steps with
  | nil => rfl
  | cons step steps ih => rw [map_cons, map_cons, ih, step.name]

theorem Steps.listed : ∀ action ∈ actions, action.task ∈ tasks := by
  induction steps with
  | nil => exact forall_mem_nil _
  | cons step steps ih =>
    intro action member
    rcases mem_append.mp member with own | other
    · rw [(step.own action own).1]
      exact mem_cons_self
    · exact mem_cons_of_mem _ (ih action other)

/-- One task of a run. -/
theorem Steps.of_mem (distinct : (tasks.map Task.name).Nodup) {task : Task}
    (member : task ∈ tasks) : ∃ left ∈ after, task.Step now (actionsOf task.name actions) left := by
  induction steps with
  | nil => exact absurd member not_mem_nil
  | @cons first middle own others rest left step steps ih =>
    obtain ⟨different, distinct⟩ := nodup_cons.mp distinct
    rcases mem_cons.mp member with rfl | later
    · have mine : actionsOf task.name own = own := by
        refine filter_eq_self.mpr fun action listed => decide_eq_true ?_
        rw [(step.own action listed).1]
      have theirs : actionsOf task.name others = [] := by
        refine filter_eq_nil_iff.mpr fun action listed same => different ?_
        rw [← of_decide_eq_true same]
        exact mem_map_of_mem (steps.listed action listed)
      refine ⟨middle, mem_cons_self, ?_⟩
      unfold actionsOf at mine theirs ⊢
      rw [filter_append, mine, theirs, append_nil]
      exact step
    · obtain ⟨found, listed, behind⟩ := ih distinct later
      have none : actionsOf task.name own = [] := by
        refine filter_eq_nil_iff.mpr fun action listed same => different ?_
        rw [← (step.own action listed).1, of_decide_eq_true same]
        exact mem_map_of_mem later
      refine ⟨found, mem_cons_of_mem _ listed, ?_⟩
      unfold actionsOf at none behind ⊢
      rw [filter_append, none, nil_append]
      exact behind

end

end Gungnir.Scheduler
