import Gungnir.Core.Timer

/-!
# Wake-ups of the pump

`schedule` and `attach` copy the wake function of the pump and its context inside their mutex
sections and call it behind them. A pump whose `detach` has returned may be destroyed exactly
if no such call is left.
-/

namespace Gungnir.Core.Timer

open Gungnir.Library List

/-- A call that has copied the wake function of a pump, and whether the function runs. The
pumps are numbered in the order of their `attach`. -/
structure Wake where
  pump : Nat
  running : Bool
  deriving DecidableEq, Repr

/-- The scheduler with the calls that are to wake a pump. -/
structure Pumped (ω : Type) where
  timer : State ω
  /-- The number of pumps; the last one is attached as long as the token is not 0. -/
  pumps : Nat
  wakes : List Wake
  /-- The pumps whose `detach` is behind its mutex section. -/
  detached : List Nat

inductive PumpEvent where
  | schedule (duration : Int)
  | attach
  | detach (token : UInt64)
  /-- `wake(context)` begins. -/
  | wake (call : Nat)
  | wakeReturns (call : Nat)
  deriving DecidableEq, Repr

variable {ω : Type}

def Pumped.initial : Pumped ω := ⟨State.initial, 0, [], []⟩

def pumpNext (state : Pumped ω) : PumpEvent → Pumped ω
  | .schedule duration =>
    { state with
      timer := state.timer.schedule duration
      wakes := if state.timer.pumpToken = 0 then state.wakes
        else state.wakes ++ [⟨state.pumps, false⟩] }
  | .attach =>
    if state.timer.pumpToken ≠ 0 then state
    else
      { state with
        timer := state.timer.attach
        pumps := state.pumps + 1
        wakes := state.wakes ++ [⟨state.pumps + 1, false⟩] }
  | .detach token =>
    if token ≠ 0 ∧ state.timer.pumpToken = token then
      { state with
        timer := state.timer.detach token
        detached := state.pumps :: state.detached }
    else state
  | .wake call =>
    match state.wakes[call]? with
    | some wake => { state with wakes := state.wakes.set call ⟨wake.pump, true⟩ }
    | none => state
  | .wakeReturns call => { state with wakes := state.wakes.eraseIdx call }

def PumpEnabled (state : Pumped ω) : PumpEvent → Prop
  | .schedule _ | .attach | .detach _ => True
  | .wake call => state.wakes[call]?.any (fun wake => !wake.running) = true
  | .wakeReturns call => state.wakes[call]?.any Wake.running = true

instance (state : Pumped ω) : (event : PumpEvent) → Decidable (PumpEnabled state event)
  | .schedule _ | .attach | .detach _ => isTrue trivial
  | .wake _ | .wakeReturns _ => inferInstanceAs (Decidable (_ = true))

/-- The pump is not attached any more. -/
def Pumped.Gone (state : Pumped ω) (pump : Nat) : Prop :=
  pump ≤ state.pumps ∧ (pump = state.pumps → state.timer.pumpToken = 0)

/-- No wake function of the pump runs. -/
def Pumped.Quiet (state : Pumped ω) (pump : Nat) : Prop :=
  ∀ wake ∈ state.wakes, wake.pump = pump → wake.running = false

/-- No call has copied the wake function of the pump. -/
def Pumped.Free (state : Pumped ω) (pump : Nat) : Prop :=
  ∀ wake ∈ state.wakes, wake.pump ≠ pump

variable {state : Pumped ω} {pump : Nat} {event : PumpEvent}

theorem pumpToken_detach {timer : State ω} {token : UInt64}
    (attached : token ≠ 0 ∧ timer.pumpToken = token) : (timer.detach token).pumpToken = 0 := by
  rw [State.detach, if_neg attached.1, if_pos attached.2]

theorem gone_next (gone : state.Gone pump) : (pumpNext state event).Gone pump := by
  cases event with
  | schedule | wakeReturns => exact gone
  | attach =>
    simp only [pumpNext]
    split
    · exact gone
    · refine ⟨Nat.le_succ_of_le gone.1, fun same => ?_⟩
      exact absurd gone.1 (same ▸ Nat.not_succ_le_self _)
  | detach token =>
    simp only [pumpNext]
    split
    · rename_i attached
      exact ⟨gone.1, fun _ => pumpToken_detach attached⟩
    · exact gone
  | wake call =>
    simp only [pumpNext]
    split
    · exact gone
    · exact gone

/-- A pump that is gone gets no new call. -/
theorem free_next (gone : state.Gone pump) (free : state.Free pump) :
    (pumpNext state event).Free pump := by
  cases event with
  | schedule duration =>
    simp only [pumpNext, Pumped.Free]
    split
    · exact free
    · rename_i attached
      refine forall_mem_append.mpr ⟨free, forall_mem_singleton.mpr fun same => ?_⟩
      exact attached (gone.2 same.symm)
  | attach =>
    simp only [pumpNext]
    split
    · exact free
    · refine forall_mem_append.mpr ⟨free, forall_mem_singleton.mpr fun same => ?_⟩
      exact absurd gone.1 (same ▸ Nat.not_succ_le_self _)
  | detach token =>
    simp only [pumpNext]
    split
    · exact free
    · exact free
  | wake call =>
    simp only [pumpNext]
    split
    · rename_i wake found
      intro other member
      rcases mem_or_eq_of_mem_set member with old | rfl
      · exact free other old
      · exact free wake (mem_of_getElem? found)
    · exact free
  | wakeReturns call => exact fun wake member => free wake (mem_of_mem_eraseIdx member)

theorem gone_of_detached (holds : ∀ pump ∈ state.detached, state.Gone pump) :
    ∀ pump ∈ (pumpNext state event).detached, (pumpNext state event).Gone pump := by
  intro pump member
  by_cases before : pump ∈ state.detached
  · exact gone_next (holds pump before)
  · cases event with
    | schedule | wakeReturns => exact absurd member before
    | attach | wake =>
      simp only [pumpNext] at member
      split at member
      · exact absurd member before
      · exact absurd member before
    | detach token =>
      simp only [pumpNext] at member ⊢
      split at member
      · rename_i attached
        rcases mem_cons.mp member with rfl | old
        · rw [if_pos attached]
          exact ⟨Nat.le_refl _, fun _ => pumpToken_detach attached⟩
        · exact absurd old before
      · exact absurd member before

/-- Behind its `detach` a pump is left alone in every further run exactly if no call is left
that has copied its wake function. -/
theorem quiet_after_detach_iff {events : List PumpEvent}
    (enabled : EnabledFrom pumpNext PumpEnabled (Pumped.initial : Pumped ω) events)
    (reached : runFrom pumpNext Pumped.initial events = state) (detached : pump ∈ state.detached) :
    (∀ later, EnabledFrom pumpNext PumpEnabled state later →
      (runFrom pumpNext state later).Quiet pump) ↔ state.Free pump := by
  have invariant := enabled.preserves_where
    (fun state => ∀ pump ∈ state.detached, state.Gone pump) (fun _ => True)
    (fun _ _ holds => gone_of_detached holds) (fun _ _ => trivial)
    nofun
  rw [reached] at invariant
  constructor
  · intro quiet wake member same
    cases running : wake.running with
    | true => exact Bool.false_ne_true ((quiet [] trivial wake member same).symm.trans running)
    | false =>
      -- The call goes on.
      obtain ⟨call, found⟩ := mem_iff_getElem?.mp member
      have begins : PumpEnabled state (.wake call) := by simp [PumpEnabled, found, running]
      have started := quiet [.wake call] ⟨begins, trivial⟩ ⟨wake.pump, true⟩
      simp only [runFrom, pumpNext, found] at started
      have inside := (List.getElem?_eq_some_iff.mp found).1
      exact Bool.false_ne_true (started (mem_set inside _) same).symm
  · intro free later possible wake member same
    have kept := possible.preserves_where (fun state => state.Gone pump ∧ state.Free pump)
      (fun _ => True) (fun _ _ holds => ⟨gone_next holds.1, free_next holds.1 holds.2⟩)
      (fun _ _ => trivial) ⟨invariant pump detached, free⟩
    exact absurd same (kept.2 wake member)

/-- A call of `schedule` that has copied the wake function calls it behind `detach`. -/
theorem wake_after_detach :
    let events : List PumpEvent :=
      [.attach, .wake 0, .wakeReturns 0, .schedule 5, .detach 1, .wake 0]
    EnabledFrom pumpNext PumpEnabled (Pumped.initial : Pumped Unit) events ∧
      (runFrom pumpNext (Pumped.initial : Pumped Unit) events).detached = [1] ∧
      (runFrom pumpNext (Pumped.initial : Pumped Unit) events).wakes = [⟨1, true⟩] := by
  decide

theorem quiet_after_detach_sample :
    let state : Pumped Unit :=
      runFrom pumpNext Pumped.initial [.attach, .wake 0, .wakeReturns 0, .detach 1]
    ∀ later, EnabledFrom pumpNext PumpEnabled state later →
      (runFrom pumpNext state later).Quiet 1 :=
  (quiet_after_detach_iff (by decide) rfl (by decide)).mpr nofun

end Gungnir.Core.Timer
