import Mathlib.Data.List.Basic
import Mathlib.Order.Basic

/-!
# Traces of a labelled step relation

A trace records every transition with the states around it. An invariant of one
step is an invariant of every trace, and a trace can be cut at any of its
transitions.
-/

namespace Gungnir.Library

open List

variable {σ ε : Type*}

structure Transition (σ ε : Type*) where
  before : σ
  label : ε
  after : σ

inductive Trace (Step : σ → ε → σ → Prop) : σ → List (Transition σ ε) → σ → Prop where
  | nil (state : σ) : Trace Step state [] state
  | cons {first middle last : σ} {label : ε} {rest : List (Transition σ ε)} :
      Step first label middle → Trace Step middle rest last →
      Trace Step first (⟨first, label, middle⟩ :: rest) last

def Reachable (Step : σ → ε → σ → Prop) (start state : σ) : Prop :=
  ∃ transitions, Trace Step start transitions state

namespace Trace

variable {Step : σ → ε → σ → Prop} {first middle last : σ}

theorem single {label : ε} (step : Step first label last) :
    Trace Step first [⟨first, label, last⟩] last :=
  .cons step (.nil last)

/-- A trace cut at one of its transitions. -/
theorem split {early late : List (Transition σ ε)} {transition : Transition σ ε}
    (trace : Trace Step first (early ++ transition :: late) last) :
    Trace Step first early transition.before ∧
      Step transition.before transition.label transition.after ∧
      Trace Step transition.after late last := by
  induction early generalizing first with
  | nil =>
    cases trace with
    | cons step rest => exact ⟨.nil _, step, rest⟩
  | cons head tail ih =>
    cases trace with
    | cons step rest =>
      obtain ⟨before, middleStep, after⟩ := ih rest
      exact ⟨.cons step before, middleStep, after⟩

variable {transitions : List (Transition σ ε)} (Invariant : σ → Prop)

section

variable (stable : ∀ {before label after}, Step before label after → Invariant before → Invariant after)
include stable

theorem preserves (trace : Trace Step first transitions last) (holds : Invariant first) :
    Invariant last := by
  induction trace with
  | nil => exact holds
  | cons step rest ih => exact ih (stable step holds)

theorem forall_mem (trace : Trace Step first transitions last) (holds : Invariant first) :
    ∀ transition ∈ transitions,
      Invariant transition.before ∧ Step transition.before transition.label transition.after ∧
        Invariant transition.after := by
  induction trace with
  | nil => exact nofun
  | cons step rest ih =>
    exact forall_mem_cons.mpr ⟨⟨holds, step, stable step holds⟩, ih (stable step holds)⟩

end

/-- The rule for a run whose transitions all meet a condition. -/
theorem preserves_where (Allowed : Transition σ ε → Prop)
    (stable : ∀ {transition : Transition σ ε}, Allowed transition →
      Step transition.before transition.label transition.after →
      Invariant transition.before → Invariant transition.after)
    (trace : Trace Step first transitions last)
    (allowed : ∀ transition ∈ transitions, Allowed transition) (holds : Invariant first) :
    Invariant last := by
  induction trace with
  | nil => exact holds
  | cons step rest ih =>
    apply ih
    · exact (forall_mem_cons.mp allowed).2
    · exact stable (allowed _ mem_cons_self) step holds

end Trace

/-! ## Systems of components -/

/-- After one component has moved, a component is the one that moved or one that stayed. -/
theorem update_eq_some {ι α : Type*} [DecidableEq ι] {components : ι → Option α} {index other : ι}
    {moved found : α} (listed : Function.update components index (some moved) other = some found) :
    (other = index ∧ found = moved) ∨ (other ≠ index ∧ components other = some found) := by
  by_cases same : other = index
  · rw [same, Function.update_self] at listed
    exact .inl ⟨same, (Option.some.inj listed).symm⟩
  · rw [Function.update_of_ne same] at listed
    exact .inr ⟨same, listed⟩

/-! ## Runs of a deterministic system -/

section Deterministic

variable (next : σ → ε → σ)

/-- The state after a list of events, each taken as it comes. -/
def runFrom (state : σ) : List ε → σ
  | [] => state
  | event :: rest => runFrom (next state event) rest

def transitionsFrom (state : σ) : List ε → List (Transition σ ε)
  | [] => []
  | event :: rest => ⟨state, event, next state event⟩ :: transitionsFrom (next state event) rest

/-- Every event of the list is enabled when its turn comes. -/
def EnabledFrom (Enabled : σ → ε → Prop) (state : σ) : List ε → Prop
  | [] => True
  | event :: rest => Enabled state event ∧ EnabledFrom Enabled (next state event) rest

instance EnabledFrom.decidable (Enabled : σ → ε → Prop)
    [∀ state event, Decidable (Enabled state event)] (state : σ) :
    (events : List ε) → Decidable (EnabledFrom next Enabled state events)
  | [] => isTrue trivial
  | event :: rest =>
    have := decidable Enabled (next state event) rest
    inferInstanceAs (Decidable (_ ∧ _))

variable {next} {Enabled : σ → ε → Prop} {state : σ} {events : List ε}

theorem EnabledFrom.trace {Step : σ → ε → σ → Prop}
    (steps : ∀ {state event}, Enabled state event → Step state event (next state event))
    (enabled : EnabledFrom next Enabled state events) :
    Trace Step state (transitionsFrom next state events) (runFrom next state events) := by
  induction events generalizing state with
  | nil => exact .nil state
  | cons event rest ih => exact .cons (steps enabled.1) (ih enabled.2)

section

variable (Invariant : σ → Prop)
include Invariant

section

variable (Allowed : Transition σ ε → Prop)
  (stable : ∀ {state event}, Enabled state event → Allowed ⟨state, event, next state event⟩ →
    Invariant state → Invariant (next state event))
  (enabled : EnabledFrom next Enabled state events)
  (allowed : ∀ transition ∈ transitionsFrom next state events, Allowed transition)
  (holds : Invariant state)
include stable enabled allowed holds

/-- What every transition of a run whose transitions all meet a condition shows. -/
theorem EnabledFrom.forall_mem_where {Shown : Transition σ ε → Prop}
    (shows : ∀ {state event}, Enabled state event → Allowed ⟨state, event, next state event⟩ →
      Invariant state → Shown ⟨state, event, next state event⟩) :
    ∀ transition ∈ transitionsFrom next state events, Shown transition := by
  induction events generalizing state with
  | nil => exact nofun
  | cons event rest ih =>
    obtain ⟨first, others⟩ := forall_mem_cons.mp allowed
    exact forall_mem_cons.mpr
      ⟨shows enabled.1 first holds, ih enabled.2 others (stable enabled.1 first holds)⟩

theorem EnabledFrom.preserves_where : Invariant (runFrom next state events) := by
  induction events generalizing state with
  | nil => exact holds
  | cons event rest ih =>
    obtain ⟨first, others⟩ := forall_mem_cons.mp allowed
    exact ih enabled.2 others (stable enabled.1 first holds)

end

/-- A run whose steps all decrease a measure is no longer than the measure. -/
theorem EnabledFrom.length_le (measure : σ → Nat)
    (stable : ∀ {state event}, Enabled state event → Invariant state → Invariant (next state event))
    (decreases : ∀ {state event}, Enabled state event → Invariant state →
      measure (next state event) < measure state)
    (enabled : EnabledFrom next Enabled state events) (holds : Invariant state) :
    events.length ≤ measure state := by
  induction events generalizing state with
  | nil => exact Nat.zero_le _
  | cons event rest ih =>
    have shorter := ih enabled.2 (stable enabled.1 holds)
    exact Nat.lt_of_le_of_lt shorter (decreases enabled.1 holds)

variable {ι : Type*} (Lasting : ι → σ → Prop)
  (stable : ∀ {state event}, Enabled state event → Invariant state → Invariant (next state event))
  (lasts : ∀ {state event} (item : ι), Enabled state event → Invariant state →
    Lasting item state → Lasting item (next state event))
  (enabled : EnabledFrom next Enabled state events) (holds : Invariant state)
include stable lasts enabled holds

/-- What a step establishes and every later step keeps holds at the end. -/
theorem EnabledFrom.lasts_to_end :
    ∀ transition ∈ transitionsFrom next state events, ∀ item,
      Lasting item transition.after → Lasting item (runFrom next state events) := by
  induction events generalizing state with
  | nil => exact nofun
  | cons event rest ih =>
    have later := stable enabled.1 holds
    refine forall_mem_cons.mpr ⟨fun item established => ?_, ih enabled.2 later⟩
    exact (enabled.2.preserves_where (fun reached => Invariant reached ∧ Lasting item reached)
      (fun _ => True)
      (fun possible _ both => ⟨stable possible both.1, lasts item possible both.1 both.2⟩)
      (fun _ _ => trivial) ⟨later, established⟩).2

/-- How two steps are related of which the later one still finds what the earlier one has
established. -/
theorem EnabledFrom.pairwise {Related : Transition σ ε → Transition σ ε → Prop}
    (relates : ∀ {first event second later}, Enabled first event → Invariant first →
      Enabled second later → Invariant second →
      (∀ item, Lasting item (next first event) → Lasting item second) →
      Related ⟨first, event, next first event⟩ ⟨second, later, next second later⟩) :
    (transitionsFrom next state events).Pairwise Related := by
  induction events generalizing state with
  | nil => exact .nil
  | cons event rest ih =>
    have later := stable enabled.1 holds
    refine .cons ?_ (ih enabled.2 later)
    -- From the state behind the first step on, what it established is part of the invariant.
    exact enabled.2.forall_mem_where
      (fun reached => Invariant reached ∧
        ∀ item, Lasting item (next state event) → Lasting item reached) (fun _ => True)
      (fun possible _ both => ⟨stable possible both.1,
        fun item established => lasts item possible both.1 (both.2 item established)⟩)
      (fun _ _ => trivial) ⟨later, fun _ established => established⟩
      fun possible _ both => relates enabled.1 holds possible both.1 both.2

end

end Deterministic

end Gungnir.Library
