import Mathlib.Data.List.Basic

/-!
# Systems of independent components

A component answers events one after the other. In a system of components, one for each
key, an event goes to the component of its key. What a component answers there depends
on the events of its own key only.
-/

namespace Gungnir.Library

open List

variable {κ σ ε ρ : Type*}

def answers (step : σ → ε → ρ × σ) (state : σ) : List ε → List ρ
  | [] => []
  | event :: rest => (step state event).1 :: answers step (step state event).2 rest

/-- The state behind a list of events. -/
def settles (step : σ → ε → ρ × σ) (state : σ) : List ε → σ
  | [] => state
  | event :: rest => settles step (step state event).2 rest

theorem length_answers (step : σ → ε → ρ × σ) (state : σ) (events : List ε) :
    (answers step state events).length = events.length := by
  induction events generalizing state with
  | nil => rfl
  | cons event rest ih => exact congrArg (· + 1) (ih _)

section Simulation

variable {τ : Type*} {step : σ → ε → ρ × σ} {other : τ → ε → ρ × τ}
  {Related : σ → τ → List ε → Prop}
  (simulates : ∀ {state twin event rest}, Related state twin (event :: rest) →
    (step state event).1 = (other twin event).1 ∧
      Related (step state event).2 (other twin event).2 rest)
  {state : σ} {twin : τ}
include simulates

/-- Systems that are related by their states and the events to come answer alike. -/
theorem answers_eq {events : List ε} (related : Related state twin events) :
    answers step state events = answers other twin events := by
  induction events generalizing state twin with
  | nil => rfl
  | cons event rest ih =>
    obtain ⟨same, next⟩ := simulates related
    rw [answers, answers, same, ih next]

theorem settles_related {early late : List ε} (related : Related state twin (early ++ late)) :
    Related (settles step state early) (settles other twin early) late := by
  induction early generalizing state twin with
  | nil => exact related
  | cons event rest ih => exact ih (simulates related).2

end Simulation

section Keyed

variable [DecidableEq κ] (key : ε → κ) (step : σ → ε → ρ × σ) (components : κ → σ)

/-- An event moves the component of its key. -/
def keyedStep (event : ε) : ρ × (κ → σ) :=
  ((step (components (key event)) event).1,
    Function.update components (key event) (step (components (key event)) event).2)

theorem keyedStep_same (event : ε) :
    (keyedStep key step components event).2 (key event) =
      (step (components (key event)) event).2 :=
  Function.update_self _ _ _

theorem keyedStep_other {event : ε} {one : κ} (other : key event ≠ one) :
    (keyedStep key step components event).2 one = components one :=
  Function.update_of_ne other.symm _ _

variable (one : κ)

def eventsOf (events : List ε) : List ε := events.filter fun event => key event = one

def answersOf (events : List ε) (given : List ρ) : List ρ :=
  ((events.zip given).filter fun answered => key answered.1 = one).map Prod.snd

theorem answersOf_cons (event : ε) (events : List ε) (first : ρ) (given : List ρ) :
    answersOf key one (event :: events) (first :: given) =
      if key event = one then first :: answersOf key one events given
      else answersOf key one events given := by
  unfold answersOf
  rw [zip_cons_cons]
  by_cases same : key event = one
  · rw [if_pos same, filter_cons_of_pos (by exact decide_eq_true same), map_cons]
  · rw [if_neg same, filter_cons_of_neg (by simpa using same)]

theorem zip_answersOf {events : List ε} {given : List ρ} (same : events.length = given.length) :
    (eventsOf key one events).zip (answersOf key one events given) =
      (events.zip given).filter fun answered => key answered.1 = one := by
  have first : eventsOf key one events =
      ((events.zip given).filter fun answered => key answered.1 = one).map Prod.fst := by
    have listed : (events.zip given).map Prod.fst = events :=
      map_fst_zip (Nat.le_of_eq same)
    conv_lhs => rw [eventsOf, ← listed, filter_map]
    rfl
  rw [first]
  unfold answersOf
  rw [← unzip_fst, ← unzip_snd, zip_unzip]

theorem answersOf_keyedStep (components : κ → σ) (events : List ε) :
    answersOf key one events (answers (keyedStep key step) components events) =
      answers step (components one) (eventsOf key one events) := by
  induction events generalizing components with
  | nil => rfl
  | cons event rest ih =>
    rw [answers, answersOf_cons, ih]
    unfold eventsOf
    by_cases same : key event = one
    · rw [if_pos same, filter_cons_of_pos (by exact decide_eq_true same), ← same,
        keyedStep_same, answers]
      rfl
    · rw [if_neg same, filter_cons_of_neg (by simpa using same), keyedStep_other _ _ _ same]

theorem answers_keyedStep_eventsOf (components : κ → σ) (events : List ε) :
    answers (keyedStep key step) components (eventsOf key one events) =
      answers step (components one) (eventsOf key one events) := by
  have alone : ∀ {events : List ε}, (∀ event ∈ events, key event = one) → ∀ components : κ → σ,
      answers (keyedStep key step) components events = answers step (components one) events := by
    intro events
    induction events with
    | nil => exact fun _ _ => rfl
    | cons event rest ih =>
      intro single components
      obtain ⟨rfl, others⟩ := forall_mem_cons.mp single
      rw [answers, answers, ih others, keyedStep_same]
      rfl
  exact alone (fun event member => of_decide_eq_true (mem_filter.mp member).2) components

end Keyed

end Gungnir.Library
