
/-!
# Programs that talk to an environment

A program makes calls one after the other and goes on with the answers. What it has said and
heard is its trace. The answers are not known, so a program has many traces, and it may
be looked at between any two calls.
-/

namespace Gungnir.Library

universe u v w

variable {ρ : Type u} {answer : ρ → Type v} {α β : Type w}

inductive Interaction (ρ : Type u) (answer : ρ → Type v) (α : Type w) where
  | done (value : α)
  | call (request : ρ) (next : answer request → Interaction ρ answer α)

namespace Interaction

protected def bind (program : Interaction ρ answer α) (next : α → Interaction ρ answer β) :
    Interaction ρ answer β :=
  match program with
  | done value => next value
  | call request rest => call request fun reply => (rest reply).bind next

instance : Monad (Interaction ρ answer) where
  pure := done
  bind := Interaction.bind

/-- A single call. -/
def perform (request : ρ) : Interaction ρ answer (answer request) := call request done

/-- A call and its answer. -/
abbrev Exchange (ρ : Type u) (answer : ρ → Type v) := (request : ρ) × answer request

/-- What is left of a program after some calls. -/
inductive Reaches : Interaction ρ answer α → List (Exchange ρ answer) → Interaction ρ answer α →
    Prop where
  | here (program : Interaction ρ answer α) : Reaches program [] program
  | step {request : ρ} {next : answer request → Interaction ρ answer α}
      {trace : List (Exchange ρ answer)} {last : Interaction ρ answer α} (reply : answer request)
      (rest : Reaches (next reply) trace last) :
      Reaches (call request next) (⟨request, reply⟩ :: trace) last

/-- The program returns a value after these calls. -/
def Returns (program : Interaction ρ answer α) (trace : List (Exchange ρ answer)) (value : α) :
    Prop :=
  Reaches program trace (done value)

namespace Reaches

variable {program middle last : Interaction ρ answer α}

theorem append {early late : List (Exchange ρ answer)} (before : Reaches program early middle)
    (after : Reaches middle late last) : Reaches program (early ++ late) last := by
  induction before with
  | here => exact after
  | step reply rest ih => exact .step reply (ih after)

variable {trace : List (Exchange ρ answer)} {request : ρ}

theorem call_cases {next : answer request → Interaction ρ answer α}
    (reaches : Reaches (call request next) trace last) :
    (trace = [] ∧ last = call request next) ∨
      ∃ reply rest, trace = ⟨request, reply⟩ :: rest ∧ Reaches (next reply) rest last := by
  cases reaches with
  | here => exact .inl ⟨rfl, rfl⟩
  | step reply rest => exact .inr ⟨reply, _, rfl, rest⟩

variable {next : α → Interaction ρ answer β}

/-- Of two programs in sequence, the first is under way or the second. -/
theorem bind_cases {last : Interaction ρ answer β}
    (reaches : Reaches (program >>= next) trace last) :
    (∃ left, Reaches program trace left ∧ last = (left >>= next)) ∨
      ∃ early late value, trace = early ++ late ∧ Returns program early value ∧
        Reaches (next value) late last := by
  induction program generalizing trace with
  | done value => exact .inr ⟨[], trace, value, rfl, .here _, reaches⟩
  | call request rest ih =>
    rcases call_cases reaches with ⟨rfl, rfl⟩ | ⟨reply, others, rfl, behind⟩
    · exact .inl ⟨_, .here _, rfl⟩
    · rcases ih reply behind with ⟨left, reached, rfl⟩ | ⟨early, late, value, rfl, returned, last⟩
      · exact .inl ⟨left, .step reply reached, rfl⟩
      · exact .inr ⟨_, late, value, rfl, .step reply returned, last⟩

/-- The next call of two programs in sequence is one of the first or one of the second. -/
theorem bind_call {rest : answer request → Interaction ρ answer β}
    (reaches : Reaches (program >>= next) trace (call request rest)) :
    (∃ own, Reaches program trace (call request own)) ∨
      ∃ early late value, trace = early ++ late ∧ Returns program early value ∧
        Reaches (next value) late (call request rest) := by
  rcases bind_cases reaches with ⟨left, reached, same⟩ | found
  · cases left with
    | done value =>
      refine .inr ⟨trace, [], value, (List.append_nil _).symm, reached, ?_⟩
      have last : next value = call request rest := same.symm
      rw [last]
      exact .here _
    | call other own =>
      cases same
      exact .inl ⟨own, reached⟩
  · exact .inr found

end Reaches

namespace Returns

variable {program : Interaction ρ answer α} {trace : List (Exchange ρ answer)}

theorem of_call {request : ρ} {next : answer request → Interaction ρ answer α} {result : α}
    (returns : Returns (call request next) trace result) :
    ∃ reply rest, trace = ⟨request, reply⟩ :: rest ∧ Returns (next reply) rest result := by
  cases returns with
  | step reply behind => exact ⟨reply, _, rfl, behind⟩

theorem of_bind {next : α → Interaction ρ answer β} {result : β}
    (returns : Returns (program >>= next) trace result) : ∃ early late value,
      trace = early ++ late ∧ Returns program early value ∧ Returns (next value) late result := by
  rcases Reaches.bind_cases returns with ⟨left, reached, last⟩ | found
  · cases left with
    | done value =>
      have same : next value = done result := last.symm
      refine ⟨trace, [], value, (List.append_nil _).symm, reached, ?_⟩
      rw [same]
      exact .here _
    | call request rest => cases last
  · exact found

end Returns

/-! ## An environment that always answers the same -/

def interpret (policy : (request : ρ) → answer request) :
    Interaction ρ answer α → List (Exchange ρ answer) × α
  | done value => ([], value)
  | call request next =>
    let rest := interpret policy (next (policy request))
    (⟨request, policy request⟩ :: rest.1, rest.2)

theorem returns_interpret (policy : (request : ρ) → answer request)
    (program : Interaction ρ answer α) :
    Returns program (interpret policy program).1 (interpret policy program).2 := by
  induction program with
  | done value => exact .here _
  | call request next ih => exact .step _ (ih _)

/-! ## State and exceptions on top -/

section Layers

variable {ε σ α β : Type w}

/-- A program with a state of its own, which an exception leaves as it is. -/
abbrev Stateful (ρ : Type u) (answer : ρ → Type v) (ε σ α : Type w) :=
  ExceptT ε (StateT σ (Interaction ρ answer)) α

variable {program : Stateful ρ answer ε σ α} {next : α → Stateful ρ answer ε σ β}

theorem run_bind (state : σ) :
    (program >>= next).run.run state = (program.run.run state >>= fun result =>
      match result.1 with
      | .ok value => (next value).run.run result.2
      | .error raised => done (.error raised, result.2)) := by
  have unfolded : (program >>= next).run.run state =
      (program.run.run state >>= fun result => (ExceptT.bindCont next result.1).run result.2) := rfl
  rw [unfolded]
  congr 1
  funext result
  obtain ⟨outcome, after⟩ := result
  cases outcome with
  | ok value => rfl
  | error raised => rfl

theorem run_tryCatch (handler : ε → Stateful ρ answer ε σ α) (state : σ) :
    (tryCatch program handler).run.run state = (program.run.run state >>= fun result =>
      match result.1 with
      | .ok value => done (.ok value, result.2)
      | .error raised => (handler raised).run.run result.2) := by
  have unfolded : (tryCatch program handler).run.run state =
      (program.run.run state >>= fun result =>
        (match result.1 with
          | .ok value => pure (.ok value)
          | .error raised => (handler raised).run : StateT σ (Interaction ρ answer) (Except ε α)).run
            result.2) := rfl
  rw [unfolded]
  congr 1
  funext result
  obtain ⟨outcome, after⟩ := result
  cases outcome with
  | ok value => rfl
  | error raised => rfl

end Layers

end Interaction

end Gungnir.Library
