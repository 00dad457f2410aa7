import Mathlib.Data.List.Basic

/-!
# Programs with state and exceptions

A program of `StateT σ (Except ε)` ensures a property if every value it returns
has it, from whatever state it starts. The rules follow the program's text; what
the state is plays no part in them.
-/

namespace Gungnir.Library

universe u

variable {σ ε α β : Type u} {ι : Type*}

/-- Every value that the program returns has the property. -/
def Ensures (program : StateT σ (Except ε) α) (Post : α → Prop) : Prop :=
  ∀ state value after, program state = .ok (value, after) → Post value

namespace Ensures

variable {program : StateT σ (Except ε) α} {Post Weaker : α → Prop}

theorem always : Ensures program fun _ => True :=
  fun _ _ _ _ => trivial

theorem pure {value : α} (holds : Post value) :
    Ensures (Pure.pure value : StateT σ (Except ε) α) Post := by
  intro state other after done
  cases done
  exact holds

theorem raise (raised : ε) : Ensures (throw raised : StateT σ (Except ε) α) Post := by
  intro state value after done
  cases done

/-- A program without state. -/
theorem lift {plain : Except ε α} (holds : ∀ value, plain = .ok value → Post value) :
    Ensures (liftM plain : StateT σ (Except ε) α) Post := by
  intro state value after done
  cases ran : plain with
  | error raised =>
    rw [ran] at done
    cases done
  | ok result =>
    rw [ran] at done
    cases done
    exact holds value ran

theorem bind {Middle : α → Prop} {next : α → StateT σ (Except ε) β} {Last : β → Prop}
    (first : Ensures program Middle) (then_ : ∀ value, Middle value → Ensures (next value) Last) :
    Ensures (program >>= next) Last := by
  intro state last after done
  cases ran : program state with
  | error raised =>
    have raises : (program >>= next) state = .error raised := by
      show (program state >>= _) = _
      rw [ran]
      rfl
    cases raises.symm.trans done
  | ok result =>
    have continues : (program >>= next) state = next result.1 result.2 := by
      show (program state >>= _) = _
      rw [ran]
      rfl
    exact then_ result.1 (first state result.1 result.2 ran) result.2 last after
      (continues.symm.trans done)

/-- A program whose result only decides what follows. -/
theorem after {next : α → StateT σ (Except ε) β} {Last : β → Prop}
    (then_ : ∀ value, Ensures (next value) Last) : Ensures (program >>= next) Last :=
  bind always fun value _ => then_ value

theorem tryCatch {handler : ε → StateT σ (Except ε) α} (first : Ensures program Post)
    (handled : ∀ raised, Ensures (handler raised) Post) :
    Ensures (tryCatch program handler) Post := by
  intro state value after done
  have unfolded : (tryCatchThe ε program handler) state =
      tryCatchThe ε (program state) fun raised => handler raised state := rfl
  cases ran : program state with
  | error raised =>
    rw [ran] at unfolded
    exact handled raised state value after (unfolded.symm.trans done)
  | ok result =>
    rw [ran] at unfolded
    have same := unfolded.symm.trans done
    cases same
    exact first state value after ran

theorem foldlM {body : α → ι → StateT σ (Except ε) α} {items : List ι} {initial : α}
    (holds : Post initial)
    (kept : ∀ value, ∀ item ∈ items, Post value → Ensures (body value item) Post) :
    Ensures (items.foldlM body initial) Post := by
  induction items generalizing initial with
  | nil => exact pure holds
  | cons item rest ih =>
    rw [List.foldlM_cons]
    refine bind (kept initial item List.mem_cons_self holds) fun value reached => ?_
    exact ih reached fun other next member => kept other next (List.mem_cons_of_mem _ member)

theorem ite {condition : Prop} [Decidable condition] {first second : StateT σ (Except ε) α}
    (yes : condition → Ensures first Post) (no : ¬condition → Ensures second Post) :
    Ensures (if condition then first else second) Post := by
  split
  · exact yes ‹_›
  · exact no ‹_›

/-- A check that raises, and what follows it. -/
theorem checked {condition : Prop} [Decidable condition] {failing : StateT σ (Except ε) PUnit}
    {next : PUnit → StateT σ (Except ε) α} (then_ : ∀ value, Ensures (next value) Post) :
    Ensures (if condition then failing >>= next else next ⟨⟩) Post :=
  ite (fun _ => after then_) fun _ => then_ ⟨⟩

end Ensures

variable {program : ExceptT ε (StateM σ) α}

theorem run_bind_eq (next : α → ExceptT ε (StateM σ) β) (state : σ) :
    (program >>= next).run.run state =
      (ExceptT.bindCont next (program.run.run state).1).run (program.run.run state).2 := rfl

variable {next : α → ExceptT ε (StateM σ) β}

/-- A program that keeps its state when it throws: what follows a result. -/
theorem run_bind_ok {state after : σ} {value : α}
    (ran : program.run.run state = (.ok value, after)) :
    (program >>= next).run.run state = (next value).run.run after := by
  rw [run_bind_eq, ran]
  rfl

theorem run_bind_error {state after : σ} {raised : ε}
    (ran : program.run.run state = (.error raised, after)) :
    (program >>= next).run.run state = (.error raised, after) := by
  rw [run_bind_eq, ran]
  rfl

/-- What holds of the result of a program and of the state behind it. -/
def Yields (program : ExceptT ε (StateM σ) α) (state : σ) (Post : Except ε α → σ → Prop) : Prop :=
  Post (program.run.run state).1 (program.run.run state).2

theorem Yields.of_eq {other : ExceptT ε (StateM σ) α} {state : σ} {Post : Except ε α → σ → Prop}
    (same : program.run.run state = other.run.run state) (holds : Yields other state Post) :
    Yields program state Post := by
  unfold Yields
  rw [same]
  exact holds

theorem Yields.bind {state : σ} {Middle : Except ε α → σ → Prop} {Post : Except ε β → σ → Prop}
    (first : Yields program state Middle)
    (raises : ∀ raised after, Middle (.error raised) after → Post (.error raised) after)
    (returns : ∀ value after, Middle (.ok value) after → Yields (next value) after Post) :
    Yields (program >>= next) state Post := by
  unfold Yields at first ⊢
  cases ran : program.run.run state with
  | mk result after =>
    rw [ran] at first
    cases result with
    | error raised =>
      rw [run_bind_error ran]
      exact raises raised after first
    | ok value =>
      rw [run_bind_ok ran]
      exact returns value after first

/-- Whatever the program returns or throws, the state behind it is related to the one before. -/
def Moves (program : ExceptT ε (StateM σ) α) (Related : σ → σ → Prop) : Prop :=
  ∀ state, Related state (program.run.run state).2

namespace Moves

variable {Related : σ → σ → Prop}

theorem bind (trans : ∀ first second third, Related first second → Related second third →
      Related first third)
    {program : ExceptT ε (StateM σ) α} {next : α → ExceptT ε (StateM σ) β}
    (first : Moves program Related) (second : ∀ value, Moves (next value) Related) :
    Moves (program >>= next) Related := by
  intro state
  exact @Yields.bind _ _ _ _ _ _ _ (fun _ => Related state) (fun _ => Related state) (first state)
    (fun _ _ moved => moved) fun value after moved => trans _ _ _ moved (second value after)

theorem forM {body : ι → ExceptT ε (StateM σ) PUnit} {items : List ι}
    (refl : ∀ state, Related state state)
    (trans : ∀ first second third, Related first second → Related second third →
      Related first third)
    (each : ∀ item ∈ items, Moves (body item) Related) : Moves (items.forM body) Related := by
  induction items with
  | nil => exact refl
  | cons item rest ih =>
    refine bind trans (each item List.mem_cons_self) fun _ => ?_
    exact ih (List.forall_mem_cons.mp each).2

end Moves

theorem run_tryCatch_eq (handler : ε → ExceptT ε (StateM σ) α) (state : σ) :
    (tryCatch program handler).run.run state =
      ((match (program.run.run state).1 with
        | .ok value => StateT.pure (.ok value)
        | .error other => handler other) : StateM σ (Except ε α)).run (program.run.run state).2 := rfl

/-- An exception of the program is handled in the state in which it was thrown. -/
theorem run_tryCatch_error {handler : ε → ExceptT ε (StateM σ) α} {state after : σ} {raised : ε}
    (ran : program.run.run state = (.error raised, after)) :
    (tryCatch program handler).run.run state = (handler raised).run.run after := by
  rw [run_tryCatch_eq, ran]
  rfl

theorem run_tryCatch_ok {handler : ε → ExceptT ε (StateM σ) α} {state after : σ} {value : α}
    (ran : program.run.run state = (.ok value, after)) :
    (tryCatch program handler).run.run state = (.ok value, after) := by
  rw [run_tryCatch_eq, ran]
  rfl

end Gungnir.Library
