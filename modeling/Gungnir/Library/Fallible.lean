import Mathlib.Data.List.Basic

/-!
# Loops that may throw

A loop over a list whose body may throw is a monadic fold in `Except`. What one
iteration keeps, the whole loop keeps; an exception of the loop is one of some
iteration; two loops over the same list that finish end in related states.
-/

namespace Gungnir.Library

universe u

variable {ε ι : Type*} {σ τ α β : Type u}

theorem bind_eq_ok {first : Except ε α} {next : α → Except ε β} {result : β} :
    (first >>= next) = .ok result ↔ ∃ middle, first = .ok middle ∧ next middle = .ok result := by
  cases first with
  | error raised => simp [bind, Except.bind]
  | ok middle => simp [bind, Except.bind]

theorem bind_eq_error {first : Except ε α} {next : α → Except ε β} {raised : ε} :
    (first >>= next) = .error raised ↔
      first = .error raised ∨ ∃ middle, first = .ok middle ∧ next middle = .error raised := by
  cases first with
  | error other => simp [bind, Except.bind]
  | ok middle => simp [bind, Except.bind]

variable {items : List ι} {body : σ → ι → Except ε σ}

/-- What holds of the items that a loop has run on and of its state. -/
theorem foldlM_tracks (Tracks : List ι → σ → Prop)
    (step : ∀ {seen before item after}, body before item = .ok after → Tracks seen before →
      Tracks (seen ++ [item]) after) {first last : σ}
    (finished : items.foldlM body first = .ok last) (seen : List ι) (holds : Tracks seen first) :
    Tracks (seen ++ items) last := by
  induction items generalizing first seen with
  | nil =>
    cases finished
    rwa [List.append_nil]
  | cons item rest ih =>
    rw [List.foldlM_cons] at finished
    obtain ⟨middle, ran, continued⟩ := bind_eq_ok.mp finished
    rw [List.append_cons]
    exact ih continued _ (step ran holds)

theorem foldlM_invariant (Invariant : σ → Prop)
    (stable : ∀ {before item after}, body before item = .ok after → Invariant before →
      Invariant after) {first last : σ} (finished : items.foldlM body first = .ok last)
    (holds : Invariant first) : Invariant last :=
  foldlM_tracks (fun _ => Invariant) stable finished [] holds

/-- A loop that finishes has run its body on every item. -/
theorem foldlM_each {first last : σ} (finished : items.foldlM body first = .ok last) {item : ι}
    (member : item ∈ items) : ∃ before after, body before item = .ok after := by
  induction items generalizing first with
  | nil => cases member
  | cons head rest ih =>
    rw [List.foldlM_cons] at finished
    obtain ⟨middle, ran, continued⟩ := bind_eq_ok.mp finished
    rcases List.mem_cons.mp member with rfl | later
    · exact ⟨first, middle, ran⟩
    · exact ih continued later

/-- A loop whose body does not throw finishes. -/
theorem foldlM_total (total : ∀ state, ∀ item ∈ items, ∃ next, body state item = .ok next)
    (first : σ) : ∃ last, items.foldlM body first = .ok last := by
  induction items generalizing first with
  | nil => exact ⟨first, rfl⟩
  | cons item rest ih =>
    obtain ⟨middle, ran⟩ := total first item List.mem_cons_self
    obtain ⟨last, finished⟩ :=
      ih (fun state other member => total state other (List.mem_cons_of_mem _ member)) middle
    exact ⟨last, by rw [List.foldlM_cons]; exact bind_eq_ok.mpr ⟨middle, ran, finished⟩⟩

theorem foldlM_raised {first : σ} {raised : ε} (thrown : items.foldlM body first = .error raised) :
    ∃ state item, item ∈ items ∧ body state item = .error raised := by
  induction items generalizing first with
  | nil => cases thrown
  | cons item rest ih =>
    rw [List.foldlM_cons] at thrown
    rcases bind_eq_error.mp thrown with here | ⟨middle, _, later⟩
    · exact ⟨first, item, List.mem_cons_self, here⟩
    · obtain ⟨state, found, member, there⟩ := ih later
      exact ⟨state, found, List.mem_cons_of_mem _ member, there⟩

theorem foldlM_related (Related : σ → τ → Prop) {left : σ → ι → Except ε σ}
    {right : τ → ι → Except ε τ}
    (stable : ∀ {before other item after next}, left before item = .ok after →
      right other item = .ok next → Related before other → Related after next) {first last : σ}
    {start stop : τ} (leftEnds : items.foldlM left first = .ok last)
    (rightEnds : items.foldlM right start = .ok stop) (related : Related first start) :
    Related last stop := by
  induction items generalizing first start with
  | nil =>
    cases leftEnds
    cases rightEnds
    exact related
  | cons item rest ih =>
    rw [List.foldlM_cons] at leftEnds rightEnds
    obtain ⟨middle, ran, continued⟩ := bind_eq_ok.mp leftEnds
    obtain ⟨between, followed, resumed⟩ := bind_eq_ok.mp rightEnds
    exact ih continued resumed (stable ran followed related)

end Gungnir.Library
