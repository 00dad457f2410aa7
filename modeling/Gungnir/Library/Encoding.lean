import Mathlib.Data.List.Infix

/-!
# Character codes and composed texts

A code that replaces every symbol by a word is injective on texts if no code word
is empty or starts another one. A text is composed of pieces if it is their
concatenation.
-/

namespace Gungnir.Library

open List

variable {α β : Type*}

/-! ## Codes -/

/-- No code word is empty, and none is the beginning of another one. -/
structure Separated (encode : α → List β) : Prop where
  nonempty : ∀ symbol, encode symbol ≠ []
  apart : ∀ {first second}, encode first <+: encode second → first = second

variable {encode : α → List β}

theorem Separated.head_eq (separated : Separated encode) {first second : α} {rest others : List β}
    (same : encode first ++ rest = encode second ++ others) : first = second := by
  have left : encode first <+: encode first ++ rest := prefix_append _ _
  have right : encode second <+: encode first ++ rest := same ▸ prefix_append _ _
  rcases prefix_or_prefix_of_prefix left right with shorter | longer
  · exact separated.apart shorter
  · exact (separated.apart longer).symm

theorem Separated.flatMap_injective (separated : Separated encode) {text other : List α}
    (same : text.flatMap encode = other.flatMap encode) : text = other := by
  induction text generalizing other with
  | nil =>
    cases other with
    | nil => rfl
    | cons second others =>
      exact absurd (append_eq_nil_iff.mp same.symm).1 (separated.nonempty second)
  | cons first rest ih =>
    cases other with
    | nil =>
      exact absurd (append_eq_nil_iff.mp same).1 (separated.nonempty first)
    | cons second others =>
      obtain rfl := separated.head_eq same
      rw [ih (append_cancel_left same)]

/-- A mark that occurs in a code word only as its first symbol occurs in an encoded
text only at the start of a code word. -/
theorem occurrence_flatMap {mark : β}
    (leads : ∀ symbol before after, encode symbol = before ++ mark :: after → before = [])
    {text : List α} {before after : List β}
    (occurs : text.flatMap encode = before ++ mark :: after) :
    ∃ symbol ∈ text, encode symbol <+: mark :: after ∧ (encode symbol).head? = some mark := by
  induction text generalizing before with
  | nil => exact absurd occurs.symm (append_ne_nil_of_right_ne_nil _ (cons_ne_nil _ _))
  | cons first rest ih =>
    rcases append_eq_append_iff.mp occurs with ⟨skipped, shape, later⟩ | ⟨inner, shape, later⟩
    · -- the mark stands behind the first code word
      obtain ⟨symbol, member, starts, heads⟩ := ih later
      exact ⟨symbol, mem_cons_of_mem _ member, starts, heads⟩
    · cases inner with
      | nil =>
        have atStart : rest.flatMap encode = [] ++ mark :: after := later.symm
        obtain ⟨symbol, member, starts, heads⟩ := ih atStart
        exact ⟨symbol, mem_cons_of_mem _ member, starts, heads⟩
      | cons symbol tail =>
        obtain ⟨rfl, rfl⟩ := cons_eq_cons.mp later
        obtain rfl := leads first before tail shape
        exact ⟨first, mem_cons_self, shape ▸ prefix_append _ _, by rw [shape]; rfl⟩

/-! ## Composed texts -/

/-- The text is a concatenation of pieces with a property. -/
def Composed (Piece : List β → Prop) (text : List β) : Prop :=
  ∃ pieces : List (List β), text = pieces.flatten ∧ ∀ piece ∈ pieces, Piece piece

namespace Composed

variable {Piece : List β → Prop} {text other : List β}

theorem nil : Composed Piece [] := ⟨[], rfl, forall_mem_nil _⟩

theorem single (piece : Piece text) : Composed Piece text :=
  ⟨[text], by simp, by simpa using piece⟩

theorem append (first : Composed Piece text) (second : Composed Piece other) :
    Composed Piece (text ++ other) := by
  obtain ⟨pieces, rfl, all⟩ := first
  obtain ⟨others, rfl, allOthers⟩ := second
  exact ⟨pieces ++ others, flatten_append.symm, forall_mem_append.mpr ⟨all, allOthers⟩⟩

end Composed

end Gungnir.Library
