import Gungnir.Library.Sql.Condition

/-!
# Two readings of a chain

A chain of links with AND and OR and no parentheses can be read with precedence, as
SQL does, or from the left, one link after the other. The readings agree on every
chain of the same connectives exactly if no AND comes after an OR.

A link may also have a gap: it is false in the first reading and true in the second.
-/

namespace Gungnir.Library.Sql

open List

def leftHolds : Bool → List (Connective × Bool) → Bool
  | current, [] => current
  | current, (.and, next) :: rest => leftHolds (current && next) rest
  | current, (.or, next) :: rest => leftHolds (current || next) rest

/-- The value of a chain in a reading. A chain without links is true. -/
def chainValue (reading : Bool → List (Connective × Bool) → Bool) : List (Connective × Bool) → Bool
  | [] => true
  | first :: rest => reading first.2 rest

/-- No AND after an OR. -/
def Ordered (connectives : List Connective) : Prop :=
  connectives.Pairwise fun earlier later => earlier = .or → later = .or

instance (connectives : List Connective) : Decidable (Ordered connectives) :=
  inferInstanceAs (Decidable (Pairwise _ _))

variable {connectives : List Connective}

theorem ordered_of_or (allOr : ∀ other ∈ connectives, other = .or) : Ordered connectives := by
  induction connectives with
  | nil => exact Pairwise.nil
  | cons first rest ih =>
    rw [forall_mem_cons] at allOr
    exact pairwise_cons.mpr ⟨fun later member _ => allOr.2 later member, ih allOr.2⟩

/-- An AND stands somewhere in a disordered chain. -/
theorem and_mem_of_disordered (disordered : ¬ Ordered connectives) : .and ∈ connectives := by
  by_contra absent
  apply disordered
  apply ordered_of_or
  intro other member
  cases other with
  | or => rfl
  | and => exact absurd member absent

/-! ## Agreement -/

variable {links : List (Connective × Bool)}

theorem leftHolds_true_or (disjunctive : ∀ link ∈ links, link.1 = .or) :
    leftHolds true links = true := by
  induction links with
  | nil => rfl
  | cons link links ih =>
    obtain ⟨connective, next⟩ := link
    cases disjunctive _ mem_cons_self
    exact ih (forall_mem_cons.mp disjunctive).2

variable {current : Bool}

theorem chainHolds_eq_leftHolds (ordered : Ordered (links.map Prod.fst)) :
    chainHolds current links = leftHolds current links := by
  induction links generalizing current with
  | nil => rfl
  | cons link links ih =>
    obtain ⟨connective, next⟩ := link
    have later : Ordered (links.map Prod.fst) := (pairwise_cons.mp ordered).2
    cases connective with
    | and => exact ih later
    | or =>
      cases current with
      | false => exact ih later
      | true =>
        -- Only ORs follow, so the chain stays true.
        have disjunctive : ∀ link ∈ links, link.1 = .or := fun link member =>
          (pairwise_cons.mp ordered).1 link.1 (mem_map.mpr ⟨link, member, rfl⟩) rfl
        exact (leftHolds_true_or disjunctive).symm

theorem chainValue_ordered (ordered : Ordered (links.tail.map Prod.fst)) :
    chainValue chainHolds links = chainValue leftHolds links := by
  cases links with
  | nil => rfl
  | cons first rest => exact chainHolds_eq_leftHolds ordered

theorem leftHolds_and (conjunctive : ∀ link ∈ links, link.1 = .and) :
    leftHolds current links = (current && links.all Prod.snd) := by
  induction links generalizing current with
  | nil => simp [leftHolds]
  | cons link links ih =>
    obtain ⟨connective, next⟩ := link
    cases conjunctive _ mem_cons_self
    rw [leftHolds, ih (forall_mem_cons.mp conjunctive).2,
      all_cons, Bool.and_assoc]

theorem chainValue_and (conjunctive : ∀ link ∈ links, link.1 = .and) :
    chainValue leftHolds links = links.all Prod.snd := by
  cases links with
  | nil => rfl
  | cons first rest =>
    exact leftHolds_and (forall_mem_cons.mp conjunctive).2

/-! ## Chains that tell the readings apart -/

theorem leftHolds_all (all : ∀ link ∈ links, link.2 = true) : leftHolds true links = true := by
  induction links with
  | nil => rfl
  | cons link links ih =>
    obtain ⟨connective, next⟩ := link
    cases all _ mem_cons_self
    have rest := ih (forall_mem_cons.mp all).2
    cases connective <;> exact rest

theorem leftHolds_none (none : ∀ link ∈ links, link.2 = false)
    (stopped : current = false ∨ ∃ link ∈ links, link.1 = .and) :
    leftHolds current links = false := by
  induction links generalizing current with
  | nil =>
    rcases stopped with stopped | ⟨_, impossible, _⟩
    · exact stopped
    · cases impossible
  | cons link links ih =>
    obtain ⟨connective, next⟩ := link
    cases none _ mem_cons_self
    have later : ∀ link ∈ links, link.2 = false := (forall_mem_cons.mp none).2
    cases connective with
    | and => exact ih later (.inl (Bool.and_false current))
    | or =>
      apply ih later
      rcases stopped with rfl | ⟨link, member, isAnd⟩
      · exact .inl rfl
      · rcases mem_cons.mp member with rfl | inRest
        · cases isAnd
        · exact .inr ⟨link, inRest, isAnd⟩

section Gaps

variable {ι : Type*} (connective : ι → Connective) (gap : ι → Bool)

/-- A chain of items with a value for each: a gap is false whatever its value is. -/
def lowerLinks (assigned : List (ι × Bool)) : List (Connective × Bool) :=
  assigned.map fun pair => (connective pair.1, !gap pair.1 && pair.2)

/-- The same chain with gaps true. -/
def upperLinks (assigned : List (ι × Bool)) : List (Connective × Bool) :=
  assigned.map fun pair => (connective pair.1, gap pair.1 || pair.2)

theorem lowerLinks_cons (item : ι) (value : Bool) (assigned : List (ι × Bool)) :
    lowerLinks connective gap ((item, value) :: assigned) =
      (connective item, !gap item && value) :: lowerLinks connective gap assigned := rfl

theorem upperLinks_cons (item : ι) (value : Bool) (assigned : List (ι × Bool)) :
    upperLinks connective gap ((item, value) :: assigned) =
      (connective item, gap item || value) :: upperLinks connective gap assigned := rfl

/-- Behind a gap the chains can be kept apart: ANDs are true, ORs are not. -/
theorem exists_behind_gap (items : List ι) :
    ∃ assigned : List (ι × Bool), assigned.map Prod.fst = items ∧
      chainHolds false (lowerLinks connective gap assigned) = false ∧
      leftHolds true (upperLinks connective gap assigned) = true := by
  induction items with
  | nil => exact ⟨[], rfl, rfl, rfl⟩
  | cons item items ih =>
    obtain ⟨assigned, same, lower, upper⟩ := ih
    cases kind : connective item with
    | and =>
      refine ⟨(item, true) :: assigned, by rw [map_cons, same], ?_, ?_⟩
      · rw [lowerLinks_cons, kind]
        exact lower
      · rw [upperLinks_cons, kind, Bool.or_true]
        exact upper
    | or =>
      refine ⟨(item, false) :: assigned, by rw [map_cons, same], ?_, ?_⟩
      · rw [lowerLinks_cons, kind, Bool.and_false]
        exact lower
      · rw [upperLinks_cons, kind]
        exact upper

variable {items : List ι}

/-- Up to the gap the links pass on the value from which the rest tells the chains apart. -/
theorem exists_gap (found : ∃ item ∈ items, gap item = true) :
    ∃ (start : Bool) (assigned : List (ι × Bool)), assigned.map Prod.fst = items ∧
      chainHolds start (lowerLinks connective gap assigned) = false ∧
      leftHolds start (upperLinks connective gap assigned) = true := by
  induction items with
  | nil =>
    obtain ⟨_, impossible, _⟩ := found
    cases impossible
  | cons item items ih =>
    cases here : gap item with
    | true =>
      obtain ⟨assigned, same, lower, upper⟩ := exists_behind_gap connective gap items
      refine ⟨decide (connective item = .and), (item, true) :: assigned,
        by rw [map_cons, same], ?_, ?_⟩
      · rw [lowerLinks_cons, here]
        cases connective item <;> exact lower
      · rw [upperLinks_cons, here]
        cases connective item <;> exact upper
    | false =>
      have later : ∃ item ∈ items, gap item = true := by
        obtain ⟨other, member, isGap⟩ := found
        rcases mem_cons.mp member with rfl | inRest
        · rw [here] at isGap
          cases isGap
        · exact ⟨other, inRest, isGap⟩
      obtain ⟨start, assigned, same, lower, upper⟩ := ih later
      cases kind : connective item with
      | and =>
        refine ⟨start, (item, true) :: assigned, by rw [map_cons, same], ?_, ?_⟩
        · rw [lowerLinks_cons, here, kind, chainHolds, Bool.not_false, Bool.true_and,
            Bool.and_true]
          exact lower
        · rw [upperLinks_cons, here, kind, leftHolds, Bool.false_or, Bool.and_true]
          exact upper
      | or =>
        refine ⟨false, (item, start) :: assigned, by rw [map_cons, same], ?_, ?_⟩
        · rw [lowerLinks_cons, here, kind]
          exact lower
        · rw [upperLinks_cons, here, kind]
          exact upper

/-- An AND behind an OR: what comes before the OR is true, all the rest is not. -/
theorem exists_disorder (plain : ∀ item ∈ items, gap item = false)
    (disordered : ¬ Ordered (items.map connective)) :
    ∃ assigned : List (ι × Bool), assigned.map Prod.fst = items ∧
      chainHolds true (lowerLinks connective gap assigned) = true ∧
      leftHolds true (upperLinks connective gap assigned) = false := by
  induction items with
  | nil => exact absurd Pairwise.nil disordered
  | cons item items ih =>
    rw [forall_mem_cons] at plain
    cases kind : connective item with
    | and =>
      have later : ¬ Ordered (items.map connective) := fun ordered =>
        disordered (pairwise_cons.mpr
          ⟨fun _ _ isOr => absurd (kind.symm.trans isOr) (by decide), ordered⟩)
      obtain ⟨assigned, same, lower, upper⟩ := ih plain.2 later
      refine ⟨(item, true) :: assigned, by rw [map_cons, same], ?_, ?_⟩
      · rw [lowerLinks_cons, plain.1, kind]
        exact lower
      · rw [upperLinks_cons, plain.1, kind]
        exact upper
    | or =>
      refine ⟨(item :: items).map fun item => (item, false),
        by rw [map_map]; exact map_id _, ?_, ?_⟩
      · rw [map_cons, lowerLinks_cons, kind]
        rfl
      · have rest : upperLinks connective gap (items.map fun item => (item, false)) =
            items.map fun item => (connective item, gap item || false) := by
          rw [upperLinks, map_map]
          rfl
        rw [map_cons, upperLinks_cons, kind, plain.1, rest, leftHolds]
        apply leftHolds_none
        · exact forall_mem_map.mpr fun other inRest =>
            (Bool.or_false _).trans (plain.2 other inRest)
        · rw [map_cons, kind] at disordered
          rcases mem_cons.mp (and_mem_of_disordered disordered) with impossible | inRest
          · cases impossible
          · obtain ⟨other, member, isAnd⟩ := mem_map.mp inRest
            exact .inr ⟨(connective other, gap other || false),
              mem_map.mpr ⟨other, member, rfl⟩, isAnd⟩

theorem exists_split
    (apart : ¬ ((∀ item ∈ items, gap item = false) ∧ Ordered (items.tail.map connective))) :
    ∃ assigned : List (ι × Bool), assigned.map Prod.fst = items ∧
      chainValue chainHolds (lowerLinks connective gap assigned) ≠
        chainValue leftHolds (upperLinks connective gap assigned) := by
  cases items with
  | nil => exact absurd ⟨forall_mem_nil _, Pairwise.nil⟩ apart
  | cons item items =>
    cases here : gap item with
    | true =>
      obtain ⟨assigned, same, lower, upper⟩ := exists_behind_gap connective gap items
      refine ⟨(item, true) :: assigned, by rw [map_cons, same], ?_⟩
      rw [lowerLinks_cons, upperLinks_cons, here, chainValue, chainValue]
      simp [lower, upper]
    | false =>
      by_cases found : ∃ other ∈ items, gap other = true
      · obtain ⟨start, assigned, same, lower, upper⟩ := exists_gap connective gap found
        refine ⟨(item, start) :: assigned, by rw [map_cons, same], ?_⟩
        rw [lowerLinks_cons, upperLinks_cons, here, chainValue, chainValue]
        simp [lower, upper]
      · have plain : ∀ other ∈ items, gap other = false := fun other member =>
          Bool.eq_false_iff.mpr fun isGap => found ⟨other, member, isGap⟩
        have disordered : ¬ Ordered (items.map connective) := fun ordered =>
          apart ⟨forall_mem_cons.mpr ⟨here, plain⟩, ordered⟩
        obtain ⟨assigned, same, lower, upper⟩ :=
          exists_disorder connective gap plain disordered
        refine ⟨(item, true) :: assigned, by rw [map_cons, same], ?_⟩
        rw [lowerLinks_cons, upperLinks_cons, here, chainValue, chainValue]
        simp [lower, upper]

end Gaps

end Gungnir.Library.Sql
