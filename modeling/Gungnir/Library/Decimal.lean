import Mathlib.Data.UInt

/-!
# Text and decimal numerals over bytes

The bytes of a literal, printing of natural numbers as ASCII digits and the matching
bounded reader. The reader accepts leading zeros, rejects the empty word and every
word with a byte that is not a digit, and rejects values that do not fit the bound of
the destination type.
-/

namespace Gungnir.Library

/-- The bytes of an ASCII literal. -/
def ascii (literal : String) : List UInt8 :=
  literal.toList.map fun character => UInt8.ofNat character.toNat

/-- Every membership test in a list of texts rests on this one instance. -/
instance lawfulTexts : LawfulBEq (List UInt8) := inferInstance

namespace Decimal

def digit (value : Nat) : UInt8 := UInt8.ofNat (48 + value)

def printFuel : Nat → Nat → List UInt8
  | 0, value => [digit (value % 10)]
  | fuel + 1, value =>
    if value < 10 then [digit value]
    else printFuel fuel (value / 10) ++ [digit (value % 10)]

def print (value : Nat) : List UInt8 := printFuel value value

def digitValue? (byte : UInt8) : Option Nat :=
  if 48 ≤ byte.toNat ∧ byte.toNat ≤ 57 then some (byte.toNat - 48) else none

/-- The value of a digit word appended to a prefix of value `total`. -/
def valueFrom : Nat → List UInt8 → Option Nat
  | total, [] => some total
  | total, byte :: rest =>
    match digitValue? byte with
    | none => none
    | some value => valueFrom (10 * total + value) rest

def parse (bound : Nat) (word : List UInt8) : Option Nat :=
  match word with
  | [] => none
  | _ :: _ =>
    match valueFrom 0 word with
    | none => none
    | some value => if value < bound then some value else none

variable {value : Nat}

theorem digit_toNat (small : value < 10) : (digit value).toNat = 48 + value := by
  unfold digit
  rw [UInt8.toNat_ofNat']
  omega

theorem digitValue?_digit (small : value < 10) : digitValue? (digit value) = some value := by
  unfold digitValue?
  rw [digit_toNat small, if_pos ⟨Nat.le_add_right _ _, by omega⟩, Nat.add_sub_cancel_left]

theorem valueFrom_append (total : Nat) (first second : List UInt8) :
    valueFrom total (first ++ second) =
      (valueFrom total first).bind fun middle => valueFrom middle second := by
  induction first generalizing total with
  | nil => rfl
  | cons byte rest ih =>
    rw [List.cons_append, valueFrom, valueFrom]
    cases digitValue? byte with
    | none => rfl
    | some value => exact ih _

theorem valueFrom_digit (total : Nat) (small : value < 10) :
    valueFrom total [digit value] = some (10 * total + value) := by
  rw [valueFrom, digitValue?_digit small]
  rfl

/-- Enough fuel prints the number; the induction is on the fuel, which the
quotient by ten always stays below. -/
theorem valueFrom_printFuel (fuel value : Nat) (enough : value ≤ fuel) :
    valueFrom 0 (printFuel fuel value) = some value := by
  induction fuel generalizing value with
  | zero =>
    obtain rfl : value = 0 := Nat.le_zero.mp enough
    rfl
  | succ fuel ih =>
    unfold printFuel
    split
    · rename_i small
      simpa using valueFrom_digit 0 small
    · have smaller : value / 10 ≤ fuel := by omega
      rw [valueFrom_append, ih (value / 10) smaller, Option.bind_some,
        valueFrom_digit _ (Nat.mod_lt _ (by decide))]
      exact congrArg some (Nat.div_add_mod value 10)

theorem printFuel_ne_nil (fuel value : Nat) : printFuel fuel value ≠ [] := by
  cases fuel with
  | zero => exact List.cons_ne_nil _ _
  | succ fuel =>
    unfold printFuel
    split
    · exact List.cons_ne_nil _ _
    · exact List.append_ne_nil_of_right_ne_nil _ (List.cons_ne_nil _ _)

theorem print_ne_nil (value : Nat) : print value ≠ [] := printFuel_ne_nil value value

theorem parse_of_ne_nil {bound : Nat} {word : List UInt8} (nonempty : word ≠ []) :
    parse bound word =
      (valueFrom 0 word).bind fun value => if value < bound then some value else none := by
  cases word with
  | nil => exact absurd rfl nonempty
  | cons byte rest =>
    rw [parse]
    cases valueFrom 0 (byte :: rest) <;> rfl

theorem parse_print {bound value : Nat} (fits : value < bound) :
    parse bound (print value) = some value := by
  rw [parse_of_ne_nil (print_ne_nil value), print, valueFrom_printFuel value value (Nat.le_refl _),
    Option.bind_some, if_pos fits]

theorem parse_print_of_le {bound : Nat} (large : bound ≤ value) :
    parse bound (print value) = none := by
  rw [parse_of_ne_nil (print_ne_nil value), print, valueFrom_printFuel value value (Nat.le_refl _),
    Option.bind_some, if_neg (Nat.not_lt.mpr large)]

/-- Every printed byte is a digit, so a separator that is no digit never occurs. -/
theorem digitValue?_of_mem_printFuel {fuel : Nat} {byte : UInt8}
    (member : byte ∈ printFuel fuel value) : ∃ one, one < 10 ∧ byte = digit one := by
  induction fuel generalizing value with
  | zero => exact ⟨value % 10, Nat.mod_lt _ (by decide), List.mem_singleton.mp member⟩
  | succ fuel ih =>
    unfold printFuel at member
    split at member
    · rename_i small
      exact ⟨value, small, List.mem_singleton.mp member⟩
    · rcases List.mem_append.mp member with earlier | last
      · exact ih earlier
      · exact ⟨value % 10, Nat.mod_lt _ (by decide), List.mem_singleton.mp last⟩

theorem mem_print_digit {byte : UInt8} (member : byte ∈ print value) :
    48 ≤ byte.toNat ∧ byte.toNat ≤ 57 := by
  obtain ⟨one, small, same⟩ := digitValue?_of_mem_printFuel member
  rw [same, digit_toNat small]
  omega

theorem digit_eq_zero (small : value < 10) : digit value = 48 ↔ value = 0 := by
  rw [← UInt8.toNat_inj, digit_toNat small]
  show 48 + value = 48 ↔ value = 0
  omega

/-- The numeral of a positive number does not begin with a zero. -/
theorem printFuel_pos {fuel : Nat} (positive : 0 < value) (enough : value ≤ fuel) :
    ∃ first rest, printFuel fuel value = first :: rest ∧ first ≠ 48 := by
  induction fuel generalizing value with
  | zero => omega
  | succ fuel ih =>
    unfold printFuel
    split
    · rename_i small
      refine ⟨digit value, [], rfl, fun zero => ?_⟩
      have := (digit_eq_zero small).mp zero
      omega
    · obtain ⟨first, rest, split, nonzero⟩ := @ih (value / 10) (by omega) (by omega)
      exact ⟨first, rest ++ [digit (value % 10)], by rw [split, List.cons_append], nonzero⟩

theorem print_succ (value : Nat) : ∃ first rest, print (value + 1) = first :: rest ∧ first ≠ 48 :=
  printFuel_pos (Nat.succ_pos value) (Nat.le_refl _)

theorem digit_of_valueFrom {total : Nat} {word : List UInt8}
    (read : valueFrom total word = some value) {byte : UInt8} (member : byte ∈ word) :
    48 ≤ byte.toNat ∧ byte.toNat ≤ 57 := by
  induction word generalizing total with
  | nil => cases member
  | cons first rest ih =>
    rw [valueFrom] at read
    cases isDigit : digitValue? first with
    | none =>
      rw [isDigit] at read
      cases read
    | some one =>
      rw [isDigit] at read
      rcases List.mem_cons.mp member with rfl | later
      · unfold digitValue? at isDigit
        split at isDigit
        · assumption
        · cases isDigit
      · exact ih read later

/-- What the reader accepts: digits, and a value that fits. -/
theorem parse_eq_some {bound : Nat} {word : List UInt8} (read : parse bound word = some value) :
    word ≠ [] ∧ (∀ byte ∈ word, 48 ≤ byte.toNat ∧ byte.toNat ≤ 57) ∧ value < bound := by
  have nonempty : word ≠ [] := by
    rintro rfl
    cases read
  rw [parse_of_ne_nil nonempty] at read
  obtain ⟨total, valued, fits⟩ := Option.bind_eq_some_iff.mp read
  split at fits
  · cases fits
    exact ⟨nonempty, fun byte member => digit_of_valueFrom valued member, ‹_›⟩
  · cases fits

end Decimal

end Gungnir.Library
