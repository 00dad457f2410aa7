import Gungnir.Library.Decimal

/-!
# Byte strings, exceptions and doubles

`std::string` is a list of bytes. Appending past `max_size` throws
`std::length_error`; no other operation of the modelled code depends on the
size of the address space.
-/

namespace Gungnir.Core

abbrev Bytes := List UInt8

export Gungnir.Library (ascii)

inductive ExceptionKind where
  | invalidArgument
  | logicError
  | runtimeError
  | lengthError
  | outOfRange
  /-- Not an exception of the source: the call is undefined there, and the run of
  the model stops. -/
  | undefinedBehavior
  deriving DecidableEq, Repr

structure Exception where
  kind : ExceptionKind
  what : Bytes
  deriving DecidableEq, Repr

def Exception.invalidArgument (text : String) : Exception := ⟨.invalidArgument, ascii text⟩

def Exception.logicError (text : String) : Exception := ⟨.logicError, ascii text⟩

def Exception.outOfRange (text : String) : Exception := ⟨.outOfRange, ascii text⟩

def Exception.undefinedBehavior : Exception := ⟨.undefinedBehavior, []⟩

def Exception.lengthError (text : String) : Exception := ⟨.lengthError, ascii text⟩

def stringMaxSize : Nat := 2 ^ 63 - 2

/-- `std::to_string` on an unsigned value. -/
def stdToString (value : Nat) : Bytes := Library.Decimal.print value

/-- `std::to_string` on a signed value. -/
def stdToStringSigned (value : Int) : Bytes :=
  if value < 0 then ascii "-" ++ stdToString value.natAbs else stdToString value.natAbs

def hexDigit (value : Nat) : UInt8 :=
  if value < 10 then UInt8.ofNat (48 + value) else UInt8.ofNat (87 + value)

def hexFuel : Nat → Nat → Bytes
  | 0, value => [hexDigit (value % 16)]
  | fuel + 1, value =>
    if value < 16 then [hexDigit value]
    else hexFuel fuel (value / 16) ++ [hexDigit (value % 16)]

/-- An unsigned value written to a stream under `std::hex`. -/
def stdHex (value : Nat) : Bytes := hexFuel value value

/-- `std::from_chars` for an unsigned destination below `bound`, in the form both
callers use it: success with the whole range consumed. -/
def fromChars (bound : Nat) (range : Bytes) : Option Nat := Library.Decimal.parse bound range

def sizeBound : Nat := 2 ^ 64

def unsignedBound : Nat := 2 ^ 32

/-! ## Doubles

A double is kept as its bits; its value as a number is exact. How the standard
library prints and reads doubles is a parameter. -/

/-- What the standard library does with doubles in text: `operator<<` in the classic
locale with a given precision, and `std::from_chars` where it takes a whole range and
its result is finite. -/
structure Numerals where
  printDouble : Nat → UInt64 → Bytes
  readDouble : Bytes → Option UInt64

/-- Numerals for samples that hold no double. -/
def sampleNumerals : Numerals := ⟨fun _ _ => [], fun _ => none⟩

namespace Double

variable (bits : UInt64)

def exponent : Nat := (bits >>> 52).toNat % 2048

def fraction : Nat := bits.toNat % 2 ^ 52

def isNegative : Bool := decide (2 ^ 63 ≤ bits.toNat)

/-- `std::isfinite`. -/
def isFinite : Bool := decide (exponent bits ≠ 2047)

def magnitude : Rat :=
  let significand := if exponent bits = 0 then fraction bits else 2 ^ 52 + fraction bits
  mkRat (significand * 2 ^ max (exponent bits) 1) (2 ^ 1075)

/-- The number a finite double stands for. -/
def value : Rat := if isNegative bits then -magnitude bits else magnitude bits

def negate : UInt64 := bits ^^^ 0x8000000000000000

/-- `value != 0.0`. -/
def isNonzero : Bool := decide (bits.toNat % 2 ^ 63 ≠ 0)

end Double

end Gungnir.Core
