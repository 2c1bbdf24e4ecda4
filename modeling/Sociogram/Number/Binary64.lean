/-!
Binary floating-point numbers of 64 bits, kept as their bit patterns.

Every number other than a NaN stands for an exact multiple of `2 ^ -1074`, the
smallest positive value of the format. Comparing two numbers compares these
multiples, and rounding is defined once, for a quotient of natural numbers.
-/

namespace Sociogram

/-- A 64-bit binary floating-point number: one sign bit, eleven exponent bits
and fifty-two fraction bits, from the highest bit to the lowest. -/
structure Binary64 where
  bits : UInt64
deriving DecidableEq

namespace Binary64

/-! ## Fields of the bit pattern -/

def fractionCount : Nat := Nat.pow 2 52

def infinitePattern : Nat := 2047 * fractionCount

def magnitudePattern (number : Binary64) : Nat :=
  number.bits.toNat % Nat.pow 2 63

def negative (number : Binary64) : Bool :=
  decide (Nat.pow 2 63 ≤ number.bits.toNat)

def isNaN (number : Binary64) : Bool :=
  decide (infinitePattern < number.magnitudePattern)

def isFinite (number : Binary64) : Bool :=
  decide (number.magnitudePattern < infinitePattern)

def ofMagnitudePattern (negative : Bool) (pattern : Nat) : Binary64 :=
  ⟨UInt64.ofNat (if negative then Nat.pow 2 63 + pattern else pattern)⟩

def zero (negative : Bool) : Binary64 := ofMagnitudePattern negative 0

def infinity (negative : Bool) : Binary64 :=
  ofMagnitudePattern negative infinitePattern

def nan : Binary64 :=
  ofMagnitudePattern false (infinitePattern + Nat.pow 2 51)

/-! ## Exact values -/

/-- The exact magnitude that a pattern stands for, in units of `2 ^ -1074`. With
a zero exponent field the fraction is the magnitude itself; otherwise the
fraction has a leading one and is shifted by one less than the field. An
infinity gets the magnitude one step past the largest finite one, so that it
compares as it should. -/
def magnitudeOfPattern (pattern : Nat) : Nat :=
  let exponent := pattern / fractionCount
  let fraction := pattern % fractionCount
  if exponent = 0 then fraction
  else (fractionCount + fraction) * Nat.pow 2 (exponent - 1)

def magnitude (number : Binary64) : Nat :=
  magnitudeOfPattern number.magnitudePattern

def units? (number : Binary64) : Option Int :=
  if number.isNaN then none
  else if number.negative then some (-(number.magnitude : Int))
  else some (number.magnitude : Int)

/-! ## Order -/

/-- The order of two numbers by exact value. A NaN is not ordered with anything,
itself included, and both zeros are one value. -/
def order? (left right : Binary64) : Option Ordering :=
  match left.units?, right.units? with
  | some leftUnits, some rightUnits => some (compare leftUnits rightUnits)
  | _, _ => none

def sameValue (left right : Binary64) : Bool :=
  left.order? right == some .eq

/-! ## Rounding -/

/-- A quotient rounded to the nearest natural number, a half to the even one. -/
def roundHalfEven (numerator denominator : Nat) : Nat :=
  let floor := numerator / denominator
  let excess := 2 * (numerator % denominator)
  if excess < denominator then floor
  else if denominator < excess then floor + 1
  else if floor % 2 = 0 then floor
  else floor + 1

/-- The magnitude pattern nearest to a quotient, of two equally near ones the one
with the even fraction. The quotient in units is cut to at most 53 binary
digits by a power of two; adding that power to the exponent field carries over
into the next exponent by itself. Anything past the largest finite magnitude
becomes the infinite pattern. -/
def patternOfRatio (numerator denominator : Nat) : Nat :=
  let scaled := numerator * Nat.pow 2 1074
  let shift := (scaled / denominator).log2 - 52
  let pattern :=
    shift * fractionCount + roundHalfEven scaled (denominator * Nat.pow 2 shift)
  min pattern infinitePattern

def ofRatio (negative : Bool) (numerator denominator : Nat) : Binary64 :=
  ofMagnitudePattern negative (patternOfRatio numerator denominator)

def ofInt (value : Int) : Binary64 :=
  ofRatio (decide (value < 0)) value.natAbs 1

def powerOfTen (power : Nat) : Binary64 := ofRatio false (Nat.pow 10 power) 1

def times (left right : Binary64) : Binary64 :=
  ofRatio false (left.magnitude * right.magnitude) (Nat.pow 2 1074 * Nat.pow 2 1074)

def dividedBy (left right : Binary64) : Binary64 := ofRatio false left.magnitude right.magnitude

example : ofInt 1 = ⟨0x3ff0000000000000⟩ := by decide +kernel
example : ofInt (-2) = ⟨0xc000000000000000⟩ := by decide +kernel

/-- Half way between two neighbours the even fraction wins. -/
example : ofInt (2 ^ 53 + 1) = ofInt (2 ^ 53) := by decide +kernel
example : ofInt (2 ^ 53 + 3) = ofInt (2 ^ 53 + 4) := by decide +kernel

example : (zero true).sameValue (zero false) = true := by decide +kernel
example : nan.sameValue nan = false := by decide +kernel

end Binary64

end Sociogram
