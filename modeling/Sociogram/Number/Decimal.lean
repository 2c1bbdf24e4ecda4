import Sociogram.Number.Binary64

/-!
Decimal numerals: a sign, the digits as one natural number, and a power of ten.
A numeral is read as the floating-point number nearest to its exact value.
-/

namespace Sociogram

structure Decimal where
  negative : Bool
  digits : Nat
  exponent : Int
deriving DecidableEq

namespace Decimal

def scaled (negative : Bool) (digits : Nat) : Int → Binary64
  | .ofNat power => .ofRatio negative (digits * Nat.pow 10 power) 1
  | .negSucc power => .ofRatio negative digits (Nat.pow 10 (power + 1))

/-- The floating-point number nearest to a decimal. Powers of ten that cannot
change the answer are not computed: `10 ^ 310` is past every finite magnitude,
and a quotient below `2 ^ -1080` is nearer to zero than to anything else. -/
def toBinary64 (decimal : Decimal) : Binary64 :=
  if decimal.digits = 0 then .zero decimal.negative
  else if 310 ≤ decimal.exponent then .infinity decimal.negative
  else if decimal.digits.log2 + 1 + 3 * decimal.exponent < -1080 then
    .zero decimal.negative
  else scaled decimal.negative decimal.digits decimal.exponent

example : toBinary64 ⟨false, 15, -1⟩ = ⟨0x3ff8000000000000⟩ := by decide +kernel
example : toBinary64 ⟨true, 0, 5⟩ = .zero true := by decide +kernel
example : toBinary64 ⟨false, 1, 309⟩ = .infinity false := by decide +kernel
example : toBinary64 ⟨false, 5, -324⟩ = ⟨1⟩ := by decide +kernel
example : toBinary64 ⟨false, 2, -324⟩ = .zero false := by decide +kernel

/-! ## Reading in steps -/

def divideInSteps (value : Binary64) : Nat → Nat → Binary64
  | 0, power => value.dividedBy (.powerOfTen power)
  | steps + 1, power =>
      if value.magnitude = 0 then value
      else divideInSteps (value.dividedBy (.powerOfTen 308)) steps power

/-- The number that a decimal is taken for when the digits are rounded first, and then multiplied
or divided by powers of ten that are rounded themselves. Mostly it is the nearest number, or a
neighbour of it. -/
def toBinary64InSteps (decimal : Decimal) : Binary64 :=
  let digits := Binary64.ofRatio false decimal.digits 1
  let magnitude :=
    match decimal.exponent with
    | .ofNat power =>
        if power ≤ 308 then digits.times (.powerOfTen power)
        else if digits.magnitude = 0 then digits
        else .infinity false
    | .negSucc power => divideInSteps digits (power / 308) (power % 308 + 1)
  .ofMagnitudePattern decimal.negative magnitude.magnitudePattern

example : toBinary64InSteps ⟨true, 25, -1⟩ = toBinary64 ⟨true, 25, -1⟩ := by decide +kernel

/-- Digits that are exact, times a power of ten that is not. -/
example : toBinary64InSteps ⟨false, 5, 32⟩ = toBinary64 ⟨false, 50000000000000004, 16⟩ := by
  decide +kernel
example : toBinary64InSteps ⟨false, 5, 32⟩ ≠ toBinary64 ⟨false, 5, 32⟩ := by decide +kernel

end Decimal

end Sociogram
