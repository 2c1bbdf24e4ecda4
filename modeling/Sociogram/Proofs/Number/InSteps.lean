import Mathlib.Data.Nat.Log
import Sociogram.Proofs.Number.ReadBack

/-!
Decimals that are read in steps. Rounding keeps the order of quotients, so that a decimal that
is not past the largest finite number is read as a finite one, whatever the steps round to.
-/

namespace Sociogram

namespace Binary64

/-! ## Order -/

theorem roundHalfEven_mono {smaller larger : Nat} (le : smaller ≤ larger) (denominator : Nat) :
    roundHalfEven smaller denominator ≤ roundHalfEven larger denominator := by
  have floors : smaller / denominator ≤ larger / denominator := Nat.div_le_div_right le
  rcases Nat.lt_or_eq_of_le floors with less | same
  · rcases roundHalfEven_cases smaller denominator with ⟨down, _⟩ | ⟨up, _⟩ <;>
      rcases roundHalfEven_cases larger denominator with ⟨down', _⟩ | ⟨up', _⟩ <;> omega
  · have parts := Nat.div_add_mod smaller denominator
    have partsLarger := Nat.div_add_mod larger denominator
    rw [same] at parts
    simp only [roundHalfEven, same]
    split_ifs <;> omega

theorem lt_two_pow_mul_of_excess {numerator denominator : Nat} (positive : 0 < denominator) :
    numerator * unitsPerOne <
      2 ^ 53 * (denominator * 2 ^ excessOfRatio numerator denominator) := by
  have digits : (numerator * unitsPerOne / denominator).log2 + 1 ≤
      53 + excessOfRatio numerator denominator := by
    rw [excessOfRatio]
    omega
  have below : numerator * unitsPerOne / denominator <
      2 ^ (53 + excessOfRatio numerator denominator) :=
    Nat.lt_of_lt_of_le Nat.lt_log2_self (Nat.pow_le_pow_right (by decide) digits)
  calc numerator * unitsPerOne
      < 2 ^ (53 + excessOfRatio numerator denominator) * denominator :=
        (Nat.div_lt_iff_lt_mul positive).mp below
    _ = 2 ^ 53 * (denominator * 2 ^ excessOfRatio numerator denominator) := by
        rw [Nat.pow_add, Nat.mul_assoc, Nat.mul_comm denominator]

theorem two_pow_mul_le_of_excess {numerator denominator : Nat} (positive : 0 < denominator)
    (excess : 0 < excessOfRatio numerator denominator) :
    2 ^ 52 * (denominator * 2 ^ excessOfRatio numerator denominator) ≤
      numerator * unitsPerOne := by
  have digits : (numerator * unitsPerOne / denominator).log2 =
      52 + excessOfRatio numerator denominator := by
    rw [excessOfRatio] at excess ⊢
    omega
  have nonzero : numerator * unitsPerOne / denominator ≠ 0 := by
    intro zero
    rw [zero, Nat.log2_zero] at digits
    omega
  have above : 2 ^ (52 + excessOfRatio numerator denominator) ≤
      numerator * unitsPerOne / denominator :=
    digits ▸ Nat.log2_self_le nonzero
  calc 2 ^ 52 * (denominator * 2 ^ excessOfRatio numerator denominator)
      = 2 ^ (52 + excessOfRatio numerator denominator) * denominator := by
        rw [Nat.pow_add, Nat.mul_assoc, Nat.mul_comm denominator]
    _ ≤ numerator * unitsPerOne := (Nat.le_div_iff_mul_le positive).mp above

/-- A greater numerator either has more digits in excess, or just as many and is rounded to at
least as much. -/
theorem patternOfRatio_mono {smaller larger denominator : Nat} (positive : 0 < denominator)
    (le : smaller ≤ larger) :
    patternOfRatio smaller denominator ≤ patternOfRatio larger denominator := by
  have scaled : smaller * unitsPerOne ≤ larger * unitsPerOne := Nat.mul_le_mul_right _ le
  have excess : excessOfRatio smaller denominator ≤ excessOfRatio larger denominator := by
    have quotients : smaller * unitsPerOne / denominator ≤ larger * unitsPerOne / denominator :=
      Nat.div_le_div_right scaled
    rw [excessOfRatio, excessOfRatio, Nat.log2_eq_log_two, Nat.log2_eq_log_two]
    exact Nat.sub_le_sub_right (Nat.log_mono_right quotients) 52
  have step (numerator : Nat) : 0 < denominator * 2 ^ excessOfRatio numerator denominator :=
    Nat.mul_pos positive (Nat.two_pow_pos _)
  rw [patternOfRatio_eq, patternOfRatio_eq]
  apply min_le_min_right
  rcases Nat.lt_or_eq_of_le excess with fewer | same
  · have upper := roundHalfEven_le (step smaller) (lt_two_pow_mul_of_excess positive)
    have lower := le_roundHalfEven (step larger)
      (two_pow_mul_le_of_excess positive (Nat.zero_lt_of_lt fewer))
    have next : (excessOfRatio smaller denominator + 1) * fractionCount ≤
        excessOfRatio larger denominator * fractionCount := Nat.mul_le_mul_right _ fewer
    rw [fractionCount_eq] at next ⊢
    omega
  · rw [same]
    exact Nat.add_le_add_left (roundHalfEven_mono scaled _) _

theorem patternOfRatio_le_of_mul_le {left right below above : Nat} (belowPositive : 0 < below)
    (abovePositive : 0 < above) (le : left * above ≤ right * below) :
    patternOfRatio left below ≤ patternOfRatio right above := by
  calc patternOfRatio left below
      = patternOfRatio (left * above) (below * above) := by
        rw [Nat.mul_comm left, Nat.mul_comm below, patternOfRatio_mul_mul abovePositive]
    _ ≤ patternOfRatio (right * below) (below * above) :=
        patternOfRatio_mono (Nat.mul_pos belowPositive abovePositive) le
    _ = patternOfRatio right above := by
        rw [Nat.mul_comm right, patternOfRatio_mul_mul belowPositive]

theorem magnitudeOfPattern_mono {smaller larger : Nat} (le : smaller ≤ larger) :
    magnitudeOfPattern smaller ≤ magnitudeOfPattern larger := by
  have parts := Nat.div_add_mod smaller fractionCount
  have partsLarger := Nat.div_add_mod larger fractionCount
  have exponents : smaller / fractionCount ≤ larger / fractionCount := Nat.div_le_div_right le
  rcases Nat.lt_or_eq_of_le exponents with less | same
  · obtain ⟨before, next⟩ := Nat.exists_eq_succ_of_ne_zero (Nat.ne_of_gt (Nat.zero_lt_of_lt less))
    have below : smaller / fractionCount ≤ before := by omega
    have atLeast : 2 ^ 52 * 2 ^ before ≤ magnitudeOfPattern larger := by
      rw [magnitudeOfPattern_eq rfl rfl, next, if_neg (Nat.succ_ne_zero before),
        Nat.succ_sub_one]
      exact Nat.mul_le_mul_right _ (Nat.le_add_right _ _)
    exact Nat.le_trans (Nat.le_of_lt (magnitudeOfPattern_lt below)) atLeast
  · rw [same] at parts
    have fractions : smaller % fractionCount ≤ larger % fractionCount := by omega
    rw [magnitudeOfPattern_eq same rfl, magnitudeOfPattern_eq rfl rfl]
    split
    · exact fractions
    · exact Nat.mul_le_mul_right _ (Nat.add_le_add_left fractions _)

/-! ## Products and quotients -/

theorem magnitudePattern_ofRatio (negative : Bool) (numerator denominator : Nat) :
    (ofRatio negative numerator denominator).magnitudePattern =
      patternOfRatio numerator denominator :=
  magnitudePattern_ofMagnitudePattern _
    (Nat.lt_of_le_of_lt (patternOfRatio_le _ _) infinitePattern_lt)

theorem isFinite_of_le {smaller larger : Binary64} (finite : larger.isFinite = true)
    (le : smaller.magnitudePattern ≤ larger.magnitudePattern) : smaller.isFinite = true := by
  have below : larger.magnitudePattern < infinitePattern := of_decide_eq_true finite
  exact decide_eq_true (Nat.lt_of_le_of_lt le below)

theorem times_mono {smaller larger factor other : Binary64}
    (le : smaller.magnitudePattern ≤ larger.magnitudePattern)
    (factors : factor.magnitudePattern ≤ other.magnitudePattern) :
    (smaller.times factor).magnitudePattern ≤ (larger.times other).magnitudePattern := by
  simp only [times, magnitudePattern_ofRatio, ← unitsPerOne_eq_pow]
  apply patternOfRatio_mono (Nat.mul_pos unitsPerOne_pos unitsPerOne_pos)
  exact Nat.mul_le_mul (magnitudeOfPattern_mono le) (magnitudeOfPattern_mono factors)

theorem powerOfTen_mono {smaller larger : Nat} (le : smaller ≤ larger) :
    (powerOfTen smaller).magnitudePattern ≤ (powerOfTen larger).magnitudePattern := by
  rw [powerOfTen, powerOfTen, magnitudePattern_ofRatio, magnitudePattern_ofRatio]
  exact patternOfRatio_mono Nat.one_pos (Nat.pow_le_pow_right (Nat.succ_pos 9) le)

theorem unitsPerOne_le_powerOfTen (power : Nat) : unitsPerOne ≤ (powerOfTen power).magnitude := by
  have one : magnitudeOfPattern (patternOfRatio 1 1) = unitsPerOne := by
    have exact : roundedUnits 1 = 1 * unitsPerOne := roundedUnits_of_le (by decide)
    rwa [Nat.one_mul] at exact
  rw [magnitude, powerOfTen, magnitudePattern_ofRatio, ← one]
  exact magnitudeOfPattern_mono (patternOfRatio_mono Nat.one_pos (Nat.pow_pos (Nat.succ_pos 9)))

theorem dividedBy_powerOfTen_le {value : Binary64} (finite : value.isFinite = true) (power : Nat) :
    (value.dividedBy (powerOfTen power)).magnitudePattern ≤ value.magnitudePattern := by
  have divisor := unitsPerOne_le_powerOfTen power
  have itself : patternOfRatio value.magnitude unitsPerOne = value.magnitudePattern :=
    patternOfRatio_of_exact unitsPerOne_pos (of_decide_eq_true finite) (Nat.mul_comm _ _)
  rw [dividedBy, magnitudePattern_ofRatio, ← itself]
  exact patternOfRatio_le_of_mul_le (Nat.lt_of_lt_of_le unitsPerOne_pos divisor) unitsPerOne_pos
    (Nat.mul_le_mul_left value.magnitude divisor)

end Binary64

namespace Decimal

open Binary64

theorem isFinite_divideInSteps {value : Binary64} (finite : value.isFinite = true)
    (steps power : Nat) : (divideInSteps value steps power).isFinite = true := by
  induction steps generalizing value with
  | zero => exact isFinite_of_le finite (dividedBy_powerOfTen_le finite power)
  | succ steps induction =>
      rw [divideInSteps]
      split
      · exact finite
      · exact induction (isFinite_of_le finite (dividedBy_powerOfTen_le finite 308))

theorem isFinite_ofMagnitudePattern (negative : Bool) (number : Binary64) :
    (ofMagnitudePattern negative number.magnitudePattern).isFinite = number.isFinite := by
  rw [Binary64.isFinite, magnitudePattern_ofMagnitudePattern _ number.magnitudePattern_lt]
  rfl

theorem isFinite_ofRatio_of_lt {digits : Nat} (bounded : digits < 2 ^ 64) :
    (ofRatio false digits 1).isFinite = true := by
  rw [Binary64.isFinite, magnitudePattern_ofRatio]
  exact decide_eq_true (patternOfRatio_one bounded).2

/-! ## Few digits -/

/-- Digits and a power of ten that are floating-point numbers themselves, so that only the product
or the quotient is rounded. -/
structure IsSmall (decimal : Decimal) : Prop where
  digits : decimal.digits ≤ 2 ^ 53
  power : decimal.exponent.natAbs ≤ 22

theorem magnitude_powerOfTen : ∀ power ≤ 22,
    (powerOfTen power).magnitude = Nat.pow 10 power * Nat.pow 2 1074 := by
  decide +kernel

section

variable {digits power : Nat} (few : digits ≤ 2 ^ 53) (small : power ≤ 22)

include few

theorem magnitude_ofRatio_of_le : (ofRatio false digits 1).magnitude = digits * unitsPerOne := by
  rw [magnitude, magnitudePattern_ofRatio]
  exact roundedUnits_of_le few

include small

theorem times_powerOfTen :
    ((ofRatio false digits 1).times (powerOfTen power)).magnitudePattern =
      patternOfRatio (digits * 10 ^ power) 1 := by
  rw [times, magnitudePattern_ofRatio, magnitude_ofRatio_of_le few,
    magnitude_powerOfTen power small, ← unitsPerOne_eq_pow, Nat.pow_eq]
  calc patternOfRatio (digits * unitsPerOne * (10 ^ power * unitsPerOne))
        (unitsPerOne * unitsPerOne)
      = patternOfRatio (unitsPerOne * unitsPerOne * (digits * 10 ^ power))
          (unitsPerOne * unitsPerOne * 1) := by
        congr 1 <;> ring
    _ = patternOfRatio (digits * 10 ^ power) 1 :=
        patternOfRatio_mul_mul (Nat.mul_pos unitsPerOne_pos unitsPerOne_pos) _ _

theorem dividedBy_powerOfTen :
    ((ofRatio false digits 1).dividedBy (powerOfTen power)).magnitudePattern =
      patternOfRatio digits (10 ^ power) := by
  rw [dividedBy, magnitudePattern_ofRatio, magnitude_ofRatio_of_le few,
    magnitude_powerOfTen power small, ← unitsPerOne_eq_pow, Nat.pow_eq, Nat.mul_comm digits,
    Nat.mul_comm (10 ^ power), patternOfRatio_mul_mul unitsPerOne_pos]

end

theorem IsSmall.toBinary64InSteps_eq {decimal : Decimal} (small : decimal.IsSmall) :
    decimal.toBinary64InSteps = decimal.toBinary64 := by
  obtain ⟨negative, digits, exponent⟩ := decimal
  have few : digits ≤ 2 ^ 53 := small.digits
  rw [toBinary64_eq_scaled]
  cases exponent with
  | ofNat power =>
      have smallPower : power ≤ 22 := small.power
      have inTable : power ≤ 308 := by omega
      rw [Decimal.toBinary64InSteps, scaled]
      simp only [if_pos inTable, times_powerOfTen few smallPower, Nat.pow_eq]
      rw [ofRatio]
  | negSucc power =>
      have smallPower : power + 1 ≤ 22 := small.power
      have below : power < 308 := by omega
      -- Up to `10 ^ 308` one quotient is enough.
      rw [Decimal.toBinary64InSteps, scaled]
      simp only [Nat.div_eq_of_lt below, Nat.mod_eq_of_lt below, divideInSteps,
        dividedBy_powerOfTen few smallPower, Nat.pow_eq]
      rw [ofRatio]

/-! ## Decimals in range -/

def largestPattern : Nat := infinitePattern - 1

/-- The significand has at most 64 bits, and the number nearest to the decimal is below the
largest finite one. -/
structure InRange (decimal : Decimal) : Prop where
  significand : decimal.digits < 2 ^ 64
  below : decimal.toBinary64.magnitudePattern < largestPattern

def nearlyLargest : Nat := 179769313486231561 * 10 ^ 291

theorem patternOfRatio_nearlyLargest : patternOfRatio nearlyLargest 1 = largestPattern := by
  decide +kernel

def greatestSignificand (power : Nat) : Nat := min (2 ^ 64 - 1) (nearlyLargest / 10 ^ power)

/-- Up to the power `288` that significand has all 64 bits. -/
theorem isFinite_greatest : ∀ further ≤ 20,
    ((ofRatio false (greatestSignificand (288 + further)) 1).times
      (powerOfTen (288 + further))).isFinite = true := by
  decide +kernel

namespace InRange

variable {negative : Bool} {digits power : Nat} (inRange : InRange ⟨negative, digits, power⟩)

include inRange

theorem mul_pow_lt : digits * 10 ^ power < nearlyLargest := by
  by_contra past
  have below := inRange.below
  have natural : (power : Int) = (power : Nat) - (0 : Nat) := by omega
  rw [toBinary64_eq_scaled, scaled_eq_ofRatio negative digits natural, magnitudePattern_ofRatio,
    Nat.pow_zero] at below
  have above := patternOfRatio_mono Nat.one_pos (Nat.le_of_not_lt past)
  rw [patternOfRatio_nearlyLargest] at above
  exact Nat.not_lt.mpr above below

theorem le_greatestSignificand : digits ≤ greatestSignificand power :=
  Nat.le_min.mpr ⟨Nat.le_sub_one_of_lt inRange.significand,
    (Nat.le_div_iff_mul_le (Nat.pow_pos (Nat.succ_pos 9))).mpr (Nat.le_of_lt inRange.mul_pow_lt)⟩

theorem digits_eq_zero (large : 309 ≤ power) : digits = 0 := by
  have small : nearlyLargest < 10 ^ 309 := by decide +kernel
  generalize 309 = most at large small
  by_contra nonzero
  have covered : 10 ^ most ≤ digits * 10 ^ power :=
    Nat.le_trans (Nat.pow_le_pow_right (Nat.succ_pos 9) large)
      (Nat.le_mul_of_pos_left _ (Nat.pos_of_ne_zero nonzero))
  have notPast := inRange.mul_pow_lt
  omega

theorem isFinite_times (within : power ≤ 308) :
    ((ofRatio false digits 1).times (powerOfTen power)).isFinite = true := by
  obtain ⟨further, most, atMost, significand⟩ : ∃ further ≤ 20, power ≤ 288 + further ∧
      digits ≤ greatestSignificand (288 + further) := by
    rcases Nat.le_total power 288 with small | large
    · have allBits : greatestSignificand 288 = 2 ^ 64 - 1 := by decide +kernel
      exact ⟨0, by omega, small, allBits ▸ Nat.le_sub_one_of_lt inRange.significand⟩
    · obtain ⟨further, rfl⟩ := Nat.exists_eq_add_of_le large
      exact ⟨further, by omega, Nat.le_refl _, inRange.le_greatestSignificand⟩
  have digitsLe : (ofRatio false digits 1).magnitudePattern ≤
      (ofRatio false (greatestSignificand (288 + further)) 1).magnitudePattern := by
    rw [magnitudePattern_ofRatio, magnitudePattern_ofRatio]
    exact patternOfRatio_mono Nat.one_pos significand
  exact isFinite_of_le (isFinite_greatest further most)
    (times_mono digitsLe (powerOfTen_mono atMost))

end InRange

/-- What is in range is read as a finite number. -/
theorem InRange.isFinite {decimal : Decimal} (inRange : decimal.InRange) :
    decimal.toBinary64InSteps.isFinite = true := by
  obtain ⟨negative, digits, exponent⟩ := decimal
  have finite : (ofRatio false digits 1).isFinite = true :=
    isFinite_ofRatio_of_lt inRange.significand
  rw [toBinary64InSteps, isFinite_ofMagnitudePattern]
  cases exponent with
  | negSucc power => exact isFinite_divideInSteps finite _ _
  | ofNat power =>
      simp only
      split
      · next within => exact inRange.isFinite_times within
      · split
        · exact finite
        · next large nonzero =>
            rw [inRange.digits_eq_zero (by omega)] at nonzero
            exact absurd (by decide +kernel) nonzero

theorem toBinary64_mul_pow (negative : Bool) (digits zeros : Nat) (exponent : Int) :
    toBinary64 ⟨negative, digits * 10 ^ zeros, exponent⟩ =
      toBinary64 ⟨negative, digits, exponent + zeros⟩ := by
  rw [toBinary64_eq_scaled, toBinary64_eq_scaled, scaled_mul_pow]

/-- Zeros at the end of the digits may be left to the exponent, and digits may be less. -/
theorem toBinary64_magnitudePattern_le {fewer digits zeros : Nat}
    (le : fewer * 10 ^ zeros ≤ digits) (negative : Bool) (exponent : Int) :
    (toBinary64 ⟨negative, fewer, exponent + zeros⟩).magnitudePattern ≤
      (toBinary64 ⟨negative, digits, exponent⟩).magnitudePattern := by
  rw [← toBinary64_mul_pow, toBinary64_eq_scaled, toBinary64_eq_scaled,
    scaled_eq_ofRatio negative _ (exponent_eq_sub exponent),
    scaled_eq_ofRatio negative _ (exponent_eq_sub exponent), magnitudePattern_ofRatio,
    magnitudePattern_ofRatio]
  exact patternOfRatio_mono (Nat.pow_pos (Nat.succ_pos 9)) (Nat.mul_le_mul_right _ le)

theorem inRange_of_nonpos {decimal : Decimal} (significand : decimal.digits < 2 ^ 64)
    (nonpos : decimal.exponent ≤ 0) : decimal.InRange := by
  obtain ⟨negative, digits, exponent⟩ := decimal
  obtain ⟨power, rfl⟩ : ∃ power : Nat, exponent = -(power : Int) :=
    ⟨(-exponent).toNat, by simp only at nonpos; omega⟩
  have fraction : -(power : Int) = (0 : Nat) - (power : Nat) := by omega
  refine ⟨significand, ?_⟩
  rw [toBinary64_eq_scaled, scaled_eq_ofRatio negative digits fraction, magnitudePattern_ofRatio]
  calc patternOfRatio (digits * 10 ^ 0) (10 ^ power)
      ≤ patternOfRatio (2 ^ 64) 1 := by
        have one : 0 < 10 ^ power := Nat.pow_pos (Nat.succ_pos 9)
        apply patternOfRatio_le_of_mul_le one Nat.one_pos
        rw [Nat.pow_zero, Nat.mul_one, Nat.mul_one]
        exact Nat.le_trans (Nat.le_of_lt significand) (Nat.le_mul_of_pos_right _ one)
    _ < largestPattern := by decide +kernel

end Decimal

end Sociogram
