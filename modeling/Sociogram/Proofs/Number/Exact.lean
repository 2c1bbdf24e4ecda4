import Mathlib.Algebra.Order.Field.Power
import Mathlib.Algebra.Order.Ring.Rat
import Mathlib.Data.Rat.Cast.Order
import Mathlib.Order.WithBotTop
import Mathlib.Tactic.FieldSimp
import Mathlib.Tactic.Linarith
import Sociogram.Proofs.Number.Nearest

/-!
The exact numbers that patterns stand for: rational numbers, and an infinity at
either end. Counting in units keeps their order, and the number that is taken for an
integer is a nearest one.
-/

namespace Sociogram

abbrev Extended : Type := WithBotTop ℚ

namespace Binary64

/-! ## The number of a pattern -/

/-- The value by the fields of the pattern: with a zero exponent field the fraction
counts from `2 ^ -1022`, otherwise it has a leading one. -/
def rational (number : Binary64) : ℚ :=
  let exponent := number.magnitudePattern / fractionCount
  let fraction : ℚ := (number.magnitudePattern % fractionCount : Nat) / 2 ^ 52
  let magnitude : ℚ :=
    if exponent = 0 then fraction * 2 ^ (-1022 : ℤ)
    else (1 + fraction) * 2 ^ ((exponent : ℤ) - 1023)
  if number.negative then -magnitude else magnitude

/-- The exact number; a NaN stands for none. -/
def number? (number : Binary64) : Option Extended :=
  if number.isNaN then none
  else if number.isFinite then some (number.rational : ℚ)
  else some (if number.negative then ⊥ else ⊤)

def signed (negative : Bool) (magnitude : Nat) : Int :=
  if negative then -(magnitude : Int) else magnitude

theorem units?_of_not_nan {number : Binary64} (notNaN : number.isNaN = false) :
    number.units? = some (signed number.negative number.magnitude) := by
  cases sign : number.negative <;> simp [units?, notNaN, sign, signed]

theorem isNaN_of_units? {number : Binary64} {units : Int} (view : number.units? = some units) :
    number.isNaN = false := by
  cases nan : number.isNaN with
  | false => rfl
  | true => simp [units?, nan] at view

theorem units_eq_signed {number : Binary64} {units : Int} (view : number.units? = some units) :
    units = signed number.negative number.magnitude := by
  rw [units?_of_not_nan (isNaN_of_units? view), Option.some_inj] at view
  exact view.symm

theorem cast_unitsPerOne : (unitsPerOne : ℚ) = 2 ^ (1074 : ℤ) := by
  have power : (unitsPerOne : ℚ) = 2 ^ unitDigits := by
    rw [unitsPerOne_eq]
    push_cast
    rfl
  rw [power, ← zpow_natCast, unitDigits]
  rfl

theorem fields_mul_unitsPerOne (exponent fraction : Nat) :
    (if exponent = 0 then (fraction : ℚ) / 2 ^ 52 * 2 ^ (-1022 : ℤ)
      else (1 + (fraction : ℚ) / 2 ^ 52) * 2 ^ ((exponent : ℤ) - 1023)) * unitsPerOne =
      ((if exponent = 0 then fraction
        else (2 ^ 52 + fraction) * 2 ^ (exponent - 1) : Nat) : ℚ) := by
  have two : (2 : ℚ) ≠ 0 := by norm_num
  rw [cast_unitsPerOne]
  split
  · have power : (2 : ℚ) ^ (-1022 : ℤ) * 2 ^ (1074 : ℤ) = 2 ^ 52 := by
      rw [← zpow_add₀ two]
      norm_num
    rw [mul_assoc, power, div_mul_cancel₀ _ (pow_ne_zero 52 two)]
  · next nonzero =>
      obtain ⟨before, next⟩ := Nat.exists_eq_succ_of_ne_zero nonzero
      subst next
      have power : (2 : ℚ) ^ (((before + 1 : Nat) : ℤ) - 1023) * 2 ^ (1074 : ℤ) =
          2 ^ 52 * 2 ^ before := by
        rw [← zpow_add₀ two, ← zpow_natCast, ← zpow_natCast, ← zpow_add₀ two]
        congr 1
        push_cast
        ring
      rw [mul_assoc, power]
      push_cast
      field_simp
      norm_num

theorem rational_eq_units (number : Binary64) :
    number.rational = (signed number.negative number.magnitude : ℚ) / unitsPerOne := by
  have positive : (unitsPerOne : ℚ) ≠ 0 := by exact_mod_cast unitsPerOne_pos.ne'
  rw [eq_div_iff positive]
  have fields := fields_mul_unitsPerOne (number.magnitudePattern / fractionCount)
    (number.magnitudePattern % fractionCount)
  rw [← magnitudeOfPattern_eq rfl rfl] at fields
  cases sign : number.negative with
  | false => simpa [rational, sign, signed, magnitude] using fields
  | true => simpa [rational, sign, signed, magnitude] using fields

/-! ## Units and exact numbers -/

/-- The units that an infinity counts as, more than any finite magnitude. -/
def infiniteUnits : Nat := magnitudeOfPattern infinitePattern

theorem infiniteUnits_eq : infiniteUnits = 2 ^ 52 * 2 ^ 2046 := by
  have fields : infinitePattern = 2046 * fractionCount + 2 ^ 52 := by
    rw [infinitePattern, fractionCount_eq]
    omega
  rw [infiniteUnits, fields, magnitudeOfPattern_shifted (Nat.le_refl _) (by omega)]

theorem magnitudeOfPattern_lt_infiniteUnits {pattern : Nat} (finite : pattern < infinitePattern) :
    magnitudeOfPattern pattern < infiniteUnits := by
  have exponent : pattern / fractionCount ≤ 2046 := by
    rw [infinitePattern, fractionCount_eq] at finite
    rw [fractionCount_eq]
    omega
  rw [infiniteUnits_eq]
  exact magnitudeOfPattern_lt exponent

theorem infiniteUnits_pos : 0 < infiniteUnits :=
  Nat.zero_lt_of_lt (@magnitudeOfPattern_lt_infiniteUnits 0 (by decide))

def ofUnits (units : Int) : Extended :=
  if units = infiniteUnits then ⊤
  else if units = -(infiniteUnits : Int) then ⊥
  else ((units : ℚ) / unitsPerOne : ℚ)

section

variable {left right : Int} (leftBound : left.natAbs ≤ infiniteUnits)
  (rightBound : right.natAbs ≤ infiniteUnits)

include leftBound rightBound

theorem ofUnits_lt_ofUnits (less : left < right) : ofUnits left < ofUnits right := by
  have unit : (0 : ℚ) < unitsPerOne := by exact_mod_cast unitsPerOne_pos
  have rationals : (left : ℚ) / unitsPerOne < (right : ℚ) / unitsPerOne :=
    div_lt_div_of_pos_right (by exact_mod_cast less) unit
  simp only [ofUnits]
  split
  · omega
  · split
    · split
      · exact bot_lt_top
      · split
        · omega
        · exact bot_lt_iff_ne_bot.mpr (WithBotTop.coe_ne_bot _)
    · split
      · exact lt_top_iff_ne_top.mpr (WithBotTop.coe_ne_top _)
      · split
        · omega
        · exact WithBotTop.coe_lt_coe.mpr rationals

theorem ofUnits_lt_iff : ofUnits left < ofUnits right ↔ left < right := by
  refine ⟨fun less => ?_, ofUnits_lt_ofUnits leftBound rightBound⟩
  rcases Int.lt_trichotomy left right with before | same | after
  · exact before
  · subst same
    exact absurd less (lt_irrefl _)
  · exact absurd less (lt_asymm (ofUnits_lt_ofUnits rightBound leftBound after))

theorem ofUnits_le_iff : ofUnits left ≤ ofUnits right ↔ left ≤ right := by
  rw [← not_lt, ofUnits_lt_iff rightBound leftBound, Int.not_lt]

theorem ofUnits_inj : ofUnits left = ofUnits right ↔ left = right := by
  rw [le_antisymm_iff, ofUnits_le_iff leftBound rightBound, ofUnits_le_iff rightBound leftBound]
  omega

end

theorem number?_of_finite {number : Binary64} {units : Int} (view : number.units? = some units)
    (finite : number.magnitudePattern < infinitePattern) :
    number.number? = some (ofUnits units) ∧ units.natAbs ≤ infiniteUnits := by
  have notNaN := isNaN_of_units? view
  have isFinite : number.isFinite = true := decide_eq_true finite
  have below : number.magnitude < infiniteUnits := magnitudeOfPattern_lt_infiniteUnits finite
  have signedUnits := units_eq_signed view
  have bounds : units.natAbs < infiniteUnits := by
    rw [signedUnits, signed]
    split <;> omega
  have rational : ofUnits units = (number.rational : ℚ) := by
    rw [ofUnits, if_neg (by omega), if_neg (by omega), rational_eq_units, signedUnits]
  exact ⟨by simp [number?, notNaN, isFinite, rational], Nat.le_of_lt bounds⟩

theorem number?_of_infinite {number : Binary64} {units : Int} (view : number.units? = some units)
    (infinite : number.magnitudePattern = infinitePattern) :
    number.number? = some (ofUnits units) ∧ units.natAbs ≤ infiniteUnits := by
  have notNaN := isNaN_of_units? view
  have notFinite : number.isFinite = false := by simp [isFinite, infinite]
  have magnitude : number.magnitude = infiniteUnits := by
    rw [Binary64.magnitude, infinite, infiniteUnits]
  have positive := infiniteUnits_pos
  have signedUnits := units_eq_signed view
  rw [magnitude] at signedUnits
  cases sign : number.negative with
  | false =>
      have top : units = infiniteUnits := by rw [signedUnits, sign]; rfl
      refine ⟨?_, by omega⟩
      simp only [number?, notNaN, notFinite, sign, ofUnits, if_pos top]
      rfl
  | true =>
      have bottom : units = -(infiniteUnits : Int) := by rw [signedUnits, sign]; rfl
      have notTop : units ≠ infiniteUnits := by omega
      refine ⟨?_, by omega⟩
      simp only [number?, notNaN, notFinite, sign, ofUnits, if_neg notTop, if_pos bottom]
      rfl

theorem number?_of_units? {number : Binary64} {units : Int} (view : number.units? = some units) :
    number.number? = some (ofUnits units) ∧ units.natAbs ≤ infiniteUnits := by
  have atMost : number.magnitudePattern ≤ infinitePattern := by
    simpa [isNaN] using isNaN_of_units? view
  rcases Nat.lt_or_eq_of_le atMost with finite | infinite
  · exact number?_of_finite view finite
  · exact number?_of_infinite view infinite

theorem exists_units_of_number? {number : Binary64} {value : Extended}
    (stands : number.number? = some value) : ∃ units, number.units? = some units := by
  cases nan : number.isNaN with
  | false => exact ⟨_, units?_of_not_nan nan⟩
  | true => simp [number?, nan] at stands

/-! ## Integers -/

theorem magnitudePattern_ofMagnitudePattern (negative : Bool) {pattern : Nat}
    (bounded : pattern < 2 ^ 63) :
    (ofMagnitudePattern negative pattern).magnitudePattern = pattern := by
  cases negative <;>
    simp only [ofMagnitudePattern, magnitudePattern, UInt64.toNat_ofNat', if_true,
      Bool.false_eq_true, if_false, Nat.pow_eq] <;>
    omega

theorem negative_ofMagnitudePattern (negative : Bool) {pattern : Nat}
    (bounded : pattern < 2 ^ 63) :
    (ofMagnitudePattern negative pattern).negative = negative := by
  cases negative <;>
    simp only [ofMagnitudePattern, Binary64.negative, UInt64.toNat_ofNat', if_true,
      Bool.false_eq_true, if_false, Nat.pow_eq, decide_eq_true_eq, decide_eq_false_iff_not] <;>
    omega

def unitsOfInt (value : Int) : Int := value * unitsPerOne

theorem unitsOfInt_eq_signed (value : Int) :
    unitsOfInt value = signed (decide (value < 0)) (value.natAbs * unitsPerOne) := by
  rw [unitsOfInt, signed]
  by_cases negative : value < 0
  · have magnitude : value = -(value.natAbs : Int) := by omega
    rw [decide_eq_true negative, if_pos rfl, Nat.cast_mul, ← neg_mul, ← magnitude]
  · have magnitude : value = (value.natAbs : Int) := by omega
    rw [decide_eq_false negative, if_neg Bool.false_ne_true, Nat.cast_mul, ← magnitude]

theorem unitsOfInt_injective : Function.Injective unitsOfInt := by
  intro left right equal
  have positive : (unitsPerOne : Int) ≠ 0 := by exact_mod_cast unitsPerOne_pos.ne'
  exact Int.eq_of_mul_eq_mul_right positive equal

theorem natAbs_unitsOfInt_lt {value : Int} (bounded : value.natAbs ≤ 2 ^ 63) :
    (unitsOfInt value).natAbs < infiniteUnits := by
  have scaled : value.natAbs * unitsPerOne ≤ 2 ^ 63 * unitsPerOne :=
    Nat.mul_le_mul_right unitsPerOne bounded
  have power : 2 ^ 63 * 2 ^ unitDigits = 2 ^ (63 + unitDigits) :=
    (pow_add 2 63 unitDigits).symm
  have digits : 63 + unitDigits < 52 + 2046 := by
    rw [unitDigits]
    omega
  have largest : 2 ^ 63 * unitsPerOne < infiniteUnits := by
    rw [unitsPerOne_eq, power, infiniteUnits_eq, ← pow_add 2 52 2046]
    exact pow_lt_pow_right₀ one_lt_two digits
  rw [unitsOfInt, Int.natAbs_mul, Int.natAbs_natCast]
  exact Nat.lt_of_le_of_lt scaled largest

theorem ofUnits_unitsOfInt {value : Int} (bounded : value.natAbs ≤ 2 ^ 63) :
    ofUnits (unitsOfInt value) = ((value : ℚ) : Extended) := by
  have below := natAbs_unitsOfInt_lt bounded
  have unit : (unitsPerOne : ℚ) ≠ 0 := by exact_mod_cast unitsPerOne_pos.ne'
  rw [ofUnits, if_neg (by omega), if_neg (by omega), unitsOfInt]
  push_cast
  rw [mul_div_cancel_right₀ _ unit]

theorem magnitudePattern_ofInt {value : Int} (bounded : value.natAbs < 2 ^ 64) :
    (ofInt value).magnitudePattern = patternOfRatio value.natAbs 1 ∧
      (ofInt value).negative = decide (value < 0) := by
  have finite := (patternOfRatio_one bounded).2
  have small : patternOfRatio value.natAbs 1 < 2 ^ 63 := by
    rw [infinitePattern, fractionCount_eq] at finite
    omega
  exact ⟨magnitudePattern_ofMagnitudePattern _ small, negative_ofMagnitudePattern _ small⟩

theorem isFinite_ofInt {value : Int} (bounded : value.natAbs < 2 ^ 64) :
    (ofInt value).isFinite = true := by
  rw [isFinite, (magnitudePattern_ofInt bounded).1]
  exact decide_eq_true (patternOfRatio_one bounded).2

theorem units?_ofInt {value : Int} (bounded : value.natAbs ≤ 2 ^ 63) :
    (ofInt value).units? = some (signed (decide (value < 0)) (roundedUnits value.natAbs)) := by
  have within : value.natAbs < 2 ^ 64 := by omega
  have finite := (patternOfRatio_one within).2
  obtain ⟨pattern, sign⟩ := magnitudePattern_ofInt within
  have notNaN : (ofInt value).isNaN = false := by
    rw [isNaN, pattern]
    exact decide_eq_false (by omega)
  rw [units?_of_not_nan notNaN, sign, magnitude, pattern, roundedUnits]

/-- No other number is nearer to an integer than the one that is taken for it. -/
theorem ofInt_nearest {value : Int} (bounded : value.natAbs ≤ 2 ^ 63) {taken : Int}
    (view : (ofInt value).units? = some taken) {other : Binary64} {units : Int}
    (otherView : other.units? = some units) :
    (taken - unitsOfInt value).natAbs ≤ (units - unitsOfInt value).natAbs := by
  rw [units?_ofInt bounded, Option.some_inj] at view
  have sameSign := roundedUnits_nearest bounded other.magnitudePattern
  have zero := roundedUnits_nearest bounded 0
  rw [← magnitude] at sameSign
  rw [show magnitudeOfPattern 0 = 0 from rfl] at zero
  rw [unitsOfInt_eq_signed, ← view, units_eq_signed otherView]
  -- With the other sign, zero is between the two.
  cases decide (value < 0) <;> cases other.negative <;>
    simp only [signed, if_true, Bool.false_eq_true, if_false] <;>
    omega

theorem units?_ofInt_of_le {value : Int} (small : value.natAbs ≤ 2 ^ 53) :
    (ofInt value).units? = some (unitsOfInt value) := by
  rw [units?_ofInt (by omega), roundedUnits_of_le small, unitsOfInt_eq_signed]

theorem number?_ofInt_of_le {value : Int} (small : value.natAbs ≤ 2 ^ 53) :
    (ofInt value).number? = some ((value : ℚ) : Extended) := by
  rw [(number?_of_units? (units?_ofInt_of_le small)).1, ofUnits_unitsOfInt (by omega)]

end Binary64

end Sociogram
