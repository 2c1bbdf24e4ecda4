import Mathlib.Tactic.Ring
import Sociogram.Number.Binary64

/-!
Integers as floating-point numbers. The number that is taken for an integer is a
nearest one: no pattern of the format has a magnitude closer to it. Everything is
counted in units of `2 ^ -1074`, so that no fractions occur.
-/

namespace Sociogram.Binary64

theorem fractionCount_eq : fractionCount = 2 ^ 52 := rfl

/-! ## Quotients -/

theorem roundHalfEven_cases (numerator denominator : Nat) :
    (roundHalfEven numerator denominator = numerator / denominator ∧
        2 * (numerator % denominator) ≤ denominator) ∨
      (roundHalfEven numerator denominator = numerator / denominator + 1 ∧
        denominator ≤ 2 * (numerator % denominator)) := by
  simp only [roundHalfEven]
  split
  · exact .inl ⟨rfl, by omega⟩
  · split
    · exact .inr ⟨rfl, by omega⟩
    · split
      · exact .inl ⟨rfl, by omega⟩
      · exact .inr ⟨rfl, by omega⟩

theorem mul_le_or_add_le_mul (multiple floor denominator : Nat) :
    multiple * denominator ≤ floor * denominator ∨
      floor * denominator + denominator ≤ multiple * denominator := by
  rcases Nat.lt_or_ge floor multiple with above | below
  · right
    rw [← Nat.succ_mul]
    exact Nat.mul_le_mul_right denominator above
  · exact .inl (Nat.mul_le_mul_right denominator below)

theorem roundHalfEven_nearest {denominator : Nat} (positive : 0 < denominator)
    (numerator multiple : Nat) :
    ((roundHalfEven numerator denominator * denominator : Nat) - numerator : Int).natAbs ≤
      ((multiple * denominator : Nat) - numerator : Int).natAbs := by
  have parts := Nat.div_add_mod numerator denominator
  have remainder := Nat.mod_lt numerator positive
  have side := mul_le_or_add_le_mul multiple (numerator / denominator) denominator
  rw [Nat.mul_comm] at parts
  rcases roundHalfEven_cases numerator denominator with ⟨down, half⟩ | ⟨up, half⟩
  · rw [down]
    omega
  · rw [up, Nat.succ_mul]
    omega

theorem roundHalfEven_mul_of_dvd {numerator denominator : Nat} (positive : 0 < denominator)
    (divides : denominator ∣ numerator) :
    roundHalfEven numerator denominator * denominator = numerator := by
  obtain ⟨multiple, equal⟩ := divides
  have nearest := roundHalfEven_nearest positive numerator multiple
  rw [Nat.mul_comm] at equal
  omega

theorem le_roundHalfEven {numerator denominator multiple : Nat} (positive : 0 < denominator)
    (below : multiple * denominator ≤ numerator) :
    multiple ≤ roundHalfEven numerator denominator := by
  have floor : multiple ≤ numerator / denominator :=
    (Nat.le_div_iff_mul_le positive).mpr below
  rcases roundHalfEven_cases numerator denominator with ⟨down, _⟩ | ⟨up, _⟩ <;> omega

theorem roundHalfEven_le {numerator denominator multiple : Nat} (positive : 0 < denominator)
    (above : numerator < multiple * denominator) :
    roundHalfEven numerator denominator ≤ multiple := by
  have floor : numerator / denominator < multiple :=
    (Nat.div_lt_iff_lt_mul positive).mpr above
  rcases roundHalfEven_cases numerator denominator with ⟨down, _⟩ | ⟨up, _⟩ <;> omega

/-! ## Magnitudes of patterns -/

theorem magnitudeOfPattern_eq {pattern exponent fraction : Nat}
    (exponentField : pattern / fractionCount = exponent)
    (fractionField : pattern % fractionCount = fraction) :
    magnitudeOfPattern pattern =
      if exponent = 0 then fraction else (2 ^ 52 + fraction) * 2 ^ (exponent - 1) := by
  subst exponentField fractionField
  rfl

/-- A significand of 53 digits after a shift. The greatest one carries over into the
exponent. -/
theorem magnitudeOfPattern_shifted {shift significand : Nat} (lower : 2 ^ 52 ≤ significand)
    (upper : significand ≤ 2 ^ 53) :
    magnitudeOfPattern (shift * fractionCount + significand) = significand * 2 ^ shift := by
  rcases Nat.lt_or_eq_of_le upper with small | carry
  · have exponent : (shift * fractionCount + significand) / fractionCount = shift + 1 := by
      rw [fractionCount_eq]
      omega
    have fraction : (shift * fractionCount + significand) % fractionCount =
        significand - 2 ^ 52 := by
      rw [fractionCount_eq]
      omega
    rw [magnitudeOfPattern_eq exponent fraction, if_neg (Nat.succ_ne_zero shift),
      Nat.add_sub_cancel' lower, Nat.add_sub_cancel]
  · have exponent : (shift * fractionCount + significand) / fractionCount = shift + 2 := by
      rw [fractionCount_eq]
      omega
    have fraction : (shift * fractionCount + significand) % fractionCount = 0 := by
      rw [fractionCount_eq]
      omega
    rw [magnitudeOfPattern_eq exponent fraction, if_neg (Nat.succ_ne_zero (shift + 1)), carry,
      Nat.add_succ_sub_one, Nat.pow_succ]
    ring

theorem magnitudeOfPattern_dvd {shift pattern : Nat} (above : shift < pattern / fractionCount) :
    2 ^ shift ∣ magnitudeOfPattern pattern := by
  have exponent : pattern / fractionCount ≠ 0 := by omega
  have atMost : shift ≤ pattern / fractionCount - 1 := by omega
  rw [magnitudeOfPattern_eq rfl rfl, if_neg exponent]
  exact Nat.dvd_mul_left_of_dvd (Nat.pow_dvd_pow 2 atMost) _

theorem magnitudeOfPattern_lt {shift pattern : Nat} (below : pattern / fractionCount ≤ shift) :
    magnitudeOfPattern pattern < 2 ^ 52 * 2 ^ shift := by
  have fraction : pattern % fractionCount < 2 ^ 52 := Nat.mod_lt _ (by decide)
  rw [magnitudeOfPattern_eq rfl rfl]
  split
  · exact Nat.lt_of_lt_of_le fraction (Nat.le_mul_of_pos_right _ (Nat.two_pow_pos shift))
  · next exponent =>
      obtain ⟨before, next⟩ := Nat.exists_eq_succ_of_ne_zero exponent
      rw [next] at below ⊢
      calc (2 ^ 52 + pattern % fractionCount) * 2 ^ before
          < 2 ^ 53 * 2 ^ before :=
            Nat.mul_lt_mul_of_pos_right (by omega) (Nat.two_pow_pos before)
        _ = 2 ^ 52 * 2 ^ (before + 1) := by ring
        _ ≤ 2 ^ 52 * 2 ^ shift :=
            Nat.mul_le_mul_left _ (Nat.pow_le_pow_right (by decide) below)

/-! ## Natural numbers -/

-- Irreducible, so that no tactic writes the power out.
@[irreducible] def unitDigits : Nat := 1074

def unitsPerOne : Nat := 2 ^ unitDigits

theorem unitsPerOne_eq : unitsPerOne = 2 ^ unitDigits := rfl

theorem unitsPerOne_eq_pow : unitsPerOne = Nat.pow 2 1074 := by
  simp only [unitsPerOne, unitDigits, Nat.pow_eq]

theorem unitsPerOne_pos : 0 < unitsPerOne := Nat.two_pow_pos unitDigits

theorem log2_mul_two_pow {number : Nat} (nonzero : number ≠ 0) (digits : Nat) :
    (number * 2 ^ digits).log2 = number.log2 + digits := by
  induction digits with
  | zero => simp
  | succ digits induction =>
      have doubled : number * 2 ^ (digits + 1) = 2 * (number * 2 ^ digits) := by ring
      have product : number * 2 ^ digits ≠ 0 :=
        Nat.mul_ne_zero nonzero (Nat.ne_of_gt (Nat.two_pow_pos digits))
      rw [doubled, Nat.log2_two_mul product, induction, Nat.add_assoc]

def roundedUnits (count : Nat) : Nat := magnitudeOfPattern (patternOfRatio count 1)

def excessDigits (count : Nat) : Nat := (count * unitsPerOne).log2 - 52

theorem excessDigits_zero : excessDigits 0 = 0 := by
  simp [excessDigits]

theorem excessDigits_of_pos {count : Nat} (positive : 0 < count) :
    52 + excessDigits count = count.log2 + unitDigits := by
  have length : (count * unitsPerOne).log2 = count.log2 + unitDigits :=
    log2_mul_two_pow (Nat.ne_of_gt positive) unitDigits
  rw [excessDigits, length, unitDigits]
  omega

theorem scaled_bounds {count : Nat} (positive : 0 < count) :
    2 ^ 52 * 2 ^ excessDigits count ≤ count * unitsPerOne ∧
      count * unitsPerOne < 2 ^ 53 * 2 ^ excessDigits count := by
  have length := excessDigits_of_pos positive
  have lengthNext : 53 + excessDigits count = count.log2 + 1 + unitDigits := by omega
  rw [← Nat.pow_add, ← Nat.pow_add, length, lengthNext, Nat.pow_add, Nat.pow_add]
  constructor
  · exact Nat.mul_le_mul_right unitsPerOne (Nat.log2_self_le (Nat.ne_of_gt positive))
  · exact Nat.mul_lt_mul_of_pos_right Nat.lt_log2_self unitsPerOne_pos

theorem excessDigits_le {count : Nat} (bounded : count < 2 ^ 64) : excessDigits count ≤ 1085 := by
  rcases Nat.eq_zero_or_pos count with zero | positive
  · rw [zero, excessDigits_zero]
    omega
  · have length := excessDigits_of_pos positive
    have digits : count.log2 < 64 := (Nat.log2_lt (Nat.ne_of_gt positive)).mpr bounded
    rw [unitDigits] at length
    omega

def keptDigits (count : Nat) : Nat :=
  roundHalfEven (count * unitsPerOne) (2 ^ excessDigits count)

theorem keptDigits_bounds {count : Nat} (positive : 0 < count) :
    2 ^ 52 ≤ keptDigits count ∧ keptDigits count ≤ 2 ^ 53 :=
  ⟨le_roundHalfEven (Nat.two_pow_pos _) (scaled_bounds positive).1,
    roundHalfEven_le (Nat.two_pow_pos _) (scaled_bounds positive).2⟩

theorem keptDigits_zero : keptDigits 0 = 0 := by
  simp [keptDigits, roundHalfEven]

theorem patternOfRatio_one {count : Nat} (bounded : count < 2 ^ 64) :
    patternOfRatio count 1 = excessDigits count * fractionCount + keptDigits count ∧
      patternOfRatio count 1 < infinitePattern := by
  have atMost : keptDigits count ≤ 2 ^ 53 := by
    cases count with
    | zero => simp [keptDigits_zero]
    | succ count => exact (keptDigits_bounds (Nat.succ_pos count)).2
  have few := excessDigits_le bounded
  have finite : excessDigits count * fractionCount + keptDigits count < infinitePattern := by
    rw [infinitePattern, fractionCount_eq]
    omega
  have unbounded : patternOfRatio count 1 =
      min (excessDigits count * fractionCount + keptDigits count) infinitePattern := by
    simp only [patternOfRatio, ← unitsPerOne_eq_pow, Nat.div_one, Nat.one_mul]
    rfl
  rw [unbounded, Nat.min_eq_left (Nat.le_of_lt finite)]
  exact ⟨rfl, finite⟩

theorem roundedUnits_eq {count : Nat} (bounded : count ≤ 2 ^ 63) :
    roundedUnits count = keptDigits count * 2 ^ excessDigits count := by
  rw [roundedUnits, (patternOfRatio_one (by omega)).1]
  cases count with
  | zero => simp [keptDigits_zero, excessDigits, magnitudeOfPattern]
  | succ count =>
      have bounds := keptDigits_bounds (Nat.succ_pos count)
      exact magnitudeOfPattern_shifted bounds.1 bounds.2

/-- No pattern has a magnitude nearer to a natural number. -/
theorem roundedUnits_nearest {count : Nat} (bounded : count ≤ 2 ^ 63) (pattern : Nat) :
    ((roundedUnits count : Int) - (count * unitsPerOne : Nat)).natAbs ≤
      ((magnitudeOfPattern pattern : Int) - (count * unitsPerOne : Nat)).natAbs := by
  have nearest := roundHalfEven_nearest (Nat.two_pow_pos (excessDigits count))
    (count * unitsPerOne)
  rw [roundedUnits_eq bounded]
  rcases Nat.eq_zero_or_pos count with zero | positive
  · subst zero
    simp [keptDigits_zero]
  rcases Nat.lt_or_ge (excessDigits count) (pattern / fractionCount) with above | below
  · -- The magnitude is a multiple of the last digit that is kept.
    obtain ⟨multiple, equal⟩ := magnitudeOfPattern_dvd above
    rw [equal, Nat.mul_comm (2 ^ excessDigits count)]
    exact nearest multiple
  · -- The magnitude is below the least number of as many digits, which is a multiple.
    have smaller := magnitudeOfPattern_lt below
    have lower := (scaled_bounds positive).1
    have least := nearest (2 ^ 52)
    rw [keptDigits]
    omega

theorem roundedUnits_of_dvd {count : Nat} (bounded : count ≤ 2 ^ 63)
    (divides : 2 ^ excessDigits count ∣ count * unitsPerOne) :
    roundedUnits count = count * unitsPerOne := by
  rw [roundedUnits_eq bounded]
  exact roundHalfEven_mul_of_dvd (Nat.two_pow_pos _) divides

theorem roundedUnits_of_le {count : Nat} (small : count ≤ 2 ^ 53) :
    roundedUnits count = count * unitsPerOne := by
  apply roundedUnits_of_dvd (by omega)
  rcases Nat.eq_zero_or_pos count with zero | positive
  · rw [zero, Nat.zero_mul]
    exact Nat.dvd_zero _
  have length := excessDigits_of_pos positive
  rcases Nat.lt_or_eq_of_le small with fewDigits | power
  · have digits : count.log2 < 53 := (Nat.log2_lt (Nat.ne_of_gt positive)).mpr fewDigits
    have divides : 2 ^ excessDigits count ∣ unitsPerOne := Nat.pow_dvd_pow 2 (by omega)
    exact Nat.dvd_mul_left_of_dvd divides count
  · have digits : count.log2 = 53 := by rw [power, Nat.log2_two_pow]
    have scaled : count * unitsPerOne = 2 ^ (53 + unitDigits) := by
      rw [Nat.pow_add 2 53 unitDigits, power, unitsPerOne_eq]
    rw [scaled]
    exact Nat.pow_dvd_pow 2 (by omega)

end Sociogram.Binary64
