import Sociogram.Number.Shortest
import Sociogram.Proofs.Number.Exact

/-!
Decimals read back. The number nearest to a decimal depends on its exact value alone, a
number that has an exact decimal is the nearest to it, and so the shortest decimal of a
finite number reads as that number.
-/

namespace Sociogram

namespace Binary64

/-! ## Quotients -/

theorem roundHalfEven_mul_mul {factor : Nat} (positive : 0 < factor)
    (numerator denominator : Nat) :
    roundHalfEven (factor * numerator) (factor * denominator) =
      roundHalfEven numerator denominator := by
  have excess : 2 * (factor * (numerator % denominator)) =
      factor * (2 * (numerator % denominator)) := Nat.mul_left_comm _ _ _
  simp only [roundHalfEven, Nat.mul_div_mul_left _ _ positive, Nat.mul_mod_mul_left, excess,
    Nat.mul_lt_mul_left positive]

def excessOfRatio (numerator denominator : Nat) : Nat :=
  (numerator * unitsPerOne / denominator).log2 - 52

theorem patternOfRatio_eq (numerator denominator : Nat) :
    patternOfRatio numerator denominator =
      min (excessOfRatio numerator denominator * fractionCount +
        roundHalfEven (numerator * unitsPerOne)
          (denominator * 2 ^ excessOfRatio numerator denominator)) infinitePattern := by
  simp only [patternOfRatio, ← unitsPerOne_eq_pow]
  rfl

theorem patternOfRatio_mul_mul {factor : Nat} (positive : 0 < factor)
    (numerator denominator : Nat) :
    patternOfRatio (factor * numerator) (factor * denominator) =
      patternOfRatio numerator denominator := by
  simp only [patternOfRatio_eq, excessOfRatio, Nat.mul_assoc, Nat.mul_div_mul_left _ _ positive,
    roundHalfEven_mul_mul positive]

theorem patternOfRatio_le (numerator denominator : Nat) :
    patternOfRatio numerator denominator ≤ infinitePattern :=
  Nat.min_le_right _ _

theorem patternOfRatio_of_large {numerator digits : Nat} (large : 2 ^ digits ≤ numerator)
    (many : 1025 ≤ digits) : patternOfRatio numerator 1 = infinitePattern := by
  have nonzero : numerator ≠ 0 := Nat.ne_of_gt (Nat.lt_of_lt_of_le (Nat.two_pow_pos digits) large)
  have length : (numerator * unitsPerOne).log2 = numerator.log2 + unitDigits :=
    log2_mul_two_pow nonzero unitDigits
  have atLeast : digits ≤ numerator.log2 := (Nat.le_log2 nonzero).mpr large
  have excess : 2047 ≤ excessOfRatio numerator 1 := by
    rw [excessOfRatio, Nat.div_one, length, unitDigits]
    omega
  rw [patternOfRatio_eq]
  apply Nat.min_eq_right
  exact Nat.le_trans (Nat.mul_le_mul_right fractionCount excess) (Nat.le_add_right _ _)

theorem patternOfRatio_of_small {numerator denominator : Nat}
    (small : 2 * (numerator * unitsPerOne) < denominator) :
    patternOfRatio numerator denominator = 0 := by
  have below : numerator * unitsPerOne < denominator := by omega
  have rounded : roundHalfEven (numerator * unitsPerOne) denominator = 0 := by
    rw [roundHalfEven, Nat.mod_eq_of_lt below, if_pos small]
    exact Nat.div_eq_of_lt below
  simp [patternOfRatio_eq, excessOfRatio, Nat.div_eq_of_lt below, rounded]

theorem pattern_of_magnitudeOfPattern (pattern : Nat) :
    ((magnitudeOfPattern pattern).log2 - 52) * fractionCount +
      roundHalfEven (magnitudeOfPattern pattern)
        (2 ^ ((magnitudeOfPattern pattern).log2 - 52)) = pattern := by
  have parts := Nat.div_add_mod pattern fractionCount
  have fraction : pattern % fractionCount < 2 ^ 52 := Nat.mod_lt _ (by decide)
  rw [magnitudeOfPattern_eq rfl rfl]
  split
  · next subnormal =>
      have excess : (pattern % fractionCount).log2 - 52 = 0 := by
        rcases Nat.eq_zero_or_pos (pattern % fractionCount) with zero | nonzero
        · simp [zero]
        · have few := (Nat.log2_lt (Nat.ne_of_gt nonzero)).mpr fraction
          omega
      have whole := roundHalfEven_mul_of_dvd Nat.one_pos (Nat.one_dvd (pattern % fractionCount))
      rw [excess, Nat.pow_zero]
      rw [subnormal] at parts
      omega
  · next normal =>
      obtain ⟨before, next⟩ := Nat.exists_eq_succ_of_ne_zero normal
      have significand : 2 ^ 52 + pattern % fractionCount ≠ 0 := by omega
      have digits : (2 ^ 52 + pattern % fractionCount).log2 = 52 :=
        (Nat.log2_eq_iff significand).mpr ⟨Nat.le_add_right _ _, by omega⟩
      have fields : before * fractionCount + (2 ^ 52 + pattern % fractionCount) = pattern := by
        rw [← Nat.add_assoc, ← fractionCount_eq, Nat.mul_comm, ← Nat.mul_succ, ← next]
        exact parts
      have whole := roundHalfEven_mul_of_dvd (Nat.two_pow_pos before)
        (Nat.dvd_mul_left (2 ^ before) (2 ^ 52 + pattern % fractionCount))
      rw [next, Nat.succ_sub_one, log2_mul_two_pow significand, digits, Nat.add_sub_cancel_left,
        Nat.eq_of_mul_eq_mul_right (Nat.two_pow_pos before) whole, fields]

theorem patternOfRatio_of_exact {numerator denominator pattern : Nat}
    (positive : 0 < denominator) (finite : pattern < infinitePattern)
    (exact : numerator * unitsPerOne = denominator * magnitudeOfPattern pattern) :
    patternOfRatio numerator denominator = pattern := by
  have excess : excessOfRatio numerator denominator = (magnitudeOfPattern pattern).log2 - 52 := by
    rw [excessOfRatio, exact, Nat.mul_div_cancel_left _ positive]
  rw [patternOfRatio_eq, excess, exact, roundHalfEven_mul_mul positive,
    pattern_of_magnitudeOfPattern]
  exact Nat.min_eq_left (Nat.le_of_lt finite)

theorem infinitePattern_lt : infinitePattern < 2 ^ 63 := by
  rw [infinitePattern, fractionCount_eq]
  omega

theorem magnitudePattern_lt (number : Binary64) : number.magnitudePattern < 2 ^ 63 :=
  Nat.mod_lt _ (Nat.two_pow_pos 63)

theorem ofMagnitudePattern_self (number : Binary64) :
    ofMagnitudePattern number.negative number.magnitudePattern = number := by
  have bound := number.bits.toNat_lt
  have bits : (if number.negative then Nat.pow 2 63 + number.magnitudePattern
      else number.magnitudePattern) = number.bits.toNat := by
    simp only [negative, magnitudePattern, Nat.pow_eq, decide_eq_true_eq]
    split <;> omega
  rw [ofMagnitudePattern, bits, UInt64.ofNat_toNat]

end Binary64

namespace Decimal

open Binary64

/-! ## Values of decimals -/

theorem scaled_eq_ofRatio (negative : Bool) (digits : Nat) {exponent : Int} {up down : Nat}
    (equal : exponent = up - down) :
    scaled negative digits exponent = .ofRatio negative (digits * 10 ^ up) (10 ^ down) := by
  cases exponent with
  | ofNat power =>
      rw [Int.ofNat_eq_natCast] at equal
      obtain rfl : up = power + down := by omega
      have cancelled := patternOfRatio_mul_mul (Nat.pow_pos (n := down) (Nat.succ_pos 9))
        (digits * 10 ^ power) 1
      rw [Nat.mul_one, Nat.mul_left_comm, Nat.mul_comm (10 ^ down), ← Nat.pow_add] at cancelled
      rw [ofRatio, cancelled]
      rfl
  | negSucc power =>
      obtain rfl : down = up + (power + 1) := by omega
      rw [Nat.mul_comm digits, Nat.pow_add 10 up, ofRatio,
        patternOfRatio_mul_mul (Nat.pow_pos (Nat.succ_pos 9))]
      rfl

theorem exponent_eq_sub (exponent : Int) : exponent = exponent.toNat - (-exponent).toNat := by
  omega

theorem scaled_mul_pow (negative : Bool) (digits zeros : Nat) (exponent : Int) :
    scaled negative (digits * 10 ^ zeros) exponent =
      scaled negative digits (exponent + zeros) := by
  have shifted : exponent + zeros = (zeros + exponent.toNat : Nat) - ((-exponent).toNat : Nat) := by
    omega
  rw [scaled_eq_ofRatio negative _ (exponent_eq_sub exponent),
    scaled_eq_ofRatio negative digits shifted, Nat.pow_add, Nat.mul_assoc]

theorem scaled_zero (negative : Bool) (exponent : Int) :
    scaled negative 0 exponent = .zero negative := by
  have nothing (denominator : Nat) : patternOfRatio 0 denominator = 0 := by
    simp [patternOfRatio_eq, excessOfRatio, roundHalfEven]
  rw [scaled_eq_ofRatio negative 0 (exponent_eq_sub exponent), Nat.zero_mul, ofRatio, nothing]
  rfl

theorem two_pow_le_ten_pow (blocks : Nat) : 2 ^ (205 * blocks) ≤ 10 ^ (62 * blocks) := by
  rw [Nat.pow_mul, Nat.pow_mul]
  exact Nat.pow_le_pow_left (by decide +kernel) blocks

theorem scaled_of_large (negative : Bool) {digits : Nat} (nonzero : digits ≠ 0) {exponent : Int}
    (large : 310 ≤ exponent) : scaled negative digits exponent = .infinity negative := by
  obtain ⟨power, rfl⟩ : ∃ power : Nat, exponent = power := ⟨exponent.toNat, by omega⟩
  obtain ⟨blocks, covered, many⟩ : ∃ blocks, 62 * blocks ≤ power ∧ 1025 ≤ 205 * blocks :=
    ⟨5, by omega, by omega⟩
  have natural : (power : Int) = (power : Nat) - (0 : Nat) := by omega
  have magnitude : 2 ^ (205 * blocks) ≤ digits * 10 ^ power := by
    calc 2 ^ (205 * blocks) ≤ 10 ^ (62 * blocks) := two_pow_le_ten_pow blocks
      _ ≤ 10 ^ power := Nat.pow_le_pow_right (Nat.succ_pos 9) covered
      _ ≤ digits * 10 ^ power := Nat.le_mul_of_pos_left _ (Nat.pos_of_ne_zero nonzero)
  rw [scaled_eq_ofRatio negative digits natural, Nat.pow_zero, ofRatio,
    patternOfRatio_of_large magnitude many]
  rfl

theorem scaled_of_small (negative : Bool) {digits : Nat} {exponent : Int}
    (small : digits.log2 + 1 + 3 * exponent < -1080) :
    scaled negative digits exponent = .zero negative := by
  obtain ⟨power, rfl⟩ : ∃ power : Nat, exponent = -(power : Int) :=
    ⟨(-exponent).toNat, by omega⟩
  have tiny : 2 * (digits * unitsPerOne) < 10 ^ power := by
    calc 2 * (digits * unitsPerOne)
        < 2 * (2 ^ (digits.log2 + 1) * unitsPerOne) := by
          apply Nat.mul_lt_mul_of_pos_left _ (by decide)
          exact Nat.mul_lt_mul_of_pos_right Nat.lt_log2_self unitsPerOne_pos
      _ = 2 ^ (digits.log2 + 2 + unitDigits) := by
          rw [unitsPerOne_eq]
          ring
      _ ≤ 2 ^ (3 * power) := Nat.pow_le_pow_right (by decide) (by rw [unitDigits]; omega)
      _ = 8 ^ power := Nat.pow_mul 2 3 power
      _ ≤ 10 ^ power := Nat.pow_le_pow_left (by decide) power
  have fraction : -(power : Int) = (0 : Nat) - (power : Nat) := by omega
  rw [scaled_eq_ofRatio negative digits fraction, Nat.pow_zero, Nat.mul_one, ofRatio,
    patternOfRatio_of_small tiny]
  rfl

/-- The powers of ten that are not computed do not matter. -/
theorem toBinary64_eq_scaled (decimal : Decimal) :
    decimal.toBinary64 = scaled decimal.negative decimal.digits decimal.exponent := by
  rw [toBinary64]
  split
  · next zero => rw [zero, scaled_zero]
  · next nonzero =>
      split
      · next large => rw [scaled_of_large _ nonzero large]
      · split
        · next small => rw [scaled_of_small _ small]
        · rfl

theorem toBinary64_with_sign {number : Binary64} {digits : Nat} {exponent : Int}
    (magnitude : toBinary64 ⟨false, digits, exponent⟩ = number.absolute) :
    toBinary64 ⟨number.negative, digits, exponent⟩ = number := by
  rw [toBinary64_eq_scaled, scaled_eq_ofRatio _ _ (exponent_eq_sub exponent), ofRatio,
    absolute] at magnitude
  have pattern := congrArg magnitudePattern magnitude
  rw [magnitudePattern_ofMagnitudePattern _ (Nat.lt_of_le_of_lt (patternOfRatio_le _ _)
      infinitePattern_lt),
    magnitudePattern_ofMagnitudePattern _ number.magnitudePattern_lt] at pattern
  rw [toBinary64_eq_scaled, scaled_eq_ofRatio _ _ (exponent_eq_sub exponent), ofRatio, pattern,
    ofMagnitudePattern_self]

end Decimal

namespace Binary64

/-! ## The shortest decimal -/

theorem exactDecimal_eq (number : Binary64) :
    number.exactDecimal = ⟨false, number.magnitude * 5 ^ unitDigits, -1074⟩ := by
  have digits : unitDigits = 1074 := by rw [unitDigits]
  rw [exactDecimal, ← digits]
  rfl

theorem toBinary64_exactDecimal {number : Binary64} (finite : number.isFinite = true) :
    number.exactDecimal.toBinary64 = number.absolute := by
  have pattern : number.magnitudePattern < infinitePattern := of_decide_eq_true finite
  have exponent : (-1074 : Int) = (0 : Nat) - (unitDigits : Nat) := by
    rw [unitDigits]
    omega
  have exact : number.magnitude * 5 ^ unitDigits * 10 ^ 0 * unitsPerOne =
      10 ^ unitDigits * magnitudeOfPattern number.magnitudePattern := by
    rw [unitsPerOne_eq, Nat.pow_zero, Nat.mul_one, Nat.mul_assoc, ← Nat.mul_pow, Nat.mul_comm,
      magnitude]
  rw [Decimal.toBinary64_eq_scaled, exactDecimal_eq,
    Decimal.scaled_eq_ofRatio _ _ exponent, ofRatio,
    patternOfRatio_of_exact (Nat.pow_pos (Nat.succ_pos 9)) pattern exact]
  rfl

theorem toBinary64_of_coarser? {exact : Decimal} {target : Binary64} {dropped : Nat}
    {decimal : Decimal} (found : coarser? exact target dropped = some decimal) :
    decimal.negative = false ∧ decimal.toBinary64 = target := by
  simp only [coarser?] at found
  have readsBack := List.find?_some found
  obtain ⟨digits, _, rfl⟩ := List.mem_map.mp (List.mem_of_find?_eq_some found)
  exact ⟨rfl, eq_of_beq readsBack⟩

theorem toBinary64_shortestDecimal {number : Binary64} (finite : number.isFinite = true) :
    number.shortestDecimal.negative = false ∧
      number.shortestDecimal.toBinary64 = number.absolute := by
  simp only [shortestDecimal]
  generalize search : List.findSome? _ _ = found
  cases found with
  | none => exact ⟨rfl, toBinary64_exactDecimal finite⟩
  | some decimal =>
      obtain ⟨count, _, hit⟩ := List.exists_of_findSome?_eq_some search
      exact toBinary64_of_coarser? hit

theorem shortestDecimal_reads {number : Binary64} (finite : number.isFinite = true) :
    Decimal.toBinary64 ⟨number.negative, number.shortestDecimal.digits,
      number.shortestDecimal.exponent⟩ = number := by
  obtain ⟨positive, magnitude⟩ := toBinary64_shortestDecimal finite
  generalize number.shortestDecimal = decimal at positive magnitude ⊢
  obtain ⟨_, digits, exponent⟩ := decimal
  cases positive
  exact Decimal.toBinary64_with_sign magnitude

theorem digits_shortestDecimal_ne_zero {number : Binary64} (finite : number.isFinite = true)
    (nonzero : number.magnitudePattern ≠ 0) : number.shortestDecimal.digits ≠ 0 := by
  intro zero
  obtain ⟨_, readsBack⟩ := toBinary64_shortestDecimal finite
  rw [Decimal.toBinary64, if_pos zero, absolute, Binary64.zero] at readsBack
  have pattern := congrArg magnitudePattern readsBack
  rw [magnitudePattern_ofMagnitudePattern _ (by decide),
    magnitudePattern_ofMagnitudePattern _ number.magnitudePattern_lt] at pattern
  exact nonzero pattern.symm

end Binary64

end Sociogram
