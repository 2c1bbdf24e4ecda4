import Sociogram.Proofs.Query.Counting
import Sociogram.Proofs.Rule.Comparison

/-!
Counts against an expected number. A count is compared as the floating-point number nearest to
it: more matches never miss a bound from below that fewer reach, and up to `2 ^ 53` a count is
compared as what it is.
-/

namespace Sociogram.Operator

open AttributeValue (Placed)
open Binary64 (ofUnits)

/-! ## Counts as numbers -/

section

variable {count : Nat} (bounded : count < 2 ^ 63)

include bounded

theorem number?_count :
    (AttributeValue.integer (Int64.ofNat count)).number? = some ((count : ℚ) : Extended) := by
  rw [AttributeValue.number?, Int64.toInt_ofNat_of_lt bounded]
  rfl

theorem exists_placed_count : ∃ units taken,
    (AttributeValue.integer (Int64.ofNat count)).Placed units taken ∧
      ofUnits units = ((count : ℚ) : Extended) := by
  obtain ⟨units, taken, placed⟩ := AttributeValue.exists_placed (number?_count bounded)
  have same := placed.number.symm.trans (number?_count bounded)
  exact ⟨units, taken, placed, Option.some_inj.mp same⟩

end

theorem fitsFloat_count {count : Nat} (small : count ≤ 2 ^ 53) :
    (AttributeValue.integer (Int64.ofNat count)).FitsFloat := by
  rw [AttributeValue.FitsFloat, Int64.toInt_ofNat_of_lt (by omega), Int.natAbs_natCast]
  exact small

theorem exists_number?_of_not_nan {expected : Binary64} (notNaN : expected.isNaN = false) :
    ∃ number, expected.number? = some number :=
  ⟨_, (Binary64.number?_of_units? (Binary64.units?_of_not_nan notNaN)).1⟩

theorem exists_placed_expected {expected : Binary64} {number : Extended}
    (stands : expected.number? = some number) :
    ∃ units, (AttributeValue.float expected).Placed units units ∧ ofUnits units = number := by
  have numeric : (AttributeValue.float expected).number? = some number := stands
  obtain ⟨units, taken, placed⟩ := AttributeValue.exists_placed numeric
  have unmoved : taken = units := placed.unmoved trivial
  subst unmoved
  exact ⟨taken, placed, Option.some_inj.mp (placed.number.symm.trans numeric)⟩

/-! ## Nothing is expected -/

section

variable {expected : Binary64} (notNumber : expected.isNaN = true) (value : AttributeValue)

include notNumber

theorem order?_nan : value.order? (.float expected) = none := by
  have unplaced : expected.units? = none := by rw [Binary64.units?, notNumber, if_pos rfl]
  cases viewed : value.asFloat? with
  | none => exact (AttributeValue.unordered_of_asFloat? rfl viewed).2
  | some float =>
      rw [AttributeValue.order?_of_asFloat? viewed rfl, Binary64.order?, unplaced]
      cases float.units? <;> rfl

theorem exactly_nan : value.exactly (.float expected) = false := by
  rw [← Bool.not_eq_true]
  intro equal
  cases AttributeValue.coincide_of_exactly equal with
  | number _ place =>
      have notNaN := Binary64.isNaN_of_units? place
      exact Bool.false_ne_true (notNaN.symm.trans notNumber)

end

/-! ## Bounds -/

theorem exists_orders {count more : Nat} (atMost : count ≤ more) (bounded : more < 2 ^ 63)
    {expected : Binary64} (notNaN : expected.isNaN = false) :
    ∃ taken moreTaken units : Int, taken ≤ moreTaken ∧
      (AttributeValue.integer (Int64.ofNat count)).order? (.float expected) =
        some (compare taken units) ∧
      (AttributeValue.integer (Int64.ofNat more)).order? (.float expected) =
        some (compare moreTaken units) := by
  obtain ⟨place, taken, placed, number⟩ := exists_placed_count (Nat.lt_of_le_of_lt atMost bounded)
  obtain ⟨morePlace, moreTaken, morePlaced, moreNumber⟩ := exists_placed_count bounded
  obtain ⟨_, stands⟩ := exists_number?_of_not_nan notNaN
  obtain ⟨units, expectedPlaced, _⟩ := exists_placed_expected stands
  have inOrder : ofUnits place ≤ ofUnits morePlace := by
    rw [number, moreNumber, WithBotTop.coe_le_coe]
    exact_mod_cast atMost
  rw [Binary64.ofUnits_le_iff placed.bounded morePlaced.bounded] at inOrder
  exact ⟨taken, moreTaken, units, placed.taken_le morePlaced inOrder,
    placed.order?_eq expectedPlaced, morePlaced.order?_eq expectedPlaced⟩

theorem bounds_of_le {count more : Nat} (atMost : count ≤ more) (bounded : more < 2 ^ 63)
    (expected : Binary64) :
    (countGreaterThan.holdsForCount count expected = true →
      countGreaterThan.holdsForCount more expected = true) ∧
    (countGreaterThanOrEqual.holdsForCount count expected = true →
      countGreaterThanOrEqual.holdsForCount more expected = true) ∧
    (countLessThan.holdsForCount more expected = true →
      countLessThan.holdsForCount count expected = true) ∧
    (countLessThanOrEqual.holdsForCount more expected = true →
      countLessThanOrEqual.holdsForCount count expected = true) := by
  cases notNumber : expected.isNaN with
  | true => simp [holdsForCount, holds, order?_nan notNumber]
  | false =>
      obtain ⟨taken, moreTaken, units, inOrder, order, moreOrder⟩ :=
        exists_orders atMost bounded notNumber
      refine ⟨?_, ?_, ?_, ?_⟩
      · intro above
        have reached := (greaterThan_holds_iff order).mp above
        exact (greaterThan_holds_iff moreOrder).mpr (by omega)
      · intro above
        have reached := (greaterThanOrEqual_holds_iff order).mp above
        exact (greaterThanOrEqual_holds_iff moreOrder).mpr (by omega)
      · intro below
        have reached := (lessThan_holds_iff moreOrder).mp below
        exact (lessThan_holds_iff order).mpr (by omega)
      · intro below
        have reached := (lessThanOrEqual_holds_iff moreOrder).mp below
        exact (lessThanOrEqual_holds_iff order).mpr (by omega)

/-! ## Exact comparisons -/

theorem compared_exactly {found : Nat} (small : found ≤ 2 ^ 53) {expected : Binary64}
    {number : Extended} (stands : expected.number? = some number) :
    (count.holdsForCount found expected = true ↔ ((found : ℚ) : Extended) = number) ∧
      (countNot.holdsForCount found expected = true ↔ ((found : ℚ) : Extended) ≠ number) ∧
      (countGreaterThan.holdsForCount found expected = true ↔
        number < ((found : ℚ) : Extended)) ∧
      (countGreaterThanOrEqual.holdsForCount found expected = true ↔
        number ≤ ((found : ℚ) : Extended)) ∧
      (countLessThan.holdsForCount found expected = true ↔
        ((found : ℚ) : Extended) < number) ∧
      (countLessThanOrEqual.holdsForCount found expected = true ↔
        ((found : ℚ) : Extended) ≤ number) := by
  have bounded : found < 2 ^ 63 := by omega
  obtain ⟨place, taken, placed, same⟩ := exists_placed_count bounded
  obtain ⟨units, expectedPlaced, sameExpected⟩ := exists_placed_expected stands
  have unmoved : taken = place := placed.unmoved (fitsFloat_count small)
  subst unmoved
  have order := placed.order?_eq expectedPlaced
  have equality := placed.exactly_iff expectedPlaced
  rw [← same, ← sameExpected, Ne, Binary64.ofUnits_inj placed.bounded expectedPlaced.bounded,
    Binary64.ofUnits_lt_iff expectedPlaced.bounded placed.bounded,
    Binary64.ofUnits_le_iff expectedPlaced.bounded placed.bounded,
    Binary64.ofUnits_lt_iff placed.bounded expectedPlaced.bounded,
    Binary64.ofUnits_le_iff placed.bounded expectedPlaced.bounded]
  refine ⟨equality, ?_, greaterThan_holds_iff order, greaterThanOrEqual_holds_iff order,
    lessThan_holds_iff order, lessThanOrEqual_holds_iff order⟩
  rw [holdsForCount, holds, Bool.not_eq_true', ← Bool.not_eq_true, equality]

/-- Assertions on fewer than `2 ^ 63` matches. Any match and no match are what they say, whatever
number is expected. Bounds from below stay met when there are more matches, and bounds from above
when there are fewer, whatever the bound. Up to `2 ^ 53` matches are compared with the expected
number as what they are, infinities included, and with a NaN they are only unequal. -/
theorem counts_are_sound (expected : Binary64) :
    (∀ found < 2 ^ 63,
      (countAny.holdsForCount found expected = true ↔ 0 < found) ∧
      (countNone.holdsForCount found expected = true ↔ found = 0)) ∧
    (∀ found more, found ≤ more → more < 2 ^ 63 →
      (∀ operator ∈ [countGreaterThan, countGreaterThanOrEqual],
        operator.holdsForCount found expected = true →
          operator.holdsForCount more expected = true) ∧
      (∀ operator ∈ [countLessThan, countLessThanOrEqual],
        operator.holdsForCount more expected = true →
          operator.holdsForCount found expected = true)) ∧
    (expected.isNaN = false → ∃ number, expected.number? = some number ∧ ∀ found ≤ 2 ^ 53,
      (count.holdsForCount found expected = true ↔ ((found : ℚ) : Extended) = number) ∧
      (countNot.holdsForCount found expected = true ↔ ((found : ℚ) : Extended) ≠ number) ∧
      (countGreaterThan.holdsForCount found expected = true ↔
        number < ((found : ℚ) : Extended)) ∧
      (countGreaterThanOrEqual.holdsForCount found expected = true ↔
        number ≤ ((found : ℚ) : Extended)) ∧
      (countLessThan.holdsForCount found expected = true ↔
        ((found : ℚ) : Extended) < number) ∧
      (countLessThanOrEqual.holdsForCount found expected = true ↔
        ((found : ℚ) : Extended) ≤ number)) ∧
    (expected.isNaN = true → ∀ found,
      countNot.holdsForCount found expected = true ∧
      ∀ operator ∈ [count, countGreaterThan, countGreaterThanOrEqual, countLessThan,
        countLessThanOrEqual], operator.holdsForCount found expected = false) := by
  refine ⟨fun found bounded => ⟨?_, ?_⟩, fun found more atMost bounded => ?_, fun notNaN => ?_,
    fun notNumber found => ?_⟩
  · rw [countAny_holdsForCount bounded, decide_eq_true_iff]
  · rw [countNone_holdsForCount bounded, decide_eq_true_iff]
  · simpa [and_assoc] using bounds_of_le atMost bounded expected
  · obtain ⟨number, stands⟩ := exists_number?_of_not_nan notNaN
    exact ⟨number, stands, fun found small => compared_exactly small stands⟩
  · simp [holdsForCount, holds, order?_nan notNumber, exactly_nan notNumber]

theorem counts_are_sound_half :
    let half : Binary64 := .ofRatio false 5 2
    (∀ number, half.number? = some number →
      (countGreaterThan.holdsForCount 3 half = true ↔ number < ((3 : ℚ) : Extended))) ∧
    countGreaterThan.holdsForCount 3 half = true ∧
      countGreaterThan.holdsForCount (2 ^ 53 + 1) half = true ∧
    countNot.holdsForCount 3 .nan = true ∧ countLessThan.holdsForCount 3 .nan = false := by
  intro half
  have notNaN : half.isNaN = false := by decide +kernel
  have reached : countGreaterThan.holdsForCount 3 half = true := by decide +kernel
  obtain ⟨_, upward, exact, _⟩ := counts_are_sound half
  obtain ⟨_, _, _, unequal⟩ := counts_are_sound .nan
  obtain ⟨different, fails⟩ := unequal (by decide +kernel) 3
  refine ⟨?_, reached, (upward 3 (2 ^ 53 + 1) (by decide) (by decide)).1 _ (by simp) reached,
    different, fails _ (by simp)⟩
  intro number stands
  obtain ⟨same, sameStands, compared⟩ := exact notNaN
  obtain rfl := Option.some_inj.mp (stands.symm.trans sameStands)
  exact_mod_cast (compared 3 (by decide)).2.2.1

end Sociogram.Operator
