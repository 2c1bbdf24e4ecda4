import Sociogram.Proofs.Attribute.Exactly
import Sociogram.Proofs.Number.Exact
import Sociogram.Rule.Operator

/-!
Comparisons of numbers against their exact order. An integer is compared as the
floating-point number nearest to it. That keeps the order of numbers but can make
different ones equal; below `2 ^ 53` nothing is lost.
-/

namespace Sociogram

namespace AttributeValue

open Binary64 (ofUnits unitsOfInt infiniteUnits)

/-! ## Places on the number line -/

/-- The exact number of a numeric value; a NaN has none. -/
def number? : AttributeValue → Option Extended
  | integer value => some ((value.toInt : ℚ) : Extended)
  | float value => value.number?
  | _ => none

def nearest? (value : AttributeValue) : Option Extended :=
  value.asFloat?.bind Binary64.number?

/-- Whether a value is so small that every integer of its size is a floating-point
number. -/
def FitsFloat : AttributeValue → Prop
  | integer value => value.toInt.natAbs ≤ 2 ^ 53
  | _ => True

instance : DecidablePred FitsFloat
  | integer value => inferInstanceAs (Decidable (value.toInt.natAbs ≤ 2 ^ 53))
  | null | boolean _ | float _ | text _ | array _ => .isTrue trivial

/-- Where a numeric value stands and where it is taken to stand, counted in units. Only
an integer can be moved. -/
structure Placed (value : AttributeValue) (units taken : Int) : Prop where
  number : value.number? = some (ofUnits units)
  bounded : units.natAbs ≤ infiniteUnits
  view : ∃ float, value.asFloat? = some float ∧ float.units? = some taken
  origin : taken = units ∨
    ∃ integer : Int, integer.natAbs ≤ 2 ^ 63 ∧ units = unitsOfInt integer ∧
      (Binary64.ofInt integer).units? = some taken
  unmoved : value.FitsFloat → taken = units

theorem exists_placed_integer (integer : Int64) :
    ∃ units taken, (AttributeValue.integer integer).Placed units taken := by
  have lower := integer.le_toInt
  have upper := integer.toInt_lt
  have bounded : integer.toInt.natAbs ≤ 2 ^ 63 := by omega
  have view := Binary64.units?_ofInt bounded
  refine ⟨unitsOfInt integer.toInt, _, ?_, ?_, ⟨_, rfl, view⟩, ?_, ?_⟩
  · rw [Binary64.ofUnits_unitsOfInt bounded]
    rfl
  · exact Nat.le_of_lt (Binary64.natAbs_unitsOfInt_lt bounded)
  · exact .inr ⟨integer.toInt, bounded, rfl, view⟩
  · intro fits
    have kept := Binary64.units?_ofInt_of_le fits
    rwa [view, Option.some_inj] at kept

theorem exists_placed {value : AttributeValue} {number : Extended}
    (numeric : value.number? = some number) : ∃ units taken, value.Placed units taken := by
  cases value with
  | integer integer => exact exists_placed_integer integer
  | float float =>
      obtain ⟨units, view⟩ := Binary64.exists_units_of_number? numeric
      obtain ⟨same, bounded⟩ := Binary64.number?_of_units? view
      exact ⟨units, units, same, bounded, ⟨float, rfl, view⟩, .inl rfl, fun _ => rfl⟩
  | null => cases numeric
  | boolean value => cases numeric
  | text value => cases numeric
  | array items => cases numeric

namespace Placed

variable {value other : AttributeValue} {units taken otherUnits otherTaken : Int}

theorem nearest (placed : value.Placed units taken) :
    value.nearest? = some (ofUnits taken) ∧ taken.natAbs ≤ infiniteUnits := by
  obtain ⟨float, viewed, view⟩ := placed.view
  rw [nearest?, viewed]
  exact Binary64.number?_of_units? view

theorem nearest_eq_iff (placed : value.Placed units taken)
    (otherPlaced : other.Placed otherUnits otherTaken) :
    value.nearest? = other.nearest? ↔ taken = otherTaken := by
  obtain ⟨nearest, bounded⟩ := placed.nearest
  obtain ⟨otherNearest, otherBounded⟩ := otherPlaced.nearest
  rw [nearest, otherNearest, Option.some_inj]
  exact Binary64.ofUnits_inj bounded otherBounded

/-! ### Order of the places -/

theorem no_nearer (placed : value.Placed units taken)
    (otherPlaced : other.Placed otherUnits otherTaken) :
    (taken - units).natAbs ≤ (otherTaken - units).natAbs := by
  rcases placed.origin with unmoved | ⟨integer, bounded, place, view⟩
  · omega
  · obtain ⟨float, _, otherView⟩ := otherPlaced.view
    rw [place]
    exact Binary64.ofInt_nearest bounded view otherView

theorem taken_eq (placed : value.Placed units taken) (samePlace : other.Placed units otherTaken) :
    taken = otherTaken := by
  have left := placed.no_nearer samePlace
  have right := samePlace.no_nearer placed
  rcases placed.origin with unmoved | ⟨integer, _, place, view⟩
  · omega
  · rcases samePlace.origin with otherUnmoved | ⟨otherInteger, _, otherPlace, otherView⟩
    · omega
    · -- Half way between two floating-point numbers nearness decides nothing, but the
      -- same integer is rounded to the same side.
      have equal : integer = otherInteger :=
        Binary64.unitsOfInt_injective (place.symm.trans otherPlace)
      rw [equal] at view
      exact Option.some_inj.mp (view.symm.trans otherView)

theorem taken_le (placed : value.Placed units taken)
    (otherPlaced : other.Placed otherUnits otherTaken) (atMost : units ≤ otherUnits) :
    taken ≤ otherTaken := by
  rcases Int.lt_or_eq_of_le atMost with less | equal
  · have left := placed.no_nearer otherPlaced
    have right := otherPlaced.no_nearer placed
    omega
  · subst equal
    exact Int.le_of_eq (placed.taken_eq otherPlaced)

/-! ### Comparing the places -/

theorem order?_eq (placed : value.Placed units taken)
    (otherPlaced : other.Placed otherUnits otherTaken) :
    value.order? other = some (compare taken otherTaken) := by
  obtain ⟨float, viewed, view⟩ := placed.view
  obtain ⟨otherFloat, otherViewed, otherView⟩ := otherPlaced.view
  rw [order?_of_asFloat? viewed otherViewed, Binary64.order?, view, otherView]

theorem exactly_iff (placed : value.Placed units taken)
    (otherPlaced : other.Placed otherUnits otherTaken) :
    value.exactly other = true ↔ taken = otherTaken := by
  obtain ⟨float, viewed, view⟩ := placed.view
  obtain ⟨otherFloat, otherViewed, otherView⟩ := otherPlaced.view
  rw [exactly_of_asFloat? viewed otherViewed, Binary64.sameValue, Binary64.order?, view, otherView,
    beq_iff_eq, Option.some_inj, Int.compare_eq_eq]

end Placed

end AttributeValue

namespace Operator

/-! ## Operators on numbers -/

section

variable {value other : AttributeValue} {taken otherTaken : Int}

theorem greaterThan_holds_iff (order : value.order? other = some (compare taken otherTaken)) :
    greaterThan.holds value other = true ↔ otherTaken < taken := by
  rw [holds, order, beq_iff_eq, Option.some_inj, Int.compare_eq_gt]

theorem greaterThanOrEqual_holds_iff
    (order : value.order? other = some (compare taken otherTaken)) :
    greaterThanOrEqual.holds value other = true ↔ otherTaken ≤ taken := by
  rw [← Int.compare_ne_lt, holds, order]
  cases compare taken otherTaken <;> simp

theorem lessThan_holds_iff (order : value.order? other = some (compare taken otherTaken)) :
    lessThan.holds value other = true ↔ taken < otherTaken := by
  rw [holds, order, beq_iff_eq, Option.some_inj, Int.compare_eq_lt]

theorem lessThanOrEqual_holds_iff
    (order : value.order? other = some (compare taken otherTaken)) :
    lessThanOrEqual.holds value other = true ↔ taken ≤ otherTaken := by
  rw [← Int.compare_ne_gt, holds, order]
  cases compare taken otherTaken <;> simp

end

/-- Two numbers are exactly equal when they are taken for the same one, and otherwise they
are ordered as they stand. Equal numbers are taken for the same one; different ones can be
as well, but not while they fit. -/
theorem numbers_ordered_unless_taken_equal {value other : AttributeValue}
    {number otherNumber : Extended} (numeric : value.number? = some number)
    (otherNumeric : other.number? = some otherNumber) :
    (exactly.holds value other = true ↔ value.nearest? = other.nearest?) ∧
      (not.holds value other = true ↔ value.nearest? ≠ other.nearest?) ∧
      (greaterThan.holds value other = true ↔
        otherNumber < number ∧ value.nearest? ≠ other.nearest?) ∧
      (greaterThanOrEqual.holds value other = true ↔
        otherNumber ≤ number ∨ value.nearest? = other.nearest?) ∧
      (lessThan.holds value other = true ↔
        number < otherNumber ∧ value.nearest? ≠ other.nearest?) ∧
      (lessThanOrEqual.holds value other = true ↔
        number ≤ otherNumber ∨ value.nearest? = other.nearest?) ∧
      (number = otherNumber → value.nearest? = other.nearest?) ∧
      (value.FitsFloat → other.FitsFloat →
        (value.nearest? = other.nearest? ↔ number = otherNumber)) := by
  obtain ⟨units, taken, placed⟩ := AttributeValue.exists_placed numeric
  obtain ⟨otherUnits, otherTaken, otherPlaced⟩ := AttributeValue.exists_placed otherNumeric
  have place := Option.some_inj.mp (numeric.symm.trans placed.number)
  have otherPlace := Option.some_inj.mp (otherNumeric.symm.trans otherPlaced.number)
  have order := placed.order?_eq otherPlaced
  have equality := placed.exactly_iff otherPlaced
  have upward := placed.taken_le otherPlaced
  have downward := otherPlaced.taken_le placed
  -- From here on everything is about four integers.
  rw [place, otherPlace, Ne, placed.nearest_eq_iff otherPlaced,
    Binary64.ofUnits_inj placed.bounded otherPlaced.bounded,
    Binary64.ofUnits_lt_iff placed.bounded otherPlaced.bounded,
    Binary64.ofUnits_le_iff placed.bounded otherPlaced.bounded,
    Binary64.ofUnits_lt_iff otherPlaced.bounded placed.bounded,
    Binary64.ofUnits_le_iff otherPlaced.bounded placed.bounded]
  refine ⟨equality, ?_, ?_, ?_, ?_, ?_, ?_, ?_⟩
  · rw [holds, Bool.not_eq_true', ← Bool.not_eq_true, equality]
  · rw [greaterThan_holds_iff order]
    omega
  · rw [greaterThanOrEqual_holds_iff order]
    omega
  · rw [lessThan_holds_iff order]
    omega
  · rw [lessThanOrEqual_holds_iff order]
    omega
  · omega
  · intro fits otherFits
    have kept := placed.unmoved fits
    have otherKept := otherPlaced.unmoved otherFits
    omega

theorem numbers_ordered_unless_taken_equal_mixed :
    (AttributeValue.integer 20).number? = some ((20 : ℚ) : Extended) ∧
      (AttributeValue.float (.ofInt 19)).number? = some ((19 : ℚ) : Extended) ∧
      greaterThan.holds (.integer 20) (.float (.ofInt 19)) = true := by
  have numeric : (AttributeValue.integer 20).number? = some ((20 : ℚ) : Extended) := by rfl
  have otherNumeric : (AttributeValue.float (.ofInt 19)).number? = some ((19 : ℚ) : Extended) :=
    @Binary64.number?_ofInt_of_le 19 (by decide)
  have less : ((19 : ℚ) : Extended) < ((20 : ℚ) : Extended) := by exact_mod_cast (by norm_num)
  obtain ⟨_, _, greater, _, _, _, _, fitting⟩ :=
    numbers_ordered_unless_taken_equal numeric otherNumeric
  have different := (fitting (by decide) trivial).not.mpr less.ne'
  exact ⟨numeric, otherNumeric, greater.mpr ⟨less, different⟩⟩

theorem neighbours_exactly_equal :
    (AttributeValue.integer 9007199254740993).number? ≠
        (AttributeValue.integer 9007199254740992).number? ∧
      exactly.holds (.integer 9007199254740993) (.integer 9007199254740992) = true ∧
      not.holds (.integer 9007199254740993) (.integer 9007199254740992) = false ∧
      greaterThan.holds (.integer 9007199254740993) (.integer 9007199254740992) = false := by
  decide +kernel

end Operator

end Sociogram
