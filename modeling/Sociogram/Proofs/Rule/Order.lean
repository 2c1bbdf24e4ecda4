import Sociogram.Proofs.Attribute.Exactly
import Sociogram.Proofs.Number.Exact
import Sociogram.Rule.Operator

/-!
Equality and order of values as one structure. Values that are ordered are two numbers, two
texts or two truth values; among these, one is greater, the other is, or the two are exactly
equal. Arrays and null have an equality only, and a NaN not even that.
-/

namespace Sociogram

namespace AttributeValue

/-! ## Equality with itself -/

/-- A value stands in another one: it is that value, or it stands in one of its items. -/
inductive Occurs (part : AttributeValue) : AttributeValue → Prop
  | self : Occurs part part
  | item {items : List AttributeValue} {item : AttributeValue} (member : item ∈ items)
      (inside : Occurs part item) : Occurs part (array items)

def HasNoNaN (value : AttributeValue) : Prop :=
  ∀ number, Occurs (float number) value → number.isNaN = false

theorem hasNoNaN_array (items : List AttributeValue) :
    (array items).HasNoNaN ↔ ∀ item ∈ items, item.HasNoNaN := by
  constructor
  · intro noNaN item member number inside
    exact noNaN number (.item member inside)
  · intro noNaN number occurs
    cases occurs with
    | item member inside => exact noNaN _ member number inside

theorem hasNoNaN_float (number : Binary64) :
    (float number).HasNoNaN ↔ number.isNaN = false := by
  constructor
  · exact fun noNaN => noNaN number .self
  · rintro notNaN _ ⟨⟩
    exact notNaN

theorem exists_units?_integer (value : Int64) : ∃ units, (integer value).units? = some units := by
  have lower := value.le_toInt
  have upper := value.toInt_lt
  exact ⟨_, Binary64.units?_ofInt (by omega)⟩

theorem exists_units?_float {number : Binary64} (notNaN : number.isNaN = false) :
    ∃ units, (float number).units? = some units :=
  ⟨_, Binary64.units?_of_not_nan notNaN⟩

theorem isNaN_of_units?_float {number : Binary64} {units : Int}
    (place : (float number).units? = some units) : number.isNaN = false :=
  Binary64.isNaN_of_units? place

theorem exactly_self_iff (value : AttributeValue) :
    value.exactly value = true ↔ value.HasNoNaN := by
  induction value using inductionOn with
  | array items induction =>
      have each : (array items).exactly (array items) = exactlyEach items items := rfl
      rw [each, exactlyEach_iff, List.forall₂_same, hasNoNaN_array]
      exact forall₂_congr induction
  | float number =>
      rw [hasNoNaN_float]
      constructor
      · intro equal
        cases coincide_of_exactly equal with
        | number place _ => exact isNaN_of_units?_float place
      · intro notNaN
        obtain ⟨_, place⟩ := exists_units?_float notNaN
        exact (Coincide.number place place).exactly
  | integer value =>
      obtain ⟨_, place⟩ := exists_units?_integer value
      exact iff_of_true (Coincide.number place place).exactly (fun _ occurs => nomatch occurs)
  | null => exact iff_of_true Coincide.null.exactly (fun _ occurs => nomatch occurs)
  | boolean value =>
      exact iff_of_true (Coincide.boolean value).exactly (fun _ occurs => nomatch occurs)
  | text value => exact iff_of_true (Coincide.text value).exactly (fun _ occurs => nomatch occurs)

/-! ## Ordered pairs -/

inductive Ranked : AttributeValue → AttributeValue → Ordering → Prop
  | boolean {value other : Bool} {ordering : Ordering} (order : compare value other = ordering) :
      Ranked (boolean value) (boolean other) ordering
  | number {value other : AttributeValue} {units otherUnits : Int} {ordering : Ordering}
      (place : value.units? = some units) (otherPlace : other.units? = some otherUnits)
      (order : compare units otherUnits = ordering) : Ranked value other ordering
  | text {value other : String} {ordering : Ordering} (order : compare value other = ordering) :
      Ranked (text value) (text other) ordering

theorem ranked_of_order? {value other : AttributeValue} {ordering : Ordering}
    (ordered : value.order? other = some ordering) : Ranked value other ordering := by
  cases place : value.units? with
  | some units =>
      rw [order?_of_units? place, Option.map_eq_some_iff] at ordered
      obtain ⟨_, otherPlace, order⟩ := ordered
      exact .number place otherPlace order
  | none =>
      cases value with
      | boolean value =>
          cases other with
          | boolean other => exact .boolean (Option.some_inj.mp ordered)
          | _ => cases ordered
      | text value =>
          cases other with
          | text other => exact .text (Option.some_inj.mp ordered)
          | _ => cases ordered
      | null | array items => cases other <;> cases ordered
      | integer value =>
          obtain ⟨_, somewhere⟩ := exists_units?_integer value
          rw [place] at somewhere
          cases somewhere
      | float number =>
          -- A NaN is ordered with nothing.
          have unplaced : number.units? = none := place
          cases other <;> simp [order?, asFloat?, Binary64.order?, unplaced] at ordered

theorem Ranked.order? {value other : AttributeValue} {ordering : Ordering}
    (ranked : Ranked value other ordering) : value.order? other = some ordering := by
  cases ranked with
  | boolean order | text order => exact congrArg some order
  | number place otherPlace order =>
      rw [order?_of_units? place, otherPlace, Option.map_some, order]

theorem order?_gt_trans {value other third : AttributeValue}
    (first : value.order? other = some .gt) (second : other.order? third = some .gt) :
    value.order? third = some .gt := by
  cases ranked_of_order? first with
  | boolean order =>
      cases ranked_of_order? second with
      | boolean next => exact (Ranked.boolean (Std.TransCmp.gt_trans order next)).order?
      | number place _ _ => cases place
  | text order =>
      cases ranked_of_order? second with
      | text next => exact (Ranked.text (Std.TransCmp.gt_trans order next)).order?
      | number place _ _ => cases place
  | number place otherPlace order =>
      cases ranked_of_order? second with
      | number samePlace thirdPlace next =>
          obtain rfl := Option.some_inj.mp (otherPlace.symm.trans samePlace)
          exact (Ranked.number place thirdPlace (Std.TransCmp.gt_trans order next)).order?
      | boolean | text => cases otherPlace

def Orderable : AttributeValue → Prop
  | boolean _ | integer _ | float _ | text _ => True
  | null | array _ => False

theorem orderable_of_units? {value : AttributeValue} {units : Int}
    (place : value.units? = some units) : value.Orderable := by
  cases value with
  | integer value | float number => trivial
  | _ => cases place

theorem order?_eq_some_eq_iff (value other : AttributeValue) :
    value.order? other = some .eq ↔ value.exactly other = true ∧ value.Orderable := by
  constructor
  · intro ordered
    cases ranked_of_order? ordered with
    | boolean order =>
        rw [Std.compare_eq_iff_eq.mp order]
        exact ⟨(Coincide.boolean _).exactly, trivial⟩
    | text order =>
        rw [Std.compare_eq_iff_eq.mp order]
        exact ⟨(Coincide.text _).exactly, trivial⟩
    | number place otherPlace order =>
        rw [← Std.compare_eq_iff_eq.mp order] at otherPlace
        exact ⟨(Coincide.number place otherPlace).exactly, orderable_of_units? place⟩
  · rintro ⟨equal, orderable⟩
    cases coincide_of_exactly equal with
    | boolean value => exact (Ranked.boolean Std.ReflCmp.compare_self).order?
    | text value => exact (Ranked.text Std.ReflCmp.compare_self).order?
    | number place otherPlace =>
        exact (Ranked.number place otherPlace Std.ReflCmp.compare_self).order?
    | null | array each => cases orderable

/-! ## Comparable values -/

def IsNumber : AttributeValue → Prop
  | integer _ => True
  | float number => number.isNaN = false
  | _ => False

theorem isNumber_iff (value : AttributeValue) :
    value.IsNumber ↔ ∃ units, value.units? = some units := by
  cases value with
  | integer value => exact iff_of_true trivial (exists_units?_integer value)
  | float number =>
      exact ⟨exists_units?_float, fun ⟨_, place⟩ => isNaN_of_units?_float place⟩
  | null | boolean | text | array => exact iff_of_false id (fun ⟨_, place⟩ => nomatch place)

/-- Two truth values, two texts, or two numbers other than a NaN. -/
inductive Comparable : AttributeValue → AttributeValue → Prop
  | booleans (value other : Bool) : Comparable (boolean value) (boolean other)
  | numbers {value other : AttributeValue} (numeric : value.IsNumber)
      (otherNumeric : other.IsNumber) : Comparable value other
  | texts (value other : String) : Comparable (text value) (text other)

theorem orderable_of_comparable {value other : AttributeValue}
    (comparable : Comparable value other) : value.Orderable := by
  cases comparable with
  | booleans value other | texts value other => trivial
  | numbers numeric otherNumeric =>
      obtain ⟨_, place⟩ := (isNumber_iff value).mp numeric
      exact orderable_of_units? place

theorem exists_order?_iff (value other : AttributeValue) :
    (∃ ordering, value.order? other = some ordering) ↔ Comparable value other := by
  constructor
  · rintro ⟨ordering, ordered⟩
    cases ranked_of_order? ordered with
    | boolean order => exact .booleans _ _
    | text order => exact .texts _ _
    | number place otherPlace order =>
        have numeric := (isNumber_iff value).mpr ⟨_, place⟩
        have otherNumeric := (isNumber_iff other).mpr ⟨_, otherPlace⟩
        exact .numbers numeric otherNumeric
  · intro comparable
    cases comparable with
    | booleans value other => exact ⟨_, (Ranked.boolean rfl).order?⟩
    | texts value other => exact ⟨_, (Ranked.text rfl).order?⟩
    | numbers numeric otherNumeric =>
        obtain ⟨_, place⟩ := (isNumber_iff value).mp numeric
        obtain ⟨_, otherPlace⟩ := (isNumber_iff other).mp otherNumeric
        exact ⟨_, (Ranked.number place otherPlace rfl).order?⟩

theorem order?_eq_none_iff (value other : AttributeValue) :
    value.order? other = none ↔ ¬ Comparable value other := by
  rw [← exists_order?_iff, ← Option.isSome_iff_exists, Bool.not_eq_true, Option.isSome_eq_false_iff,
    Option.isNone_iff_eq_none]

end AttributeValue

namespace Operator

open AttributeValue (Comparable HasNoNaN)

/-! ## Operators -/

def orders : List Operator :=
  [greaterThan, greaterThanOrEqual, lessThan, lessThanOrEqual]

theorem greaterThan_holds_eq (value other : AttributeValue) :
    greaterThan.holds value other = lessThan.holds other value := by
  rw [holds, holds, AttributeValue.order?_swap value other]
  rcases value.order? other with _ | (_ | _ | _) <;> rfl

theorem greaterThanOrEqual_holds_eq (value other : AttributeValue) :
    greaterThanOrEqual.holds value other = lessThanOrEqual.holds other value := by
  rw [holds, holds, AttributeValue.order?_swap value other]
  rcases value.order? other with _ | (_ | _ | _) <;> rfl

theorem greaterThan_holds_trans {value other third : AttributeValue}
    (first : greaterThan.holds value other = true)
    (second : greaterThan.holds other third = true) : greaterThan.holds value third = true :=
  beq_iff_eq.mpr (AttributeValue.order?_gt_trans (beq_iff_eq.mp first) (beq_iff_eq.mp second))

theorem greaterThanOrEqual_holds_iff_or (value other : AttributeValue) :
    greaterThanOrEqual.holds value other = true ↔
      greaterThan.holds value other = true ∨
        exactly.holds value other = true ∧ value.Orderable := by
  rw [holds, holds, holds, ← AttributeValue.order?_eq_some_eq_iff]
  rcases value.order? other with _ | (_ | _ | _) <;> simp

theorem countP_holds_of_comparable {value other : AttributeValue}
    (comparable : Comparable value other) :
    [greaterThan, lessThan, exactly].countP (·.holds value other) = 1 := by
  obtain ⟨ordering, ordered⟩ := (AttributeValue.exists_order?_iff value other).mpr comparable
  have equality := AttributeValue.order?_eq_some_eq_iff value other
  rw [ordered, and_iff_left (AttributeValue.orderable_of_comparable comparable)] at equality
  cases ordering <;> simp_all [holds]

theorem orders_fail_of_not_comparable {value other : AttributeValue}
    (incomparable : ¬ Comparable value other) :
    ∀ operator ∈ orders, operator.holds value other = false := by
  simp [orders, holds, (AttributeValue.order?_eq_none_iff value other).mpr incomparable]

theorem countP_holds_le_one (value other : AttributeValue) :
    [greaterThan, lessThan, exactly].countP (·.holds value other) ≤ 1 := by
  by_cases comparable : Comparable value other
  · exact Nat.le_of_eq (countP_holds_of_comparable comparable)
  · have fails := orders_fail_of_not_comparable comparable
    have greater := fails greaterThan (by simp [orders])
    have less := fails lessThan (by simp [orders])
    rw [List.countP_cons_of_neg (by simp [greater]), List.countP_cons_of_neg (by simp [less])]
    exact List.countP_le_length

/-- Equality and order are one structure over all values. Equality is symmetric and transitive,
and a value equals itself unless there is a NaN in it. Greater is less with the sides exchanged,
and it is transitive; greater or equal is what it says, but only of numbers, texts and truth
values. At most one of greater, less and equal holds; exactly one does between two truth values,
two texts or two numbers other than a NaN, and between any other values no order holds. -/
theorem equality_and_order_are_one_structure (value other third : AttributeValue) :
    (exactly.holds value other = exactly.holds other value ∧
      (exactly.holds value other = true → exactly.holds other third = true →
        exactly.holds value third = true) ∧
      (exactly.holds value value = true ↔ value.HasNoNaN)) ∧
    (greaterThan.holds value other = lessThan.holds other value ∧
      greaterThanOrEqual.holds value other = lessThanOrEqual.holds other value ∧
      (greaterThan.holds value other = true → greaterThan.holds other third = true →
        greaterThan.holds value third = true) ∧
      (greaterThanOrEqual.holds value other = true ↔
        greaterThan.holds value other = true ∨
          exactly.holds value other = true ∧ value.Orderable)) ∧
    [greaterThan, lessThan, exactly].countP (·.holds value other) ≤ 1 ∧
    (Comparable value other →
      [greaterThan, lessThan, exactly].countP (·.holds value other) = 1) ∧
    (¬ Comparable value other → ∀ operator ∈ orders, operator.holds value other = false) := by
  refine ⟨⟨AttributeValue.exactly_comm value other, AttributeValue.exactly_trans,
      AttributeValue.exactly_self_iff value⟩,
    ⟨greaterThan_holds_eq value other, greaterThanOrEqual_holds_eq value other,
      greaterThan_holds_trans, greaterThanOrEqual_holds_iff_or value other⟩,
    countP_holds_le_one value other, countP_holds_of_comparable, orders_fail_of_not_comparable⟩

theorem equality_and_order_are_one_structure_mixed :
    let two : AttributeValue := .integer 2
    let one : AttributeValue := .float (.ofInt 1)
    let zero : AttributeValue := .float (.zero true)
    let ones : List AttributeValue := [.array [one], .array [.integer 1], .array [one]]
    let nan : AttributeValue := .array [.array [.float .nan]]
    (greaterThan.holds two one = true ∧ greaterThan.holds one zero = true ∧
      greaterThan.holds two zero = true) ∧
    (exactly.holds ones[0] ones[1] = true ∧ exactly.holds ones[1] ones[2] = true ∧
      exactly.holds ones[0] ones[2] = true) ∧
    (Comparable two one ∧
      [greaterThan, lessThan, exactly].countP (·.holds two one) = 1) ∧
    (¬ Comparable nan two ∧ ∀ operator ∈ orders, operator.holds nan two = false) := by
  intro two one zero ones nan
  have above : greaterThan.holds two one = true := by decide +kernel
  have positive : greaterThan.holds one zero = true := by decide +kernel
  have first : exactly.holds ones[0] ones[1] = true := by decide +kernel
  have second : exactly.holds ones[1] ones[2] = true := by decide +kernel
  have notNaN : (Binary64.ofInt 1).isNaN = false := by decide +kernel
  have comparable : Comparable two one := .numbers trivial notNaN
  have incomparable : ¬ Comparable nan two := AttributeValue.orderable_of_comparable
  have descending := (equality_and_order_are_one_structure two one zero).2.1.2.2.1
  have equal := (equality_and_order_are_one_structure ones[0] ones[1] ones[2]).1.2.1
  have exactlyOne := (equality_and_order_are_one_structure two one zero).2.2.2.1
  have fails := (equality_and_order_are_one_structure nan two zero).2.2.2.2
  exact ⟨⟨above, positive, descending above positive⟩, ⟨first, second, equal first second⟩,
    ⟨comparable, exactlyOne comparable⟩, incomparable, fails incomparable⟩

end Operator

end Sociogram
