import Sociogram.Proofs.Attribute.Exactly
import Sociogram.Proofs.List.Related
import Sociogram.Rule.RuleSet

/-!
Values that rules cannot tell apart. An operator answers the same for values that are exactly
equal, on either side and at any depth of an array, so that it does not matter which of
them a node or a rule has.
-/

namespace Sociogram

/-! ## Views of equal values -/

namespace AttributeValue

/-- One value, or two that are exactly equal. Values with a NaN in them are only the former. -/
def Alike (value other : AttributeValue) : Prop :=
  value = other ∨ value.exactly other = true

theorem exactly_congr_right (value : AttributeValue) {other same : AttributeValue}
    (equal : other.exactly same = true) : value.exactly other = value.exactly same := by
  rw [exactly_comm value other, exactly_comm value same, exactly_congr_left equal]

theorem isNull_of_units? {value : AttributeValue} {units : Int}
    (place : value.units? = some units) : value.isNull = false := by
  cases value with
  | null => cases place
  | _ => rfl

theorem asText?_of_units? {value : AttributeValue} {units : Int}
    (place : value.units? = some units) : value.asText? = none := by
  cases value with
  | text value => cases place
  | _ => rfl

theorem isNull_congr {value same : AttributeValue} (equal : value.exactly same = true) :
    value.isNull = same.isNull := by
  cases coincide_of_exactly equal with
  | number place samePlace => rw [isNull_of_units? place, isNull_of_units? samePlace]
  | _ => rfl

theorem asText?_congr {value same : AttributeValue} (equal : value.exactly same = true) :
    value.asText? = same.asText? := by
  cases coincide_of_exactly equal with
  | number place samePlace => rw [asText?_of_units? place, asText?_of_units? samePlace]
  | _ => rfl

end AttributeValue

namespace Operator

open AttributeValue (asText?_congr coincide_of_exactly exactly_congr_left exactly_congr_right
  isNull_congr order?_congr_left order?_congr_right)

/-! ## Membership among equal values -/

theorem hasItem_congr_items {items others : List AttributeValue}
    (each : List.Forall₂ (fun item other => item.exactly other = true) items others)
    (needle : AttributeValue) : hasItem items needle = hasItem others needle :=
  any_eq_any_of_forall₂ (fun _ _ equal => exactly_congr_left equal needle) each

theorem hasItem_congr_needle (items : List AttributeValue) (needle same : AttributeValue)
    (equal : needle.exactly same = true) : hasItem items needle = hasItem items same := by
  have sameTest : (fun item : AttributeValue => item.exactly needle) =
      fun item => item.exactly same :=
    funext fun item => exactly_congr_right item equal
  rw [hasItem, hasItem, sameTest]

theorem membership_of_units? {value : AttributeValue} {units : Int}
    (place : value.units? = some units) (other : AttributeValue) (anyNeedle : Bool) :
    membership value other anyNeedle = none := by
  cases value with
  | integer number | float number => rfl
  | _ => cases place

theorem membership_array_of_units? (items : List AttributeValue) {needle : AttributeValue}
    {units : Int} (place : needle.units? = some units) (anyNeedle : Bool) :
    membership (.array items) needle anyNeedle = some (hasItem items needle) := by
  cases needle with
  | array needles => cases place
  | _ => rfl

theorem membership_congr_left {value same : AttributeValue} (equal : value.exactly same = true)
    (other : AttributeValue) (anyNeedle : Bool) :
    membership value other anyNeedle = membership same other anyNeedle := by
  cases coincide_of_exactly equal with
  | number place samePlace =>
      rw [membership_of_units? place, membership_of_units? samePlace]
  | array each =>
      have sameItems := funext (hasItem_congr_items each)
      cases other <;> simp only [membership, sameItems]
  | _ => rfl

theorem membership_congr_right (value : AttributeValue) {other same : AttributeValue}
    (equal : other.exactly same = true) (anyNeedle : Bool) :
    membership value other anyNeedle = membership value same anyNeedle := by
  cases value with
  | array items =>
      cases coincide_of_exactly equal with
      | number place samePlace =>
          rw [membership_array_of_units? items place, membership_array_of_units? items samePlace,
            hasItem_congr_needle items _ _ equal]
      | array each =>
          have sameNeedle := hasItem_congr_needle items
          simp only [membership, any_eq_any_of_forall₂ sameNeedle each,
            all_eq_all_of_forall₂ sameNeedle each]
      | _ => rfl
  | text haystack => simp only [membership, asText?_congr equal]
  | _ => rfl

/-! ## Operators on equal values -/

theorem countAny_holds (value other : AttributeValue) :
    countAny.holds value other = (value.order? (.float (.zero false)) == some .gt) := by
  cases value <;> rfl

theorem countNone_holds (value other : AttributeValue) :
    countNone.holds value other = (value.order? (.float (.zero false)) == some .eq) := by
  cases value <;> rfl

theorem holds_congr_left (operator : Operator) {value same : AttributeValue}
    (equal : value.exactly same = true) (other : AttributeValue) :
    operator.holds value other = operator.holds same other := by
  cases operator with
  | countAny => rw [countAny_holds, countAny_holds, order?_congr_left equal]
  | countNone => rw [countNone_holds, countNone_holds, order?_congr_left equal]
  | «exists» | notExists => simp only [holds, isNull_congr equal]
  | includes | excludes => simp only [holds, membership_congr_left equal]
  | exactly | not | count | countNot => simp only [holds, exactly_congr_left equal]
  | unknown tag => rfl
  | _ => simp only [holds, order?_congr_left equal]

theorem holds_congr_right (operator : Operator) (value : AttributeValue)
    {other same : AttributeValue} (equal : other.exactly same = true) :
    operator.holds value other = operator.holds value same := by
  cases operator with
  | countAny | countNone | «exists» | notExists | unknown => rfl
  | includes | excludes => simp only [holds, membership_congr_right value equal]
  | exactly | not | count | countNot => simp only [holds, exactly_congr_right value equal]
  | _ => simp only [holds, order?_congr_right value equal]

theorem holds_of_alike (operator : Operator) {value sameValue other sameOther : AttributeValue}
    (values : value.Alike sameValue) (others : other.Alike sameOther) :
    operator.holds value other = operator.holds sameValue sameOther := by
  have left : operator.holds value other = operator.holds sameValue other := by
    rcases values with identical | equal
    · rw [identical]
    · exact holds_congr_left operator equal other
  rcases others with identical | equal
  · rw [left, identical]
  · rw [left, holds_congr_right operator sameValue equal]

theorem holdsOptional_of_alike (operator : Option Operator)
    {value sameValue other sameOther : AttributeValue} (values : value.Alike sameValue)
    (others : other.Alike sameOther) :
    holdsOptional operator value other = holdsOptional operator sameValue sameOther := by
  cases operator with
  | none => rfl
  | some operator => exact holds_of_alike operator values others

end Operator

/-! ## Rules with equal values -/

inductive Rule.Alike : Rule → Rule → Prop
  | alter {rule : AlterRule} {value : AttributeValue} (values : rule.value.Alike value) :
      Alike (.alter rule) (.alter { rule with value })
  | edge (rule : EdgeRule) : Alike (.edge rule) (.edge rule)
  | ego {rule : EgoRule} {value : AttributeValue} (values : rule.value.Alike value) :
      Alike (.ego rule) (.ego { rule with value })
  | unrecognized (domain : String) (options : Json) :
      Alike (.unrecognized domain options) (.unrecognized domain options)

structure RuleEntry.Alike (entry other : RuleEntry) : Prop where
  rule : entry.rule.Alike other.rule
  count : entry.count = other.count

structure RuleSet.Alike (ruleSet other : RuleSet) : Prop where
  join : ruleSet.join = other.join
  entries : List.Forall₂ RuleEntry.Alike ruleSet.entries other.entries

end Sociogram
