import Mathlib.Data.List.Forall2
import Sociogram.Attribute.Value

/-!
The equality that rules use. It is symmetric and transitive, but no array with a NaN in it
equals itself. What is exactly equal is ordered alike: an order looks at the same places on
the number line.
-/

namespace Sociogram

namespace Binary64

theorem sameValue_iff (left right : Binary64) :
    left.sameValue right = true ↔
      ∃ units, left.units? = some units ∧ right.units? = some units := by
  rw [sameValue, order?]
  cases left.units? with
  | none => simp
  | some leftUnits =>
      cases right.units? with
      | none => simp
      | some rightUnits =>
          rw [beq_iff_eq, Option.some_inj, Int.compare_eq_eq]
          simp [eq_comm]

theorem order?_swap (left right : Binary64) :
    right.order? left = (left.order? right).map Ordering.swap := by
  rw [order?, order?]
  cases left.units? with
  | none => cases right.units? <;> rfl
  | some leftUnits =>
      cases right.units? with
      | none => rfl
      | some rightUnits => exact congrArg some Std.OrientedCmp.eq_swap

end Binary64

namespace AttributeValue

/-! ## Numbers -/

/-- The place on the number line, in units. A NaN has none. -/
def units? (value : AttributeValue) : Option Int := value.asFloat?.bind Binary64.units?

theorem exists_asFloat?_of_units? {value : AttributeValue} {units : Int}
    (place : value.units? = some units) :
    ∃ float, value.asFloat? = some float ∧ float.units? = some units :=
  Option.bind_eq_some_iff.mp place

theorem order?_of_asFloat? {value other : AttributeValue} {float otherFloat : Binary64}
    (view : value.asFloat? = some float) (otherView : other.asFloat? = some otherFloat) :
    value.order? other = float.order? otherFloat := by
  cases value <;> cases other <;> simp_all [asFloat?, order?]

theorem exactly_of_asFloat? {value other : AttributeValue} {float otherFloat : Binary64}
    (view : value.asFloat? = some float) (otherView : other.asFloat? = some otherFloat) :
    value.exactly other = float.sameValue otherFloat := by
  cases value <;> cases other <;> simp_all [asFloat?, exactly]

/-! ## Equal values -/

theorem exactlyEach_iff (items others : List AttributeValue) :
    exactlyEach items others = true ↔
      List.Forall₂ (fun item other => item.exactly other = true) items others := by
  induction items generalizing others with
  | nil => cases others <;> simp [exactlyEach]
  | cons item items induction =>
      cases others with
      | nil => simp [exactlyEach]
      | cons other others => simp [exactlyEach, induction]

/-- The ways in which two values are exactly equal. -/
inductive Coincide : AttributeValue → AttributeValue → Prop
  | null : Coincide null null
  | boolean (value : Bool) : Coincide (boolean value) (boolean value)
  | number {value other : AttributeValue} {units : Int} (place : value.units? = some units)
      (otherPlace : other.units? = some units) : Coincide value other
  | text (value : String) : Coincide (text value) (text value)
  | array {items others : List AttributeValue}
      (each : List.Forall₂ (fun item other => item.exactly other = true) items others) :
      Coincide (array items) (array others)

theorem coincide_of_sameValue {value other : AttributeValue} {float otherFloat : Binary64}
    (view : value.asFloat? = some float) (otherView : other.asFloat? = some otherFloat)
    (equal : float.sameValue otherFloat = true) : Coincide value other := by
  rcases (Binary64.sameValue_iff float otherFloat).mp equal with ⟨units, place, otherPlace⟩
  exact .number (by rw [units?, view, Option.bind_some, place])
    (by rw [units?, otherView, Option.bind_some, otherPlace])

theorem coincide_of_exactly {value other : AttributeValue} (equal : value.exactly other = true) :
    Coincide value other := by
  cases viewed : value.asFloat? with
  | some float =>
      cases otherViewed : other.asFloat? with
      | some otherFloat =>
          rw [exactly_of_asFloat? viewed otherViewed] at equal
          exact coincide_of_sameValue viewed otherViewed equal
      | none => cases value <;> cases other <;> simp_all [exactly, asFloat?, sameAtom]
  | none =>
      cases value with
      | null => cases other <;> simp_all [exactly, asFloat?, sameAtom, Coincide.null]
      | boolean value =>
          cases other <;> simp_all [exactly, asFloat?, sameAtom, Coincide.boolean]
      | text value => cases other <;> simp_all [exactly, asFloat?, sameAtom, Coincide.text]
      | array items =>
          cases other with
          | array others => exact .array ((exactlyEach_iff items others).mp equal)
          | _ => simp [exactly, asFloat?, sameAtom] at equal
      | integer value => cases viewed
      | float value => cases viewed

theorem Coincide.exactly {value other : AttributeValue} (coincide : Coincide value other) :
    value.exactly other = true := by
  cases coincide with
  | null => rfl
  | boolean value => simp [AttributeValue.exactly, asFloat?, sameAtom]
  | number place otherPlace =>
      rcases exists_asFloat?_of_units? place with ⟨float, view, units⟩
      rcases exists_asFloat?_of_units? otherPlace with ⟨otherFloat, otherView, otherUnits⟩
      rw [exactly_of_asFloat? view otherView]
      exact (Binary64.sameValue_iff _ _).mpr ⟨_, units, otherUnits⟩
  | text value => simp [AttributeValue.exactly, asFloat?, sameAtom]
  | array each => exact (exactlyEach_iff _ _).mpr each

/-! ## Symmetry and transitivity -/

theorem exactly_symm {value other : AttributeValue} (equal : value.exactly other = true) :
    other.exactly value = true := by
  induction value using inductionOn generalizing other with
  | array items induction =>
      cases coincide_of_exactly equal with
      | number place _ => cases place
      | array each =>
          have both := (List.forall₂_and_left _ _).mpr ⟨induction, each⟩
          exact (Coincide.array (both.imp fun _ _ pair => pair.1 pair.2).flip).exactly
  | _ =>
      cases coincide_of_exactly equal with
      | number place otherPlace => exact (Coincide.number otherPlace place).exactly
      | _ => exact equal

theorem exactly_comm (value other : AttributeValue) :
    value.exactly other = other.exactly value :=
  Bool.eq_iff_iff.mpr ⟨exactly_symm, exactly_symm⟩

theorem forall₂_exactly_trans {items others thirds : List AttributeValue}
    (transitive : ∀ item ∈ items, ∀ {other third : AttributeValue},
      item.exactly other = true → other.exactly third = true → item.exactly third = true)
    (each : List.Forall₂ (fun item other => item.exactly other = true) items others)
    (eachNext : List.Forall₂ (fun other third => other.exactly third = true) others thirds) :
    List.Forall₂ (fun item third => item.exactly third = true) items thirds := by
  induction each generalizing thirds with
  | nil =>
      cases eachNext
      exact .nil
  | cons first _ induction =>
      have transitiveRest := List.forall_mem_cons.mp transitive
      cases eachNext with
      | cons next rest =>
          exact .cons (transitiveRest.1 first next) (induction transitiveRest.2 rest)

theorem exactly_trans {value other third : AttributeValue} (first : value.exactly other = true)
    (second : other.exactly third = true) : value.exactly third = true := by
  induction value using inductionOn generalizing other third with
  | array items induction =>
      cases coincide_of_exactly first with
      | number place _ => cases place
      | array each =>
          cases coincide_of_exactly second with
          | number place _ => cases place
          | array eachNext =>
              exact (Coincide.array (forall₂_exactly_trans induction each eachNext)).exactly
  | _ =>
      cases coincide_of_exactly first with
      | number place otherPlace =>
          cases coincide_of_exactly second with
          | number samePlace thirdPlace =>
              have equal := Option.some_inj.mp (otherPlace.symm.trans samePlace)
              exact (Coincide.number place (equal ▸ thirdPlace)).exactly
          | _ => cases otherPlace
      | _ => exact second

theorem exactly_congr_left {value same : AttributeValue} (equal : value.exactly same = true)
    (other : AttributeValue) : value.exactly other = same.exactly other :=
  Bool.eq_iff_iff.mpr ⟨exactly_trans (exactly_symm equal), exactly_trans equal⟩

/-! ## Order -/

theorem unordered_of_asFloat? {value other : AttributeValue} {float : Binary64}
    (view : value.asFloat? = some float) (otherView : other.asFloat? = none) :
    value.order? other = none ∧ other.order? value = none := by
  cases value <;> cases other <;> simp_all [asFloat?, order?]

theorem order?_of_units? {value : AttributeValue} {units : Int}
    (place : value.units? = some units) (other : AttributeValue) :
    value.order? other = other.units?.map (compare units) := by
  rcases exists_asFloat?_of_units? place with ⟨float, view, viewUnits⟩
  cases otherViewed : other.asFloat? with
  | none =>
      rw [(unordered_of_asFloat? view otherViewed).1, units?, otherViewed]
      rfl
  | some otherFloat =>
      rw [order?_of_asFloat? view otherViewed, Binary64.order?, viewUnits, units?, otherViewed,
        Option.bind_some]
      cases otherFloat.units? <;> rfl

theorem order?_congr_left {value same : AttributeValue} (equal : value.exactly same = true)
    (other : AttributeValue) : value.order? other = same.order? other := by
  cases coincide_of_exactly equal with
  | null => rfl
  | boolean value => rfl
  | number place samePlace => rw [order?_of_units? place, order?_of_units? samePlace]
  | text value => rfl
  | array each => cases other <;> rfl

theorem order?_swap (value other : AttributeValue) :
    other.order? value = (value.order? other).map Ordering.swap := by
  cases viewed : value.asFloat? with
  | some float =>
      cases otherViewed : other.asFloat? with
      | some otherFloat =>
          rw [order?_of_asFloat? otherViewed viewed, order?_of_asFloat? viewed otherViewed]
          exact Binary64.order?_swap float otherFloat
      | none =>
          have unordered := unordered_of_asFloat? viewed otherViewed
          rw [unordered.1, unordered.2]
          rfl
  | none =>
      cases value with
      | null => cases other <;> rfl
      | boolean value =>
          cases other with
          | boolean other => exact congrArg some Std.OrientedCmp.eq_swap
          | _ => rfl
      | text value =>
          cases other with
          | text other => exact congrArg some Std.OrientedCmp.eq_swap
          | _ => rfl
      | array items => cases other <;> rfl
      | integer value => cases viewed
      | float value => cases viewed

theorem order?_congr_right (value : AttributeValue) {other same : AttributeValue}
    (equal : other.exactly same = true) : value.order? other = value.order? same := by
  rw [order?_swap other value, order?_swap same value, order?_congr_left equal]

end AttributeValue

end Sociogram
