import Sociogram.Number.Binary64

/-!
Values of attributes: null, truth values, integers, floating-point numbers,
texts, and arrays of values.

Two equalities live here. `exactly` is the one that rules use: an integer and a
floating-point number are exactly equal when the number nearest to the integer
has the same value. `same` also asks that integers and floating-point numbers
stay apart.
-/

namespace Sociogram

inductive AttributeValue where
  | null
  | boolean (value : Bool)
  | integer (value : Int64)
  | float (value : Binary64)
  | text (value : String)
  | array (items : List AttributeValue)

namespace AttributeValue

instance : Inhabited AttributeValue := ⟨null⟩

@[elab_as_elim]
theorem inductionOn {motive : AttributeValue → Prop} (value : AttributeValue)
    (null : motive .null)
    (boolean : ∀ value, motive (.boolean value))
    (integer : ∀ value, motive (.integer value))
    (float : ∀ value, motive (.float value))
    (text : ∀ value, motive (.text value))
    (array : ∀ items : List AttributeValue,
      (∀ item ∈ items, motive item) → motive (.array items)) :
    motive value := by
  refine AttributeValue.rec (motive_1 := motive)
    (motive_2 := fun items => ∀ item ∈ items, motive item)
    null boolean integer float text array ?_ ?_ value
  · exact fun _ member => absurd member List.not_mem_nil
  · intro item items first rest
    exact List.forall_mem_cons.mpr ⟨first, rest⟩

/-! ## Views -/

def isNull : AttributeValue → Bool
  | null => true
  | _ => false

/-- The value on the one number line of integers and floating-point numbers. -/
def asFloat? : AttributeValue → Option Binary64
  | integer value => some (.ofInt value.toInt)
  | float value => some value
  | _ => none

def asText? : AttributeValue → Option String
  | text value => some value
  | _ => none

/-! ## Order -/

/-- The order of two texts, of two truth values (false first) or of two numbers.
Other pairs are not ordered. -/
def order? : AttributeValue → AttributeValue → Option Ordering
  | text left, text right => some (compare left right)
  | boolean left, boolean right => some (compare left right)
  | left, right =>
      match left.asFloat?, right.asFloat? with
      | some leftNumber, some rightNumber => leftNumber.order? rightNumber
      | _, _ => none

/-! ## Equality -/

def sameAtom : AttributeValue → AttributeValue → Bool
  | null, null => true
  | boolean left, boolean right => left == right
  | text left, text right => left == right
  | _, _ => false

mutual

/-- The equality that rules use. Arrays are compared item by item, and numbers by
their place on the number line. -/
def exactly : AttributeValue → AttributeValue → Bool
  | array items, array others => exactlyEach items others
  | value, other =>
      match value.asFloat?, other.asFloat? with
      | some left, some right => left.sameValue right
      | _, _ => value.sameAtom other
termination_by structural value => value

def exactlyEach : List AttributeValue → List AttributeValue → Bool
  | [], [] => true
  | item :: items, other :: others => exactly item other && exactlyEach items others
  | _, _ => false
termination_by structural items => items

end

mutual

/-- The equality of stored values: integers differ from floating-point numbers, a
NaN from itself, and the two zeros are one. -/
def same : AttributeValue → AttributeValue → Bool
  | array items, array others => sameEach items others
  | integer left, integer right => left == right
  | float left, float right => left.sameValue right
  | value, other => value.sameAtom other
termination_by structural value => value

def sameEach : List AttributeValue → List AttributeValue → Bool
  | [], [] => true
  | item :: items, other :: others => same item other && sameEach items others
  | _, _ => false
termination_by structural items => items

end

/-- One is exactly `1.0`, but not the same stored value. -/
example : (integer 1).exactly (float (.ofInt 1)) = true := by decide +kernel
example : (integer 1).same (float (.ofInt 1)) = false := by decide +kernel
example : (array [null]).exactly (array [null]) = true := by decide +kernel

end AttributeValue

end Sociogram
