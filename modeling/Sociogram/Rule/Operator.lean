import Sociogram.Attribute.Value

/-!
Operators of rules: comparisons, existence tests, membership tests, and their
counterparts for counts. Every operator answers for every pair of values; a pair
it does not apply to is answered with false.
-/

namespace Sociogram

inductive Operator where
  | greaterThan
  | greaterThanOrEqual
  | lessThan
  | lessThanOrEqual
  | exactly
  | not
  | exists
  | notExists
  | includes
  | excludes
  | count
  | countNot
  | countAny
  | countNone
  | countGreaterThan
  | countGreaterThanOrEqual
  | countLessThan
  | countLessThanOrEqual
  | unknown (tag : String)
deriving DecidableEq

namespace Operator

/-! ## Tags -/

def tag : Operator → String
  | greaterThan => "GREATER_THAN"
  | greaterThanOrEqual => "GREATER_THAN_OR_EQUAL"
  | lessThan => "LESS_THAN"
  | lessThanOrEqual => "LESS_THAN_OR_EQUAL"
  | exactly => "EXACTLY"
  | not => "NOT"
  | .exists => "EXISTS"
  | notExists => "NOT_EXISTS"
  | includes => "INCLUDES"
  | excludes => "EXCLUDES"
  | count => "COUNT"
  | countNot => "COUNT_NOT"
  | countAny => "COUNT_ANY"
  | countNone => "COUNT_NONE"
  | countGreaterThan => "COUNT_GREATER_THAN"
  | countGreaterThanOrEqual => "COUNT_GREATER_THAN_OR_EQUAL"
  | countLessThan => "COUNT_LESS_THAN"
  | countLessThanOrEqual => "COUNT_LESS_THAN_OR_EQUAL"
  | unknown tag => tag

def known : List Operator :=
  [greaterThan, greaterThanOrEqual, lessThan, lessThanOrEqual, exactly, not,
    .exists, notExists, includes, excludes, count, countNot, countAny, countNone,
    countGreaterThan, countGreaterThanOrEqual, countLessThan, countLessThanOrEqual]

/-- The operator with a tag. A tag that belongs to none is kept, so that it can be
written back. -/
def ofTag (tag : String) : Operator :=
  (known.find? fun operator => operator.tag == tag).getD (unknown tag)

def isKnown : Operator → Bool
  | unknown _ => false
  | _ => true

example : ofTag "COUNT_ANY" = countAny := by decide +kernel
example : ofTag "count_any" = unknown "count_any" := by decide +kernel

/-! ## Membership -/

def occursIn (needle haystack : String) : Bool :=
  @decide (needle.toList <:+: haystack.toList) (List.instDecidableIsInfixOfDecidableEq _ _)

def hasItem (items : List AttributeValue) (needle : AttributeValue) : Bool :=
  items.any fun item => item.exactly needle

/-- Whether `value` holds `other`: a text holds the texts that occur in it, and an
array holds its items. Of an array that is looked for, all items must be there,
or with `anyNeedle` at least one. Nothing else holds anything. -/
def membership (value other : AttributeValue) (anyNeedle : Bool) : Option Bool :=
  match value with
  | .array items =>
      match other with
      | .array needles =>
          some (if anyNeedle then needles.any (hasItem items) else needles.all (hasItem items))
      | needle => some (hasItem items needle)
  | .text haystack => other.asText?.map fun needle => occursIn needle haystack
  | _ => none

/-! ## Evaluation -/

def holds (operator : Operator) (value other : AttributeValue) : Bool :=
  match operator with
  | greaterThan | countGreaterThan => value.order? other == some .gt
  | greaterThanOrEqual | countGreaterThanOrEqual =>
      match value.order? other with
      | some .gt | some .eq => true
      | _ => false
  | lessThan | countLessThan => value.order? other == some .lt
  | lessThanOrEqual | countLessThanOrEqual =>
      match value.order? other with
      | some .lt | some .eq => true
      | _ => false
  | exactly | count => value.exactly other
  | not | countNot => !value.exactly other
  | .exists => !value.isNull
  | notExists => value.isNull
  | includes => (membership value other false).getD false
  | excludes => ((membership value other true).map (!·)).getD false
  | countAny =>
      match value.asFloat? with
      | some number => number.order? (.zero false) == some .gt
      | none => false
  | countNone =>
      match value.asFloat? with
      | some number => number.sameValue (.zero false)
      | none => false
  | unknown _ => false

/-- Without an operator nothing holds. -/
def holdsOptional (operator : Option Operator) (value other : AttributeValue) : Bool :=
  match operator with
  | some operator => operator.holds value other
  | none => false

/-- Whether a number of matches meets an expectation. The count is a 64-bit
integer, so that counts from `2 ^ 63` on are negative. -/
def holdsForCount (operator : Operator) (count : Nat) (expected : Binary64) : Bool :=
  operator.holds (.integer (Int64.ofNat count)) (.float expected)

/-- An array that is looked for must be there as a whole, and is missed only as a
whole. -/
example :
    let value : AttributeValue := .array [.integer 1, .integer 2]
    let other : AttributeValue := .array [.integer 2, .integer 3]
    holds includes value other = false ∧ holds excludes value other = false := by
  decide +kernel

example : holdsForCount greaterThanOrEqual 2 (.ofInt 2) = true := by decide +kernel

end Operator

end Sociogram
