import Sociogram.Proofs.Document.Slots
import Sociogram.Rule.Reading

/-!
The fields of rules, counts, entries and rule sets, and what they are when they are left out.
-/

namespace Sociogram

/-! ## Alter rules -/

namespace AlterRule

inductive Field
  | nodeType
  | attributeName
  | operator
  | value
deriving DecidableEq

def slots : form.Slots where
  Field := Field
  slot
    | .nodeType => ⟨String, "type", Document.asText, Draft.nodeType⟩
    | .attributeName =>
        ⟨Option String, "attribute", Document.asOptional Document.asText, Draft.attributeName⟩
    | .operator =>
        ⟨Option Operator, "operator", Document.asOptional Operator.ofDocument, Draft.operator⟩
    | .value => ⟨AttributeValue, "value", AttributeValue.ofDocument, Draft.value⟩
  names :=
    [("type", .nodeType), ("attribute", .attributeName), ("operator", .operator), ("value", .value)]
  ofGiven values :=
    ⟨values .nodeType, values .attributeName, values .operator, values .value⟩
  given_ofGiven := by rintro values ⟨⟩ <;> rfl
  ofGiven_given _ := rfl
  given_blank := by rintro ⟨⟩ <;> rfl
  take_spec := by
    intro draft key document
    simp only [form, take]
    split
    · rfl
    · rfl
    · rfl
    · rfl
    · rw [List.lookup_eq_none_iff.mpr (by grind)]

theorem isDefault_attributeName : slots.IsDefault .attributeName (none : Option String) := by
  rintro ⟨_, _, _, _⟩ ⟨⟩
  rfl

theorem isDefault_operator : slots.IsDefault .operator (none : Option Operator) := by
  rintro ⟨_, _, _, _⟩ ⟨⟩
  rfl

theorem isDefault_value : slots.IsDefault .value AttributeValue.null := by
  rintro ⟨_, _, _, _⟩ ⟨⟩
  rfl

end AlterRule

/-! ## Ego rules -/

namespace EgoRule

inductive Field
  | attributeName
  | operator
  | value
deriving DecidableEq

def slots : form.Slots where
  Field := Field
  slot
    | .attributeName => ⟨String, "attribute", Document.asText, Draft.attributeName⟩
    | .operator =>
        ⟨Option Operator, "operator", Document.asOptional Operator.ofDocument, Draft.operator⟩
    | .value => ⟨AttributeValue, "value", AttributeValue.ofDocument, Draft.value⟩
  names := [("attribute", .attributeName), ("operator", .operator), ("value", .value)]
  ofGiven values := ⟨values .attributeName, values .operator, values .value⟩
  given_ofGiven := by rintro values ⟨⟩ <;> rfl
  ofGiven_given _ := rfl
  given_blank := by rintro ⟨⟩ <;> rfl
  take_spec := by
    intro draft key document
    simp only [form, take]
    split
    · rfl
    · rfl
    · rfl
    · rw [List.lookup_eq_none_iff.mpr (by grind)]

theorem isDefault_operator : slots.IsDefault .operator (none : Option Operator) := by
  rintro ⟨_, _, _⟩ ⟨⟩
  rfl

theorem isDefault_value : slots.IsDefault .value AttributeValue.null := by
  rintro ⟨_, _, _⟩ ⟨⟩
  rfl

end EgoRule

/-! ## Counts -/

namespace CountAssertion

inductive Field
  | operator
  | value
deriving DecidableEq

def slots : form.Slots where
  Field := Field
  slot
    | .operator => ⟨Operator, "operator", Operator.ofDocument, Draft.operator⟩
    | .value => ⟨Binary64, "value", Document.asNumber, Draft.value⟩
  names := [("operator", .operator), ("value", .value)]
  ofGiven values := ⟨values .operator, values .value⟩
  given_ofGiven := by rintro values ⟨⟩ <;> rfl
  ofGiven_given _ := rfl
  given_blank := by rintro ⟨⟩ <;> rfl
  take_spec := by
    intro draft key document
    simp only [form, take]
    split
    · rfl
    · rfl
    · rw [List.lookup_eq_none_iff.mpr (by grind)]

end CountAssertion

/-! ## Entries -/

namespace RuleEntry

inductive Field
  | domain
  | options
  | count
deriving DecidableEq

/-- Two keys name the count. -/
def slots : form.Slots where
  Field := Field
  slot
    | .domain => ⟨String, "type", Document.asText, Draft.domain⟩
    | .options => ⟨Json, "options", Json.ofDocument, Draft.options⟩
    | .count =>
        ⟨Option CountAssertion, "count", Document.asOptional CountAssertion.form.read,
          Draft.count⟩
  names := [("type", .domain), ("options", .options), ("count", .count), ("assert", .count)]
  ofGiven values := ⟨values .domain, values .options, values .count⟩
  given_ofGiven := by rintro values ⟨⟩ <;> rfl
  ofGiven_given _ := rfl
  given_blank := by rintro ⟨⟩ <;> rfl
  take_spec := by
    intro draft key document
    simp only [form, take]
    split
    · rfl
    · rfl
    · rfl
    · rfl
    · rw [List.lookup_eq_none_iff.mpr (by grind)]

theorem isDefault_options : slots.IsDefault .options Json.null := by
  rintro ⟨_, _, _⟩ ⟨⟩
  rfl

theorem isDefault_count : slots.IsDefault .count (none : Option CountAssertion) := by
  rintro ⟨_, _, _⟩ ⟨⟩
  rfl

end RuleEntry

/-! ## Rule sets -/

namespace RuleSet

inductive Field
  | entries
  | join
deriving DecidableEq

def slots : form.Slots where
  Field := Field
  slot
    | .entries => ⟨List RuleEntry, "rules", Document.asList RuleEntry.form.read, Draft.entries⟩
    | .join => ⟨Join, "join", Join.ofDocument, Draft.join⟩
  names := [("rules", .entries), ("join", .join)]
  ofGiven values := ⟨values .entries, values .join⟩
  given_ofGiven := by rintro values ⟨⟩ <;> rfl
  ofGiven_given _ := rfl
  given_blank := by rintro ⟨⟩ <;> rfl
  take_spec := by
    intro draft key document
    simp only [form, take]
    split
    · rfl
    · rfl
    · rw [List.lookup_eq_none_iff.mpr (by grind)]

theorem isDefault_entries : slots.IsDefault .entries ([] : List RuleEntry) := by
  rintro ⟨_, _⟩ ⟨⟩
  rfl

theorem isDefault_join : slots.IsDefault .join Join.or := by
  rintro ⟨_, _⟩ ⟨⟩
  rfl

end RuleSet

end Sociogram
