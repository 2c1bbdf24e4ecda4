import Sociogram.Proofs.Rule.Alike
import Sociogram.Rule.Operator

/-!
Membership as inclusion and disjointness. What is looked for in an array is a list of values,
a single value being a list of one; it is included when every value of the list is exactly an
item, and excluded when none is. For texts, what is looked for has to occur as a run of
characters.
-/

namespace Sociogram

/-- The values that are looked for in an array. -/
def AttributeValue.needles : AttributeValue → List AttributeValue
  | array needles => needles
  | needle => [needle]

namespace Operator

open AttributeValue (exactly_symm exactly_trans)

/-! ## Values that may hold others -/

/-- An array may hold anything, and a text may hold texts. -/
inductive MayHold : AttributeValue → AttributeValue → Prop
  | items (items : List AttributeValue) (other : AttributeValue) : MayHold (.array items) other
  | texts (haystack needle : String) : MayHold (.text haystack) (.text needle)

theorem membership_fails_unless_mayHold {value other : AttributeValue}
    (mayNot : ¬ MayHold value other) :
    includes.holds value other = false ∧ excludes.holds value other = false := by
  cases value with
  | array items => exact absurd (.items items other) mayNot
  | text haystack =>
      cases other with
      | text needle => exact absurd (.texts haystack needle) mayNot
      | _ => exact ⟨rfl, rfl⟩
  | _ => exact ⟨rfl, rfl⟩

theorem excludes_holds_eq_not {value other : AttributeValue} (mayHold : MayHold value other)
    (single : ∀ needles, other ≠ .array needles) :
    excludes.holds value other = !includes.holds value other := by
  cases mayHold with
  | items items other =>
      cases other with
      | array needles => exact absurd rfl (single needles)
      | _ => rfl
  | texts haystack needle => rfl

/-! ## Arrays -/

theorem hasItem_iff (items : List AttributeValue) (needle : AttributeValue) :
    hasItem items needle = true ↔ ∃ item ∈ items, item.exactly needle = true :=
  List.any_eq_true

theorem includes_array_holds_iff (items : List AttributeValue) (other : AttributeValue) :
    includes.holds (.array items) other = true ↔
      ∀ needle ∈ other.needles, hasItem items needle = true := by
  cases other <;> simp [holds, membership, AttributeValue.needles]

theorem excludes_array_holds_iff (items : List AttributeValue) (other : AttributeValue) :
    excludes.holds (.array items) other = true ↔
      ∀ needle ∈ other.needles, hasItem items needle = false := by
  cases other <;> simp [holds, membership, AttributeValue.needles]

theorem hasItem_of_exactly {items : List AttributeValue} {needle same : AttributeValue}
    (has : hasItem items needle = true) (equal : needle.exactly same = true) :
    hasItem items same = true := by
  obtain ⟨item, member, found⟩ := (hasItem_iff items needle).mp has
  exact (hasItem_iff items same).mpr ⟨item, member, exactly_trans found equal⟩

section

variable {items others : List AttributeValue} {third : AttributeValue}

theorem includes_array_trans (first : includes.holds (.array items) (.array others) = true)
    (second : includes.holds (.array others) third = true) :
    includes.holds (.array items) third = true := by
  rw [includes_array_holds_iff] at first second ⊢
  intro needle wanted
  obtain ⟨other, member, equal⟩ := (hasItem_iff others needle).mp (second needle wanted)
  exact hasItem_of_exactly (first other member) equal

theorem excludes_array_of_includes
    (disjoint : excludes.holds (.array items) (.array others) = true)
    (included : includes.holds (.array others) third = true) :
    excludes.holds (.array items) third = true := by
  rw [excludes_array_holds_iff] at disjoint ⊢
  rw [includes_array_holds_iff] at included
  intro needle wanted
  obtain ⟨other, member, equal⟩ := (hasItem_iff others needle).mp (included needle wanted)
  -- An item that is exactly the needle would be exactly a value that is excluded.
  by_contra has
  rw [Bool.not_eq_false] at has
  exact Bool.false_ne_true
    ((disjoint other member).symm.trans (hasItem_of_exactly has (exactly_symm equal)))

end

theorem both_hold_iff_nil (items needles : List AttributeValue) :
    includes.holds (.array items) (.array needles) = true ∧
        excludes.holds (.array items) (.array needles) = true ↔
      needles = [] := by
  rw [includes_array_holds_iff, excludes_array_holds_iff]
  cases needles with
  | nil => simp [AttributeValue.needles]
  | cons needle needles => simp +contextual [AttributeValue.needles]

theorem two_needles_of_both_fail {items needles : List AttributeValue}
    (notIncluded : includes.holds (.array items) (.array needles) = false)
    (notExcluded : excludes.holds (.array items) (.array needles) = false) :
    2 ≤ needles.length := by
  rw [← Bool.not_eq_true, includes_array_holds_iff] at notIncluded
  rw [← Bool.not_eq_true, excludes_array_holds_iff] at notExcluded
  match needles with
  | [] => simp [AttributeValue.needles] at notIncluded
  | [needle] => simp_all [AttributeValue.needles]
  | _ :: _ :: _ => simp

/-! ### Order and repetition -/

theorem hasItem_eq_of_same_members {items same : List AttributeValue}
    (members : ∀ item, item ∈ items ↔ item ∈ same) : hasItem items = hasItem same := by
  funext needle
  rw [Bool.eq_iff_iff, hasItem_iff, hasItem_iff]
  simp only [members]

theorem membership_of_same_members {items sameItems : List AttributeValue}
    {other sameOther : AttributeValue} (members : ∀ item, item ∈ items ↔ item ∈ sameItems)
    (wanted : ∀ needle, needle ∈ other.needles ↔ needle ∈ sameOther.needles) :
    ∀ operator ∈ [includes, excludes],
      operator.holds (.array items) other = operator.holds (.array sameItems) sameOther := by
  have sameHas := hasItem_eq_of_same_members members
  have included : includes.holds (.array items) other =
      includes.holds (.array sameItems) sameOther := by
    rw [Bool.eq_iff_iff, includes_array_holds_iff, includes_array_holds_iff, sameHas]
    simp only [wanted]
  have excluded : excludes.holds (.array items) other =
      excludes.holds (.array sameItems) sameOther := by
    rw [Bool.eq_iff_iff, excludes_array_holds_iff, excludes_array_holds_iff, sameHas]
    simp only [wanted]
  simp [included, excluded]

/-! ## Texts -/

theorem includes_text_holds_iff (haystack needle : String) :
    includes.holds (.text haystack) (.text needle) = true ↔
      needle.toList <:+: haystack.toList := by
  simp [holds, membership, AttributeValue.asText?, occursIn]

theorem includes_text_refl (text : String) :
    includes.holds (.text text) (.text text) = true :=
  (includes_text_holds_iff text text).mpr (List.infix_refl _)

theorem includes_text_trans {text part smaller : String}
    (first : includes.holds (.text text) (.text part) = true)
    (second : includes.holds (.text part) (.text smaller) = true) :
    includes.holds (.text text) (.text smaller) = true := by
  rw [includes_text_holds_iff] at first second ⊢
  exact second.trans first

/-! ## Inclusion and disjointness -/

/-- For arrays, membership is inclusion of the values that are looked for, and its contrary is
disjointness from them, up to exact equality: inclusion is transitive, what is disjoint from a
list is disjoint from what that list includes, both hold of the empty list only, both can fail
for two values or more only, and neither depends on order and repetition. For a single value, as
for texts, one is the negation of the other. Inclusion of texts is reflexive and transitive.
Nothing else includes or excludes anything. -/
theorem membership_is_inclusion_and_disjointness :
    (∀ value other, ¬ MayHold value other →
      includes.holds value other = false ∧ excludes.holds value other = false) ∧
    (∀ value other, MayHold value other → (∀ needles, other ≠ .array needles) →
      excludes.holds value other = !includes.holds value other) ∧
    (∀ items other,
      (includes.holds (.array items) other = true ↔
        ∀ needle ∈ other.needles, ∃ item ∈ items, item.exactly needle = true) ∧
      (excludes.holds (.array items) other = true ↔
        ∀ needle ∈ other.needles, ∀ item ∈ items, item.exactly needle = false)) ∧
    (∀ items needles,
      (includes.holds (.array items) (.array needles) = true ∧
        excludes.holds (.array items) (.array needles) = true ↔ needles = []) ∧
      (includes.holds (.array items) (.array needles) = false →
        excludes.holds (.array items) (.array needles) = false → 2 ≤ needles.length)) ∧
    (∀ items others third, includes.holds (.array others) third = true →
      (includes.holds (.array items) (.array others) = true →
        includes.holds (.array items) third = true) ∧
      (excludes.holds (.array items) (.array others) = true →
        excludes.holds (.array items) third = true)) ∧
    (∀ items sameItems other sameOther, (∀ item, item ∈ items ↔ item ∈ sameItems) →
      (∀ needle, needle ∈ AttributeValue.needles other ↔ needle ∈ sameOther.needles) →
      ∀ operator ∈ [includes, excludes],
        operator.holds (.array items) other = operator.holds (.array sameItems) sameOther) ∧
    (∀ text, includes.holds (.text text) (.text text) = true) ∧
    ∀ text part smaller, includes.holds (.text text) (.text part) = true →
      includes.holds (.text part) (.text smaller) = true →
      includes.holds (.text text) (.text smaller) = true := by
  refine ⟨fun _ _ => membership_fails_unless_mayHold, fun _ _ => excludes_holds_eq_not,
    fun items other => ⟨?_, ?_⟩,
    fun items needles => ⟨both_hold_iff_nil items needles, two_needles_of_both_fail⟩,
    fun _ _ _ second => ⟨fun first => includes_array_trans first second,
      fun disjoint => excludes_array_of_includes disjoint second⟩,
    fun _ _ _ _ => membership_of_same_members, includes_text_refl,
    fun _ _ _ => includes_text_trans⟩
  · simp only [includes_array_holds_iff, hasItem_iff]
  · simp only [excludes_array_holds_iff, hasItem, List.any_eq_false, Bool.not_eq_true]

theorem membership_is_inclusion_and_disjointness_colours :
    let red : AttributeValue := .text "red"
    let blue : AttributeValue := .text "blue"
    let green : AttributeValue := .text "green"
    (¬ MayHold (.integer 3) (.integer 3) ∧ includes.holds (.integer 3) (.integer 3) = false ∧
      excludes.holds (.integer 3) (.integer 3) = false) ∧
    (MayHold (.array [red, blue]) green ∧ excludes.holds (.array [red, blue]) green = true ∧
      includes.holds (.array [red, blue]) green = false) ∧
    (includes.holds (.array [red, blue]) (.array [red, green]) = false ∧
      excludes.holds (.array [red, blue]) (.array [red, green]) = false ∧
      2 ≤ [red, green].length) ∧
    (includes.holds (.array [blue, red]) (.array [blue]) = true ∧
      includes.holds (.array [red, blue, green]) (.array [blue]) = true) ∧
    (excludes.holds (.array [green]) (.array [blue, red]) = true ∧
      excludes.holds (.array [green]) (.array [blue]) = true) ∧
    includes.holds (.array [red, blue, blue]) (.array [blue, red, blue]) =
      includes.holds (.array [blue, red]) (.array [red, blue]) ∧
    includes.holds (.text "Theodore") (.text "odor") = true ∧
    includes.holds (.text "odor") (.text "do") = true ∧
    includes.holds (.text "Theodore") (.text "do") = true := by
  intro red blue green
  obtain ⟨unsupported, single, _, lists, through, alike, _, texts⟩ :=
    membership_is_inclusion_and_disjointness
  have mayNot : ¬ MayHold (.integer 3) (.integer 3) := by rintro ⟨⟩
  have mayHold : MayHold (.array [red, blue]) green := .items _ _
  have notGreen : includes.holds (.array [red, blue]) green = false := by decide +kernel
  have negated := single _ _ mayHold (by simp [green])
  rw [notGreen] at negated
  have notIncluded : includes.holds (.array [red, blue]) (.array [red, green]) = false := by
    decide +kernel
  have notExcluded : excludes.holds (.array [red, blue]) (.array [red, green]) = false := by
    decide +kernel
  have hasBlue : includes.holds (.array [blue, red]) (.array [blue]) = true := by decide +kernel
  have hasBoth : includes.holds (.array [red, blue, green]) (.array [blue, red]) = true := by
    decide +kernel
  have hasNeither : excludes.holds (.array [green]) (.array [blue, red]) = true := by
    decide +kernel
  have part : includes.holds (.text "Theodore") (.text "odor") = true := by decide +kernel
  have smaller : includes.holds (.text "odor") (.text "do") = true := by decide +kernel
  have members (item : AttributeValue) : item ∈ [red, blue, blue] ↔ item ∈ [blue, red] := by
    simp [or_comm]
  have wanted (needle : AttributeValue) :
      needle ∈ (AttributeValue.array [blue, red, blue]).needles ↔
        needle ∈ (AttributeValue.array [red, blue]).needles := by
    simp [AttributeValue.needles, or_comm]
  exact ⟨⟨mayNot, unsupported _ _ mayNot⟩, ⟨mayHold, negated, notGreen⟩,
    ⟨notIncluded, notExcluded, (lists _ _).2 notIncluded notExcluded⟩,
    ⟨hasBlue, (through _ _ _ hasBlue).1 hasBoth⟩,
    ⟨hasNeither, (through _ _ _ hasBlue).2 hasNeither⟩,
    alike _ _ _ _ members wanted includes (by simp), part, smaller, texts _ _ _ part smaller⟩

end Operator

end Sociogram
