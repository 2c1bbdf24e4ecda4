import Sociogram.Json.Text
import Sociogram.Proofs.Json.Value

/-!
Values that are written and read again. The text of a finite number is read as a finite number,
which is mostly the number itself; null stands for the others, and nothing else in a value
changes.
-/

namespace Sociogram

/-! ## Numbers -/

namespace JsonText

theorem isBlank_of_isDigit {first : Char} (digit : first.isDigit = true) :
    isBlank first = false := by
  have different : ∀ other : Char, other.isDigit = false → first ≠ other := by
    rintro other notDigit rfl
    simp [digit] at notDigit
  simp [isBlank, different]

theorem skipBlanks_cons {first : Char} (notBlank : isBlank first = false) (later : List Char) :
    skipBlanks (first :: later) = first :: later :=
  List.dropWhile_cons_of_neg (by simp [notBlank])

theorem scanValue_number {unsigned : List Char} {negative : Bool} {document : Document}
    (spells : Spells unsigned negative document) (fuel : Nat) {rest : List Char}
    (ends : EndsNumber rest) :
    scanValue (fuel + 1) ((if negative then ['-'] else []) ++ unsigned ++ rest) =
      (document, some rest) := by
  cases negative with
  | true => exact spells.scanned rest ends
  | false =>
      obtain ⟨first, starts, digit⟩ := spells.startsWithDigit
      obtain ⟨later, rfl⟩ := List.head?_eq_some_iff.mp starts
      have skipped := skipBlanks_cons (isBlank_of_isDigit digit) (later ++ rest)
      have scanned := spells.scanned rest ends
      simp only [scanValue, Bool.false_eq_true, if_false, List.nil_append, List.cons_append,
        skipped] at scanned ⊢
      split <;> simp_all

end JsonText

namespace Binary64

/-- The number that the text of a finite number is read as. -/
def reread (number : Binary64) : Binary64 :=
  match JsonText.scanValue 1 number.decimalChars with
  | (.float value, _) => value
  | _ => number

example : (ofInt 5).reread = ofInt 5 := by decide +kernel

/-- Digits and a power of ten that are rounded apart. -/
example : (Decimal.toBinary64 ⟨false, 5, 32⟩).reread =
    Decimal.toBinary64 ⟨false, 50000000000000004, 16⟩ := by decide +kernel

/-- The text has at most sixteen characters, and none of them is the mark of an exponent. -/
def IsPlain (number : Binary64) : Prop :=
  number.decimalChars.length ≤ 16 ∧ 'e' ∉ number.decimalChars

end Binary64

namespace JsonText

theorem floatDocument_of_isFinite {decimal : Decimal}
    (finite : decimal.toBinary64InSteps.isFinite = true) :
    floatDocument decimal = .float decimal.toBinary64InSteps :=
  if_pos finite

theorem isFinite_of_floatDocument {decimal : Decimal}
    (isFloat : (floatDocument decimal matches .float _) = true) :
    decimal.toBinary64InSteps.isFinite = true := by
  by_contra infinite
  rw [floatDocument, if_neg infinite] at isFloat
  simp at isFloat

/-- The largest finite number is not out of range, although it is rounded. -/
theorem scanValue_largest : ∀ negative,
    ((scanValue 1 (Binary64.ofMagnitudePattern negative Decimal.largestPattern).decimalChars).1
      matches .float _) = true := by
  decide +kernel

/-- The text of a finite number is that of its sign and of digits, and it is never out of range.
With few digits and without an exponent it is read as the number. -/
theorem spells_float {number : Binary64} (finite : number.isFinite = true) :
    number.reread.isFinite = true ∧ (number.IsPlain → number.reread = number) ∧
    ∃ unsigned, number.decimalChars = (if number.negative then ['-'] else []) ++ unsigned ∧
      Spells unsigned number.negative (.float number.reread) := by
  obtain ⟨unsigned, decimal, characters, spells, inRange, nearest⟩ := exists_unsigned finite
  have scansValue : scanValue 1 number.decimalChars = (floatDocument decimal, some []) := by
    have nothing : EndsNumber [] := by simp [EndsNumber]
    have scanned := scanValue_number spells 0 nothing
    rwa [List.append_nil, ← characters] at scanned
  have isFinite : decimal.toBinary64InSteps.isFinite = true := by
    -- The decimal of the largest number may be past the range, so that number is evaluated.
    have pattern : number.magnitudePattern < Binary64.infinitePattern := of_decide_eq_true finite
    rcases Nat.lt_or_eq_of_le (Nat.le_sub_one_of_lt pattern) with below | largest
    · exact (inRange below).isFinite
    · have isFloat := scanValue_largest number.negative
      have same : number.magnitudePattern = Decimal.largestPattern := largest
      rw [← same, number.ofMagnitudePattern_self, scansValue] at isFloat
      exact isFinite_of_floatDocument isFloat
  have document := floatDocument_of_isFinite isFinite
  have value : number.reread = decimal.toBinary64InSteps := by
    rw [Binary64.reread, scansValue, document]
  refine ⟨value ▸ isFinite, fun plain => ?_, unsigned, characters, ?_⟩
  · rw [Binary64.IsPlain, characters, List.length_append, List.mem_append, not_or] at plain
    obtain ⟨small, reads⟩ := nearest (by omega) plain.2.2
    rw [value, small.toBinary64InSteps_eq, reads]
  · rwa [value, ← document]

end JsonText

/-! ## Values -/

namespace Json

mutual

def reread : Json → Json
  | float value => if value.isFinite then float value.reread else null
  | array items => array (rereadItems items)
  | object members => object (rereadMembers members)
  | other => other
termination_by structural value => value

def rereadItems : List Json → List Json
  | [] => []
  | item :: rest => item.reread :: rereadItems rest
termination_by structural items => items

def rereadMembers : List (String × Json) → List (String × Json)
  | [] => []
  | (key, value) :: rest => (key, value.reread) :: rereadMembers rest
termination_by structural members => members

end

theorem rereadItems_eq_map (items : List Json) : rereadItems items = items.map reread := by
  induction items with
  | nil => rfl
  | cons item rest induction => rw [rereadItems, induction, List.map_cons]

theorem rereadMembers_eq_map (members : List (String × Json)) :
    rereadMembers members = members.map fun (key, value) => (key, value.reread) := by
  induction members with
  | nil => rfl
  | cons member rest induction => rw [rereadMembers, induction, List.map_cons]

theorem depth_reread_le {value : Json} {limit : Nat} :
    value.reread.depth ≤ limit ↔ value.depth ≤ limit := by
  induction value using inductionOn generalizing limit with
  | null | boolean | integer | text => simp [reread]
  | float value =>
      rw [reread]
      split <;> simp [depth]
  | array items induction =>
      rw [reread, rereadItems_eq_map]
      cases limit with
      | zero => simp [depth]
      | succ below =>
          rw [depth_array_le, depth_array_le, List.forall_mem_map]
          exact forall₂_congr fun item member => induction item member
  | object members induction =>
      rw [reread, rereadMembers_eq_map]
      cases limit with
      | zero => simp [depth]
      | succ below =>
          rw [depth_object_le, depth_object_le, List.forall_mem_map]
          exact forall₂_congr fun member inside => induction member inside

theorem floatIsFinite_reread (value : Json) : value.reread.Throughout floatIsFinite := by
  induction value using inductionOn with
  | null | boolean | integer | text => simp [reread, Throughout, parts, floatIsFinite]
  | float value =>
      rw [reread]
      split
      · next finite =>
          have rereadFinite := (JsonText.spells_float finite).1
          simpa [Throughout, parts, floatIsFinite] using rereadFinite
      · simp [Throughout, parts, floatIsFinite]
  | array items induction =>
      rw [reread, rereadItems_eq_map, throughout_array]
      exact ⟨trivial, List.forall_mem_map.mpr induction⟩
  | object members induction =>
      rw [reread, rereadMembers_eq_map, throughout_object]
      exact ⟨trivial, List.forall_mem_map.mpr induction⟩

/-- If a number is finite, then it is read back from its text. -/
def floatIsReadBack : Json → Prop
  | float number => number.isFinite = true → number.reread = number
  | _ => True

theorem floatIsReadBack_of_isPlain {number : Binary64} (plain : number.IsPlain) :
    floatIsReadBack (float number) :=
  fun finite => (JsonText.spells_float finite).2.1 plain

theorem onlyNumbersFail_floatIsReadBack : OnlyNumbersFail floatIsReadBack := by
  constructor <;> simp [floatIsReadBack]

instance : DecidablePred floatIsReadBack
  | .float number =>
      inferInstanceAs (Decidable (number.isFinite = true → number.reread = number))
  | .null | .boolean _ | .integer _ | .text _ | .array _ | .object _ => .isTrue trivial

end Json

end Sociogram
