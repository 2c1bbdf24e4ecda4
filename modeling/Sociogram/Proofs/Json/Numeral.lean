import Sociogram.Json.Numeral
import Sociogram.Json.Written
import Sociogram.Proofs.Number.InSteps

/-!
Written numbers are scanned back. An integer is scanned as itself; the text of a finite number is
scanned as a finite number, however its digits are laid out.
-/

namespace Sociogram

/-! ## Runs of digits -/

theorem takeWhile_append_of_stop {Item : Type} {test : Item → Bool} {run rest : List Item}
    (all : ∀ item ∈ run, test item = true) (stops : ∀ item ∈ rest.head?, test item = false) :
    (run ++ rest).takeWhile test = run ∧ (run ++ rest).dropWhile test = rest := by
  rw [List.takeWhile_append_of_pos all, List.dropWhile_append_of_pos all]
  cases rest with
  | nil => simp
  | cons first later =>
      have stop := stops first rfl
      simp [stop]

theorem head?_toDigits_ne_zero {number : Nat} (nonzero : number ≠ 0) :
    (Nat.toDigits 10 number).head? ≠ some '0' := by
  induction number using Nat.strongRecOn with
  | ind number induction =>
      rw [Nat.toDigits_eq_if (by decide)]
      split
      · simpa using nonzero
      · next large =>
          have quotient : number / 10 ≠ 0 := by omega
          rw [List.head?_append_of_ne_nil _ Nat.toDigits_ne_nil]
          exact induction (number / 10) (by omega) quotient

theorem isDigit_of_mem_decimal {number : Nat} {character : Char}
    (member : character ∈ Nat.toDigits 10 number) : character.isDigit = true :=
  Nat.isDigit_of_mem_toDigits (by decide) (by decide) member

namespace JsonText

/-- Digits before a point: at least one, and no zero before another. -/
structure IsWhole (digits : List Char) : Prop where
  nonempty : digits ≠ []
  allDigits : ∀ character ∈ digits, character.isDigit = true
  noLeadingZero : digits = ['0'] ∨ digits.head? ≠ some '0'

theorem isDigit_of_mem_zero : ∀ character ∈ ['0'], character.isDigit = true :=
  List.forall_mem_singleton.mpr rfl

theorem isWhole_zero : IsWhole ['0'] := ⟨List.cons_ne_nil _ _, isDigit_of_mem_zero, .inl rfl⟩

theorem isWhole_toDigits (number : Nat) : IsWhole (Nat.toDigits 10 number) where
  nonempty := Nat.toDigits_ne_nil
  allDigits := fun _ member => isDigit_of_mem_decimal member
  noLeadingZero := by
    rcases Nat.eq_zero_or_pos number with zero | positive
    · exact .inl (by rw [zero, Nat.toDigits_zero])
    · exact .inr (head?_toDigits_ne_zero (Nat.ne_of_gt positive))

def EndsNumber (rest : List Char) : Prop :=
  ∀ character ∈ rest.head?,
    character.isDigit = false ∧ character ≠ '.' ∧ character ≠ 'e' ∧ character ≠ 'E'

theorem scanNumber_of_isWhole (negative : Bool) {whole : List Char} (isWhole : IsWhole whole)
    {rest : List Char} (stops : ∀ character ∈ rest.head?, character.isDigit = false) :
    scanNumber negative (whole ++ rest) = scanFraction negative whole rest := by
  obtain ⟨takes, drops⟩ := takeWhile_append_of_stop isWhole.allDigits stops
  simp only [scanNumber, takes, drops]
  split
  · exact absurd rfl isWhole.nonempty
  · have bad := isWhole.noLeadingZero
    simp at bad
  · rfl

/-! ## Integers -/

theorem scanFraction_of_ends (negative : Bool) (whole : List Char) {rest : List Char}
    (ends : EndsNumber rest) :
    scanFraction negative whole rest =
      ((integerDocument negative (Nat.ofDigitChars 10 whole 0)).getD
        (floatDocument (decimalOf negative whole [] 0)), some rest) := by
  cases rest with
  | nil => rfl
  | cons first later =>
      obtain ⟨_, notPoint, notLower, notUpper⟩ := ends first rfl
      simp [scanFraction, notPoint, notLower, notUpper]

/-- The characters of a number after its sign, and what they are scanned as. -/
structure Spells (unsigned : List Char) (negative : Bool) (document : Document) : Prop where
  startsWithDigit : ∃ first ∈ unsigned.head?, first.isDigit = true
  scanned : ∀ rest, EndsNumber rest →
    scanNumber negative (unsigned ++ rest) = (document, some rest)

theorem startsWithDigit_append {digits : List Char} (nonempty : digits ≠ [])
    (allDigits : ∀ character ∈ digits, character.isDigit = true) (more : List Char) :
    ∃ first ∈ (digits ++ more).head?, first.isDigit = true := by
  cases digits with
  | nil => exact absurd rfl nonempty
  | cons first later => exact ⟨first, rfl, allDigits first List.mem_cons_self⟩

def IsReadInteger (value : Int) : Prop := -(2 ^ 63 : Int) ≤ value ∧ value < 2 ^ 64

theorem spells_integer {value : Int} (inRange : IsReadInteger value) :
    Spells (Nat.toDigits 10 value.natAbs) (decide (value < 0)) (.integer value) where
  startsWithDigit := by
    have isWhole := isWhole_toDigits value.natAbs
    simpa using startsWithDigit_append isWhole.nonempty isWhole.allDigits []
  scanned := by
    intro rest ends
    obtain ⟨lower, upper⟩ := inRange
    rw [scanNumber_of_isWhole _ (isWhole_toDigits _) fun character member =>
      (ends character member).1, scanFraction_of_ends _ _ ends, Nat.ofDigitChars_ten_toDigits]
    have isInteger : integerDocument (decide (value < 0)) value.natAbs = some (.integer value) := by
      simp only [integerDocument, Nat.pow_eq, decide_eq_true_eq]
      split
      · rw [if_pos (by omega)]
        congr 2
        omega
      · rw [if_pos (by omega)]
        congr 2
        omega
    rw [isInteger, Option.getD_some]

theorem integerChars_eq (value : Int) :
    Json.integerChars value =
      (if decide (value < 0) then ['-'] else []) ++ Nat.toDigits 10 value.natAbs := by
  rw [Json.integerChars]
  by_cases negative : value < 0 <;> simp [negative]

/-! ## Decimals -/

def exponentChars (power : Int) : List Char :=
  (if power < 0 then '-' else '+') :: Nat.toDigits 10 power.natAbs

theorem scanExponent_exponentChars (negative : Bool) (whole fraction : List Char) (power : Int)
    {rest : List Char} (ends : EndsNumber rest) :
    scanExponent negative whole fraction (exponentChars power ++ rest) =
      (floatDocument (decimalOf negative whole fraction power), some rest) := by
  obtain ⟨takes, drops⟩ := takeWhile_append_of_stop
    (fun _ (member : _ ∈ Nat.toDigits 10 power.natAbs) => isDigit_of_mem_decimal member)
    fun character member => (ends character member).1
  by_cases below : power < 0
  · simp [exponentChars, scanExponent, below, takes, drops, Nat.toDigits_ne_nil, abs_of_neg below]
  · have atLeast : 0 ≤ power := Int.not_lt.mp below
    simp [exponentChars, scanExponent, below, takes, drops, Nat.toDigits_ne_nil,
      abs_of_nonneg atLeast]

section

variable (negative : Bool) {whole : List Char} (isWhole : IsWhole whole)

include isWhole

theorem scanNumber_exponent (power : Int) {rest : List Char} (ends : EndsNumber rest) :
    scanNumber negative (whole ++ 'e' :: (exponentChars power ++ rest)) =
      (floatDocument (decimalOf negative whole [] power), some rest) := by
  rw [scanNumber_of_isWhole negative isWhole (by simp)]
  exact scanExponent_exponentChars negative whole [] power ends

variable {fraction : List Char} (nonempty : fraction ≠ [])
  (allDigits : ∀ character ∈ fraction, character.isDigit = true)

include nonempty allDigits

theorem scanNumber_fraction {rest : List Char} (ends : EndsNumber rest) :
    scanNumber negative (whole ++ '.' :: (fraction ++ rest)) =
      (floatDocument (decimalOf negative whole fraction 0), some rest) := by
  obtain ⟨takes, drops⟩ := takeWhile_append_of_stop allDigits fun character member =>
    (ends character member).1
  rw [scanNumber_of_isWhole negative isWhole (by simp)]
  simp only [scanFraction, takes, drops, List.isEmpty_eq_false_iff.mpr nonempty]
  cases rest with
  | nil => rfl
  | cons first later =>
      obtain ⟨_, _, notLower, notUpper⟩ := ends first rfl
      simp [notLower, notUpper]

theorem scanNumber_fraction_exponent (power : Int) {rest : List Char} (ends : EndsNumber rest) :
    scanNumber negative (whole ++ '.' :: (fraction ++ 'e' :: (exponentChars power ++ rest))) =
      (floatDocument (decimalOf negative whole fraction power), some rest) := by
  have stops : ∀ character ∈ ('e' :: (exponentChars power ++ rest)).head?,
      character.isDigit = false := by simp
  obtain ⟨takes, drops⟩ := takeWhile_append_of_stop allDigits stops
  rw [scanNumber_of_isWhole negative isWhole (by simp)]
  simp only [scanFraction, takes, drops, List.isEmpty_eq_false_iff.mpr nonempty]
  exact scanExponent_exponentChars negative whole fraction power ends

end

/-! ## Significands -/

theorem mul_pow_le_ofDigitChars (digits : List Char) (significand : Nat) :
    significand * 10 ^ digits.length ≤ Nat.ofDigitChars 10 digits significand := by
  rw [Nat.ofDigitChars_eq_ofDigitChars_zero, Nat.mul_comm]
  exact Nat.le_add_right _ _

theorem ofDigitChars_lt {digits : List Char}
    (allDigits : ∀ character ∈ digits, character.isDigit = true) (significand : Nat) :
    Nat.ofDigitChars 10 digits significand < (significand + 1) * 10 ^ digits.length := by
  induction digits generalizing significand with
  | nil => simp
  | cons digit digits induction =>
      have isDigit := Char.isDigit_iff_toNat.mp (allDigits digit List.mem_cons_self)
      have later := induction (fun character member =>
        allDigits character (List.mem_cons_of_mem _ member))
        (10 * significand + (digit.toNat - '0'.toNat))
      rw [Nat.ofDigitChars_cons, List.length_cons, Nat.pow_succ', ← Nat.mul_assoc]
      refine Nat.lt_of_lt_of_le later (Nat.mul_le_mul_right _ ?_)
      have zero : '0'.toNat = 48 := rfl
      have last : '9'.toNat = 57 := rfl
      omega

theorem exists_taken (significand : Nat) (digits : List Char) :
    ∃ taken, digits = taken ++ (appendDigits significand digits).2 ∧
      (appendDigits significand digits).1 = Nat.ofDigitChars 10 taken significand := by
  induction digits generalizing significand with
  | nil => exact ⟨[], rfl, rfl⟩
  | cons digit digits induction =>
      rw [appendDigits]
      split
      · obtain ⟨taken, parts, value⟩ := induction (Nat.ofDigitChars 10 [digit] significand)
        exact ⟨digit :: taken, congrArg (digit :: ·) parts, value⟩
      · exact ⟨[], rfl, rfl⟩

theorem appendDigits_lt {significand : Nat} (bounded : significand < 2 ^ 64)
    (digits : List Char) : (appendDigits significand digits).1 < 2 ^ 64 := by
  induction digits generalizing significand with
  | nil => exact bounded
  | cons digit digits induction =>
      rw [appendDigits]
      split
      · next fits => exact induction fits
      · exact bounded

theorem appendDigits_of_lt {digits : List Char} {significand : Nat}
    (fits : Nat.ofDigitChars 10 digits significand < 2 ^ 64) :
    appendDigits significand digits = (Nat.ofDigitChars 10 digits significand, []) := by
  induction digits generalizing significand with
  | nil => rfl
  | cons digit digits induction =>
      have later := mul_pow_le_ofDigitChars digits (Nat.ofDigitChars 10 [digit] significand)
      have positive : 0 < 10 ^ digits.length := Nat.pow_pos (Nat.succ_pos 9)
      have here : Nat.ofDigitChars 10 [digit] significand < 2 ^ 64 :=
        Nat.lt_of_le_of_lt (Nat.le_trans (Nat.le_mul_of_pos_right _ positive) later) fits
      rw [appendDigits, Nat.pow_eq, if_pos here]
      exact induction fits

theorem decimalOf_of_lt {whole fraction : List Char}
    (fits : Nat.ofDigitChars 10 (whole ++ fraction) 0 < 2 ^ 64) (negative : Bool)
    (exponent : Int) :
    decimalOf negative whole fraction exponent =
      ⟨negative, Nat.ofDigitChars 10 (whole ++ fraction) 0, exponent - fraction.length⟩ := by
  rw [Nat.ofDigitChars_append] at fits ⊢
  have wholeFits : Nat.ofDigitChars 10 whole 0 < 2 ^ 64 := by
    have positive : 0 < 10 ^ fraction.length := Nat.pow_pos (Nat.succ_pos 9)
    exact Nat.lt_of_le_of_lt (Nat.le_trans (Nat.le_mul_of_pos_right _ positive)
      (mul_pow_le_ofDigitChars fraction _)) fits
  simp only [decimalOf, appendDigits_of_lt wholeFits, appendDigits_of_lt fits, List.length_nil,
    Nat.cast_zero, Int.add_zero]

section

variable {whole : List Char} (allDigits : ∀ character ∈ whole, character.isDigit = true)
  (few : whole.length ≤ 16) (negative : Bool) (fraction : List Char) (exponent : Int)

include allDigits few

/-- When all digits before the point fit, digits are left over at the end of the fraction only. -/
theorem exists_decimalOf : ∃ taken dropped, fraction = taken ++ dropped ∧
    Nat.ofDigitChars 10 (whole ++ taken) 0 < 2 ^ 64 ∧
      decimalOf negative whole fraction exponent =
        ⟨negative, Nat.ofDigitChars 10 (whole ++ taken) 0, exponent - taken.length⟩ := by
  have fits : Nat.ofDigitChars 10 whole 0 < 2 ^ 64 := by
    have below := ofDigitChars_lt allDigits 0
    have power : 10 ^ whole.length ≤ 10 ^ 16 := Nat.pow_le_pow_right (Nat.succ_pos 9) few
    omega
  obtain ⟨taken, parts, value⟩ := exists_taken (Nat.ofDigitChars 10 whole 0) fraction
  have bounded := appendDigits_lt fits fraction
  rw [value, ← Nat.ofDigitChars_append] at bounded
  refine ⟨taken, _, parts, bounded, ?_⟩
  have length : (fraction.length : Int) = taken.length +
      (appendDigits (Nat.ofDigitChars 10 whole 0) fraction).2.length := by
    conv_lhs => rw [parts, List.length_append, Nat.cast_add]
  simp only [decimalOf, appendDigits_of_lt fits, value, Nat.ofDigitChars_append,
    List.length_nil, Decimal.mk.injEq, true_and]
  omega

theorem inRange_of_noExponent : (decimalOf negative whole fraction 0).InRange := by
  obtain ⟨taken, dropped, _, bounded, equal⟩ := exists_decimalOf allDigits few negative fraction 0
  rw [equal]
  exact Decimal.inRange_of_nonpos bounded (by simp only; omega)

theorem inRange_of_below
    (below : (Decimal.toBinary64 ⟨negative, Nat.ofDigitChars 10 (whole ++ fraction) 0,
      exponent - fraction.length⟩).magnitudePattern < Decimal.largestPattern) :
    (decimalOf negative whole fraction exponent).InRange := by
  obtain ⟨taken, dropped, rfl, bounded, equal⟩ :=
    exists_decimalOf allDigits few negative fraction exponent
  rw [equal]
  refine ⟨bounded, Nat.lt_of_le_of_lt ?_ below⟩
  have shifted : exponent - taken.length =
      exponent - (taken ++ dropped).length + dropped.length := by
    rw [List.length_append]
    omega
  rw [shifted]
  have atMost := mul_pow_le_ofDigitChars dropped (Nat.ofDigitChars 10 (whole ++ taken) 0)
  rw [← Nat.ofDigitChars_append, List.append_assoc] at atMost
  exact Decimal.toBinary64_magnitudePattern_le atMost _ _

end

/-! ## Layout of the digits -/

theorem isDigit_of_mem_zeros (zeros : Nat) :
    ∀ character ∈ List.replicate zeros '0', character.isDigit = true := by
  intro character member
  rw [List.eq_of_mem_replicate member]
  decide

/-- Digits of a decimal around a point. -/
structure AroundPoint (digits : List Char) (exponent : Int) (whole fraction : List Char) :
    Prop where
  isWhole : IsWhole whole
  few : whole.length ≤ 16
  nonempty : fraction ≠ []
  allDigits : ∀ character ∈ fraction, character.isDigit = true
  value (negative : Bool) :
    Decimal.toBinary64 ⟨negative, Nat.ofDigitChars 10 (whole ++ fraction) 0, -fraction.length⟩ =
      Decimal.toBinary64 ⟨negative, Nat.ofDigitChars 10 digits 0, exponent⟩

/-- The characters of a number after its sign, and the decimal that they are scanned as. That
decimal is in range, the largest number perhaps aside, and the number is nearest to it, if there
are few digits and no exponent. -/
structure SpellsDecimal (unsigned : List Char) (negative : Bool) (decimal : Decimal)
    (number : Binary64) : Prop where
  spells : Spells unsigned negative (floatDocument decimal)
  inRange : number.magnitudePattern < Decimal.largestPattern → decimal.InRange
  nearest : unsigned.length ≤ 16 → 'e' ∉ unsigned →
    decimal.IsSmall ∧ decimal.toBinary64 = number

theorem AroundPoint.spellsDecimal {digits whole fraction : List Char} {exponent : Int}
    (around : AroundPoint digits exponent whole fraction) (negative : Bool) :
    SpellsDecimal (whole ++ '.' :: fraction) negative (decimalOf negative whole fraction 0)
      (Decimal.toBinary64 ⟨negative, Nat.ofDigitChars 10 digits 0, exponent⟩) where
  spells.startsWithDigit :=
    startsWithDigit_append around.isWhole.nonempty around.isWhole.allDigits _
  spells.scanned := fun rest ends => by
    rw [List.append_assoc, List.cons_append]
    exact scanNumber_fraction negative around.isWhole around.nonempty around.allDigits ends
  inRange := fun _ => inRange_of_noExponent around.isWhole.allDigits around.few negative fraction
  nearest := by
    intro short _
    have length : whole.length + fraction.length ≤ 15 := by
      rw [List.length_append, List.length_cons] at short
      omega
    have allDigits : ∀ character ∈ whole ++ fraction, character.isDigit = true :=
      List.forall_mem_append.mpr ⟨around.isWhole.allDigits, around.allDigits⟩
    have below : Nat.ofDigitChars 10 (whole ++ fraction) 0 < 10 ^ 15 := by
      have power : 10 ^ (whole ++ fraction).length ≤ 10 ^ 15 := by
        rw [List.length_append]
        exact Nat.pow_le_pow_right (Nat.succ_pos 9) length
      have fits := ofDigitChars_lt allDigits 0
      omega
    rw [decimalOf_of_lt (Nat.lt_trans below (by decide)), Int.zero_sub]
    refine ⟨⟨Nat.le_of_lt (Nat.lt_trans below (by decide)), ?_⟩, around.value negative⟩
    simp only [Int.natAbs_neg, Int.natAbs_natCast]
    omega

section

variable {digits : List Char} (isWhole : IsWhole digits)

include isWhole

theorem scanNumber_scientific (negative : Bool) (power : Int) :
    ∃ first fraction, digits = first :: fraction ∧ ∀ rest, EndsNumber rest →
      scanNumber negative (Binary64.scientific digits power ++ rest) =
        (floatDocument (decimalOf negative [first] fraction power), some rest) := by
  cases digits with
  | nil => exact absurd rfl isWhole.nonempty
  | cons first fraction =>
      have whole : IsWhole [first] :=
        ⟨List.cons_ne_nil _ _, fun character member =>
          isWhole.allDigits character (by simp_all), by simp [em]⟩
      refine ⟨first, fraction, rfl, fun rest ends => ?_⟩
      cases fraction with
      | nil =>
          have scanned := scanNumber_exponent negative whole power ends
          simpa [Binary64.scientific, exponentChars] using scanned
      | cons second fraction =>
          have scanned := scanNumber_fraction_exponent negative whole
            (List.cons_ne_nil second fraction)
            (fun character member => isWhole.allDigits character (List.mem_cons_of_mem _ member))
            power ends
          simpa [Binary64.scientific, exponentChars] using scanned

theorem exists_scientific (negative : Bool) (exponent : Int) :
    ∃ decimal, SpellsDecimal (Binary64.scientific digits (digits.length + exponent - 1)) negative
      decimal (Decimal.toBinary64 ⟨negative, Nat.ofDigitChars 10 digits 0, exponent⟩) := by
  obtain ⟨first, fraction, rfl, scanned⟩ :=
    scanNumber_scientific isWhole negative (digits.length + exponent - 1)
  have firstIsDigit := isWhole.allDigits first List.mem_cons_self
  refine ⟨_, ⟨⟨first, ?_, firstIsDigit⟩, scanned⟩, fun below => ?_, fun _ plain => ?_⟩
  · cases fraction <;> rfl
  · refine inRange_of_below (List.forall_mem_singleton.mpr firstIsDigit) (Nat.le_add_left 1 15)
      negative fraction _ ?_
    have same : ((first :: fraction).length : Int) + exponent - 1 - fraction.length = exponent := by
      rw [List.length_cons]
      omega
    rwa [same]
  · cases fraction <;> simp [Binary64.scientific] at plain

variable (head : digits.head? ≠ some '0')

include head

theorem isWhole_filled (zeros : Nat) : IsWhole (digits ++ List.replicate zeros '0') where
  nonempty := List.append_ne_nil_of_left_ne_nil isWhole.nonempty _
  allDigits := fun character member =>
    (List.mem_append.mp member).elim (isWhole.allDigits character)
      (isDigit_of_mem_zeros zeros character)
  noLeadingZero := .inr (by rwa [List.head?_append_of_ne_nil _ isWhole.nonempty])

theorem isWhole_take {point : Nat} (positive : 0 < point) : IsWhole (digits.take point) where
  nonempty := by simp [isWhole.nonempty, Nat.ne_of_gt positive]
  allDigits := fun character member => isWhole.allDigits character (List.mem_of_mem_take member)
  noLeadingZero := .inr (by rwa [List.head?_take, if_neg (Nat.ne_of_gt positive)])

theorem aroundPoint_filled {exponent : Int} (filled : 0 ≤ exponent)
    (atMost : digits.length + exponent ≤ 16) :
    AroundPoint digits exponent (digits ++ List.replicate exponent.toNat '0') ['0'] where
  isWhole := isWhole_filled isWhole head _
  few := by
    rw [List.length_append, List.length_replicate]
    omega
  nonempty := List.cons_ne_nil _ _
  allDigits := isDigit_of_mem_zero
  value := fun negative => by
    have zeros : List.replicate exponent.toNat '0' ++ ['0'] =
        List.replicate (exponent.toNat + 1) '0' := by
      rw [List.replicate_succ']
    have shifted : -(['0'].length : Int) + (exponent.toNat + 1 : Nat) = exponent := by
      rw [List.length_singleton]
      omega
    rw [List.append_assoc, zeros, Nat.ofDigitChars_append, Nat.ofDigitChars_replicate_zero,
      Nat.mul_comm, Decimal.toBinary64_mul_pow, shifted]

theorem aroundPoint_inside {exponent : Int} (negativeExponent : exponent < 0)
    (inside : 0 < digits.length + exponent) (atMost : digits.length + exponent ≤ 16) :
    let point := (digits.length + exponent).toNat
    AroundPoint digits exponent (digits.take point) (digits.drop point) where
  isWhole := isWhole_take isWhole head (by omega)
  few := by
    rw [List.length_take]
    omega
  nonempty := by
    rw [Ne, List.drop_eq_nil_iff]
    omega
  allDigits := fun character member => isWhole.allDigits character (List.mem_of_mem_drop member)
  value := fun negative => by
    have fraction : -((digits.drop (digits.length + exponent).toNat).length : Int) = exponent := by
      rw [List.length_drop]
      omega
    rw [List.take_append_drop, fraction]

omit head in
theorem aroundPoint_shifted {exponent : Int} (shifted : digits.length + exponent ≤ 0) :
    let zeros := (-(digits.length + exponent)).toNat
    AroundPoint digits exponent ['0'] (List.replicate zeros '0' ++ digits) where
  isWhole := isWhole_zero
  few := by decide
  nonempty := List.append_ne_nil_of_right_ne_nil _ isWhole.nonempty
  allDigits := fun character member =>
    (List.mem_append.mp member).elim (isDigit_of_mem_zeros _ character)
      (isWhole.allDigits character)
  value := fun negative => by
    let zeros := (-(digits.length + exponent)).toNat
    have leading : ['0'] ++ (List.replicate zeros '0' ++ digits) =
        List.replicate (zeros + 1) '0' ++ digits := rfl
    have fraction : -((List.replicate zeros '0' ++ digits).length : Int) = exponent := by
      rw [List.length_append, List.length_replicate]
      omega
    rw [leading, fraction, Nat.ofDigitChars_append, Nat.ofDigitChars_replicate_zero, Nat.mul_zero]

theorem exists_layout (negative : Bool) (exponent : Int) :
    ∃ decimal, SpellsDecimal (Binary64.layout digits exponent) negative decimal
      (Decimal.toBinary64 ⟨negative, Nat.ofDigitChars 10 digits 0, exponent⟩) := by
  simp only [Binary64.layout, Bool.and_eq_true, decide_eq_true_eq]
  split
  · next filled =>
      exact ⟨_, (aroundPoint_filled isWhole head filled.1 filled.2).spellsDecimal negative⟩
  · split
    · next notFilled inside =>
        exact ⟨_, (aroundPoint_inside isWhole head (by omega) inside.1 inside.2).spellsDecimal
          negative⟩
    · split
      · next shifted => exact ⟨_, (aroundPoint_shifted isWhole shifted.2).spellsDecimal negative⟩
      · exact exists_scientific isWhole negative exponent

end

/-! ## Floating-point numbers -/

theorem withoutFinalZeros_spec (digits : List Char) (exponent : Int) :
    ∃ zeros : Nat,
      digits = (Binary64.withoutFinalZeros digits exponent).1 ++ List.replicate zeros '0' ∧
        (Binary64.withoutFinalZeros digits exponent).2 = exponent + zeros := by
  let final := digits.reverse.takeWhile (· == '0')
  let front := (digits.reverse.dropWhile (· == '0')).reverse
  have parts : digits = front ++ final.reverse := by
    rw [← List.reverse_append, List.takeWhile_append_dropWhile, List.reverse_reverse]
  have zeros : final.reverse = List.replicate final.length '0' := by
    refine List.eq_replicate_iff.mpr ⟨List.length_reverse, fun character member => ?_⟩
    exact eq_of_beq (List.all_eq_true.mp List.all_takeWhile character (List.mem_reverse.mp member))
  have takeFront : ∀ whole : List Char, whole = front ++ final.reverse →
      whole.take (whole.length - final.length) = front := by
    rintro whole rfl
    simp
  refine ⟨final.length, ?_, rfl⟩
  rw [show (Binary64.withoutFinalZeros digits exponent).1 = front from takeFront digits parts,
    ← zeros]
  exact parts

theorem withoutFinalZeros_toDigits {digits : Nat} (nonzero : digits ≠ 0) (exponent : Int) :
    let kept := Binary64.withoutFinalZeros (Nat.toDigits 10 digits) exponent
    IsWhole kept.1 ∧ kept.1.head? ≠ some '0' ∧ ∀ negative,
      Decimal.toBinary64 ⟨negative, Nat.ofDigitChars 10 kept.1 0, kept.2⟩ =
        Decimal.toBinary64 ⟨negative, digits, exponent⟩ := by
  intro kept
  obtain ⟨zeros, parts, shifted⟩ :
      ∃ zeros : Nat, Nat.toDigits 10 digits = kept.1 ++ List.replicate zeros '0' ∧
        kept.2 = exponent + zeros := withoutFinalZeros_spec (Nat.toDigits 10 digits) exponent
  have head := head?_toDigits_ne_zero nonzero
  have nonempty : kept.1 ≠ [] := by
    intro empty
    rw [empty, List.nil_append] at parts
    cases zeros with
    | zero => exact Nat.toDigits_ne_nil parts
    | succ zeros => exact head (by rw [parts, List.replicate_succ, List.head?_cons])
  have keptHead : kept.1.head? ≠ some '0' := by
    rwa [parts, List.head?_append_of_ne_nil _ nonempty] at head
  have allDigits : ∀ character ∈ kept.1, character.isDigit = true := by
    intro character member
    have inside : character ∈ Nat.toDigits 10 digits := parts ▸ List.mem_append_left _ member
    exact isDigit_of_mem_decimal inside
  refine ⟨⟨nonempty, allDigits, .inr keptHead⟩, keptHead, fun negative => ?_⟩
  have value : digits = Nat.ofDigitChars 10 kept.1 0 * 10 ^ zeros := by
    have itself : Nat.ofDigitChars 10 (Nat.toDigits 10 digits) 0 = digits :=
      Nat.ofDigitChars_ten_toDigits
    rwa [parts, Nat.ofDigitChars_append, Nat.ofDigitChars_replicate_zero, Nat.mul_comm,
      eq_comm] at itself
  rw [shifted, ← Decimal.toBinary64_mul_pow, ← value]

theorem aroundPoint_zero : AroundPoint ['0'] 0 ['0'] ['0'] where
  isWhole := isWhole_zero
  few := by decide
  nonempty := List.cons_ne_nil _ _
  allDigits := isDigit_of_mem_zero
  value := fun negative => (if_pos rfl).trans (if_pos rfl).symm

theorem exists_unsigned {number : Binary64} (finite : number.isFinite = true) :
    ∃ unsigned decimal,
      number.decimalChars = (if number.negative then ['-'] else []) ++ unsigned ∧
        SpellsDecimal unsigned number.negative decimal number := by
  by_cases zero : number.magnitudePattern = 0
  · have itself := number.ofMagnitudePattern_self
    rw [zero] at itself
    have spells := aroundPoint_zero.spellsDecimal number.negative
    rw [show Decimal.toBinary64 ⟨number.negative, Nat.ofDigitChars 10 ['0'] 0, 0⟩ = number from
      itself] at spells
    exact ⟨_, _, by simp only [Binary64.decimalChars, if_pos zero]; rfl, spells⟩
  · obtain ⟨isWhole, head, value⟩ := withoutFinalZeros_toDigits
      (Binary64.digits_shortestDecimal_ne_zero finite zero) number.shortestDecimal.exponent
    obtain ⟨decimal, spells⟩ := exists_layout isWhole head number.negative _
    rw [value, Binary64.shortestDecimal_reads finite] at spells
    exact ⟨_, decimal, by simp only [Binary64.decimalChars, if_neg zero], spells⟩

end JsonText

end Sociogram
