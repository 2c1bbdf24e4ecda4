import Sociogram.Document.Basic

/-!
Numbers and words of JSON, scanned into documents.
-/

namespace Sociogram.JsonText

/-! ## Numbers and words -/

abbrev Scanned := Document × Option (List Char)

def cutOff (reading skipping : TextFault) : Scanned := (.cut reading skipping, none)

def scanWord (value : Document) : List Char → List Char → Scanned
  | [], rest => (value, some rest)
  | _ :: _, [] => cutOff .endInValue .endInValue
  | wanted :: word, character :: rest =>
      if wanted = character then scanWord value word rest
      else cutOff .wordExpected .wordExpected

/-- An integer of up to 64 bits stays one; zero with a sign does not. -/
def integerDocument (negative : Bool) (digits : Nat) : Option Document :=
  if negative then
    if digits ≠ 0 ∧ digits ≤ Nat.pow 2 63 then some (.integer (-(digits : Int))) else none
  else if digits < Nat.pow 2 64 then some (.integer digits)
  else none

/-- Put digits after a significand while it stays below `2 ^ 64`. The others are left over. -/
def appendDigits (significand : Nat) : List Char → Nat × List Char
  | [] => (significand, [])
  | digit :: digits =>
      let longer := Nat.ofDigitChars 10 [digit] significand
      if longer < Nat.pow 2 64 then appendDigits longer digits
      else (significand, digit :: digits)

/-- The decimal that is read from digits before and after the point. Digits before the point that
are left over still count for the exponent. -/
def decimalOf (negative : Bool) (whole fraction : List Char) (exponent : Int) : Decimal :=
  let (leading, beyond) := appendDigits 0 whole
  let (significand, dropped) := appendDigits leading fraction
  ⟨negative, significand, exponent + beyond.length + dropped.length - fraction.length⟩

def floatDocument (decimal : Decimal) : Document :=
  let value := decimal.toBinary64InSteps
  if value.isFinite then .float value
  else .faulty (.malformed .numberOutOfRange) none

def missingDigit (rest : List Char) : Scanned :=
  match rest with
  | [] => cutOff .endInValue .invalidNumber
  | _ => cutOff .invalidNumber .invalidNumber

def scanExponent (negative : Bool) (whole fraction : List Char) (characters : List Char) :
    Scanned :=
  let (negativeExponent, unsigned) :=
    match characters with
    | '+' :: rest => (false, rest)
    | '-' :: rest => (true, rest)
    | rest => (false, rest)
  let written := unsigned.takeWhile Char.isDigit
  let rest := unsigned.dropWhile Char.isDigit
  if written.isEmpty then missingDigit rest
  else
    let magnitude : Int := Nat.ofDigitChars 10 written 0
    let exponent := if negativeExponent then -magnitude else magnitude
    (floatDocument (decimalOf negative whole fraction exponent), some rest)

def scanFraction (negative : Bool) (whole : List Char) (characters : List Char) : Scanned :=
  match characters with
  | '.' :: afterPoint =>
      let fraction := afterPoint.takeWhile Char.isDigit
      let rest := afterPoint.dropWhile Char.isDigit
      if fraction.isEmpty then missingDigit rest
      else
        match rest with
        | 'e' :: exponent => scanExponent negative whole fraction exponent
        | 'E' :: exponent => scanExponent negative whole fraction exponent
        | rest => (floatDocument (decimalOf negative whole fraction 0), some rest)
  | 'e' :: exponent => scanExponent negative whole [] exponent
  | 'E' :: exponent => scanExponent negative whole [] exponent
  | rest =>
      let digits := Nat.ofDigitChars 10 whole 0
      let number := (integerDocument negative digits).getD
        (floatDocument (decimalOf negative whole [] 0))
      (number, some rest)

def scanNumber (negative : Bool) (characters : List Char) : Scanned :=
  let whole := characters.takeWhile Char.isDigit
  let rest := characters.dropWhile Char.isDigit
  match whole with
  | [] => missingDigit rest
  | '0' :: _ :: _ => cutOff .invalidNumber .invalidNumber
  | whole => scanFraction negative whole rest

end Sociogram.JsonText
