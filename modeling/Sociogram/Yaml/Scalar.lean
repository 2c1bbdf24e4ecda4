import Sociogram.Document.Problem
import Sociogram.Json.Value
import Sociogram.Number.Digits

/-!
What an unquoted YAML scalar stands for: null, a truth value, an integer, a
floating-point number, or else the text itself.
-/

namespace Sociogram.Yaml.Scalar

/-! ## Null and truth values -/

def isNull (written : String) : Bool :=
  ["", "~", "null", "Null", "NULL"].contains written

def boolean? (written : String) : Option Bool :=
  if ["true", "True", "TRUE"].contains written then some true
  else if ["false", "False", "FALSE"].contains written then some false
  else none

/-! ## Integers -/

/-- A zero with more digits after it is no number, whatever sign it has. -/
def hasLeadingZero (characters : List Char) : Bool :=
  let unsigned :=
    match characters with
    | '+' :: rest => rest
    | '-' :: rest => rest
    | other => other
  match unsigned with
  | '0' :: rest => !rest.isEmpty && rest.all Char.isDigit
  | _ => false

def magnitude? (characters : List Char) : Option Nat :=
  match characters with
  | '0' :: 'x' :: digits => Digits.natural? 16 digits
  | '0' :: 'o' :: digits => Digits.natural? 8 digits
  | '0' :: 'b' :: digits => Digits.natural? 2 digits
  | digits => if hasLeadingZero digits then none else Digits.natural? 10 digits

def integer? (characters : List Char) : Option Int :=
  match characters with
  | '+' :: rest => (magnitude? rest).map Int.ofNat
  | '-' :: rest => (magnitude? rest).map fun magnitude => -(magnitude : Int)
  | rest => (magnitude? rest).map Int.ofNat

/-! ## Floating-point numbers -/

def exponent? (characters : List Char) : Option Int :=
  match characters with
  | '+' :: digits => (Digits.natural? 10 digits).map Int.ofNat
  | '-' :: digits => (Digits.natural? 10 digits).map fun magnitude => -(magnitude : Int)
  | digits => (Digits.natural? 10 digits).map Int.ofNat

def decimal? (negative : Bool) (characters : List Char) : Option Decimal :=
  let whole := characters.takeWhile Char.isDigit
  let afterWhole := characters.dropWhile Char.isDigit
  let (fraction, afterFraction) :=
    match afterWhole with
    | '.' :: rest => (rest.takeWhile Char.isDigit, rest.dropWhile Char.isDigit)
    | rest => ([], rest)
  let exponent :=
    match afterFraction with
    | [] => some 0
    | 'e' :: rest => exponent? rest
    | 'E' :: rest => exponent? rest
    | _ => none
  match Digits.natural? 10 (whole ++ fraction), exponent with
  | some digits, some exponent => some ⟨negative, digits, exponent - fraction.length⟩
  | _, _ => none

def float? (written : String) : Option Binary64 :=
  if [".inf", ".Inf", ".INF", "+.inf", "+.Inf", "+.INF"].contains written then
    some (.infinity false)
  else if ["-.inf", "-.Inf", "-.INF"].contains written then some (.infinity true)
  else if [".nan", ".NaN", ".NAN"].contains written then some .nan
  else
    let decimal :=
      match written.toList with
      | '+' :: rest => decimal? false rest
      | '-' :: rest => decimal? true rest
      | rest => decimal? false rest
    (decimal.map Decimal.toBinary64).filter Binary64.isFinite

/-! ## Any value -/

/-- Integers of up to 64 bits are integers; up to 128 bits they are refused, and
beyond that they are read as floating-point numbers. -/
def value (written : String) : Except Problem Json :=
  if isNull written then .ok .null
  else
    match boolean? written with
    | some value => .ok (.boolean value)
    | none =>
        match integer? written.toList with
        | some value =>
            if -(Nat.pow 2 63 : Int) ≤ value && value < Nat.pow 2 64 then
              .ok (.integer value)
            else if -(Nat.pow 2 127 : Int) ≤ value && value < Nat.pow 2 128 then
              .error .integerOutOfRange
            else floatOrText
        | none => floatOrText
where
  floatOrText : Except Problem Json :=
    if hasLeadingZero written.toList then .ok (.text written)
    else
      match float? written with
      | some value => .ok (.float value)
      | none => .ok (.text written)

example : integer? "-0x1F".toList = some (-31) := by decide +kernel
example : integer? "007".toList = none := by decide +kernel
example : float? "1." = some (.ofInt 1) := by decide +kernel
example : float? "1e999" = none := by decide +kernel

end Sociogram.Yaml.Scalar
