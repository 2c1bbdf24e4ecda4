import Sociogram.Number.Decimal

/-!
The shortest decimal text of a finite floating-point number: the fewest digits
that read back as the number, and of those the ones nearest to it.
-/

namespace Sociogram

namespace Binary64

/-! ## Fewest digits -/

/-- The exact decimal of a magnitude. One unit is `2 ^ -1074`, which is
`5 ^ 1074 * 10 ^ -1074`, so every magnitude has a finite decimal. -/
def exactDecimal (number : Binary64) : Decimal :=
  ⟨false, number.magnitude * Nat.pow 5 1074, -1074⟩

def absolute (number : Binary64) : Binary64 :=
  ofMagnitudePattern false number.magnitudePattern

/-- A decimal with `dropped` digits fewer that reads back as `target`: of the two
neighbours on that coarser grid the nearer one is tried first, and of two
equally near ones the even one. -/
def coarser? (exact : Decimal) (target : Binary64) (dropped : Nat) :
    Option Decimal :=
  let step := Nat.pow 10 dropped
  let below := exact.digits / step
  let excess := 2 * (exact.digits % step)
  let preferBelow := excess < step || (excess == step && below % 2 == 0)
  let candidates := if preferBelow then [below, below + 1] else [below + 1, below]
  (candidates.map fun digits => Decimal.mk false digits (exact.exponent + dropped)).find?
    fun candidate => candidate.toBinary64 == target

/-- The decimal with the fewest digits that reads back as the magnitude of the
number. Seventeen digits always suffice; the exact decimal closes the search,
so that the answer reads back whatever the search finds. -/
def shortestDecimal (number : Binary64) : Decimal :=
  let exact := number.exactDecimal
  let length := (Nat.toDigits 10 exact.digits).length
  let counts := (List.range 17).map (· + 1)
  let found := counts.findSome? fun count =>
    coarser? exact number.absolute (length - count)
  found.getD exact

/-! ## Layout of the digits -/

def withoutFinalZeros (digits : List Char) (exponent : Int) : List Char × Int :=
  let zeros := (digits.reverse.takeWhile (· == '0')).length
  (digits.take (digits.length - zeros), exponent + zeros)

def scientific (digits : List Char) (power : Int) : List Char :=
  let mantissa :=
    match digits with
    | [] => []
    | [digit] => [digit]
    | digit :: rest => digit :: '.' :: rest
  let sign := if power < 0 then '-' else '+'
  mantissa ++ 'e' :: sign :: Nat.toDigits 10 power.natAbs

/-- The text of a positive decimal. With `point` the number of digits before the
decimal point, positional notation is used for `-4` to `16`, which is for
magnitudes from `1e-5` up to, but not including, `1e16`. -/
def layout (digits : List Char) (exponent : Int) : List Char :=
  let point := digits.length + exponent
  if 0 ≤ exponent && point ≤ 16 then
    digits ++ List.replicate exponent.toNat '0' ++ ['.', '0']
  else if 0 < point && point ≤ 16 then
    digits.take point.toNat ++ '.' :: digits.drop point.toNat
  else if -5 < point && point ≤ 0 then
    '0' :: '.' :: List.replicate (-point).toNat '0' ++ digits
  else scientific digits (point - 1)

/-- The characters of a finite number. There is always a point or an exponent,
so that the text is not that of an integer. -/
def decimalChars (number : Binary64) : List Char :=
  let sign := if number.negative then ['-'] else []
  if number.magnitudePattern = 0 then sign ++ ['0', '.', '0']
  else
    let decimal := number.shortestDecimal
    let (digits, exponent) :=
      withoutFinalZeros (Nat.toDigits 10 decimal.digits) decimal.exponent
    sign ++ layout digits exponent

def decimalText (number : Binary64) : String :=
  String.ofList number.decimalChars

example : (ofInt 5).decimalText = "5.0" := by decide +kernel
example : (Decimal.toBinary64 ⟨false, 1, -7⟩).decimalText = "1e-7" := by decide +kernel

end Binary64

end Sociogram
