/-!
Natural numbers from digits in a base up to sixteen.
-/

namespace Sociogram.Digits

def digit? (base : Nat) (character : Char) : Option Nat :=
  let value? :=
    if '0' ≤ character && character ≤ '9' then some (character.toNat - '0'.toNat)
    else if 'a' ≤ character && character ≤ 'f' then some (character.toNat - 'a'.toNat + 10)
    else if 'A' ≤ character && character ≤ 'F' then some (character.toNat - 'A'.toNat + 10)
    else none
  value?.filter (· < base)

def natural? (base : Nat) (digits : List Char) : Option Nat :=
  if digits.isEmpty then none
  else
    digits.foldlM
      (fun value character => (digit? base character).map fun digit => base * value + digit) 0

example : natural? 16 ['f', 'F'] = some 255 := by decide +kernel
example : natural? 8 ['1', '8'] = none := by decide +kernel
example : natural? 10 [] = none := rfl

end Sociogram.Digits
