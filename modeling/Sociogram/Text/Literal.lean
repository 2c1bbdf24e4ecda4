import Sociogram.Text.Hidden

/-!
Texts as literals in messages: between double quotes, on one line, with every
character recognisable.
-/

namespace Sociogram.Literal

/-- The character `n` as `\u` and its code point in braces. -/
def escapeCodePoint (character : Char) : List Char :=
  '\\' :: 'u' :: '\x7b' :: Nat.toDigits 16 character.toNat ++ ['\x7d']

def escape (character : Char) : List Char :=
  match character with
  | '\"' => ['\\', '\"']
  | '\\' => ['\\', '\\']
  | '\n' => ['\\', 'n']
  | '\r' => ['\\', 'r']
  | '\t' => ['\\', 't']
  | '\x00' => ['\\', '0']
  | other => if isHidden other then escapeCodePoint other else [other]

def quote (text : String) : String :=
  String.ofList ('\"' :: text.toList.flatMap escape ++ ['\"'])

example : quote "a\n\u200b" = "\"a\\n\\u\x7b200b\x7d\"" := by decide +kernel

end Sociogram.Literal
