import Sociogram.Json.Value
import Sociogram.Number.Shortest

/-!
The written form of JSON values, on one line without blanks or spread over
lines.
-/

namespace Sociogram.Json

/-! ## Texts and numbers -/

def escapeChar (character : Char) : List Char :=
  match character with
  | '\"' => ['\\', '\"']
  | '\\' => ['\\', '\\']
  | '\x08' => ['\\', 'b']
  | '\x0c' => ['\\', 'f']
  | '\n' => ['\\', 'n']
  | '\r' => ['\\', 'r']
  | '\t' => ['\\', 't']
  | other =>
      if other.toNat < 0x20 then
        ['\\', 'u', '0', '0', Nat.digitChar (other.toNat / 16), Nat.digitChar (other.toNat % 16)]
      else [other]

def quotedChars (text : String) : List Char :=
  '\"' :: text.toList.flatMap escapeChar ++ ['\"']

def integerChars (value : Int) : List Char :=
  if value < 0 then '-' :: Nat.toDigits 10 value.natAbs else Nat.toDigits 10 value.natAbs

/-- JSON has no infinities and no NaN; null stands for them. -/
def floatChars (value : Binary64) : List Char :=
  if value.isFinite then value.decimalChars else ['n', 'u', 'l', 'l']

/-! ## Layout -/

structure Layout where
  /-- What stands before a part at some depth, and before a closing bracket. -/
  line : Nat → List Char
  /-- What stands between a colon and the value after it. -/
  afterColon : List Char

def Layout.compact : Layout := ⟨fun _ => [], []⟩

def Layout.pretty : Layout :=
  ⟨fun depth => '\n' :: List.replicate (2 * depth) ' ', [' ']⟩

mutual

def chars (layout : Layout) (depth : Nat) : Json → List Char
  | null => ['n', 'u', 'l', 'l']
  | boolean true => ['t', 'r', 'u', 'e']
  | boolean false => ['f', 'a', 'l', 's', 'e']
  | integer value => integerChars value
  | float value => floatChars value
  | text value => quotedChars value
  | array [] => ['[', ']']
  | array (item :: items) =>
      '[' :: layout.line (depth + 1) ++ chars layout (depth + 1) item ++
        moreItems layout depth items
  | object [] => ['\x7b', '\x7d']
  | object ((key, value) :: members) =>
      '\x7b' :: layout.line (depth + 1) ++ quotedChars key ++ ':' :: layout.afterColon ++
        chars layout (depth + 1) value ++ moreMembers layout depth members
termination_by structural value => value

def moreItems (layout : Layout) (depth : Nat) : List Json → List Char
  | [] => layout.line depth ++ [']']
  | item :: items =>
      ',' :: layout.line (depth + 1) ++ chars layout (depth + 1) item ++
        moreItems layout depth items
termination_by structural items => items

def moreMembers (layout : Layout) (depth : Nat) : List (String × Json) → List Char
  | [] => layout.line depth ++ ['\x7d']
  | (key, value) :: members =>
      ',' :: layout.line (depth + 1) ++ quotedChars key ++ ':' :: layout.afterColon ++
        chars layout (depth + 1) value ++ moreMembers layout depth members
termination_by structural members => members

end

def compact (value : Json) : String := String.ofList (value.chars .compact 0)

def pretty (value : Json) : String := String.ofList (value.chars .pretty 0)

example : compact (object [("a", array [integer 1, null]), ("b", object [])]) =
    "\x7b\"a\":[1,null],\"b\":\x7b\x7d\x7d" := by decide +kernel

end Sociogram.Json
