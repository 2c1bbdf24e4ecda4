/-!
Places in a YAML text: the characters that are left, and where they begin.
-/

namespace Sociogram.Yaml

/-! ## Characters -/

def isBreak (character : Char) : Bool :=
  character == '\n' || character == '\r' || character == '\u0085' ||
    character == '\u2028' || character == '\u2029'

def isBlank (character : Char) : Bool := character == ' ' || character == '\t'

def atGap : List Char → Bool
  | [] => true
  | character :: _ => isBlank character || isBreak character

def isAllowed (character : Char) : Bool :=
  let code := character.toNat
  code == 0x09 || code == 0x0A || code == 0x0D || (0x20 ≤ code && code ≤ 0x7E) ||
    code == 0x85 || (0xA0 ≤ code && code ≤ 0xFFFD) || 0x10000 ≤ code

def atMark (mark : Char) : List Char → Bool
  | first :: second :: third :: rest =>
      first == mark && second == mark && third == mark && atGap rest
  | _ => false

def atDocumentMark (characters : List Char) : Bool :=
  atMark '-' characters || atMark '.' characters

/-! ## Places -/

def byteCount (characters : List Char) : Nat :=
  (characters.map Char.utf8Size).foldr (· + ·) 0

/-- The characters from a place on, the number of bytes before it, and its line and
column, both counted from zero. A column is a character wide. -/
structure Cursor where
  rest : List Char
  index : Nat
  line : Nat
  column : Nat

namespace Cursor

def start (characters : List Char) : Cursor := ⟨characters, 0, 0, 0⟩

def advance (cursor : Cursor) (count : Nat) : Cursor :=
  { cursor with
    rest := cursor.rest.drop count
    index := cursor.index + byteCount (cursor.rest.take count)
    column := cursor.column + count }

def nextLine (cursor : Cursor) : Cursor :=
  let width :=
    match cursor.rest with
    | '\r' :: '\n' :: _ => 2
    | _ => 1
  { rest := cursor.rest.drop width
    index := cursor.index + byteCount (cursor.rest.take width)
    line := cursor.line + 1
    column := 0 }

def skipComment (cursor : Cursor) : Cursor :=
  cursor.advance (cursor.rest.takeWhile fun character => !isBreak character).length

/-- A document mark counts only at the beginning of a line. -/
def isAtDocumentMark (cursor : Cursor) : Bool :=
  cursor.column == 0 && atDocumentMark cursor.rest

end Cursor

end Sociogram.Yaml
