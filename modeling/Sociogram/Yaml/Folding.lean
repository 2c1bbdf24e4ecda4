import Sociogram.Number.Digits
import Sociogram.Yaml.Cursor

/-!
The text of a scalar that goes over several lines, unquoted or quoted. A line
break between two words is a blank; of several line breaks all but the first stay.
-/

namespace Sociogram.Yaml

/-! ## Gaps between words -/

inductive Spacing where
  /-- Blanks within a line stay as they are. -/
  | blanks (characters : List Char)
  /-- A line break and the further ones after it. A break that was escaped is left
  out. -/
  | breaks (first : Option Char) (more : List Char)

namespace Spacing

def folded : Spacing → List Char
  | blanks characters => characters
  | breaks (some '\n') [] => [' ']
  | breaks (some '\n') more => more
  | breaks first more => more ++ first.toList

def hasBreak : Spacing → Bool
  | blanks _ => false
  | breaks _ _ => true

def addBlank (spacing : Spacing) (character : Char) : Spacing :=
  match spacing with
  | blanks characters => blanks (character :: characters)
  | breaks first more => breaks first more

def addBreak (spacing : Spacing) (character : Char) : Spacing :=
  match spacing with
  | blanks _ => breaks (some character) []
  | breaks first more => breaks first (character :: more)

end Spacing

/-- A line break as it stands in a scalar: the two separators stay, every other break
is a line feed. -/
def normalizedBreak (character : Char) : Char :=
  if character == '\u2028' || character == '\u2029' then character else '\n'

/-- Go past blanks and line breaks. A tab before column `indent` of a further line is
refused. The fuel bounds the number of characters. -/
def scanGap (indent : Int) : Nat → Spacing → Cursor → Option (Spacing × Cursor)
  | 0, spacing, cursor => some (spacing, cursor)
  | fuel + 1, spacing, cursor =>
      match cursor.rest with
      | [] => some (spacing, cursor)
      | character :: _ =>
          if isBlank character then
            if spacing.hasBreak && character == '\t' && (cursor.column : Int) < indent then none
            else scanGap indent fuel (spacing.addBlank character) (cursor.advance 1)
          else if isBreak character then
            scanGap indent fuel (spacing.addBreak (normalizedBreak character)) cursor.nextLine
          else some (spacing, cursor)

/-! ## Unquoted scalars -/

def isFlowIndicator (character : Char) : Bool :=
  [',', '[', ']', '\x7b', '\x7d'].contains character

/-- The characters of an unquoted word. In a flow collection a colon may not stand
right before an indicator. -/
def plainWord (inFlow : Bool) : List Char → Option (List Char)
  | [] => some []
  | character :: rest =>
      if isBlank character || isBreak character then some []
      else if inFlow && character == ':' &&
          (match rest with
            | next :: _ => isFlowIndicator next || next == '?'
            | [] => false) then none
      else if character == ':' && atGap rest then some []
      else if inFlow && isFlowIndicator character then some []
      else (plainWord inFlow rest).map (character :: ·)

/-- Scan the words of an unquoted scalar after the characters `done`, the last one
first. In a block they have to stay right of column `indent`. The answer tells
whether a line break was passed at the end. The fuel is greater than the number of
characters left. -/
def scanPlain (inFlow : Bool) (indent : Int) :
    Nat → List Char → Spacing → Cursor → Option (List Char × Bool × Cursor)
  | 0, done, spacing, cursor => some (done, spacing.hasBreak, cursor)
  | fuel + 1, done, spacing, cursor =>
      if cursor.isAtDocumentMark || cursor.rest.head? == some '#' then
        some (done, spacing.hasBreak, cursor)
      else do
        let word ← plainWord inFlow cursor.rest
        let afterWord := cursor.advance word.length
        let (done, spacing) :=
          if word.isEmpty then (done, spacing)
          else (word.reverse ++ (spacing.folded ++ done), .blanks [])
        match afterWord.rest with
        | [] => return (done, spacing.hasBreak, afterWord)
        | character :: _ =>
            if isBlank character || isBreak character then
              let (spacing, afterGap) ← scanGap indent fuel spacing afterWord
              if !inFlow && (afterGap.column : Int) < indent then
                return (done, spacing.hasBreak, afterGap)
              else scanPlain inFlow indent fuel done spacing afterGap
            else return (done, spacing.hasBreak, afterWord)

/-! ## Quoted scalars -/

def escapedChar? : Char → Option Char
  | '0' => some '\x00'
  | 'a' => some '\x07'
  | 'b' => some '\x08'
  | 't' => some '\t'
  | '\t' => some '\t'
  | 'n' => some '\n'
  | 'v' => some '\x0b'
  | 'f' => some '\x0c'
  | 'r' => some '\r'
  | 'e' => some '\x1b'
  | ' ' => some ' '
  | '\"' => some '\"'
  | '/' => some '/'
  | '\\' => some '\\'
  | 'N' => some '\u0085'
  | '_' => some '\u00a0'
  | 'L' => some '\u2028'
  | 'P' => some '\u2029'
  | _ => none

def hexWidth? : Char → Option Nat
  | 'x' => some 2
  | 'u' => some 4
  | 'U' => some 8
  | _ => none

def ofCodePoint? (code : Nat) : Option Char :=
  if code < 0xD800 ∨ (0xDFFF < code ∧ code < 0x110000) then some (Char.ofNat code) else none

def escape? (characters : List Char) : Option (Char × Nat) :=
  match characters with
  | [] => none
  | mark :: rest =>
      match hexWidth? mark with
      | some width => do
          let digits := rest.take width
          if digits.length < width then none
          else
            let code ← Digits.natural? 16 digits
            let character ← ofCodePoint? code
            return (character, width + 1)
      | none => (escapedChar? mark).map fun character => (character, 1)

/-- Scan a quoted scalar after its opening quote and the characters `done`, the last
one first. In single quotes a quote is written twice, in double quotes a backslash
escapes. The fuel is greater than the number of characters left. -/
def scanQuoted (double : Bool) : Nat → List Char → Cursor → Option (List Char × Cursor)
  | 0, _, _ => none
  | fuel + 1, done, cursor =>
      if cursor.isAtDocumentMark then none
      else
        match cursor.rest with
        | [] => none
        | character :: rest =>
            if isBlank character || isBreak character then do
              let (spacing, afterGap) ← scanGap 0 fuel (.blanks []) cursor
              scanQuoted double fuel (spacing.folded ++ done) afterGap
            else if !double && character == '\'' then
              match rest with
              | '\'' :: _ => scanQuoted double fuel ('\'' :: done) (cursor.advance 2)
              | _ => some (done, cursor.advance 1)
            else if double && character == '\"' then some (done, cursor.advance 1)
            else if double && character == '\\' then
              if rest.head?.any isBreak then do
                let (spacing, afterGap) ←
                  scanGap 0 fuel (.breaks none []) (cursor.advance 1).nextLine
                scanQuoted double fuel (spacing.folded ++ done) afterGap
              else do
                let (meant, width) ← escape? rest
                scanQuoted double fuel (meant :: done) (cursor.advance (width + 1))
            else scanQuoted double fuel (character :: done) (cursor.advance 1)

end Sociogram.Yaml
