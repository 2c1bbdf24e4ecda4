import Sociogram.Json.Numeral
import Sociogram.Json.Quoted

/-!
JSON texts as documents.

A text is scanned from left to right into a document. The scan never fails: where
the text is at fault the document says so, with the problem of a reader and the
problem of someone who passes over that part, and the scan ends there. A text
without faults leaves the rest of the characters after its value.
-/

namespace Sociogram.JsonText

/-! ## Blanks -/

def isBlank (character : Char) : Bool :=
  character == ' ' || character == '\t' || character == '\n' || character == '\r'

def skipBlanks (characters : List Char) : List Char := characters.dropWhile isBlank

/-! ## Values -/

/-- Items or members, how they end, and the characters after the closing bracket
unless the scan has ended at a fault. -/
abbrev ScannedAll (α : Type) := List α × Ending × Option (List Char)

abbrev Member := Except Problem String × Document

def cutAll {α : Type} (reading skipping : TextFault) : ScannedAll α :=
  ([], .cut (.malformed reading) (.malformed skipping), none)

def before {α : Type} (item : α) (rest : Option (List Char))
    (scanRest : List Char → ScannedAll α) : ScannedAll α :=
  match rest with
  | none => ([item], .closed, none)
  | some characters =>
      let (items, ending, after) := scanRest characters
      (item :: items, ending, after)

mutual

/-- Scan a value. The fuel bounds the number of nested calls. -/
def scanValue (fuel : Nat) (characters : List Char) : Scanned :=
  match fuel with
  | 0 => cutOff .tooDeep .tooDeep
  | fuel + 1 =>
      match skipBlanks characters with
      | [] => cutOff .endInValue .endInValue
      | 'n' :: rest => scanWord .null ['u', 'l', 'l'] rest
      | 't' :: rest => scanWord (.boolean true) ['r', 'u', 'e'] rest
      | 'f' :: rest => scanWord (.boolean false) ['a', 'l', 's', 'e'] rest
      | '-' :: rest => scanNumber true rest
      | '\"' :: rest =>
          match scanQuoted (.ok []) rest with
          | .complete (.ok text) after => (.text text, some after)
          | .complete (.error fault) after => (.faulty (.malformed fault) none, some after)
          | .cut reading skipping => cutOff reading skipping
      | '[' :: rest =>
          match skipBlanks rest with
          | [] =>
              (.sequence .written [] (.cut (.malformed .endInList) (.malformed .endInList)), none)
          | ']' :: after => (.sequence .written [] .closed, some after)
          | first =>
              let (items, ending, after) := scanItems fuel first
              (.sequence .written items ending, after)
      | '\x7b' :: rest =>
          match skipBlanks rest with
          | [] => (.mapping [] (.cut (.malformed .endInObject) (.malformed .endInObject)), none)
          | '\x7d' :: after => (.mapping [] .closed, some after)
          | first =>
              let (members, ending, after) := scanMembers fuel first
              (.mapping members ending, after)
      | character :: rest =>
          if character.isDigit then scanNumber false (character :: rest)
          else cutOff .valueExpected .valueExpected

def scanItems (fuel : Nat) (characters : List Char) : ScannedAll Document :=
  match fuel with
  | 0 => cutAll .tooDeep .tooDeep
  | fuel + 1 =>
      let (item, rest) := scanValue fuel characters
      before item rest fun after => scanMoreItems fuel after

def scanMoreItems (fuel : Nat) (characters : List Char) : ScannedAll Document :=
  match fuel with
  | 0 => cutAll .tooDeep .tooDeep
  | fuel + 1 =>
      match skipBlanks characters with
      | [] => cutAll .endInList .endInList
      | ']' :: rest => ([], .closed, some rest)
      | ',' :: rest =>
          match skipBlanks rest with
          | [] => cutAll .endInValue .endInValue
          | ']' :: _ => cutAll .trailingComma .valueExpected
          | next => scanItems fuel next
      | _ => cutAll .listSeparatorExpected .listSeparatorExpected

def scanMembers (fuel : Nat) (characters : List Char) : ScannedAll Member :=
  match fuel with
  | 0 => cutAll .tooDeep .tooDeep
  | fuel + 1 =>
      match characters with
      | '\"' :: quoted =>
          match scanQuoted (.ok []) quoted with
          | .cut reading skipping => cutAll reading skipping
          | .complete key afterKey =>
              let (value, rest) :=
                match skipBlanks afterKey with
                | [] => cutOff .endInObject .endInObject
                | ':' :: afterColon => scanValue fuel afterColon
                | _ => cutOff .colonExpected .colonExpected
              before (key.mapError .malformed, value) rest fun after => scanMoreMembers fuel after
      | _ => cutAll .keyNotText .keyNotText

def scanMoreMembers (fuel : Nat) (characters : List Char) : ScannedAll Member :=
  match fuel with
  | 0 => cutAll .tooDeep .tooDeep
  | fuel + 1 =>
      match skipBlanks characters with
      | [] => cutAll .endInObject .endInObject
      | '\x7d' :: rest => ([], .closed, some rest)
      | ',' :: rest =>
          match skipBlanks rest with
          | [] => cutAll .endInValue .endInObject
          | '\x7d' :: _ => cutAll .trailingComma .keyNotText
          | next => scanMembers fuel next
      | _ => cutAll .objectSeparatorExpected .objectSeparatorExpected

end

/-! ## Whole texts -/

def depthLimit : Nat := 127

/-- Enough fuel for a text: between two nested calls at most one takes no character. -/
def fuelFor (characters : List Char) : Nat := 2 * characters.length + 2

/-- Read a text as one value with nothing but blanks around it. What stands after
the value is looked at last. -/
def read {α : Type} (reader : Document → Except Problem α) (text : String) :
    Except Problem α := do
  let characters := text.toList
  let (document, rest) := scanValue (fuelFor characters) characters
  let value ← reader (document.nestedWithin depthLimit)
  match rest.map skipBlanks with
  | some (_ :: _) => .error (.malformed .trailingCharacters)
  | _ => return value

example : (read Document.value " [1, true, \x7b\"b\": 2.50, \"a\": null\x7d] ").isOk = true := by
  decide +kernel

/-- A value of the wrong kind is noticed before a later fault in the text. -/
example : (read Document.asText "[1,]" matches .error (.wrongKind .sequence .text)) = true := by
  decide +kernel
example :
    (read (Document.asList Document.asNumber) "[1,]" matches
      .error (.malformed .trailingComma)) = true := by
  decide +kernel

end Sociogram.JsonText
