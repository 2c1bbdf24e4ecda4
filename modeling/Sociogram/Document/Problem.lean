import Sociogram.Number.Shortest
import Sociogram.Text.Literal

/-!
What can be wrong with a document, and the messages that say so.
-/

namespace Sociogram

/-! ## Faults in JSON texts -/

inductive TextFault where
  | endInValue
  | endInList
  | endInObject
  | endInText
  | valueExpected
  | wordExpected
  | colonExpected
  | listSeparatorExpected
  | objectSeparatorExpected
  | trailingComma
  | trailingCharacters
  | keyNotText
  | invalidNumber
  | numberOutOfRange
  | invalidEscape
  | escapeCutShort
  | loneSurrogate
  | controlCharacter
  | tooDeep
deriving DecidableEq

def TextFault.message : TextFault → String
  | endInValue => "EOF while parsing a value"
  | endInList => "EOF while parsing a list"
  | endInObject => "EOF while parsing an object"
  | endInText => "EOF while parsing a string"
  | valueExpected => "expected value"
  | wordExpected => "expected ident"
  | colonExpected => "expected \x60:\x60"
  | listSeparatorExpected => "expected \x60,\x60 or \x60]\x60"
  | objectSeparatorExpected => "expected \x60,\x60 or \x60\x7d\x60"
  | trailingComma => "trailing comma"
  | trailingCharacters => "trailing characters"
  | keyNotText => "key must be a string"
  | invalidNumber => "invalid number"
  | numberOutOfRange => "number out of range"
  | invalidEscape => "invalid escape"
  | escapeCutShort => "unexpected end of hex escape"
  | loneSurrogate => "lone leading surrogate in hex escape"
  | controlCharacter => "control character (\\u0000-\\u001F) found while parsing a string"
  | tooDeep => "recursion limit exceeded"

/-! ## Values of the wrong kind -/

inductive Found where
  | null
  | boolean (value : Bool)
  | integer (value : Int)
  | float (value : Binary64)
  | text (value : String)
  | sequence
  | mapping
deriving DecidableEq

def Found.message : Found → String
  | null => "null"
  | boolean value => "boolean \x60" ++ toString value ++ "\x60"
  | integer value => "integer \x60" ++ toString value ++ "\x60"
  | float value => "floating point \x60" ++ value.decimalText ++ "\x60"
  | text value => "string " ++ Literal.quote value
  | sequence => "sequence"
  | mapping => "map"

inductive Wanted where
  | text
  | number
  | sequence
  | mapping
  | record (name : String)
deriving DecidableEq

def Wanted.message : Wanted → String
  | text => "a string"
  | number => "f64"
  | sequence => "a sequence"
  | mapping => "a map"
  | record name => "struct " ++ name

/-- Whether something of this kind could be what is wanted. A record may be spelled
either way. -/
def Wanted.admits : Wanted → Found → Bool
  | sequence, .sequence => true
  | mapping, .mapping => true
  | record _, .sequence => true
  | record _, .mapping => true
  | _, _ => false

/-! ## Problems -/

inductive Problem where
  | malformed (fault : TextFault)
  | wrongKind (found : Found) (wanted : Wanted)
  /-- Too few items for a record that is spelled as a list. -/
  | missingItems (found : Nat) (record : String) (fields : Nat)
  /-- Too many items for a record that is spelled as a list. -/
  | surplusItems (found : Nat)
  | missingField (name : String)
  | duplicateField (name : String)
  /-- None of the alternative spellings of a value fits. -/
  | noAlternative (name : String)
  /-- A key that is not a text. -/
  | keyNotScalar
  /-- An integer beyond what any kind of number holds. -/
  | integerOutOfRange
deriving DecidableEq

def Problem.message : Problem → String
  | malformed fault => fault.message
  | wrongKind found wanted =>
      "invalid type: " ++ found.message ++ ", expected " ++ wanted.message
  | missingItems found record fields =>
      "invalid length " ++ toString found ++ ", expected struct " ++ record ++ " with " ++
        toString fields ++ " elements"
  | surplusItems found =>
      "invalid length " ++ toString found ++ ", expected fewer elements in array"
  | missingField name => "missing field \x60" ++ name ++ "\x60"
  | duplicateField name => "duplicate field \x60" ++ name ++ "\x60"
  | noAlternative name => "data did not match any variant of untagged enum " ++ name
  | keyNotScalar => "a key is not a text"
  | integerOutOfRange => "an integer is out of range"

end Sociogram
