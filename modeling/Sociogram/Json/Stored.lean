import Sociogram.Document.Basic

/-!
Kept JSON values as documents, to be read once it is known what they are.
-/

namespace Sociogram.Document

mutual

def ofJson : Json → Document
  | .null => .null
  | .boolean value => .boolean value
  | .integer value => .integer value
  | .float value => .float value
  | .text value => .text value
  | .array items => .sequence .stored (ofJsonItems items) .closed
  | .object members => .mapping (ofJsonMembers members) .closed
termination_by structural value => value

def ofJsonItems : List Json → List Document
  | [] => []
  | item :: rest => ofJson item :: ofJsonItems rest
termination_by structural items => items

def ofJsonMembers : List (String × Json) → List (Except Problem String × Document)
  | [] => []
  | (key, value) :: rest => (.ok key, ofJson value) :: ofJsonMembers rest
termination_by structural members => members

end

end Sociogram.Document
