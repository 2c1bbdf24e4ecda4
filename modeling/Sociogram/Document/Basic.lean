import Sociogram.Keyed
import Sociogram.Yaml.Scalar

/-!
Documents: the tree that a text spells, before it is read as anything.

A document keeps the order in which its text is read, its repeated keys, and the
places where the text is at fault, since the first problem on the way is the one
that is reported. A part of a document is either read or passed over, and a fault
may weigh differently on the two.
-/

namespace Sociogram

/-! ## Documents -/

/-- Where a sequence comes from. This decides whether it may spell a record by
listing its fields. -/
inductive Listing where
  /-- A JSON text, in which a record may be a list. -/
  | written
  /-- A kept JSON value, in which a record may be a list. -/
  | stored
  /-- A YAML text, in which a record is always a mapping. -/
  | plain
deriving DecidableEq

/-- How a sequence or a mapping ends. At a fault it is cut off, and the text after
the fault is not looked at. -/
inductive Ending where
  | closed
  | cut (reading skipping : Problem)

inductive Document where
  | null
  | boolean (value : Bool)
  | integer (value : Int)
  | float (value : Binary64)
  | text (value : String)
  /-- An unquoted YAML scalar: what it is depends on what is wanted. -/
  | bare (written : String)
  | sequence (listing : Listing) (items : List Document) (ending : Ending)
  /-- A key may be at fault itself. -/
  | mapping (members : List (Except Problem String × Document)) (ending : Ending)
  /-- A sequence or mapping nested too deeply to be read. -/
  | buried (found : Found) (skipping : Option Problem)
  /-- A fault in place of a value. Passing over the value may go well. -/
  | faulty (reading : Problem) (skipping : Option Problem)

namespace Ending

def reached : Ending → Except Problem Unit
  | closed => .ok ()
  | cut reading _ => .error reading

def skipping? : Ending → Option Problem
  | closed => none
  | cut _ skipping => some skipping

end Ending

namespace Document

def cut (reading skipping : TextFault) : Document :=
  .faulty (.malformed reading) (some (.malformed skipping))

def found : Document → Found
  | null => .null
  | boolean value => .boolean value
  | integer value => .integer value
  | float value => .float value
  | text value => .text value
  | bare written => .text written
  | sequence _ _ _ => .sequence
  | mapping _ _ => .mapping
  | buried found _ => found
  | faulty _ _ => .null

/-! ## Passing over a document -/

mutual

/-- The first problem met when the document is passed over. -/
def skipping? : Document → Option Problem
  | sequence _ items ending => (skippingItems? items).or ending.skipping?
  | mapping members ending => (skippingMembers? members).or ending.skipping?
  | buried _ skipping => skipping
  | faulty _ skipping => skipping
  | _ => none
termination_by structural document => document

def skippingItems? : List Document → Option Problem
  | [] => none
  | item :: rest => item.skipping?.or (skippingItems? rest)
termination_by structural items => items

def skippingMembers? : List (Except Problem String × Document) → Option Problem
  | [] => none
  | (_, value) :: rest => value.skipping?.or (skippingMembers? rest)
termination_by structural members => members

end

def skip (document : Document) : Except Problem Unit :=
  match document.skipping? with
  | none => .ok ()
  | some problem => .error problem

/-! ## Depth -/

mutual

/-- Sequences and mappings within `limit` others stay; deeper ones are buried. -/
def nestedWithin (limit : Nat) : Document → Document
  | sequence listing items ending =>
      match limit with
      | 0 => buried .sequence (sequence listing items ending).skipping?
      | below + 1 => sequence listing (itemsNestedWithin below items) ending
  | mapping members ending =>
      match limit with
      | 0 => buried .mapping (mapping members ending).skipping?
      | below + 1 => mapping (membersNestedWithin below members) ending
  | other => other
termination_by structural document => document

def itemsNestedWithin (limit : Nat) : List Document → List Document
  | [] => []
  | item :: rest => item.nestedWithin limit :: itemsNestedWithin limit rest
termination_by structural items => items

def membersNestedWithin (limit : Nat) :
    List (Except Problem String × Document) → List (Except Problem String × Document)
  | [] => []
  | (key, value) :: rest => (key, value.nestedWithin limit) :: membersNestedWithin limit rest
termination_by structural members => members

end

/-! ## Reading a document as a value of any kind -/

mutual

/-- The JSON value that the document spells. The members of an object are put in
order; of a repeated key the last value stays. -/
def value : Document → Except Problem Json
  | null => .ok .null
  | boolean value => .ok (.boolean value)
  | integer value => .ok (.integer value)
  | float value => .ok (.float value)
  | text value => .ok (.text value)
  | bare written => Yaml.Scalar.value written
  | sequence _ items ending => do
      let values ← itemValues items
      ending.reached
      return .array values
  | mapping members ending => do
      let entries ← memberValues members
      ending.reached
      return .object (Keyed.ofList entries)
  | buried _ _ => .error (.malformed .tooDeep)
  | faulty reading _ => .error reading
termination_by structural document => document

def itemValues : List Document → Except Problem (List Json)
  | [] => .ok []
  | item :: rest => do
      let value ← item.value
      let values ← itemValues rest
      return value :: values
termination_by structural items => items

def memberValues :
    List (Except Problem String × Document) → Except Problem (List (String × Json))
  | [] => .ok []
  | (key, member) :: rest => do
      let name ← key
      let value ← member.value
      let entries ← memberValues rest
      return (name, value) :: entries
termination_by structural members => members

end

/-! ## Reading a document as something wanted -/

def unwanted (document : Document) (wanted : Wanted) : Problem :=
  match document with
  | buried found _ =>
      if wanted.admits found then .malformed .tooDeep else .wrongKind found wanted
  | faulty reading _ => reading
  | other => .wrongKind other.found wanted

/-- A text. An unquoted scalar gives the text as it is written. -/
def asText : Document → Except Problem String
  | text value => .ok value
  | bare written => .ok written
  | other => .error (other.unwanted .text)

def asNumber : Document → Except Problem Binary64
  | integer value => .ok (.ofInt value)
  | float value => .ok value
  | bare written =>
      match Yaml.Scalar.float? written with
      | some value => .ok value
      | none => .error ((bare written).unwanted .number)
  | other => .error (other.unwanted .number)

def asOptional {α : Type} (read : Document → Except Problem α) (document : Document) :
    Except Problem (Option α) :=
  match document with
  | null => .ok none
  | bare written =>
      if Yaml.Scalar.isNull written then .ok none else (read (bare written)).map some
  | other => (read other).map some

def asList {α : Type} (read : Document → Except Problem α) (document : Document) :
    Except Problem (List α) :=
  match document with
  | sequence _ items ending => do
      let values ← items.mapM read
      ending.reached
      return values
  | bare "" => .ok []
  | other => .error (other.unwanted .sequence)

def asEntries {α : Type} (read : Document → Except Problem α) (document : Document) :
    Except Problem (List (String × α)) :=
  match document with
  | mapping members ending => do
      let entries ← members.mapM fun (key, member) => do
        let name ← key
        let value ← read member
        return (name, value)
      ending.reached
      return entries
  | bare "" => .ok []
  | other => .error (other.unwanted .mapping)

end Document

end Sociogram
