import Sociogram.Document.Basic

/-!
Reading records: mappings from field names to values, or lists of the values in
the order of the fields.
-/

namespace Sociogram

/-- How a record of type `α` is read. Fields are taken one by one into a draft. -/
structure RecordForm (Draft α : Type) where
  /-- The name by which messages call the record. -/
  name : String
  /-- The fields in their order, each with whether it may be left out. -/
  fields : List (String × Bool)
  /-- The draft without any field. -/
  blank : Draft
  /-- Take the field with a given name. Unknown fields are passed over. -/
  take : Draft → String → Document → Except Problem Draft
  /-- The record, unless a field is missing. -/
  complete : Draft → Except Problem α

namespace RecordForm

variable {Draft α : Type}

/-! ## Fields of a draft -/

/-- Read a field that has not been given yet. A repeated field is a problem before
its value is looked at. -/
def once {β : Type} (name : String) (given : Option β)
    (read : Document → Except Problem β) (document : Document) :
    Except Problem (Option β) :=
  match given with
  | some _ => .error (.duplicateField name)
  | none => (read document).map some

def required {β : Type} (name : String) (given : Option β) : Except Problem β :=
  match given with
  | some value => .ok value
  | none => .error (.missingField name)

/-! ## Records spelled as lists -/

/-- Take the fields from the items in turn, and leave the items after them. When
the items end early the other fields have to be ones that may be left out. -/
def takeInOrder (form : RecordForm Draft α) (ending : Ending) :
    List (String × Bool) → Nat → Draft → List Document → Except Problem (Draft × List Document)
  | [], _, draft, items => .ok (draft, items)
  | (_, mayBeMissing) :: fields, position, draft, [] => do
      ending.reached
      if mayBeMissing then takeInOrder form ending fields (position + 1) draft []
      else .error (.missingItems position form.name form.fields.length)
  | (name, _) :: fields, position, draft, item :: items => do
      let filled ← form.take draft name item
      takeInOrder form ending fields (position + 1) filled items

/-- After the last field of a list in a text, its end is all that is looked for:
whatever else starts there is called trailing. -/
def closing (problem : Problem) : Problem :=
  if problem = .malformed .endInValue ∨ problem = .malformed .listSeparatorExpected then
    .malformed .trailingCharacters
  else problem

def noSurplus (listing : Listing) (count : Nat) (surplus : List Document) (ending : Ending) :
    Except Problem Unit :=
  match surplus with
  | [] => ending.reached.mapError closing
  | _ :: _ =>
      match listing with
      | .stored => .error (.surplusItems count)
      | _ => .error (.malformed .trailingCharacters)

/-! ## Records -/

def takeMembers (form : RecordForm Draft α)
    (members : List (Except Problem String × Document)) : Except Problem Draft :=
  members.foldlM
    (fun draft (key, value) => do
      let name ← key
      form.take draft name value)
    form.blank

def read (form : RecordForm Draft α) (document : Document) : Except Problem α :=
  match document with
  | .mapping members ending => do
      let draft ← form.takeMembers members
      ending.reached
      form.complete draft
  | .bare "" => form.complete form.blank
  | .sequence listing items ending =>
      if listing = .plain then .error (document.unwanted (.record form.name))
      else do
        let (draft, surplus) ← form.takeInOrder ending form.fields 0 form.blank items
        noSurplus listing items.length surplus ending
        form.complete draft
  | other => .error (other.unwanted (.record form.name))

end RecordForm

end Sociogram
