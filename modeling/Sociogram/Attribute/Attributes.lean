import Sociogram.Keyed
import Sociogram.Attribute.Value

/-!
The attributes of a node or an edge: values under names, each name once, in the
order of the names.
-/

namespace Sociogram

structure Attributes where
  entries : List (String × AttributeValue)
  ascending : Keyed.Ascending entries

namespace Attributes

def empty : Attributes := ⟨[], Keyed.ascending_nil⟩

instance : Inhabited Attributes := ⟨empty⟩

def isEmpty (attributes : Attributes) : Bool := attributes.entries.isEmpty

def insert (attributes : Attributes) (name : String) (value : AttributeValue) :
    Attributes :=
  ⟨Keyed.insert name value attributes.entries,
    Keyed.ascending_insert attributes.ascending⟩

/-- Of a repeated name the last value stays. -/
def ofList (pairs : List (String × AttributeValue)) : Attributes :=
  ⟨Keyed.ofList pairs, Keyed.ascending_ofList pairs⟩

def get? (attributes : Attributes) (name : String) : Option AttributeValue :=
  Keyed.get? name attributes.entries

/-- The value under a name; a name without a value reads as null. -/
def get (attributes : Attributes) (name : String) : AttributeValue :=
  (attributes.get? name).getD .null

def same (attributes others : Attributes) : Bool :=
  attributes.entries.isEqv others.entries fun entry other =>
    entry.1 == other.1 && entry.2.same other.2

end Attributes

end Sociogram
