import Sociogram.Number.Binary64

/-!
JSON values. An object is the list of its members in the order in which they are
written; integers stay apart from other numbers.
-/

namespace Sociogram

inductive Json where
  | null
  | boolean (value : Bool)
  | integer (value : Int)
  | float (value : Binary64)
  | text (value : String)
  | array (items : List Json)
  | object (members : List (String × Json))

namespace Json

instance : Inhabited Json := ⟨null⟩

mutual

def same : Json → Json → Bool
  | null, null => true
  | boolean left, boolean right => left == right
  | integer left, integer right => left == right
  | float left, float right => left.sameValue right
  | text left, text right => left == right
  | array items, array others => sameItems items others
  | object members, object others => sameMembers members others
  | _, _ => false
termination_by structural value => value

def sameItems : List Json → List Json → Bool
  | [], [] => true
  | item :: items, other :: others => same item other && sameItems items others
  | _, _ => false
termination_by structural items => items

def sameMembers : List (String × Json) → List (String × Json) → Bool
  | [], [] => true
  | (key, value) :: members, (otherKey, other) :: others =>
      key == otherKey && same value other && sameMembers members others
  | _, _ => false
termination_by structural members => members

end

end Json

end Sociogram
