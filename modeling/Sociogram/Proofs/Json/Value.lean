import Sociogram.Proofs.Json.Numeral
import Sociogram.Rule.Reading

/-!
The inside of JSON values: their parts, how deep they are nested, and what a value is
that has been kept after reading.
-/

namespace Sociogram

namespace Json

/-! ## Induction -/

@[elab_as_elim]
theorem inductionOn {motive : Json → Prop} (value : Json)
    (null : motive .null)
    (boolean : ∀ value, motive (.boolean value))
    (integer : ∀ value, motive (.integer value))
    (float : ∀ value, motive (.float value))
    (text : ∀ value, motive (.text value))
    (array : ∀ items : List Json, (∀ item ∈ items, motive item) → motive (.array items))
    (object : ∀ members : List (String × Json),
      (∀ member ∈ members, motive member.2) → motive (.object members)) :
    motive value := by
  refine Json.rec (motive_1 := motive)
    (motive_2 := fun items => ∀ item ∈ items, motive item)
    (motive_3 := fun members => ∀ member ∈ members, motive member.2)
    (motive_4 := fun member => motive member.2)
    null boolean integer float text array object ?_ ?_ ?_ ?_ ?_ value
  · simp
  · intro item items first rest
    exact List.forall_mem_cons.mpr ⟨first, rest⟩
  · simp
  · intro member members first rest
    exact List.forall_mem_cons.mpr ⟨first, rest⟩
  · exact fun _ _ induction => induction

/-! ## Parts -/

mutual

/-- The value and all values within it, at any depth. -/
def parts : Json → List Json
  | array items => array items :: partsOfItems items
  | object members => object members :: partsOfMembers members
  | other => [other]
termination_by structural value => value

def partsOfItems : List Json → List Json
  | [] => []
  | item :: rest => item.parts ++ partsOfItems rest
termination_by structural items => items

def partsOfMembers : List (String × Json) → List Json
  | [] => []
  | (_, value) :: rest => value.parts ++ partsOfMembers rest
termination_by structural members => members

end

theorem mem_parts_array {part : Json} {items : List Json} :
    part ∈ (array items).parts ↔ part = array items ∨ ∃ item ∈ items, part ∈ item.parts := by
  have inside : part ∈ partsOfItems items ↔ ∃ item ∈ items, part ∈ item.parts := by
    induction items with
    | nil => simp [partsOfItems]
    | cons item rest induction => simp [partsOfItems, induction]
  rw [parts, List.mem_cons, inside]

theorem mem_parts_object {part : Json} {members : List (String × Json)} :
    part ∈ (object members).parts ↔
      part = object members ∨ ∃ member ∈ members, part ∈ member.2.parts := by
  have inside : part ∈ partsOfMembers members ↔ ∃ member ∈ members, part ∈ member.2.parts := by
    induction members with
    | nil => simp [partsOfMembers]
    | cons member rest induction => simp [partsOfMembers, induction]
  rw [parts, List.mem_cons, inside]

/-! ## Depth -/

mutual

def depth : Json → Nat
  | array items => depthOfItems items + 1
  | object members => depthOfMembers members + 1
  | _ => 0
termination_by structural value => value

def depthOfItems : List Json → Nat
  | [] => 0
  | item :: rest => max item.depth (depthOfItems rest)
termination_by structural items => items

def depthOfMembers : List (String × Json) → Nat
  | [] => 0
  | (_, value) :: rest => max value.depth (depthOfMembers rest)
termination_by structural members => members

end

theorem depth_array_le {items : List Json} {limit : Nat} :
    (array items).depth ≤ limit + 1 ↔ ∀ item ∈ items, item.depth ≤ limit := by
  rw [depth, Nat.add_le_add_iff_right]
  induction items with
  | nil => simp [depthOfItems]
  | cons item rest induction => simp [depthOfItems, induction]

theorem depth_object_le {members : List (String × Json)} {limit : Nat} :
    (object members).depth ≤ limit + 1 ↔ ∀ member ∈ members, member.2.depth ≤ limit := by
  rw [depth, Nat.add_le_add_iff_right]
  induction members with
  | nil => simp [depthOfMembers]
  | cons member rest induction => simp [depthOfMembers, induction]

/-! ## Tests of all parts -/

/-- Every part of the value passes a test. -/
def Throughout (test : Json → Prop) (value : Json) : Prop := ∀ part ∈ value.parts, test part

instance (test : Json → Prop) [DecidablePred test] (value : Json) :
    Decidable (value.Throughout test) :=
  inferInstanceAs (Decidable (∀ part ∈ value.parts, test part))

theorem throughout_array {test : Json → Prop} {items : List Json} :
    (array items).Throughout test ↔
      test (array items) ∧ ∀ item ∈ items, item.Throughout test := by
  simp only [Throughout, mem_parts_array, forall_eq_or_imp]
  refine and_congr_right fun _ => ⟨?_, ?_⟩
  · exact fun all item member part inside => all part ⟨item, member, inside⟩
  · rintro each part ⟨item, member, inside⟩
    exact each item member part inside

theorem throughout_object {test : Json → Prop} {members : List (String × Json)} :
    (object members).Throughout test ↔
      test (object members) ∧ ∀ member ∈ members, member.2.Throughout test := by
  simp only [Throughout, mem_parts_object, forall_eq_or_imp]
  refine and_congr_right fun _ => ⟨?_, ?_⟩
  · exact fun all member inMembers part inside => all part ⟨member, inMembers, inside⟩
  · rintro each part ⟨member, inMembers, inside⟩
    exact each member inMembers part inside

theorem Throughout.here {test : Json → Prop} {value : Json} (all : value.Throughout test) :
    test value := by
  cases value with
  | array items => exact (throughout_array.mp all).1
  | object members => exact (throughout_object.mp all).1
  | null | boolean | integer | float | text => exact all _ (by simp [parts])

theorem Throughout.imp {test other : Json → Prop} {value : Json} (all : value.Throughout test)
    (implies : ∀ part, test part → other part) : value.Throughout other :=
  fun part inside => implies part (all part inside)

def integerIsRead : Json → Prop
  | integer number => JsonText.IsReadInteger number
  | _ => True

def floatIsFinite : Json → Prop
  | float number => number.isFinite = true
  | _ => True

def membersAscend : Json → Prop
  | object members => Keyed.Ascending members
  | _ => True

/-- A test that only numbers can fail. -/
structure OnlyNumbersFail (test : Json → Prop) : Prop where
  null : test .null
  boolean : ∀ value, test (.boolean value)
  text : ∀ value, test (.text value)
  array : ∀ items, test (.array items)
  object : ∀ members, test (.object members)

theorem onlyNumbersFail_integerIsRead : OnlyNumbersFail integerIsRead := by
  constructor <;> simp [integerIsRead]

theorem onlyNumbersFail_floatIsFinite : OnlyNumbersFail floatIsFinite := by
  constructor <;> simp [floatIsFinite]

theorem OnlyNumbersFail.throughout_null {test : Json → Prop} (only : OnlyNumbersFail test) :
    Json.null.Throughout test := by
  simpa [Throughout, parts] using only.null

theorem OnlyNumbersFail.throughout_text {test : Json → Prop} (only : OnlyNumbersFail test)
    (value : String) : (Json.text value).Throughout test := by
  simpa [Throughout, parts] using only.text value

structure IsKeptPart (value : Json) : Prop where
  integer : value.integerIsRead
  float : value.floatIsFinite
  members : value.membersAscend

/-- A value as it is kept. There are no others: a kept integer has at most 64 bits, a kept
floating-point number is finite, and the keys of a kept object are distinct and in order. -/
def IsStorable (value : Json) : Prop := value.Throughout IsKeptPart

/-! ## Tests and depth -/

/-- Every part of the value passes a test, and the value is nested at most so deeply. -/
structure Within (test : Json → Prop) (limit : Nat) (value : Json) : Prop where
  passes : value.Throughout test
  shallow : value.depth ≤ limit

section

variable {test : Json → Prop} {limit : Nat}

theorem within_of_parts {value : Json} (alone : value.parts = [value]) (flat : value.depth = 0)
    (here : test value) : value.Within test limit where
  passes := by
    rw [Throughout, alone]
    exact List.forall_mem_singleton.mpr here
  shallow := flat ▸ Nat.zero_le limit

theorem within_array {items : List Json} (here : test (array items))
    (each : ∀ item ∈ items, item.Within test limit) :
    (array items).Within test (limit + 1) where
  passes := throughout_array.mpr ⟨here, fun item member => (each item member).passes⟩
  shallow := depth_array_le.mpr fun item member => (each item member).shallow

theorem within_object {members : List (String × Json)} (here : test (object members))
    (each : ∀ member ∈ members, member.2.Within test limit) :
    (object members).Within test (limit + 1) where
  passes := throughout_object.mpr ⟨here, fun member inside => (each member inside).passes⟩
  shallow := depth_object_le.mpr fun member inside => (each member inside).shallow

theorem Within.items {items : List Json} (within : (array items).Within test limit) :
    ∃ below, limit = below + 1 ∧ ∀ item ∈ items, item.Within test below := by
  cases limit with
  | zero => exact absurd within.shallow (by simp [depth])
  | succ below =>
      exact ⟨below, rfl, fun item member =>
        ⟨(throughout_array.mp within.passes).2 item member,
          depth_array_le.mp within.shallow item member⟩⟩

theorem Within.members {members : List (String × Json)}
    (within : (object members).Within test limit) :
    ∃ below, limit = below + 1 ∧ ∀ member ∈ members, member.2.Within test below := by
  cases limit with
  | zero => exact absurd within.shallow (by simp [depth])
  | succ below =>
      exact ⟨below, rfl, fun member inside =>
        ⟨(throughout_object.mp within.passes).2 member inside,
          depth_object_le.mp within.shallow member inside⟩⟩

theorem Within.imp {other : Json → Prop} {value : Json} (within : value.Within test limit)
    (implies : ∀ part, test part → other part) : value.Within other limit :=
  ⟨within.passes.imp implies, within.shallow⟩

end

end Json

end Sociogram
