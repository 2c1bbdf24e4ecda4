import Mathlib.Data.List.Nodup
import Mathlib.Data.String.Basic
import Sociogram.Network.Reading
import Sociogram.Proofs.Document.ReadAlike
import Sociogram.Proofs.Json.Kept

/-!
Mappings whose members are written in another order. As long as no key is repeated, the same
value and the same attributes are read.
-/

namespace Sociogram

/-! ## Entries in the order of their keys -/

namespace Keyed

variable {Value : Type}

theorem insert_comm {key other : String} (different : key ≠ other) (value otherValue : Value)
    (entries : List (String × Value)) :
    insert key value (insert other otherValue entries) =
      insert other otherValue (insert key value entries) := by
  induction entries with
  | nil => grind [insert]
  | cons head rest induction =>
      obtain ⟨third, kept⟩ := head
      grind [insert]

theorem insert_perm {key : String} {entries : List (String × Value)}
    (new : ∀ entry ∈ entries, entry.1 ≠ key) (value : Value) :
    (insert key value entries).Perm ((key, value) :: entries) := by
  induction entries with
  | nil => exact .refl _
  | cons head rest induction =>
      obtain ⟨different, newToRest⟩ := List.forall_mem_cons.mp new
      rw [insert, if_neg different.symm]
      split
      · exact .refl _
      · exact ((induction newToRest).cons head).trans (.swap _ _ _)

theorem ofList_of_perm {pairs others : List (String × Value)}
    (distinct : (pairs.map Prod.fst).Nodup) (perm : pairs.Perm others) :
    ofList pairs = ofList others := by
  refine perm.foldl_eq' (fun pair member other otherMember entries => ?_) []
  by_cases equal : pair.1 = other.1
  · rw [List.inj_on_of_nodup_map distinct member otherMember equal]
  · exact insert_comm (Ne.symm equal) _ _ _

theorem ofList_cons_perm {key : String} {pairs : List (String × Value)}
    (new : key ∉ pairs.map Prod.fst) (value : Value) :
    (ofList ((key, value) :: pairs)).Perm ((key, value) :: ofList pairs) := by
  have last : ∀ entries : List (String × Value),
      pairs.foldl (fun entries pair => insert pair.1 pair.2 entries)
          (insert key value entries) =
        insert key value (pairs.foldl (fun entries pair => insert pair.1 pair.2 entries)
          entries) := by
    induction pairs with
    | nil => exact fun _ => rfl
    | cons pair rest induction =>
        intro entries
        simp only [List.map_cons, List.mem_cons, not_or] at new
        rw [List.foldl_cons, insert_comm (Ne.symm new.1), induction new.2, List.foldl_cons]
  rw [ofList, List.foldl_cons, last []]
  refine insert_perm (fun entry member equal => new ?_) value
  exact equal ▸ List.mem_map_of_mem (mem_of_mem_ofList member)

end Keyed

/-! ## Items that are read in another order -/

theorem exists_perm_of_mapM {Fault Input Value : Type} {read : Input → Except Fault Value}
    {items others : List Input} (perm : others.Perm items) {values : List Value}
    (reads : items.mapM read = .ok values) :
    ∃ readValues, others.mapM read = .ok readValues ∧ readValues.Perm values := by
  obtain ⟨readValues, each, samePerm⟩ := List.perm_comp_forall₂ perm (mapM_eq_ok.mp reads)
  exact ⟨readValues, mapM_eq_ok.mpr each, samePerm⟩

namespace Document

def keysOf (members : List (Except Problem String × Document)) : List String :=
  members.filterMap fun member => member.1.toOption

theorem keysOf_membersNestedWithin (limit : Nat)
    (members : List (Except Problem String × Document)) :
    keysOf (membersNestedWithin limit members) = keysOf members := by
  rw [keysOf, membersNestedWithin_eq_map, List.filterMap_map]
  rfl

/-! ## Entries of a mapping -/

def entriesOf {Value : Type} (read : Document → Except Problem Value)
    (members : List (Except Problem String × Document)) :
    Except Problem (List (String × Value)) :=
  members.mapM fun (key, member) => do
    let name ← key
    let value ← read member
    return (name, value)

section

variable {Value : Type} {read : Document → Except Problem Value}
  {members others : List (Except Problem String × Document)}

theorem keys_of_entriesOf {entries : List (String × Value)}
    (reads : entriesOf read members = .ok entries) : entries.map Prod.fst = keysOf members := by
  have each := mapM_eq_ok.mp reads
  clear reads
  induction each with
  | nil => rfl
  | cons here _ induction =>
      simp only [bind_eq_ok] at here
      obtain ⟨name, key, value, _, equal⟩ := here
      obtain rfl := Except.ok.inj equal
      rw [List.map_cons, induction, keysOf, keysOf, List.filterMap_cons_some]
      rw [key]
      rfl

theorem sameOutcome_entriesOf {Result : Type} {image : List (String × Value) → Result}
    (ordered : ∀ {entries otherEntries : List (String × Value)},
      (entries.map Prod.fst).Nodup → entries.Perm otherEntries →
        image entries = image otherEntries)
    (distinct : (keysOf members).Nodup) (perm : members.Perm others) :
    SameOutcome unreported ((entriesOf read members).map image)
      ((entriesOf read others).map image) := by
  rw [sameOutcome_unreported_iff]
  intro result
  simp only [map_eq_ok]
  constructor
  · rintro ⟨entries, reads, rfl⟩
    obtain ⟨otherEntries, readsOthers, same⟩ := exists_perm_of_mapM perm.symm reads
    exact ⟨otherEntries, readsOthers,
      (ordered (keys_of_entriesOf reads ▸ distinct) same.symm).symm⟩
  · rintro ⟨otherEntries, readsOthers, rfl⟩
    obtain ⟨entries, reads, same⟩ := exists_perm_of_mapM perm readsOthers
    exact ⟨entries, reads, ordered (keys_of_entriesOf reads ▸ distinct) same⟩

end

/-! ## Mappings -/

section

variable {members others : List (Except Problem String × Document)}

theorem membersNestedWithin_perm (limit : Nat) (perm : members.Perm others) :
    (membersNestedWithin limit members).Perm (membersNestedWithin limit others) := by
  rw [membersNestedWithin_eq_map, membersNestedWithin_eq_map]
  exact perm.map _

theorem skippedAlike_of_perm (perm : members.Perm others) (ending : Ending) :
    SkippedAlike unreported (.mapping members ending) (.mapping others ending) := by
  rw [SkippedAlike, skipping?, skipping?, Option.map_or, Option.map_or]
  congr 1
  induction perm with
  | nil => rfl
  | cons member _ induction =>
      rw [skippingMembers?, skippingMembers?, Option.map_or, Option.map_or, induction]
  | swap first second rest =>
      simp only [skippingMembers?, Option.map_or]
      cases first.2.skipping? <;> cases second.2.skipping? <;> rfl
  | trans _ _ induction next => exact induction.trans next

theorem value_closed (members : List (Except Problem String × Document)) :
    (mapping members .closed).value =
      (entriesOf value members).map fun entries => .object (Keyed.ofList entries) := by
  rw [value, memberValues_eq_mapM]
  rfl

theorem asEntries_closed {Value : Type} (read : Document → Except Problem Value)
    (members : List (Except Problem String × Document)) :
    (mapping members .closed).asEntries read = entriesOf read members := by
  rw [asEntries]
  exact bind_pure _

theorem readAlike_value_of_perm (distinct : (keysOf members).Nodup)
    (perm : members.Perm others) :
    ReadAlike unreported 0 value (.mapping members .closed) (.mapping others .closed) := by
  refine .mapping (fun _ _ => rfl) fun limit _ => ?_
  rw [value_closed, value_closed]
  exact sameOutcome_entriesOf
    (fun distinct same => congrArg Json.object (Keyed.ofList_of_perm distinct same))
    (keysOf_membersNestedWithin limit members ▸ distinct) (membersNestedWithin_perm limit perm)

theorem readAlike_attributes_of_perm (distinct : (keysOf members).Nodup)
    (perm : members.Perm others) :
    ReadAlike unreported 0 Attributes.ofDocument (.mapping members .closed)
      (.mapping others .closed) := by
  refine .mapping (fun _ _ => rfl) fun limit _ => ?_
  have order : ∀ {entries others : List (String × AttributeValue)},
      (entries.map Prod.fst).Nodup → entries.Perm others →
        Attributes.ofList entries = Attributes.ofList others := by
    intro entries others distinct same
    simp only [Attributes.ofList, Keyed.ofList_of_perm distinct same]
  rw [Attributes.ofDocument, Attributes.ofDocument, asEntries_closed, asEntries_closed]
  exact sameOutcome_entriesOf order (keysOf_membersNestedWithin limit members ▸ distinct)
    (membersNestedWithin_perm limit perm)

end

end Document

end Sociogram
