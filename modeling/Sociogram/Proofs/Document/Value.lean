import Mathlib.Data.List.Forall2
import Sociogram.Json.Stored

/-!
Outcomes of reading, and the documents within a document. Reading lists goes item by
item, and succeeds when every item can be read.
-/

namespace Sociogram

/-! ## Outcomes -/

section

variable {Fault Input Value Result : Type}

@[simp]
theorem ok_bind (value : Value) (next : Value → Except Fault Result) :
    (Except.ok value >>= next) = next value := rfl

@[simp]
theorem error_bind (fault : Fault) (next : Value → Except Fault Result) :
    (Except.error fault >>= next) = .error fault := rfl

@[simp]
theorem pure_eq_ok (value : Value) : (pure value : Except Fault Value) = .ok value := rfl

@[simp]
theorem map_ok (value : Value) (image : Value → Result) :
    (Except.ok value : Except Fault Value).map image = .ok (image value) := rfl

theorem bind_eq_ok {first : Except Fault Value} {next : Value → Except Fault Result}
    {result : Result} :
    (first >>= next) = .ok result ↔ ∃ value, first = .ok value ∧ next value = .ok result := by
  cases first with
  | error fault => simp
  | ok value => simp

theorem map_eq_ok {first : Except Fault Value} {image : Value → Result} {result : Result} :
    first.map image = .ok result ↔ ∃ value, first = .ok value ∧ image value = result := by
  cases first with
  | error fault => simp [Except.map]
  | ok value => simp

theorem mapM_eq_ok {read : Input → Except Fault Value} {items : List Input}
    {values : List Value} :
    items.mapM read = .ok values ↔
      List.Forall₂ (fun item value => read item = .ok value) items values := by
  induction items generalizing values with
  | nil => simp [eq_comm]
  | cons item rest induction =>
      rw [List.mapM_cons, List.forall₂_cons_left_iff]
      simp only [bind_eq_ok, induction, pure_eq_ok, Except.ok.injEq]
      exact ⟨fun ⟨value, here, others, there, equal⟩ => ⟨value, others, here, there, equal.symm⟩,
        fun ⟨value, others, here, there, equal⟩ => ⟨value, here, others, there, equal.symm⟩⟩

theorem exists_of_mem_values {read : Input → Except Fault Value} {items : List Input}
    {values : List Value} (succeeds : items.mapM read = .ok values) {value : Value}
    (member : value ∈ values) : ∃ item ∈ items, read item = .ok value := by
  have related := mapM_eq_ok.mp succeeds
  clear succeeds
  induction related with
  | nil => simp at member
  | cons here _ induction =>
      rcases List.mem_cons.mp member with equal | later
      · exact ⟨_, List.mem_cons_self, equal ▸ here⟩
      · obtain ⟨item, inRest, reads⟩ := induction later
        exact ⟨item, List.mem_cons_of_mem _ inRest, reads⟩

theorem exists_of_mem_items {read : Input → Except Fault Value} {items : List Input}
    {values : List Value} (reads : items.mapM read = .ok values) {item : Input}
    (member : item ∈ items) : ∃ value, read item = .ok value := by
  have each := mapM_eq_ok.mp reads
  clear reads
  induction each with
  | nil => cases member
  | cons here _ induction =>
      rcases List.mem_cons.mp member with equal | later
      · exact ⟨_, equal ▸ here⟩
      · exact induction later

theorem exists_of_mem_steps {State : Type} {take : State → Input → Except Fault State}
    {items : List Input} {start result : State} (takes : items.foldlM take start = .ok result)
    {item : Input} (member : item ∈ items) : ∃ before after, take before item = .ok after := by
  induction items generalizing start with
  | nil => cases member
  | cons first rest induction =>
      rw [List.foldlM_cons, bind_eq_ok] at takes
      obtain ⟨next, takesFirst, takesRest⟩ := takes
      rcases List.mem_cons.mp member with equal | later
      · exact ⟨start, next, equal ▸ takesFirst⟩
      · exact induction takesRest later

theorem mapM_map_eq_ok {Source : Type} {read : Input → Except Fault Value}
    {source : Source → Input} {image : Source → Value} {items : List Source}
    (test : Source → Prop)
    (each : ∀ item ∈ items, ∀ value,
      read (source item) = .ok value ↔ test item ∧ value = image item) (values : List Value) :
    (items.map source).mapM read = .ok values ↔
      (∀ item ∈ items, test item) ∧ values = items.map image := by
  induction items generalizing values with
  | nil => simp [eq_comm]
  | cons item rest induction =>
      have inRest := induction fun item member => each item (List.mem_cons_of_mem _ member)
      simp only [List.map_cons, List.mapM_cons, bind_eq_ok, each item List.mem_cons_self, inRest,
        pure_eq_ok, Except.ok.injEq, List.forall_mem_cons]
      constructor
      · rintro ⟨_, ⟨here, rfl⟩, _, ⟨there, rfl⟩, rfl⟩
        exact ⟨⟨here, there⟩, rfl⟩
      · rintro ⟨⟨here, there⟩, rfl⟩
        exact ⟨_, ⟨here, rfl⟩, _, ⟨there, rfl⟩, rfl⟩

theorem mapM_map_ok {Source : Type} {read : Input → Except Fault Value} {source : Source → Input}
    {items : List Source} (image : Source → Value)
    (each : ∀ item ∈ items, read (source item) = .ok (image item)) :
    (items.map source).mapM read = .ok (items.map image) := by
  refine (mapM_map_eq_ok (fun _ => True) (fun item member value => ?_) _).mpr
    ⟨fun _ _ => trivial, rfl⟩
  rw [each item member, Except.ok.injEq, true_and, eq_comm]

end

/-! ## Documents within a document -/

namespace Document

theorem itemsNestedWithin_eq_map (limit : Nat) (items : List Document) :
    itemsNestedWithin limit items = items.map (nestedWithin limit) := by
  induction items with
  | nil => rfl
  | cons item rest induction => rw [itemsNestedWithin, induction, List.map_cons]

theorem membersNestedWithin_eq_map (limit : Nat)
    (members : List (Except Problem String × Document)) :
    membersNestedWithin limit members =
      members.map fun (key, value) => (key, value.nestedWithin limit) := by
  induction members with
  | nil => rfl
  | cons member rest induction => rw [membersNestedWithin, induction, List.map_cons]

theorem itemValues_eq_mapM (items : List Document) : itemValues items = items.mapM value := by
  induction items with
  | nil => rfl
  | cons item rest induction => rw [itemValues, induction, List.mapM_cons]

theorem memberValues_eq_mapM (members : List (Except Problem String × Document)) :
    memberValues members =
      members.mapM fun (key, member) => do
        let name ← key
        let value ← member.value
        return (name, value) := by
  induction members with
  | nil => rfl
  | cons member rest induction =>
      rw [memberValues, induction, List.mapM_cons]
      simp only [bind_assoc, pure_bind]

theorem ofJsonItems_eq_map (items : List Json) : ofJsonItems items = items.map ofJson := by
  induction items with
  | nil => rfl
  | cons item rest induction => rw [ofJsonItems, induction, List.map_cons]

theorem ofJsonMembers_eq_map (members : List (String × Json)) :
    ofJsonMembers members = members.map fun (key, value) => (.ok key, ofJson value) := by
  induction members with
  | nil => rfl
  | cons member rest induction => rw [ofJsonMembers, induction, List.map_cons]

end Document

end Sociogram
