import Sociogram.Proofs.Json.Written

/-!
JSON values that are kept after reading. A kept value has finite numbers and objects in
order; keeping such a value and looking at it again changes nothing.
-/

namespace Sociogram

/-! ## Lists whose items stay -/

theorem map_eq_self {Item : Type} {image : Item → Item} {items : List Item}
    (each : ∀ item ∈ items, image item = item) : items.map image = items :=
  (List.map_congr_left each).trans (List.map_id' items)

namespace Keyed

variable {Value : Type}

theorem mem_of_mem_ofList {pairs : List (String × Value)} {entry : String × Value}
    (member : entry ∈ ofList pairs) : entry ∈ pairs := by
  suffices general : ∀ entries : List (String × Value),
      entry ∈ pairs.foldl (fun entries pair => insert pair.1 pair.2 entries) entries →
        entry ∈ entries ∨ entry ∈ pairs from
    (general [] member).resolve_left List.not_mem_nil
  clear member
  induction pairs with
  | nil => exact fun _ member => .inl member
  | cons pair rest induction =>
      intro entries member
      rcases induction _ member with inserted | later
      · rcases mem_insert inserted with new | old
        · exact .inr (new ▸ List.mem_cons_self)
        · exact .inl old
      · exact .inr (List.mem_cons_of_mem _ later)

theorem insert_of_forall_lt {key : String} {value : Value} {entries : List (String × Value)}
    (below : ∀ entry ∈ entries, entry.1 < key) :
    insert key value entries = entries ++ [(key, value)] := by
  induction entries with
  | nil => rfl
  | cons entry rest induction =>
      have less := below entry List.mem_cons_self
      rw [insert, if_neg (String.ne_of_lt less).symm, if_neg (String.lt_asymm less),
        induction fun entry member => below entry (List.mem_cons_of_mem _ member),
        List.cons_append]

theorem ofList_of_ascending {entries : List (String × Value)} (ascending : Ascending entries) :
    ofList entries = entries := by
  suffices general : ∀ first rest : List (String × Value), Ascending (first ++ rest) →
      rest.foldl (fun entries pair => insert pair.1 pair.2 entries) first = first ++ rest from
    general [] entries ascending
  intro first rest
  induction rest generalizing first with
  | nil => exact fun _ => (List.append_nil first).symm
  | cons pair rest induction =>
      intro ascending
      have below : ∀ entry ∈ first, entry.1 < pair.1 := fun entry member =>
        (List.pairwise_append.mp ascending).2.2 entry member pair List.mem_cons_self
      have shifted := induction (first ++ [pair]) (by simpa using ascending)
      rw [List.foldl_cons, insert_of_forall_lt below, shifted, List.append_assoc,
        List.singleton_append]

theorem ascending_map {Image : Type} {entries : List (String × Value)} (image : Value → Image) :
    Ascending (entries.map fun (key, value) => (key, image value)) ↔ Ascending entries :=
  List.pairwise_map

end Keyed

namespace Json

/-! ## Values without infinities and NaN -/

theorem itemsWithoutNonFinite_eq_map (items : List Json) :
    itemsWithoutNonFinite items = items.map withoutNonFinite := by
  induction items with
  | nil => rfl
  | cons item rest induction => rw [itemsWithoutNonFinite, induction, List.map_cons]

theorem membersWithoutNonFinite_eq_map (members : List (String × Json)) :
    membersWithoutNonFinite members =
      members.map fun (key, value) => (key, value.withoutNonFinite) := by
  induction members with
  | nil => rfl
  | cons member rest induction => rw [membersWithoutNonFinite, induction, List.map_cons]

theorem withoutNonFinite_eq_self {value : Json} (finite : value.Throughout floatIsFinite) :
    value.withoutNonFinite = value := by
  induction value using inductionOn with
  | null | boolean | integer | text => rw [withoutNonFinite] <;> simp
  | float value => rw [withoutNonFinite, if_pos (show value.isFinite = true from finite.here)]
  | array items induction =>
      have each := (throughout_array.mp finite).2
      rw [withoutNonFinite, itemsWithoutNonFinite_eq_map,
        map_eq_self fun item member => induction item member (each item member)]
  | object members induction =>
      have each := (throughout_object.mp finite).2
      rw [withoutNonFinite, membersWithoutNonFinite_eq_map]
      exact congrArg object (map_eq_self fun member inside =>
        Prod.ext rfl (induction member inside (each member inside)))

/-! ## Values that are kept -/

mutual

/-- The value that is kept of one that is written and read: null in place of the numbers
that JSON cannot write, and the members of every object in order. -/
def kept : Json → Json
  | float value => if value.isFinite then float value else null
  | array items => array (keptItems items)
  | object members => object (Keyed.ofList (keptMembers members))
  | other => other
termination_by structural value => value

def keptItems : List Json → List Json
  | [] => []
  | item :: rest => item.kept :: keptItems rest
termination_by structural items => items

def keptMembers : List (String × Json) → List (String × Json)
  | [] => []
  | (key, value) :: rest => (key, value.kept) :: keptMembers rest
termination_by structural members => members

end

theorem keptItems_eq_map (items : List Json) : keptItems items = items.map kept := by
  induction items with
  | nil => rfl
  | cons item rest induction => rw [keptItems, induction, List.map_cons]

theorem keptMembers_eq_map (members : List (String × Json)) :
    keptMembers members = members.map fun (key, value) => (key, value.kept) := by
  induction members with
  | nil => rfl
  | cons member rest induction => rw [keptMembers, induction, List.map_cons]

theorem value_asWritten (value : Json) : value.asWritten.value = .ok value.kept := by
  induction value using inductionOn with
  | null | boolean | integer | text => rw [asWritten, Document.value, kept] <;> simp
  | float value =>
      rw [asWritten, kept]
      split <;> rfl
  | array items induction =>
      rw [asWritten, itemsAsWritten_eq_map, Document.value, Document.itemValues_eq_mapM,
        mapM_map_ok kept induction, kept, keptItems_eq_map]
      rfl
  | object members induction =>
      rw [asWritten, membersAsWritten_eq_map, Document.value, Document.memberValues_eq_mapM,
        mapM_map_ok (fun (key, value) => (key, value.kept)) fun member inside => by
          simp [induction member inside], kept, keptMembers_eq_map]
      rfl

theorem value_ofJson {value : Json} (ascend : value.Throughout membersAscend) :
    (Document.ofJson value).value = .ok value := by
  induction value using inductionOn with
  | null | boolean | integer | float | text => rfl
  | array items induction =>
      have each := (throughout_array.mp ascend).2
      rw [Document.ofJson, Document.ofJsonItems_eq_map, Document.value,
        Document.itemValues_eq_mapM,
        mapM_map_ok id fun item member => induction item member (each item member), List.map_id]
      rfl
  | object members induction =>
      obtain ⟨ascending, each⟩ := throughout_object.mp ascend
      rw [Document.ofJson, Document.ofJsonMembers_eq_map, Document.value,
        Document.memberValues_eq_mapM,
        mapM_map_ok id fun member inside => by
          simp [induction member inside (each member inside)], List.map_id]
      rw [ok_bind, Keyed.ofList_of_ascending ascending]
      rfl

theorem kept_eq_self {value : Json} (finite : value.Throughout floatIsFinite)
    (ascend : value.Throughout membersAscend) : value.kept = value := by
  induction value using inductionOn with
  | null | boolean | integer | text => rw [kept] <;> simp
  | float value => rw [kept, if_pos (show value.isFinite = true from finite.here)]
  | array items induction =>
      have eachFinite := (throughout_array.mp finite).2
      have eachAscends := (throughout_array.mp ascend).2
      rw [kept, keptItems_eq_map, map_eq_self fun item member =>
        induction item member (eachFinite item member) (eachAscends item member)]
  | object members induction =>
      have eachFinite := (throughout_object.mp finite).2
      obtain ⟨ascending, eachAscends⟩ := throughout_object.mp ascend
      have same : members.map (fun (key, value) => (key, value.kept)) = members :=
        map_eq_self fun member inside => Prod.ext rfl
          (induction member inside (eachFinite member inside) (eachAscends member inside))
      rw [kept, keptMembers_eq_map, same, Keyed.ofList_of_ascending ascending]

theorem floatIsFinite_kept (value : Json) : value.kept.Throughout floatIsFinite := by
  induction value using inductionOn with
  | null | boolean | integer | text => simp [kept, Throughout, parts, floatIsFinite]
  | float value =>
      rw [kept]
      split <;> simp_all [Throughout, parts, floatIsFinite]
  | array items induction =>
      rw [kept, keptItems_eq_map, throughout_array]
      exact ⟨trivial, List.forall_mem_map.mpr induction⟩
  | object members induction =>
      rw [kept, keptMembers_eq_map, throughout_object]
      refine ⟨trivial, fun member inside => ?_⟩
      obtain ⟨⟨key, value⟩, original, rfl⟩ := List.mem_map.mp (Keyed.mem_of_mem_ofList inside)
      exact induction (key, value) original

theorem ofDocument_asWritten (value : Json) : ofDocument value.asWritten = .ok value.kept := by
  rw [ofDocument, value_asWritten, map_ok, withoutNonFinite_eq_self value.floatIsFinite_kept]

end Json

/-! ## Lists and records -/

theorem Document.asList_asWritten_iff {Source Value : Type}
    {read : Document → Except Problem Value} {toJson : Source → Json} {image : Source → Value}
    {items : List Source} (test : Source → Prop)
    (each : ∀ item ∈ items, ∀ value,
      read (toJson item).asWritten = .ok value ↔ test item ∧ value = image item)
    (values : List Value) :
    (Json.array (items.map toJson)).asWritten.asList read = .ok values ↔
      (∀ item ∈ items, test item) ∧ values = items.map image := by
  have readsEach : ∀ item ∈ items, ∀ value,
      read ((Json.asWritten ∘ toJson) item) = .ok value ↔ test item ∧ value = image item := each
  rw [Json.asWritten, Json.itemsAsWritten_eq_map, List.map_map, asList]
  simp only [bind_eq_ok, pure_eq_ok, Except.ok.injEq, Ending.reached, exists_const, true_and,
    exists_eq_right, mapM_map_eq_ok test readsEach]

theorem Document.asList_asWritten {Source Value : Type} {read : Document → Except Problem Value}
    {toJson : Source → Json} {image : Source → Value} {items : List Source}
    (each : ∀ item ∈ items, read (toJson item).asWritten = .ok (image item)) :
    (Json.array (items.map toJson)).asWritten.asList read = .ok (items.map image) := by
  refine (asList_asWritten_iff (fun _ => True) (fun item member value => ?_) _).mpr
    ⟨fun _ _ => trivial, rfl⟩
  rw [each item member, Except.ok.injEq, true_and, eq_comm]

namespace RecordForm

variable {Draft Value : Type} (form : RecordForm Draft Value)

theorem read_mapping (document : Json → Document) (members : List (String × Json)) :
    form.read (.mapping (members.map fun (key, value) => (.ok key, document value)) .closed) =
      members.foldlM (fun draft (key, value) => form.take draft key (document value)) form.blank
        >>= form.complete := by
  rw [read, takeMembers, List.foldlM_map]
  rfl

theorem read_asWritten (members : List (String × Json)) :
    form.read (Json.object members).asWritten =
      members.foldlM (fun draft (key, value) => form.take draft key value.asWritten) form.blank
        >>= form.complete := by
  rw [Json.asWritten, Json.membersAsWritten_eq_map, read_mapping]

/-- From a draft, all members of a kept object can be taken, and leave another draft. -/
def Takes (draft : Draft) (members : List (String × Json)) (filled : Draft) : Prop :=
  members.foldlM (fun draft (key, value) => form.take draft key (.ofJson value)) draft =
    .ok filled

variable {form}

theorem Takes.single {draft filled : Draft} {key : String} {value : Json}
    (takes : form.take draft key (.ofJson value) = .ok filled) :
    form.Takes draft [(key, value)] filled := by
  simp [Takes, takes]

theorem Takes.append {draft middle filled : Draft} {members others : List (String × Json)}
    (first : form.Takes draft members middle) (second : form.Takes middle others filled) :
    form.Takes draft (members ++ others) filled := by
  rw [Takes] at first second ⊢
  rw [List.foldlM_append, first, ok_bind, second]

theorem Takes.read {members : List (String × Json)} {filled : Draft}
    (takes : form.Takes form.blank members filled) :
    form.read (.ofJson (.object members)) = form.complete filled := by
  rw [Takes] at takes
  rw [Document.ofJson, Document.ofJsonMembers_eq_map, read_mapping, takes, ok_bind]

end RecordForm

end Sociogram
