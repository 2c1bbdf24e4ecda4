import Sociogram.Network.Writing
import Sociogram.Proofs.Document.Bounded
import Sociogram.Proofs.Number.Exact

/-!
Attribute values are read back from their texts, with null in place of the numbers that
JSON cannot write, and from kept JSON values as they are.
-/

namespace Sociogram

namespace AttributeValue

/-! ## Values without infinities and NaN -/

mutual

def withoutNonFinite : AttributeValue → AttributeValue
  | float value => if value.isFinite then float value else null
  | array items => array (itemsWithoutNonFinite items)
  | other => other
termination_by structural value => value

def itemsWithoutNonFinite : List AttributeValue → List AttributeValue
  | [] => []
  | item :: rest => item.withoutNonFinite :: itemsWithoutNonFinite rest
termination_by structural items => items

end

theorem itemsWithoutNonFinite_eq_map (items : List AttributeValue) :
    itemsWithoutNonFinite items = items.map withoutNonFinite := by
  induction items with
  | nil => rfl
  | cons item rest induction => rw [itemsWithoutNonFinite, induction, List.map_cons]

/-! ## Attribute values as JSON values -/

theorem toJsonItems_eq_map (items : List AttributeValue) :
    toJsonItems items = items.map toJson := by
  induction items with
  | nil => rfl
  | cons item rest induction => rw [toJsonItems, induction, List.map_cons]

theorem integerIsRead_toJson (value : AttributeValue) :
    value.toJson.Throughout Json.integerIsRead := by
  induction value using inductionOn with
  | null | boolean | float | text =>
      simp [toJson, Json.Throughout, Json.parts, Json.integerIsRead]
  | integer value =>
      have lower := value.le_toInt
      have upper := value.toInt_lt
      simp only [toJson, Json.Throughout, Json.parts, Json.integerIsRead, JsonText.IsReadInteger,
        List.mem_singleton, forall_eq]
      omega
  | array items induction =>
      rw [toJson, toJsonItems_eq_map, Json.throughout_array]
      exact ⟨trivial, List.forall_mem_map.mpr induction⟩

theorem membersAscend_toJson (value : AttributeValue) :
    value.toJson.Throughout Json.membersAscend := by
  induction value using inductionOn with
  | null | boolean | float | text | integer =>
      simp [toJson, Json.Throughout, Json.parts, Json.membersAscend]
  | array items induction =>
      rw [toJson, toJsonItems_eq_map, Json.throughout_array]
      exact ⟨trivial, List.forall_mem_map.mpr induction⟩

theorem kept_toJson (value : AttributeValue) :
    value.toJson.kept = value.withoutNonFinite.toJson := by
  induction value using inductionOn with
  | null | boolean | text | integer => simp [toJson, Json.kept, withoutNonFinite]
  | float value =>
      rw [toJson, Json.kept, withoutNonFinite]
      split <;> simp [toJson]
  | array items induction =>
      rw [toJson, toJsonItems_eq_map, Json.kept, Json.keptItems_eq_map, withoutNonFinite,
        itemsWithoutNonFinite_eq_map, toJson, toJsonItems_eq_map, List.map_map, List.map_map]
      exact congrArg Json.array (List.map_congr_left induction)

theorem withoutNonFinite_eq_self {value : AttributeValue}
    (finite : value.toJson.Throughout Json.floatIsFinite) : value.withoutNonFinite = value := by
  induction value using inductionOn with
  | null | boolean | text | integer => rw [withoutNonFinite] <;> simp
  | float value =>
      rw [withoutNonFinite, if_pos (show value.isFinite = true from finite.here)]
  | array items induction =>
      rw [toJson, toJsonItems_eq_map, Json.throughout_array] at finite
      have each := List.forall_mem_map.mp finite.2
      rw [withoutNonFinite, itemsWithoutNonFinite_eq_map,
        map_eq_self fun item member => induction item member (each item member)]

/-! ## Values that are read again -/

mutual

/-- What the text of a value is read as: every finite number as its text is read, and null in
place of the others, at any depth. -/
def reread : AttributeValue → AttributeValue
  | float value => if value.isFinite then float value.reread else null
  | array items => array (rereadItems items)
  | other => other
termination_by structural value => value

def rereadItems : List AttributeValue → List AttributeValue
  | [] => []
  | item :: rest => item.reread :: rereadItems rest
termination_by structural items => items

end

theorem rereadItems_eq_map (items : List AttributeValue) :
    rereadItems items = items.map reread := by
  induction items with
  | nil => rfl
  | cons item rest induction => rw [rereadItems, induction, List.map_cons]

theorem toJson_reread (value : AttributeValue) : value.reread.toJson = value.toJson.reread := by
  induction value using inductionOn with
  | null | boolean | text | integer => simp [toJson, Json.reread, reread]
  | float value =>
      rw [toJson, Json.reread, reread]
      split <;> simp [toJson]
  | array items induction =>
      rw [reread, rereadItems_eq_map, toJson, toJsonItems_eq_map, toJson, toJsonItems_eq_map,
        Json.reread, Json.rereadItems_eq_map, List.map_map, List.map_map]
      exact congrArg Json.array (List.map_congr_left induction)

theorem reread_eq_withoutNonFinite {value : AttributeValue}
    (readBack : value.toJson.Throughout Json.floatIsReadBack) :
    value.reread = value.withoutNonFinite := by
  induction value using inductionOn with
  | null | boolean | text | integer => simp [reread, withoutNonFinite]
  | float value =>
      rw [reread, withoutNonFinite]
      split
      · next finite =>
          have same : value.reread = value := readBack.here finite
          rw [same]
      · rfl
  | array items induction =>
      rw [toJson, toJsonItems_eq_map, Json.throughout_array] at readBack
      have each := List.forall_mem_map.mp readBack.2
      rw [reread, rereadItems_eq_map, withoutNonFinite, itemsWithoutNonFinite_eq_map]
      exact congrArg array (List.map_congr_left fun item member =>
        induction item member (each item member))

/-! ## Kept JSON values -/

theorem ofInt_toInt (value : Int64) : ofInt value.toInt = integer value := by
  have inRange : Int64.minValue.toInt ≤ value.toInt ∧ value.toInt ≤ Int64.maxValue.toInt :=
    ⟨Int64.minValue_le_toInt value, Int64.toInt_le value⟩
  rw [ofInt, if_pos inRange, Int64.ofInt_toInt]

theorem ofJson?_toJson (value : AttributeValue) : ofJson? value.toJson = some value := by
  induction value using inductionOn with
  | null | boolean | float | text => rfl
  | integer value => rw [toJson, ofJson?, ofInt_toInt]
  | array items induction =>
      have each : ofJsonItems? (items.map toJson) = some items := by
        induction items with
        | nil => rfl
        | cons item rest inductionRest =>
            rw [List.map_cons, ofJsonItems?, induction item List.mem_cons_self,
              inductionRest fun item member => induction item (List.mem_cons_of_mem _ member)]
            rfl
      rw [toJson, toJsonItems_eq_map, ofJson?, each, Option.map_some]

/-! ## Reading -/

theorem ofDocument_asWritten (value : AttributeValue) :
    ofDocument value.toJson.asWritten = .ok value.withoutNonFinite := by
  rw [ofDocument, Json.value_asWritten, kept_toJson, ok_bind, ofJson?_toJson]

theorem ofDocument_ofJson (value : AttributeValue) :
    ofDocument (.ofJson value.toJson) = .ok value := by
  rw [ofDocument, Json.value_ofJson value.membersAscend_toJson, ok_bind, ofJson?_toJson]

/-! ## What can be read -/

theorem within_ofInt {number : Int} (isRead : JsonText.IsReadInteger number) (limit : Nat) :
    (ofInt number).toJson.Within Json.floatIsFinite limit := by
  rw [ofInt]
  split
  · rw [toJson]
    exact Json.within_of_parts rfl rfl trivial
  · rw [toJson]
    obtain ⟨lower, upper⟩ := isRead
    exact Json.within_of_parts rfl rfl (Binary64.isFinite_ofInt (by omega))

theorem exists_of_mem_ofJsonItems? {items : List Json} {values : List AttributeValue}
    (reads : ofJsonItems? items = some values) {value : AttributeValue} (member : value ∈ values) :
    ∃ item ∈ items, ofJson? item = some value := by
  induction items generalizing values with
  | nil =>
      obtain rfl := Option.some.inj reads
      simp at member
  | cons item rest induction =>
      simp only [ofJsonItems?, Option.bind_eq_bind, Option.bind_eq_some_iff, Option.pure_def,
        Option.some.injEq] at reads
      obtain ⟨first, readsFirst, others, readsRest, rfl⟩ := reads
      rcases List.mem_cons.mp member with equal | later
      · exact ⟨item, List.mem_cons_self, equal ▸ readsFirst⟩
      · obtain ⟨other, inside, readsOther⟩ := induction readsRest later
        exact ⟨other, List.mem_cons_of_mem _ inside, readsOther⟩

theorem within_of_ofJson? {json : Json} {value : AttributeValue}
    (reads : ofJson? json = some value) {limit : Nat} (within : json.Within Json.IsKeptPart limit) :
    value.toJson.Within Json.floatIsFinite limit := by
  induction json using Json.inductionOn generalizing value limit with
  | null | boolean | text =>
      obtain rfl := Option.some.inj reads
      exact Json.within_of_parts rfl rfl trivial
  | integer number =>
      obtain rfl := Option.some.inj reads
      exact within_ofInt within.passes.here.integer limit
  | float number =>
      obtain rfl := Option.some.inj reads
      exact Json.within_of_parts rfl rfl within.passes.here.float
  | array items induction =>
      obtain ⟨values, readsItems, rfl⟩ := Option.map_eq_some_iff.mp reads
      obtain ⟨below, rfl, each⟩ := within.items
      rw [toJson, toJsonItems_eq_map]
      refine Json.within_array trivial (List.forall_mem_map.mpr fun value member => ?_)
      obtain ⟨item, inside, readsItem⟩ := exists_of_mem_ofJsonItems? readsItems member
      exact induction item inside readsItem (each item inside)
  | object members => cases reads

theorem within_of_ofDocument {document : Document} {limit : Nat}
    (bounded : document.Bounded limit) {value : AttributeValue}
    (reads : ofDocument document = .ok value) :
    value.toJson.Within Json.floatIsFinite limit := by
  simp only [ofDocument, bind_eq_ok] at reads
  obtain ⟨json, readsJson, reads⟩ := reads
  split at reads
  · next found =>
      obtain rfl := Except.ok.inj reads
      exact within_of_ofJson? found (bounded.value readsJson)
  · cases reads

end AttributeValue

end Sociogram
