import Sociogram.Document.Record
import Sociogram.Proofs.Json.Kept

/-!
Bounded documents: their numbers can be read, and nothing in them is nested too deeply. The
same then holds of every value, list and record that is read from them.
-/

namespace Sociogram

/-! ## Bounded documents -/

namespace Document

/-- The numbers in the document can be read, and sequences and mappings are nested at most
so deeply. Nothing is said about the faults in it. -/
inductive Bounded : Nat → Document → Prop
  | null {limit : Nat} : Bounded limit .null
  | boolean {limit : Nat} (value : Bool) : Bounded limit (.boolean value)
  | integer {limit : Nat} {value : Int} (isRead : JsonText.IsReadInteger value) :
      Bounded limit (.integer value)
  | float {limit : Nat} {value : Binary64} (finite : value.isFinite = true) :
      Bounded limit (.float value)
  | text {limit : Nat} (value : String) : Bounded limit (.text value)
  | sequence {limit : Nat} {items : List Document} (each : ∀ item ∈ items, Bounded limit item)
      (listing : Listing) (ending : Ending) :
      Bounded (limit + 1) (.sequence listing items ending)
  | mapping {limit : Nat} {members : List (Except Problem String × Document)}
      (each : ∀ member ∈ members, Bounded limit member.2) (ending : Ending) :
      Bounded (limit + 1) (.mapping members ending)
  | buried {limit : Nat} (found : Found) (skipping : Option Problem) :
      Bounded limit (.buried found skipping)
  | faulty {limit : Nat} (reading : Problem) (skipping : Option Problem) :
      Bounded limit (.faulty reading skipping)

/-- Whatever the limit on depth, the document is bounded by it once it is applied. -/
def Limitable (document : Document) : Prop :=
  ∀ limit, (document.nestedWithin limit).Bounded limit

theorem limitable_sequence {items : List Document} (each : ∀ item ∈ items, item.Limitable)
    (listing : Listing) (ending : Ending) : (sequence listing items ending).Limitable := by
  intro limit
  cases limit with
  | zero => exact .buried _ _
  | succ below =>
      rw [nestedWithin, itemsNestedWithin_eq_map]
      exact .sequence (List.forall_mem_map.mpr fun item member => each item member below) _ _

theorem limitable_mapping {members : List (Except Problem String × Document)}
    (each : ∀ member ∈ members, member.2.Limitable) (ending : Ending) :
    (mapping members ending).Limitable := by
  intro limit
  cases limit with
  | zero => exact .buried _ _
  | succ below =>
      rw [nestedWithin, membersNestedWithin_eq_map]
      exact .mapping (List.forall_mem_map.mpr fun member inside => each member inside below) _

theorem limitable_faulty (reading : Problem) (skipping : Option Problem) :
    (faulty reading skipping).Limitable := fun _ => .faulty _ _

end Document

/-! ## Values -/

namespace Document

theorem Bounded.value {limit : Nat} {document : Document} (bounded : document.Bounded limit)
    {json : Json} (reads : document.value = .ok json) : json.Within Json.IsKeptPart limit := by
  induction bounded generalizing json with
  | null | boolean | text =>
      obtain rfl := Except.ok.inj reads
      exact Json.within_of_parts rfl rfl ⟨trivial, trivial, trivial⟩
  | integer isRead =>
      obtain rfl := Except.ok.inj reads
      exact Json.within_of_parts rfl rfl ⟨isRead, trivial, trivial⟩
  | float finite =>
      obtain rfl := Except.ok.inj reads
      exact Json.within_of_parts rfl rfl ⟨trivial, finite, trivial⟩
  | sequence each listing ending induction =>
      simp only [Document.value, bind_eq_ok, pure_eq_ok, Except.ok.injEq, itemValues_eq_mapM]
        at reads
      obtain ⟨values, readsItems, _, _, rfl⟩ := reads
      refine Json.within_array ⟨trivial, trivial, trivial⟩ fun value member => ?_
      obtain ⟨item, inside, readsItem⟩ := exists_of_mem_values readsItems member
      exact induction item inside readsItem
  | mapping each ending induction =>
      simp only [Document.value, bind_eq_ok, pure_eq_ok, Except.ok.injEq, memberValues_eq_mapM]
        at reads
      obtain ⟨entries, readsMembers, _, _, rfl⟩ := reads
      refine Json.within_object ⟨trivial, trivial, Keyed.ascending_ofList _⟩ fun entry member => ?_
      obtain ⟨⟨key, item⟩, inside, readsMember⟩ :=
        exists_of_mem_values readsMembers (Keyed.mem_of_mem_ofList member)
      simp only [bind_eq_ok, Except.ok.injEq] at readsMember
      obtain ⟨name, _, value, readsItem, rfl⟩ := readsMember
      exact induction (key, item) inside readsItem
  | buried found skipping => cases reads
  | faulty reading skipping => cases reads

theorem bounded_ofJson {limit : Nat} {json : Json} (within : json.Within Json.IsKeptPart limit) :
    (ofJson json).Bounded limit := by
  induction json using Json.inductionOn generalizing limit with
  | null => exact .null
  | boolean value => exact .boolean value
  | integer value => exact .integer within.passes.here.integer
  | float value => exact .float within.passes.here.float
  | text value => exact .text value
  | array items induction =>
      obtain ⟨below, rfl, each⟩ := within.items
      rw [ofJson, ofJsonItems_eq_map]
      exact .sequence (List.forall_mem_map.mpr fun item member =>
        induction item member (each item member)) _ _
  | object members induction =>
      obtain ⟨below, rfl, each⟩ := within.members
      rw [ofJson, ofJsonMembers_eq_map]
      exact .mapping (List.forall_mem_map.mpr fun member inside =>
        induction member inside (each member inside)) _

/-! ## Lists -/

theorem Bounded.asList {limit : Nat} {document : Document} (bounded : document.Bounded limit)
    {Value : Type} {read : Document → Except Problem Value} {values : List Value}
    (reads : document.asList read = .ok values) :
    ∃ below, limit = below + 1 ∧
      ∀ value ∈ values, ∃ item : Document, item.Bounded below ∧ read item = .ok value := by
  cases bounded with
  | sequence each listing ending =>
      simp only [Document.asList, bind_eq_ok, pure_eq_ok, Except.ok.injEq] at reads
      obtain ⟨_, readsItems, _, _, rfl⟩ := reads
      refine ⟨_, rfl, fun value member => ?_⟩
      obtain ⟨item, inside, readsItem⟩ := exists_of_mem_values readsItems member
      exact ⟨item, each item inside, readsItem⟩
  | null | boolean | integer | float | text | mapping | buried | faulty =>
      simp [Document.asList] at reads

theorem Bounded.asEntries {limit : Nat} {document : Document} (bounded : document.Bounded limit)
    {Value : Type} {read : Document → Except Problem Value} {entries : List (String × Value)}
    (reads : document.asEntries read = .ok entries) :
    ∃ below, limit = below + 1 ∧
      ∀ entry ∈ entries, ∃ item : Document, item.Bounded below ∧ read item = .ok entry.2 := by
  cases bounded with
  | mapping each ending =>
      simp only [Document.asEntries, bind_eq_ok, pure_eq_ok, Except.ok.injEq] at reads
      obtain ⟨_, readsMembers, _, _, rfl⟩ := reads
      refine ⟨_, rfl, fun entry member => ?_⟩
      obtain ⟨⟨key, item⟩, inside, readsMember⟩ := exists_of_mem_values readsMembers member
      simp only [bind_eq_ok, Except.ok.injEq] at readsMember
      obtain ⟨name, _, value, readsItem, rfl⟩ := readsMember
      exact ⟨item, each (key, item) inside, readsItem⟩
  | null | boolean | integer | float | text | sequence | buried | faulty =>
      simp [Document.asEntries] at reads

theorem Bounded.asOptional {limit : Nat} {document : Document} (bounded : document.Bounded limit)
    {Value : Type} {read : Document → Except Problem Value} {value : Value}
    (reads : document.asOptional read = .ok (some value)) : read document = .ok value := by
  cases bounded with
  | null => simp [Document.asOptional] at reads
  | boolean | integer | float | text | sequence | mapping | buried | faulty =>
      obtain ⟨found, readsFound, equal⟩ := map_eq_ok.mp reads
      exact Option.some.inj equal ▸ readsFound

end Document

/-! ## Records -/

namespace RecordForm

variable {Draft Value : Type} (form : RecordForm Draft Value)

theorem once_eq_ok {Field : Type} {name : String} {given filled : Option Field}
    {read : Document → Except Problem Field} {document : Document} :
    once name given read document = .ok filled ↔
      given = none ∧ ∃ value, read document = .ok value ∧ filled = some value := by
  cases given with
  | none =>
      simp only [once, map_eq_ok, true_and]
      exact exists_congr fun _ => and_congr_right fun _ => eq_comm
  | some value => simp [once]

theorem required_eq_ok {Field : Type} {name : String} {given : Option Field} {value : Field} :
    required name given = .ok value ↔ given = some value := by
  cases given <;> simp [required]

theorem getD_of_forall {Field : Type} (test : Field → Prop) {given : Option Field}
    (fallback : Field) (missing : test fallback) (each : ∀ value ∈ given, test value) :
    test (given.getD fallback) := by
  cases given with
  | none => exact missing
  | some value => exact each value rfl

/-- The drafts that come from taking bounded documents as fields. -/
inductive Filled (limit : Nat) : Draft → Prop
  | blank : Filled limit form.blank
  | take {draft filled : Draft} {name : String} {document : Document}
      (before : Filled limit draft) (bounded : document.Bounded limit)
      (takes : form.take draft name document = .ok filled) : Filled limit filled

variable {form}

theorem filled_takeMembers {limit : Nat} {members : List (Except Problem String × Document)}
    (each : ∀ member ∈ members, member.2.Bounded limit) {filled : Draft}
    (takes : form.takeMembers members = .ok filled) : form.Filled limit filled := by
  have before : form.Filled limit form.blank := .blank
  rw [takeMembers] at takes
  generalize form.blank = draft at before takes
  induction members generalizing draft with
  | nil => exact Except.ok.inj takes ▸ before
  | cons member rest induction =>
      obtain ⟨key, document⟩ := member
      simp only [List.foldlM_cons, bind_eq_ok] at takes
      obtain ⟨next, ⟨name, _, takesField⟩, takesRest⟩ := takes
      exact induction (fun member inside => each member (List.mem_cons_of_mem _ inside)) next
        (.take before (each (key, document) List.mem_cons_self) takesField) takesRest

theorem filled_takeInOrder {limit : Nat} {items surplus : List Document}
    (each : ∀ item ∈ items, item.Bounded limit) {ending : Ending} {fields : List (String × Bool)}
    {position : Nat} {draft filled : Draft} (before : form.Filled limit draft)
    (takes : form.takeInOrder ending fields position draft items = .ok (filled, surplus)) :
    form.Filled limit filled := by
  induction fields generalizing position draft items with
  | nil =>
      simp only [takeInOrder, Except.ok.injEq, Prod.mk.injEq] at takes
      exact takes.1 ▸ before
  | cons field fields induction =>
      obtain ⟨name, mayBeMissing⟩ := field
      cases items with
      | nil =>
          simp only [takeInOrder, bind_eq_ok] at takes
          obtain ⟨_, _, takesRest⟩ := takes
          split at takesRest
          · exact induction each before takesRest
          · cases takesRest
      | cons item items =>
          simp only [takeInOrder, bind_eq_ok] at takes
          obtain ⟨next, takesField, takesRest⟩ := takes
          exact induction (fun item member => each item (List.mem_cons_of_mem _ member))
            (.take before (each item List.mem_cons_self) takesField) takesRest

theorem exists_filled_of_read {limit : Nat} {document : Document}
    (bounded : document.Bounded limit) {value : Value} (reads : form.read document = .ok value) :
    ∃ below draft, limit = below + 1 ∧ form.Filled below draft ∧
      form.complete draft = .ok value := by
  cases bounded with
  | mapping each ending =>
      simp only [read, bind_eq_ok] at reads
      obtain ⟨draft, takes, _, _, completes⟩ := reads
      exact ⟨_, draft, rfl, filled_takeMembers each takes, completes⟩
  | sequence each listing ending =>
      simp only [read] at reads
      split at reads
      · cases reads
      · simp only [bind_eq_ok] at reads
        obtain ⟨⟨draft, surplus⟩, takes, _, _, completes⟩ := reads
        exact ⟨_, draft, rfl, filled_takeInOrder each .blank takes, completes⟩
  | null | boolean | integer | float | text | buried | faulty => cases reads

end RecordForm

end Sociogram
