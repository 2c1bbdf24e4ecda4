import Sociogram.Proofs.Load.Place

/-!
Parts of a document that no reader of their places reads. What is read is read as a whole, so
that a document with such a part is refused.
-/

namespace Sociogram

open Document (membersNestedWithin_hole itemsNestedWithin_hole)

/-! ## Records -/

namespace RecordForm

variable {Draft Value : Type} {form : RecordForm Draft Value}

theorem exists_take_of_read_mapping {key : Except Problem String} {document : Document}
    {before after : List (Except Problem String × Document)} {value : Value}
    (reads : form.read (.mapping (before ++ (key, document) :: after) .closed) = .ok value) :
    ∃ name draft filled, key = .ok name ∧ form.take draft name document = .ok filled := by
  rw [read_closed, bind_eq_ok] at reads
  obtain ⟨_, takes, _⟩ := reads
  obtain ⟨draft, filled, taken⟩ := exists_of_mem_steps takes List.mem_append_cons_self
  obtain ⟨name, named, takesField⟩ := bind_eq_ok.mp taken
  exact ⟨name, draft, filled, named, takesField⟩

theorem exists_take_of_takeInOrder {ending : Ending} {fields : List (String × Bool)}
    {before after : List Document} {document : Document} {position : Nat} {draft : Draft}
    {result : Draft × List Document}
    (takes : form.takeInOrder ending fields position draft (before ++ document :: after) =
      .ok result)
    {field : String × Bool} (given : fields[before.length]? = some field) :
    ∃ draft filled, form.take draft field.1 document = .ok filled := by
  induction fields generalizing before position draft with
  | nil => cases given
  | cons first fields induction =>
      cases before with
      | nil =>
          obtain rfl := Option.some.inj given
          obtain ⟨filled, takesField, _⟩ := bind_eq_ok.mp takes
          exact ⟨draft, filled, takesField⟩
      | cons item before =>
          obtain ⟨_, _, takesRest⟩ := bind_eq_ok.mp takes
          exact induction takesRest given

theorem exists_take_of_read_sequence {listing : Listing} {before after : List Document}
    {document : Document} {value : Value}
    (reads : form.read (.sequence listing (before ++ document :: after) .closed) = .ok value)
    {field : String × Bool} (given : form.fields[before.length]? = some field) :
    ∃ draft filled, form.take draft field.1 document = .ok filled := by
  rw [read] at reads
  split at reads
  · cases reads
  · obtain ⟨_, takes, _⟩ := bind_eq_ok.mp reads
    exact exists_take_of_takeInOrder takes given

end RecordForm

/-! ## Places -/

namespace Place

/-- The place is looked at, and nothing is read of the document there. -/
structure Refused (place : Place) (document : Document) : Prop where
  lookedAt : place ≠ other
  unread : ∀ {Value : Type} {reader : Document → Except Problem Value}, place.Reads reader →
    ∀ limit value, reader (document.nestedWithin limit) ≠ .ok value

theorem exists_name_of_item {place : Place} (isRecord : place.fieldNames ≠ []) {position : Nat}
    (lookedAt : place.item position ≠ other) :
    ∃ name, place.fieldNames[position]? = some name := by
  by_contra none
  have missing := Option.eq_none_iff_forall_ne_some.mpr (not_exists.mp none)
  refine lookedAt ?_
  cases place with
  | nodes | edges | entries => exact absurd rfl isRecord
  | _ => simp only [item, missing]

theorem asOptional_ne_ok {Value : Type} {reader : Document → Except Problem Value}
    {document : Document} (nested : document.isNested = true)
    (unread : ∀ limit value, reader (document.nestedWithin limit) ≠ .ok value) (limit : Nat)
    (value : Option Value) :
    Document.asOptional reader (document.nestedWithin limit) ≠ .ok value := by
  rw [Document.asOptional_nestedWithin nested]
  intro reads
  obtain ⟨_, readsSome, _⟩ := map_eq_ok.mp reads
  exact unread limit _ readsSome

namespace Record

variable {place : Place} {Draft Value : Type} {form : RecordForm Draft Value}
  {slots : form.Slots} {document : Document}

theorem take_ne_ok (record : place.Record slots) {name : String}
    (refused : (place.field name).Refused document) (limit : Nat) (draft filled : Draft) :
    form.take draft name (document.nestedWithin limit) ≠ .ok filled := by
  intro takes
  cases slots.take_eq_ok.mp takes with
  | skipped missing _ => exact refused.lookedAt (record.unknown name missing)
  | filled known _ reads => exact refused.unread (record.reads_of_named known) limit _ reads

theorem member_ne_ok (record : place.Record slots) {key : Except Problem String}
    (refused : (place.member key).Refused document)
    (before after : List (Except Problem String × Document)) (limit : Nat) (value : Value) :
    form.read ((Document.mapping (before ++ (key, document) :: after) .closed).nestedWithin
      limit) ≠ .ok value := by
  intro reads
  cases limit with
  | zero => cases reads
  | succ below =>
      rw [Document.nestedWithin, membersNestedWithin_hole] at reads
      obtain ⟨name, draft, filled, rfl, takes⟩ := RecordForm.exists_take_of_read_mapping reads
      exact record.take_ne_ok refused below draft filled takes

theorem item_ne_ok (record : place.Record slots) (isRecord : place.fieldNames ≠ [])
    {before : List Document} (refused : (place.item before.length).Refused document)
    (listing : Listing) (after : List Document) (limit : Nat) (value : Value) :
    form.read ((Document.sequence listing (before ++ document :: after) .closed).nestedWithin
      limit) ≠ .ok value := by
  intro reads
  obtain ⟨name, named⟩ := exists_name_of_item isRecord refused.lookedAt
  rw [item_eq_field named] at refused
  rw [← record.listed, List.getElem?_map, Option.map_eq_some_iff] at named
  obtain ⟨field, given, rfl⟩ := named
  cases limit with
  | zero => cases reads
  | succ below =>
      rw [Document.nestedWithin, itemsNestedWithin_hole] at reads
      have position : form.fields[(Document.itemsNestedWithin below before).length]? =
          some field := by
        rwa [Document.itemsNestedWithin_eq_map, List.length_map]
      obtain ⟨draft, filled, takes⟩ := RecordForm.exists_take_of_read_sequence reads position
      exact record.take_ne_ok refused below draft filled takes

end Record

/-! ## Documents with a part that is refused -/

namespace Refused

variable {place : Place} {document : Document}

theorem member {key : Except Problem String} (refused : (place.member key).Refused document)
    (before after : List (Except Problem String × Document)) :
    place.Refused (.mapping (before ++ (key, document) :: after) .closed) where
  lookedAt := by
    rintro rfl
    exact refused.lookedAt (member_other key)
  unread reads := by
    cases reads with
    | network => exact record_network.member_ne_ok refused before after
    | node => exact record_node.member_ne_ok refused before after
    | ego => exact asOptional_ne_ok rfl (record_node.member_ne_ok refused before after)
    | edge => exact record_edge.member_ne_ok refused before after
    | ruleSet => exact record_ruleSet.member_ne_ok refused before after
    | entry => exact record_entry.member_ne_ok refused before after
    | count => exact asOptional_ne_ok rfl (record_count.member_ne_ok refused before after)
    | nodes | edges | entries => rintro (_ | _) _ ⟨⟩
    | identifier => exact absurd (member_identifier key) refused.lookedAt
    | value | text | number | attributes | image =>
        exact absurd (member_other key) refused.lookedAt

theorem asList_ne_ok {place : Place} {Value : Type} {reader : Document → Except Problem Value}
    (refused : place.Refused document) (reads : place.Reads reader) (listing : Listing)
    (before after : List Document) (limit : Nat) (values : List Value) :
    Document.asList reader
      ((Document.sequence listing (before ++ document :: after) .closed).nestedWithin limit) ≠
        .ok values := by
  intro readsAll
  cases limit with
  | zero => cases readsAll
  | succ below =>
      rw [Document.nestedWithin, itemsNestedWithin_hole] at readsAll
      obtain ⟨_, readsItems, _⟩ := bind_eq_ok.mp readsAll
      obtain ⟨_, readsItem⟩ := exists_of_mem_items readsItems List.mem_append_cons_self
      exact refused.unread reads below _ readsItem

theorem item {before : List Document} (refused : (place.item before.length).Refused document)
    (listing : Listing) (after : List Document) :
    place.Refused (.sequence listing (before ++ document :: after) .closed) where
  lookedAt := by
    rintro rfl
    exact refused.lookedAt rfl
  unread reads := by
    cases reads with
    | network => exact record_network.item_ne_ok nofun refused listing after
    | node => exact record_node.item_ne_ok nofun refused listing after
    | ego => exact asOptional_ne_ok rfl (record_node.item_ne_ok nofun refused listing after)
    | edge => exact record_edge.item_ne_ok nofun refused listing after
    | ruleSet => exact record_ruleSet.item_ne_ok nofun refused listing after
    | entry => exact record_entry.item_ne_ok nofun refused listing after
    | count => exact asOptional_ne_ok rfl (record_count.item_ne_ok nofun refused listing after)
    | nodes => exact refused.asList_ne_ok .node listing before after
    | edges => exact refused.asList_ne_ok .edge listing before after
    | entries => exact refused.asList_ne_ok .entry listing before after
    | identifier | value | text | number | attributes | image =>
        exact absurd rfl refused.lookedAt

end Refused

end Place

theorem Document.Altered.refused {change : Place → Document → Document → Prop} {place : Place}
    {first second : Document}
    (each : ∀ {place first second}, change place first second → place.Refused second)
    (altered : Altered change place first second) : place.Refused second := by
  induction altered with
  | here changed => exact each changed
  | member key before after _ induction => exact induction.member before after
  | item listing before after _ induction => exact induction.item listing after

end Sociogram
