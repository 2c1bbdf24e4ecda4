import Mathlib.Logic.Relation
import Sociogram.Proofs.Network.Slots
import Sociogram.Proofs.Rule.Slots

/-!
The places of a document that is read as a network or as a rule set, and changes at places. A
document is still read alike when something at one of its places is exchanged for something
that is read alike there.
-/

namespace Sociogram

/-- What a part of a document is read as. -/
inductive Place
  | network
  | nodes
  | edges
  | node
  | edge
  | identifier
  | ruleSet
  | entries
  | entry
  | count
  /-- A text, a number, a value of any kind, or something that is passed over. -/
  | other

namespace Place

def field : Place → String → Place
  | network, "nodes" => nodes
  | network, "edges" => edges
  | network, "ego" => node
  | node, "id" => identifier
  | edge, "from" => identifier
  | edge, "to" => identifier
  | ruleSet, "rules" => entries
  | entry, "count" => count
  | entry, "assert" => count
  | _, _ => other

def fieldNames : Place → List String
  | network => ["nodes", "edges", "ego"]
  | node => ["id", "type", "attributes"]
  | edge => ["from", "to", "type", "attributes"]
  | ruleSet => ["rules", "join"]
  | entry => ["type", "options", "count"]
  | count => ["operator", "value"]
  | _ => []

def member (place : Place) : Except Problem String → Place
  | .ok name => place.field name
  | .error _ => other

def item (place : Place) (position : Nat) : Place :=
  match place with
  | nodes => node
  | edges => edge
  | entries => entry
  | record =>
      match record.fieldNames[position]? with
      | some name => record.field name
      | none => other

end Place

/-- Something at one place of the document is changed, all around it stays. -/
inductive Document.Altered (change : Place → Document → Document → Prop) :
    Place → Document → Document → Prop
  | here {place : Place} {first second : Document} (changed : change place first second) :
      Altered change place first second
  | member {place : Place} {first second : Document} (key : Except Problem String)
      (before after : List (Except Problem String × Document))
      (inside : Altered change (place.member key) first second) :
      Altered change place (.mapping (before ++ (key, first) :: after) .closed)
        (.mapping (before ++ (key, second) :: after) .closed)
  | item {place : Place} {first second : Document} (listing : Listing)
      (before after : List Document)
      (inside : Altered change (place.item before.length) first second) :
      Altered change place (.sequence listing (before ++ first :: after) .closed)
        (.sequence listing (before ++ second :: after) .closed)

/-! ## Readers -/

namespace Place

/-- The readers of the parts of networks and rule sets. -/
inductive Reads : Place → {Value : Type} → (Document → Except Problem Value) → Prop
  | network : Reads network Network.form.read
  | nodes : Reads nodes (Document.asList Node.form.read)
  | edges : Reads edges (Document.asList Edge.form.read)
  | node : Reads node Node.form.read
  | ego : Reads node (Document.asOptional Node.form.read)
  | edge : Reads edge Edge.form.read
  | identifier : Reads identifier NodeId.ofDocument
  | ruleSet : Reads ruleSet RuleSet.form.read
  | entries : Reads entries (Document.asList RuleEntry.form.read)
  | entry : Reads entry RuleEntry.form.read
  | count : Reads count (Document.asOptional CountAssertion.form.read)
  | value : Reads other Document.value
  | text : Reads other Document.asText
  | number : Reads other Document.asNumber
  | attributes : Reads other Attributes.ofDocument
  | image {Value Result : Type} {reader : Document → Except Problem Value}
      (reads : Reads other reader) (image : Value → Result) :
      Reads other fun document => (reader document).map image

/-- How deep a document at this place may at least nest: enough to write out what may be left
out. -/
def room : Place → Nat
  | network => 4
  | nodes => 3
  | edges => 3
  | node => 2
  | edge => 2
  | ruleSet => 4
  | entries => 3
  | entry => 2
  | _ => 0

theorem room_field (place : Place) (name : String) :
    (place.field name).room ≤ place.room - 1 := by
  unfold field
  split <;> simp [room]

theorem room_member (place : Place) (key : Except Problem String) :
    (place.member key).room ≤ place.room - 1 := by
  cases key with
  | ok name => exact place.room_field name
  | error _ => exact Nat.zero_le _

theorem room_item (place : Place) (position : Nat) :
    (place.item position).room ≤ place.room - 1 := by
  unfold item
  split
  · decide
  · decide
  · decide
  · split
    · exact room_field _ _
    · exact Nat.zero_le _

/-- The two documents are read alike at the place. -/
structure Alike {Report : Type} (report : Problem → Report) (place : Place)
    (first second : Document) : Prop where
  skipped : Document.SkippedAlike report first second
  readers : ∀ {Value : Type} {reader : Document → Except Problem Value}, place.Reads reader →
    Document.ReadAlike report place.room reader first second

/-! ## Records -/

theorem item_eq_field {place : Place} {position : Nat} {name : String}
    (given : place.fieldNames[position]? = some name) :
    place.item position = place.field name := by
  cases place with
  | nodes | edges | entries => simp [fieldNames] at given
  | _ => simp only [item, given]

structure Record (place : Place) {Draft Value : Type} {form : RecordForm Draft Value}
    (slots : form.Slots) : Prop where
  listed : form.fields.map Prod.fst = place.fieldNames
  reads : slots.names.Forall fun named =>
    (place.field named.1).Reads (slots.slot named.2).reader
  unknown : ∀ name, slots.named name = none → place.field name = other

theorem record_node : node.Record Node.slots where
  listed := rfl
  reads := ⟨.identifier, .text, .attributes⟩
  unknown name missing := by
    unfold field
    split <;> first | rfl | contradiction

theorem record_edge : edge.Record Edge.slots where
  listed := rfl
  reads := ⟨.identifier, .identifier, .text, .attributes⟩
  unknown name missing := by
    unfold field
    split <;> first | rfl | contradiction

theorem record_network : network.Record Network.slots where
  listed := rfl
  reads := ⟨.nodes, .edges, .ego⟩
  unknown name missing := by
    unfold field
    split <;> first | rfl | contradiction

theorem record_count : count.Record CountAssertion.slots where
  listed := rfl
  reads := ⟨.image .text Operator.ofTag, .number⟩
  unknown name missing := by
    unfold field
    split <;> first | rfl | contradiction

theorem record_entry : entry.Record RuleEntry.slots where
  listed := rfl
  reads := ⟨.text, .image .value Json.withoutNonFinite, .count, .count⟩
  unknown name missing := by
    unfold field
    split <;> first | rfl | contradiction

theorem record_ruleSet : ruleSet.Record RuleSet.slots where
  listed := rfl
  reads := ⟨.entries, .image .text Join.ofTag⟩
  unknown name missing := by
    unfold field
    split <;> first | rfl | contradiction

section

variable {Report : Type} {report : Problem → Report} {place : Place} {first second : Document}

namespace Record

variable {Draft Value : Type} {form : RecordForm Draft Value} {slots : form.Slots}

theorem reads_of_named (record : place.Record slots) {name : String} {field : slots.Field}
    (known : slots.named name = some field) :
    (place.field name).Reads (slots.slot field).reader :=
  List.forall_iff_forall_mem.mp record.reads _ (slots.mem_names_of_named known)

theorem take (record : place.Record slots) {name : String}
    (inside : (place.field name).Alike report first second) (draft : Draft) :
    Document.ReadAlike report (place.field name).room (form.take draft name) first second :=
  slots.readAlike_take inside.skipped
    (fun _ known => inside.readers (record.reads_of_named known)) draft

theorem member (record : place.Record slots) {key : Except Problem String}
    (inside : (place.member key).Alike report first second)
    (before after : List (Except Problem String × Document)) :
    Document.ReadAlike report place.room form.read
      (.mapping (before ++ (key, first) :: after) .closed)
      (.mapping (before ++ (key, second) :: after) .closed) := by
  refine RecordForm.readAlike_member ?_ (place.room_member key) before after
  rintro name rfl draft
  exact record.take inside draft

theorem item (record : place.Record slots) {before : List Document}
    (inside : (place.item before.length).Alike report first second) (listing : Listing)
    (after : List Document) :
    Document.ReadAlike report place.room form.read
      (.sequence listing (before ++ first :: after) .closed)
      (.sequence listing (before ++ second :: after) .closed) := by
  refine RecordForm.readAlike_item (fun field given draft => ?_) (place.room_item before.length)
    listing after _
  have named : place.item before.length = place.field field.1 := by
    refine item_eq_field ?_
    rw [← record.listed, List.getElem?_map, Option.mem_def.mp given, Option.map_some]
  rw [named] at inside ⊢
  exact record.take inside draft

end Record

/-! ## Changes inside a document -/

theorem member_identifier (key : Except Problem String) : identifier.member key = other := by
  cases key <;> rfl

theorem member_other (key : Except Problem String) : other.member key = other := by
  cases key <;> rfl

namespace Alike

theorem member {key : Except Problem String}
    (inside : (place.member key).Alike report first second)
    (before after : List (Except Problem String × Document)) :
    place.Alike report (.mapping (before ++ (key, first) :: after) .closed)
      (.mapping (before ++ (key, second) :: after) .closed) := by
  refine ⟨inside.skipped.member key before after _, fun {Value} reader reads => ?_⟩
  induction reads with
  | network => exact record_network.member inside before after
  | node => exact record_node.member inside before after
  | ego => exact (record_node.member inside before after).asOptional rfl rfl
  | edge => exact record_edge.member inside before after
  | ruleSet => exact record_ruleSet.member inside before after
  | entry => exact record_entry.member inside before after
  | count => exact (record_count.member inside before after).asOptional rfl rfl
  | nodes | edges | entries | text | number =>
      -- A mapping is refused here whatever its members are.
      exact .mapping (fun _ _ => rfl) fun _ _ => .refl _
  | identifier =>
      rw [member_identifier] at inside
      exact ((inside.readers .value).value_member key before after .closed).bind _
  | value =>
      rw [member_other] at inside
      exact (inside.readers .value).value_member key before after .closed
  | attributes =>
      rw [member_other] at inside
      exact (((inside.readers .value).bind _).asEntries_member key before after .closed).map _
  | image _ image induction => exact (induction inside).map image

theorem item {before : List Document}
    (inside : (place.item before.length).Alike report first second) (listing : Listing)
    (after : List Document) :
    place.Alike report (.sequence listing (before ++ first :: after) .closed)
      (.sequence listing (before ++ second :: after) .closed) := by
  refine ⟨inside.skipped.item listing before after _, fun {Value} reader reads => ?_⟩
  induction reads with
  | network => exact record_network.item inside listing after
  | node => exact record_node.item inside listing after
  | ego => exact (record_node.item inside listing after).asOptional rfl rfl
  | edge => exact record_edge.item inside listing after
  | ruleSet => exact record_ruleSet.item inside listing after
  | entry => exact record_entry.item inside listing after
  | count => exact (record_count.item inside listing after).asOptional rfl rfl
  | nodes =>
      exact (inside.readers .node).asList_item (room_item nodes before.length) listing before
        after _
  | edges =>
      exact (inside.readers .edge).asList_item (room_item edges before.length) listing before
        after _
  | entries =>
      exact (inside.readers .entry).asList_item (room_item entries before.length) listing before
        after _
  | identifier =>
      exact ((inside.readers .value).value_item listing before after .closed).bind _
  | value => exact (inside.readers .value).value_item listing before after .closed
  | text | number | attributes =>
      -- A sequence is refused here whatever its items are.
      exact .sequence (fun _ _ => rfl) fun _ _ => .refl _
  | image _ image induction => exact (induction inside).map image

end Alike

end

end Place

section

variable {Report : Type} {report : Problem → Report}
  {change : Place → Document → Document → Prop} {place : Place} {first second : Document}

theorem Document.Altered.alike
    (each : ∀ {place first second}, change place first second →
      place.Alike report first second)
    (altered : Altered change place first second) : place.Alike report first second := by
  induction altered with
  | here changed => exact each changed
  | member key before after _ induction => exact induction.member before after
  | item listing before after _ induction => exact induction.item listing after

theorem Place.Reads.sameOutcome {Value : Type} {reader : Document → Except Problem Value}
    (reads : place.Reads reader)
    (each : ∀ {place first second}, change place first second →
      place.Alike report first second)
    (steps : Relation.EqvGen (Document.Altered change place) first second) {limit : Nat}
    (enough : place.room ≤ limit) :
    SameOutcome report (reader (first.nestedWithin limit))
      (reader (second.nestedWithin limit)) := by
  induction steps with
  | rel _ _ altered => exact (altered.alike each).readers reads limit enough
  | refl _ => exact .refl _
  | symm _ _ _ induction => exact induction.symm
  | trans _ _ _ _ _ induction next => exact induction.trans next

end

end Sociogram
