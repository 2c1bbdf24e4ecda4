import Sociogram.Proofs.Document.Permuted
import Sociogram.Proofs.Json.Scanned
import Sociogram.Proofs.Json.TextOf
import Sociogram.Proofs.Load.Place

/-!
Networks and rule sets in other words. The order of members, the name of a count, and whether a
field is written out or left out do not matter to what is read from a JSON text.
-/

namespace Sociogram

open Document (keysOf membersNestedWithin ReadAlike SkippedAlike)

/-! ## Changes of the presentation -/

namespace Place

def spellings : Place → String → List String
  | entry, "count" => ["count", "assert"]
  | entry, "assert" => ["count", "assert"]
  | _, key => [key]

/-- A field of a record that can be left out, and what it can be given as instead. -/
inductive Default : Place → String → Document → Prop
  | nodes : Default network "nodes" (.sequence .written [] .closed)
  | edges : Default network "edges" (.sequence .written [] .closed)
  | ego : Default network "ego" .null
  | nodeAttributes : Default node "attributes" (.mapping [] .closed)
  | edgeAttributes : Default edge "attributes" (.mapping [] .closed)
  | entries : Default ruleSet "rules" (.sequence .written [] .closed)
  | join {tag : String} (notAnd : tag ≠ "AND") : Default ruleSet "join" (.text tag)
  | options : Default entry "options" .null
  | count : Default entry "count" .null

end Place

def Rule.nullOptions : String → List String
  | "alter" => ["attribute", "operator", "value"]
  | "ego" => ["operator", "value"]
  | _ => []

/-- The same in other words. -/
inductive Restated : Place → Document → Document → Prop
  | permuted {place : Place} {members others : List (Except Problem String × Document)}
      (distinct : (keysOf members).Nodup) (perm : members.Perm others) :
      Restated place (.mapping members .closed) (.mapping others .closed)
  | respelled (count : Document) (before after : List (Except Problem String × Document)) :
      Restated .entry (.mapping (before ++ (.ok "count", count) :: after) .closed)
        (.mapping (before ++ (.ok "assert", count) :: after) .closed)
  | completed {place : Place} {key : String} {document : Document}
      {members : List (Except Problem String × Document)}
      (isDefault : place.Default key document)
      (leftOut : ∀ spelling ∈ place.spellings key, spelling ∉ keysOf members) :
      Restated place (.mapping members .closed)
        (.mapping ((.ok key, document) :: members) .closed)
  | optionCompleted {domain key : String}
      {options : List (Except Problem String × Document)}
      (before after : List (Except Problem String × Document))
      (isDefault : key ∈ Rule.nullOptions domain) (leftOut : key ∉ keysOf options)
      (typed : (.ok "type", .text domain) ∈ before ++ after) :
      Restated .entry
        (.mapping (before ++ (.ok "options", .mapping options .closed) :: after) .closed)
        (.mapping (before ++ (.ok "options", .mapping ((.ok key, .null) :: options) .closed) ::
          after) .closed)
  | listedOptionCompleted {domain key : String}
      {options : List (Except Problem String × Document)} (listing : Listing)
      (after : List Document) (isDefault : key ∈ Rule.nullOptions domain)
      (leftOut : key ∉ keysOf options) :
      Restated .entry
        (.sequence listing (.text domain :: .mapping options .closed :: after) .closed)
        (.sequence listing (.text domain :: .mapping ((.ok key, .null) :: options) .closed ::
          after) .closed)

/-! ## Permuted members -/

theorem RecordForm.Slots.readAlike_of_perm {Draft Value : Type} {form : RecordForm Draft Value}
    (slots : form.Slots) {members others : List (Except Problem String × Document)}
    (perm : members.Perm others) {room : Nat} :
    ReadAlike unreported room form.read (.mapping members .closed) (.mapping others .closed) :=
  .mapping (fun _ _ => rfl) fun limit _ =>
    slots.read_of_perm (Document.membersNestedWithin_perm limit perm)

namespace Place

theorem alike_of_perm (place : Place) {members others : List (Except Problem String × Document)}
    (distinct : (keysOf members).Nodup) (perm : members.Perm others) :
    place.Alike unreported (.mapping members .closed) (.mapping others .closed) := by
  refine ⟨Document.skippedAlike_of_perm perm _, fun {Value} reader reads => ?_⟩
  induction reads with
  | network => exact Network.slots.readAlike_of_perm perm
  | node => exact Node.slots.readAlike_of_perm perm
  | ego => exact (Node.slots.readAlike_of_perm perm).asOptional rfl rfl
  | edge => exact Edge.slots.readAlike_of_perm perm
  | ruleSet => exact RuleSet.slots.readAlike_of_perm perm
  | entry => exact RuleEntry.slots.readAlike_of_perm perm
  | count => exact (CountAssertion.slots.readAlike_of_perm perm).asOptional rfl rfl
  | nodes | edges | entries | text | number =>
      exact .mapping (fun _ _ => rfl) fun _ _ => .refl _
  | identifier => exact (Document.readAlike_value_of_perm distinct perm).bind _
  | value => exact Document.readAlike_value_of_perm distinct perm
  | attributes => exact Document.readAlike_attributes_of_perm distinct perm
  | image _ image induction => exact induction.map image

/-! ## The name of a count -/

theorem alike_of_respelled (count : Document)
    (before after : List (Except Problem String × Document)) :
    entry.Alike unreported (.mapping (before ++ (.ok "count", count) :: after) .closed)
      (.mapping (before ++ (.ok "assert", count) :: after) .closed) where
  skipped := by
    simp only [SkippedAlike, Document.skipping?, Document.skippingMembers?_append,
      Document.skippingMembers?]
  readers := by
    rintro Value reader ⟨⟩
    refine .mapping (fun _ _ => rfl) fun limit _ => ?_
    simp only [RecordForm.read_closed, RecordForm.takeMembers,
      Document.membersNestedWithin_hole]
    refine (sameOutcome_foldlM (fun draft => ?_) _ _ _).bind fun _ _ => .refl _
    exact .refl (RuleEntry.takeCount draft (count.nestedWithin limit))

/-! ## Fields that are left out -/

def SpelledBy (place : Place) {Draft Value : Type} {form : RecordForm Draft Value}
    (slots : form.Slots) : Prop :=
  ∀ named ∈ slots.names, ∀ other ∈ slots.names, named.2 = other.2 →
    other.1 ∈ place.spellings named.1

instance (place : Place) {Draft Value : Type} {form : RecordForm Draft Value}
    (slots : form.Slots) : Decidable (place.SpelledBy slots) :=
  inferInstanceAs (Decidable (∀ named ∈ slots.names, _))

theorem SpelledBy.mem_spellings {place : Place} {Draft Value : Type}
    {form : RecordForm Draft Value} {slots : form.Slots} (spelled : place.SpelledBy slots)
    {key name : String} {field : slots.Field} (known : slots.named key = some field)
    (same : slots.named name = some field) : name ∈ place.spellings key :=
  spelled _ (slots.mem_names_of_named known) _ (slots.mem_names_of_named same) rfl

theorem mem_keysOf_nested {members : List (Except Problem String × Document)} {limit : Nat}
    {name : String} {document : Document}
    (member : (.ok name, document) ∈ membersNestedWithin limit members) :
    name ∈ keysOf members := by
  rw [← Document.keysOf_membersNestedWithin limit]
  exact List.mem_filterMap.mpr ⟨_, member, rfl⟩

section

variable {place : Place} {key : String} {members : List (Except Problem String × Document)}

theorem SpelledBy.completed {Draft Value : Type} {form : RecordForm Draft Value}
    {slots : form.Slots} (spelled : place.SpelledBy slots) {field : slots.Field}
    {value : (slots.slot field).Value} (isDefault : slots.IsDefault field value)
    (known : slots.named key = some field) {document : Document} (enough : 2 ≤ place.room)
    (reads : ∀ below, (slots.slot field).reader (document.nestedWithin (below + 1)) = .ok value)
    (leftOut : ∀ spelling ∈ place.spellings key, spelling ∉ keysOf members) :
    ReadAlike unreported place.room form.read (.mapping members .closed)
      (.mapping ((.ok key, document) :: members) .closed) := by
  refine .mapping (fun _ _ => rfl) fun limit within => ?_
  obtain ⟨below, rfl⟩ := Nat.exists_eq_succ_of_ne_zero (show limit ≠ 0 by omega)
  refine slots.read_of_default isDefault (fun name _ member same => ?_) known (reads below)
  exact leftOut name (spelled.mem_spellings known same) (mem_keysOf_nested member)

theorem alike_of_default {document : Document} (isDefault : place.Default key document)
    (leftOut : ∀ spelling ∈ place.spellings key, spelling ∉ keysOf members) :
    place.Alike unreported (.mapping members .closed)
      (.mapping ((.ok key, document) :: members) .closed) := by
  refine ⟨by cases isDefault <;> rfl, fun {Value} reader reads => ?_⟩
  cases isDefault with
  | nodes =>
      cases reads
      exact SpelledBy.completed (by decide) Network.isDefault_nodes rfl (by decide)
        (fun _ => rfl) leftOut
  | edges =>
      cases reads
      exact SpelledBy.completed (by decide) Network.isDefault_edges rfl (by decide)
        (fun _ => rfl) leftOut
  | ego =>
      cases reads
      exact SpelledBy.completed (by decide) Network.isDefault_ego rfl (by decide)
        (fun _ => rfl) leftOut
  | nodeAttributes =>
      have alike : ReadAlike unreported node.room Node.form.read (.mapping members .closed)
          (.mapping ((.ok "attributes", .mapping [] .closed) :: members) .closed) :=
        SpelledBy.completed (by decide) Node.isDefault_attributes rfl (by decide)
          (fun _ => rfl) leftOut
      cases reads with
      | node => exact alike
      | ego => exact alike.asOptional rfl rfl
  | edgeAttributes =>
      cases reads
      exact SpelledBy.completed (by decide) Edge.isDefault_attributes rfl (by decide)
        (fun _ => rfl) leftOut
  | entries =>
      cases reads
      exact SpelledBy.completed (by decide) RuleSet.isDefault_entries rfl (by decide)
        (fun _ => rfl) leftOut
  | join notAnd =>
      cases reads
      exact SpelledBy.completed (by decide) RuleSet.isDefault_join rfl (by decide)
        (fun _ => congrArg Except.ok (if_neg notAnd)) leftOut
  | options =>
      cases reads
      exact SpelledBy.completed (by decide) RuleEntry.isDefault_options rfl (by decide)
        (fun _ => rfl) leftOut
  | count =>
      cases reads
      exact SpelledBy.completed (by decide) RuleEntry.isDefault_count rfl (by decide)
        (fun _ => rfl) leftOut

end

/-! ## Options that are left out -/

def keptMembers (entries : List (String × Json)) : List (Except Problem String × Document) :=
  entries.map fun (key, value) => (.ok key, .ofJson value.withoutNonFinite)

theorem keptMembers_perm {entries others : List (String × Json)} (perm : entries.Perm others) :
    (keptMembers entries).Perm (keptMembers others) := perm.map _

theorem ofJson_object (entries : List (String × Json)) :
    Document.ofJson (Json.object entries).withoutNonFinite =
      .mapping (keptMembers entries) .closed := by
  rw [Json.withoutNonFinite, Json.membersWithoutNonFinite_eq_map, Document.ofJson,
    Document.ofJsonMembers_eq_map, List.map_map]
  rfl

section

variable {key : String} {entries : List (String × Json)}

theorem SpelledBy.kept {Draft Value : Type} {form : RecordForm Draft Value}
    {slots : form.Slots} (spelled : other.SpelledBy slots) {field : slots.Field}
    {value : (slots.slot field).Value} (isDefault : slots.IsDefault field value)
    (known : slots.named key = some field) (reads : (slots.slot field).reader .null = .ok value)
    (new : key ∉ entries.map Prod.fst) :
    SameOutcome unreported
      (form.read (.ofJson (Json.object (Keyed.ofList entries)).withoutNonFinite))
      (form.read
        (.ofJson (Json.object (Keyed.ofList ((key, .null) :: entries))).withoutNonFinite)) := by
  rw [ofJson_object, ofJson_object]
  have leftOut : slots.LeftOut field (keptMembers (Keyed.ofList entries)) := by
    intro name document member same
    obtain ⟨⟨entryKey, entryValue⟩, kept, equal⟩ := List.mem_map.mp member
    obtain rfl : entryKey = name := Except.ok.inj (Prod.mk.inj equal).1
    obtain rfl : entryKey = key := List.mem_singleton.mp (spelled.mem_spellings known same)
    exact new (List.mem_map_of_mem (Keyed.mem_of_mem_ofList kept))
  refine (slots.read_of_default isDefault leftOut known reads).trans (slots.read_of_perm ?_)
  exact keptMembers_perm (Keyed.ofList_cons_perm new .null).symm

theorem ofOptions_completed {domain : String} (isDefault : key ∈ Rule.nullOptions domain)
    (new : key ∉ entries.map Prod.fst) :
    SameOutcome unreported
      (Rule.ofOptions domain (Json.object (Keyed.ofList entries)).withoutNonFinite)
      (Rule.ofOptions domain
        (Json.object (Keyed.ofList ((key, .null) :: entries))).withoutNonFinite) := by
  unfold Rule.nullOptions at isDefault
  split at isDefault
  · refine .map ?_ Rule.alter
    simp only [List.mem_cons, List.not_mem_nil, or_false] at isDefault
    rcases isDefault with rfl | rfl | rfl
    · exact SpelledBy.kept (by decide) AlterRule.isDefault_attributeName rfl rfl new
    · exact SpelledBy.kept (by decide) AlterRule.isDefault_operator rfl rfl new
    · exact SpelledBy.kept (by decide) AlterRule.isDefault_value rfl rfl new
  · refine .map ?_ Rule.ego
    simp only [List.mem_cons, List.not_mem_nil, or_false] at isDefault
    rcases isDefault with rfl | rfl
    · exact SpelledBy.kept (by decide) EgoRule.isDefault_operator rfl rfl new
    · exact SpelledBy.kept (by decide) EgoRule.isDefault_value rfl rfl new
  · cases isDefault

end

theorem readAlike_options {domain key : String}
    {options : List (Except Problem String × Document)}
    (isDefault : key ∈ Rule.nullOptions domain) (leftOut : key ∉ keysOf options) :
    ReadAlike unreported 0 (fun document => Json.ofDocument document >>= Rule.ofOptions domain)
      (.mapping options .closed) (.mapping ((.ok key, .null) :: options) .closed) := by
  refine .mapping (fun _ _ => rfl) fun limit _ => ?_
  have readsNull : Document.entriesOf Document.value
      (membersNestedWithin limit ((.ok key, .null) :: options)) =
        (Document.entriesOf Document.value (membersNestedWithin limit options)).map
          ((key, .null) :: ·) := List.mapM_cons ..
  simp only [Json.ofDocument, Document.value_closed, readsNull]
  cases read : Document.entriesOf Document.value (membersNestedWithin limit options) with
  | error _ => exact .refl _
  | ok entries =>
      refine ofOptions_completed isDefault ?_
      rwa [Document.keys_of_entriesOf read, Document.keysOf_membersNestedWithin]

end Place

namespace RuleEntry

variable {domain : String} {first second : Document}

theorem domain_of_take {draft typed : Draft}
    (takes : form.take draft "type" (.text domain) = .ok typed) : typed.domain = some domain := by
  obtain ⟨_, given, equal⟩ := bind_eq_ok.mp takes
  obtain ⟨_, _, reads, rfl⟩ := RecordForm.once_eq_ok.mp given
  obtain rfl := Except.ok.inj reads
  exact Except.ok.inj equal ▸ rfl

/-- Once the domain is known, all that is seen of the options is the rule, whatever else has to
go well before the entry is complete. -/
theorem sameOutcome_options
    (same : SameOutcome unreported (Json.ofDocument first >>= Rule.ofOptions domain)
      (Json.ofDocument second >>= Rule.ofOptions domain))
    (guard : Except Problem Unit) {draft : Draft} (typed : draft.domain = some domain) :
    SameOutcome unreported
      (form.take draft "options" first >>= fun filled => guard >>= fun _ => form.complete filled)
      (form.take draft "options" second >>= fun filled =>
        guard >>= fun _ => form.complete filled) := by
  obtain ⟨_, options, count⟩ := draft
  obtain rfl := typed
  cases guard with
  | error _ =>
      cases form.take ⟨some domain, options, count⟩ "options" first <;>
        cases form.take ⟨some domain, options, count⟩ "options" second <;> rfl
  | ok _ =>
      cases options with
      | some _ => exact .refl _
      | none =>
          have rule : ∀ document,
              form.take ⟨some domain, none, count⟩ "options" document >>= form.complete =
                (Json.ofDocument document >>= Rule.ofOptions domain).map
                  (⟨·, count.getD none⟩) := by
            intro document
            cases read : Json.ofDocument document with
            | error _ => simp [form, take, RecordForm.once, read, Except.map]
            | ok json =>
                simp only [form, take, complete, RecordForm.once, RecordForm.required, read,
                  map_ok, ok_bind, pure_eq_ok, Option.getD_some]
                cases Rule.ofOptions domain json <;> rfl
          simp only [ok_bind]
          rw [rule, rule]
          exact same.map _

theorem read_typed_last {before after : List (Except Problem String × Document)}
    (typed : (.ok "type", .text domain) ∈ before ++ after) :
    ∃ rest, ∀ options,
      SameOutcome unreported
        (form.read (.mapping (before ++ (.ok "options", options) :: after) .closed))
        (do
          let draft ← form.takeMembers rest
          let typed ← form.take draft "type" (.text domain)
          form.take typed "options" options >>= form.complete) := by
  obtain ⟨start, stop, split⟩ := List.append_of_mem typed
  refine ⟨start ++ stop, fun options => ?_⟩
  have perm : (before ++ (.ok "options", options) :: after).Perm
      (start ++ stop ++ [(.ok "type", .text domain), (.ok "options", options)]) := by
    refine List.perm_middle.trans ?_
    rw [split]
    refine (List.perm_middle.cons _).trans ((List.Perm.swap _ _ _).trans ?_)
    exact (List.perm_append_comm : (start ++ stop ++ [_, _]).Perm _).symm
  refine (slots.read_of_perm perm).trans ?_
  simp only [RecordForm.read_closed, RecordForm.takeMembers, List.foldlM_append, List.foldlM_cons,
    List.foldlM_nil, ok_bind, bind_assoc, bind_pure]
  exact .refl _

theorem sameOutcome_mapping
    (same : SameOutcome unreported (Json.ofDocument first >>= Rule.ofOptions domain)
      (Json.ofDocument second >>= Rule.ofOptions domain))
    {before after : List (Except Problem String × Document)}
    (typed : (.ok "type", .text domain) ∈ before ++ after) :
    SameOutcome unreported
      (form.read (.mapping (before ++ (.ok "options", first) :: after) .closed))
      (form.read (.mapping (before ++ (.ok "options", second) :: after) .closed)) := by
  obtain ⟨rest, last⟩ := read_typed_last typed
  refine (last first).trans (.trans ?_ (last second).symm)
  refine (SameOutcome.refl _).bind fun draft _ => (SameOutcome.refl _).bind fun filled takes => ?_
  exact sameOutcome_options same (.ok ()) (domain_of_take takes)

theorem read_sequence {listing : Listing} (notPlain : listing ≠ .plain) (options : Document)
    (after : List Document) :
    form.read (.sequence listing (.text domain :: options :: after) .closed) =
      form.take ⟨some domain, none, none⟩ "options" options >>= fun filled =>
        match after with
        | [] => form.complete filled
        | count :: surplus =>
            form.take filled "count" count >>= fun counted =>
              RecordForm.noSurplus listing (surplus.length + 3) surplus .closed >>= fun _ =>
                form.complete counted := by
  have fields : form.fields = [("type", false), ("options", true), ("count", true)] := rfl
  have domainTaken : form.take form.blank "type" (.text domain) = .ok ⟨some domain, none, none⟩ :=
    rfl
  rw [RecordForm.read, if_neg notPlain, fields]
  simp only [RecordForm.takeInOrder, domainTaken, ok_bind, bind_assoc]
  cases after with
  | nil => rfl
  | cons count surplus =>
      simp only [RecordForm.takeInOrder, ok_bind, bind_assoc]
      rfl

theorem sameOutcome_sequence
    (same : SameOutcome unreported (Json.ofDocument first >>= Rule.ofOptions domain)
      (Json.ofDocument second >>= Rule.ofOptions domain))
    (listing : Listing) (after : List Document) :
    SameOutcome unreported
      (form.read (.sequence listing (.text domain :: first :: after) .closed))
      (form.read (.sequence listing (.text domain :: second :: after) .closed)) := by
  by_cases plain : listing = .plain
  · subst plain
    exact .refl _
  · rw [read_sequence plain, read_sequence plain]
    cases after with
    | nil => exact sameOutcome_options same (.ok ()) rfl
    | cons count surplus =>
        -- The count is taken before the options, so that they are what is taken last.
        have last : ∀ options, SameOutcome unreported
            (form.take ⟨some domain, none, none⟩ "options" options >>= fun filled =>
              form.take filled "count" count >>= fun counted =>
                RecordForm.noSurplus listing (surplus.length + 3) surplus .closed >>= fun _ =>
                  form.complete counted)
            (form.take ⟨some domain, none, none⟩ "count" count >>= fun counted =>
              form.take counted "options" options >>= fun filled =>
                RecordForm.noSurplus listing (surplus.length + 3) surplus .closed >>= fun _ =>
                  form.complete filled) := by
          intro options
          rw [← bind_assoc, ← bind_assoc]
          exact (slots.takeMember_commute _ (.ok "options", options) (.ok "count", count)).bind
            fun _ _ => .refl _
        refine (last first).trans (.trans ?_ (last second).symm)
        refine (SameOutcome.refl _).bind fun counted takes => ?_
        refine sameOutcome_options same _ ?_
        have different : slots.named "count" ≠ some Field.domain := by rintro ⟨⟩
        exact (slots.take_eq_ok.mp takes).given_eq different

end RuleEntry

namespace Place

section

variable {domain key : String} {options : List (Except Problem String × Document)}

theorem skippedAlike_null (key : String)
    (members : List (Except Problem String × Document)) :
    SkippedAlike unreported (.mapping members .closed)
      (.mapping ((.ok key, .null) :: members) .closed) := rfl

theorem alike_of_option (isDefault : key ∈ Rule.nullOptions domain)
    (leftOut : key ∉ keysOf options) {before after : List (Except Problem String × Document)}
    (typed : (.ok "type", .text domain) ∈ before ++ after) :
    entry.Alike unreported
      (.mapping (before ++ (.ok "options", .mapping options .closed) :: after) .closed)
      (.mapping (before ++ (.ok "options", .mapping ((.ok key, .null) :: options) .closed) ::
        after) .closed) where
  skipped := (skippedAlike_null key options).member _ before after _
  readers := by
    rintro Value reader ⟨⟩
    refine .mapping (fun _ _ => rfl) fun limit _ => ?_
    rw [Document.membersNestedWithin_hole, Document.membersNestedWithin_hole]
    refine RuleEntry.sameOutcome_mapping
      (readAlike_options isDefault leftOut limit (Nat.zero_le _)) ?_
    rw [Document.membersNestedWithin_eq_map, Document.membersNestedWithin_eq_map,
      ← List.map_append]
    exact List.mem_map.mpr ⟨_, typed, rfl⟩

theorem alike_of_listedOption (isDefault : key ∈ Rule.nullOptions domain)
    (leftOut : key ∉ keysOf options) (listing : Listing) (after : List Document) :
    entry.Alike unreported
      (.sequence listing (.text domain :: .mapping options .closed :: after) .closed)
      (.sequence listing (.text domain :: .mapping ((.ok key, .null) :: options) .closed ::
        after) .closed) where
  skipped := (skippedAlike_null key options).item listing [.text domain] after _
  readers := by
    rintro Value reader ⟨⟩
    refine .sequence (fun _ _ => rfl) fun limit _ => ?_
    exact RuleEntry.sameOutcome_sequence
      (readAlike_options isDefault leftOut limit (Nat.zero_le _)) listing _

end

end Place

/-! ## Texts in other words -/

theorem Restated.alike {place : Place} {first second : Document}
    (restated : Restated place first second) : place.Alike unreported first second := by
  cases restated with
  | permuted distinct perm => exact place.alike_of_perm distinct perm
  | respelled count before after => exact Place.alike_of_respelled count before after
  | completed isDefault leftOut => exact Place.alike_of_default isDefault leftOut
  | optionCompleted before after isDefault leftOut typed =>
      exact Place.alike_of_option isDefault leftOut typed
  | listedOptionCompleted listing after isDefault leftOut =>
      exact Place.alike_of_listedOption isDefault leftOut listing after

theorem Place.Reads.ofText_iff {place : Place} {Value : Type}
    {reader : Document → Except Problem Value} (reads : place.Reads reader)
    {document restated : Document} {text other : String}
    (isText : JsonText.IsTextOf document text) (isOther : JsonText.IsTextOf restated other)
    (steps : Relation.EqvGen (Document.Altered Restated place) document restated)
    (enough : place.room ≤ JsonText.depthLimit) (value : Value) :
    Format.json.read reader text = .ok value ↔ Format.json.read reader other = .ok value := by
  rw [Format.read_json_eq_ok, Format.read_json_eq_ok, isText.read, isOther.read]
  exact sameOutcome_unreported_iff.mp (reads.sameOutcome Restated.alike steps enough) value

/-- A network or a rule set is read from a JSON text exactly if it is read from a text that says
the same in other words, so that both texts are refused or both give the same: whether the
members of objects stand in one order or another, a count is called a count or an assertion, and
fields are written out as their defaults or left out, at any place and however often. -/
theorem restated_texts_are_read_alike (document restated : Document) (text other : String)
    (isText : JsonText.IsTextOf document text) (isOther : JsonText.IsTextOf restated other) :
    (Relation.EqvGen (Document.Altered Restated .network) document restated →
      ∀ network, Network.ofText .json text = .ok network ↔
        Network.ofText .json other = .ok network) ∧
    (Relation.EqvGen (Document.Altered Restated .ruleSet) document restated →
      ∀ ruleSet, RuleSet.ofText .json text = .ok ruleSet ↔
        RuleSet.ofText .json other = .ok ruleSet) :=
  ⟨fun steps network =>
      Place.Reads.network.ofText_iff isText isOther steps (by decide) network,
    fun steps ruleSet =>
      Place.Reads.ruleSet.ofText_iff isText isOther steps (by decide) ruleSet⟩

/-! ## A rule set and a network in other words -/

namespace Json

def severalPeople : Json :=
  object [
    ("rules", array [object [
      ("type", text "alter"), ("options", object [("type", text "person")]),
      ("count", object [("operator", text "GREATER_THAN"), ("value", integer 1)])]])]

def severalPeopleRestated : Json :=
  object [
    ("join", text "any"),
    ("rules", array [object [
      ("assert", object [("operator", text "GREATER_THAN"), ("value", integer 1)]),
      ("options", object [("operator", null), ("type", text "person")]),
      ("type", text "alter")]])]

def onePerson : Json :=
  object [("nodes", array [object [("id", text "a"), ("type", text "person")]])]

def onePersonRestated : Json :=
  object [
    ("nodes", array [object [("attributes", object []), ("id", text "a"),
      ("type", text "person")]]),
    ("ego", null)]

end Json

theorem restated_severalPeople :
    Relation.EqvGen (Document.Altered Restated .ruleSet) Json.severalPeople.asWritten
      Json.severalPeopleRestated.asWritten := by
  have inEntry : ∀ {first second : Document}, Restated .entry first second →
      Relation.EqvGen (Document.Altered Restated .ruleSet)
        (.mapping [(.ok "rules", .sequence .written [first] .closed)] .closed)
        (.mapping [(.ok "rules", .sequence .written [second] .closed)] .closed) :=
    fun restated => .rel _ _ (.member (.ok "rules") [] [] (.item .written [] [] (.here restated)))
  refine .trans _ _ _ (inEntry (.respelled _ [_, _] [])) ?_
  refine .trans _ _ _ (inEntry (.optionCompleted [_] [_]
    (show "operator" ∈ Rule.nullOptions "alter" by decide) (by decide) (.head _))) ?_
  refine .trans _ _ _ (inEntry (.permuted (by decide) (List.reverse_perm [_, _, _]))) ?_
  exact .rel _ _ (.here (.completed (.join (by decide)) (by decide)))

theorem restated_onePerson :
    Relation.EqvGen (Document.Altered Restated .network) Json.onePerson.asWritten
      Json.onePersonRestated.asWritten := by
  refine .trans _ _ _ (.rel _ _ (.member (.ok "nodes") [] [] (.item .written [] []
    (.here (.completed .nodeAttributes (by decide)))))) ?_
  refine .trans _ _ _ (.rel _ _ (.here (.completed .ego (by decide)))) ?_
  exact .rel _ _ (.here (.permuted (by decide) (List.reverse_perm [_, _])))

theorem restated_texts_are_read_alike_people :
    (JsonText.IsTextOf Json.severalPeople.asWritten Json.severalPeople.compact ∧
      JsonText.IsTextOf Json.severalPeopleRestated.asWritten Json.severalPeopleRestated.compact ∧
      (RuleSet.ofText .json Json.severalPeople.compact).isOk = true ∧
      ∀ ruleSet, RuleSet.ofText .json Json.severalPeople.compact = .ok ruleSet ↔
        RuleSet.ofText .json Json.severalPeopleRestated.compact = .ok ruleSet) ∧
    JsonText.IsTextOf Json.onePerson.asWritten Json.onePerson.compact ∧
      JsonText.IsTextOf Json.onePersonRestated.asWritten Json.onePersonRestated.compact ∧
      (Network.ofText .json Json.onePerson.compact).isOk = true ∧
      ∀ network, Network.ofText .json Json.onePerson.compact = .ok network ↔
        Network.ofText .json Json.onePersonRestated.compact = .ok network := by
  have people : JsonText.IsTextOf Json.severalPeople.asWritten Json.severalPeople.compact :=
    Json.isTextOf_compact (by decide) (by decide)
  have peopleRestated : JsonText.IsTextOf Json.severalPeopleRestated.asWritten
      Json.severalPeopleRestated.compact := Json.isTextOf_compact (by decide) (by decide)
  have person : JsonText.IsTextOf Json.onePerson.asWritten Json.onePerson.compact :=
    Json.isTextOf_compact (by decide) (by decide)
  have personRestated : JsonText.IsTextOf Json.onePersonRestated.asWritten
      Json.onePersonRestated.compact := Json.isTextOf_compact (by decide) (by decide)
  exact ⟨⟨people, peopleRestated, by decide +kernel,
      (restated_texts_are_read_alike _ _ _ _ people peopleRestated).2 restated_severalPeople⟩,
    person, personRestated, by decide +kernel,
    (restated_texts_are_read_alike _ _ _ _ person personRestated).1 restated_onePerson⟩

end Sociogram
