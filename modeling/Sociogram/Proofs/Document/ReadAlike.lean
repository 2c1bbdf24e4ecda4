import Sociogram.Document.Record
import Sociogram.Proofs.Document.Outcome

/-!
Documents that are read alike, whatever limit on depth is applied to them. A part of a document
can be exchanged for another that is read alike, inside values, lists and records.
-/

namespace Sociogram

namespace Document

/-! ## Passing over a document -/

mutual

theorem skipping?_nestedWithin (limit : Nat) (document : Document) :
    (document.nestedWithin limit).skipping? = document.skipping? := by
  match document, limit with
  | .sequence _ _ _, 0 => rfl
  | .sequence _ items _, below + 1 =>
      rw [nestedWithin, skipping?, skipping?, skippingItems?_itemsNestedWithin below items]
  | .mapping _ _, 0 => rfl
  | .mapping members _, below + 1 =>
      rw [nestedWithin, skipping?, skipping?, skippingMembers?_membersNestedWithin below members]
  | .null, _ | .boolean _, _ | .integer _, _ | .float _, _ | .text _, _ | .bare _, _
  | .buried _ _, _ | .faulty _ _, _ => rfl
termination_by structural document

theorem skippingItems?_itemsNestedWithin (limit : Nat) (items : List Document) :
    skippingItems? (itemsNestedWithin limit items) = skippingItems? items := by
  match items with
  | [] => rfl
  | item :: rest =>
      rw [itemsNestedWithin, skippingItems?, skippingItems?, skipping?_nestedWithin limit item,
        skippingItems?_itemsNestedWithin limit rest]
termination_by structural items

theorem skippingMembers?_membersNestedWithin (limit : Nat)
    (members : List (Except Problem String × Document)) :
    skippingMembers? (membersNestedWithin limit members) = skippingMembers? members := by
  match members with
  | [] => rfl
  | (_, value) :: rest =>
      rw [membersNestedWithin, skippingMembers?, skippingMembers?,
        skipping?_nestedWithin limit value, skippingMembers?_membersNestedWithin limit rest]
termination_by structural members

end

section

variable {Report Value Result : Type} {report : Problem → Report}

/-- The same is met by someone who passes over either document. -/
def SkippedAlike (report : Problem → Report) (first second : Document) : Prop :=
  first.skipping?.map report = second.skipping?.map report

theorem skippingItems?_append (items others : List Document) :
    skippingItems? (items ++ others) = (skippingItems? items).or (skippingItems? others) := by
  induction items with
  | nil => rfl
  | cons item rest induction =>
      rw [List.cons_append, skippingItems?, skippingItems?, induction, Option.or_assoc]

theorem skippingMembers?_append (members others : List (Except Problem String × Document)) :
    skippingMembers? (members ++ others) =
      (skippingMembers? members).or (skippingMembers? others) := by
  induction members with
  | nil => rfl
  | cons member rest induction =>
      rw [List.cons_append, skippingMembers?, skippingMembers?, induction, Option.or_assoc]

namespace SkippedAlike

variable {first second : Document}

theorem skip (alike : SkippedAlike report first second) (limit : Nat) :
    SameOutcome report (first.nestedWithin limit).skip (second.nestedWithin limit).skip := by
  rw [Document.skip, Document.skip, skipping?_nestedWithin, skipping?_nestedWithin]
  unfold SkippedAlike at alike
  generalize first.skipping? = met, second.skipping? = other at alike ⊢
  cases met <;> cases other <;> simp_all [SameOutcome, Except.mapError]

theorem member (alike : SkippedAlike report first second) (key : Except Problem String)
    (before after : List (Except Problem String × Document)) (ending : Ending) :
    SkippedAlike report (.mapping (before ++ (key, first) :: after) ending)
      (.mapping (before ++ (key, second) :: after) ending) := by
  simp only [SkippedAlike, skipping?, skippingMembers?_append, skippingMembers?, Option.map_or]
  rw [alike]

theorem item (alike : SkippedAlike report first second) (listing : Listing)
    (before after : List Document) (ending : Ending) :
    SkippedAlike report (.sequence listing (before ++ first :: after) ending)
      (.sequence listing (before ++ second :: after) ending) := by
  simp only [SkippedAlike, skipping?, skippingItems?_append, skippingItems?, Option.map_or]
  rw [alike]

end SkippedAlike

end

/-! ## Reading documents -/

section

variable {Report Value Result : Type} {report : Problem → Report} {inner room : Nat}
  {reader : Document → Except Problem Value} {first second : Document}

/-- Under every limit on depth that leaves enough room, a reader has the same outcome on the two
documents. -/
def ReadAlike (report : Problem → Report) (room : Nat)
    (reader : Document → Except Problem Value) (first second : Document) : Prop :=
  ∀ limit, room ≤ limit →
    SameOutcome report (reader (first.nestedWithin limit)) (reader (second.nestedWithin limit))

def isNested : Document → Bool
  | sequence _ _ _ => true
  | mapping _ _ => true
  | _ => false

theorem asOptional_nestedWithin {document : Document} (isNested : document.isNested = true)
    (limit : Nat) :
    (document.nestedWithin limit).asOptional reader =
      (reader (document.nestedWithin limit)).map some := by
  cases document <;> cases limit <;> first | rfl | cases isNested

namespace ReadAlike

theorem bind (alike : ReadAlike report room reader first second)
    (next : Value → Except Problem Result) :
    ReadAlike report room (fun document => reader document >>= next) first second :=
  fun limit enough => (alike limit enough).bind fun _ _ => .refl _

theorem map (alike : ReadAlike report room reader first second) (image : Value → Result) :
    ReadAlike report room (fun document => (reader document).map image) first second :=
  fun limit enough => (alike limit enough).map image

theorem asOptional (alike : ReadAlike report room reader first second)
    (isNested : first.isNested = true) (alsoNested : second.isNested = true) :
    ReadAlike report room (Document.asOptional reader) first second := by
  intro limit enough
  rw [asOptional_nestedWithin isNested, asOptional_nestedWithin alsoNested]
  exact (alike limit enough).map some

/-- What is buried too deeply is the same to every reader, whatever it holds. -/
theorem mapping {members others : List (Except Problem String × Document)} {ending : Ending}
    (deep : ∀ skipping other, reader (.buried .mapping skipping) = reader (.buried .mapping other))
    (each : ∀ limit, room ≤ limit + 1 →
      SameOutcome report (reader (.mapping (membersNestedWithin limit members) ending))
        (reader (.mapping (membersNestedWithin limit others) ending))) :
    ReadAlike report room reader (.mapping members ending) (.mapping others ending) := by
  intro limit enough
  cases limit with
  | zero => exact congrArg _ (deep _ _)
  | succ below => exact each below enough

theorem sequence {items others : List Document} {listing : Listing} {ending : Ending}
    (deep : ∀ skipping other,
      reader (.buried .sequence skipping) = reader (.buried .sequence other))
    (each : ∀ limit, room ≤ limit + 1 →
      SameOutcome report (reader (.sequence listing (itemsNestedWithin limit items) ending))
        (reader (.sequence listing (itemsNestedWithin limit others) ending))) :
    ReadAlike report room reader (.sequence listing items ending)
      (.sequence listing others ending) := by
  intro limit enough
  cases limit with
  | zero => exact congrArg _ (deep _ _)
  | succ below => exact each below enough

end ReadAlike

theorem membersNestedWithin_hole (limit : Nat) (key : Except Problem String)
    (document : Document) (before after : List (Except Problem String × Document)) :
    membersNestedWithin limit (before ++ (key, document) :: after) =
      membersNestedWithin limit before ++
        (key, document.nestedWithin limit) :: membersNestedWithin limit after := by
  simp [membersNestedWithin_eq_map]

theorem itemsNestedWithin_hole (limit : Nat) (document : Document)
    (before after : List Document) :
    itemsNestedWithin limit (before ++ document :: after) =
      itemsNestedWithin limit before ++
        document.nestedWithin limit :: itemsNestedWithin limit after := by
  simp [itemsNestedWithin_eq_map]

/-! ## Values, entries and lists -/

namespace ReadAlike

theorem value_member (alike : ReadAlike report 0 Document.value first second)
    (key : Except Problem String) (before after : List (Except Problem String × Document))
    (ending : Ending) :
    ReadAlike report 0 Document.value (.mapping (before ++ (key, first) :: after) ending)
      (.mapping (before ++ (key, second) :: after) ending) := by
  refine mapping (fun _ _ => rfl) fun limit _ => ?_
  simp only [Document.value, memberValues_eq_mapM, membersNestedWithin_hole]
  refine (sameOutcome_mapM ?_ _ _).bind fun _ _ => .refl _
  exact (SameOutcome.refl key).bind fun _ _ =>
    (alike limit (Nat.zero_le _)).bind fun _ _ => .refl _

theorem value_item (alike : ReadAlike report 0 Document.value first second)
    (listing : Listing) (before after : List Document) (ending : Ending) :
    ReadAlike report 0 Document.value (.sequence listing (before ++ first :: after) ending)
      (.sequence listing (before ++ second :: after) ending) := by
  refine sequence (fun _ _ => rfl) fun limit _ => ?_
  simp only [Document.value, itemValues_eq_mapM, itemsNestedWithin_hole]
  exact (sameOutcome_mapM (alike limit (Nat.zero_le _)) _ _).bind fun _ _ => .refl _

theorem asEntries_member (alike : ReadAlike report 0 reader first second)
    (key : Except Problem String) (before after : List (Except Problem String × Document))
    (ending : Ending) :
    ReadAlike report 0 (Document.asEntries reader)
      (.mapping (before ++ (key, first) :: after) ending)
      (.mapping (before ++ (key, second) :: after) ending) := by
  refine mapping (fun _ _ => rfl) fun limit _ => ?_
  simp only [Document.asEntries, membersNestedWithin_hole]
  refine (sameOutcome_mapM ?_ _ _).bind fun _ _ => .refl _
  exact (SameOutcome.refl key).bind fun _ _ =>
    (alike limit (Nat.zero_le _)).bind fun _ _ => .refl _

theorem asList_item (alike : ReadAlike report inner reader first second)
    (enough : inner ≤ room - 1) (listing : Listing) (before after : List Document)
    (ending : Ending) :
    ReadAlike report room (Document.asList reader)
      (.sequence listing (before ++ first :: after) ending)
      (.sequence listing (before ++ second :: after) ending) := by
  refine sequence (fun _ _ => rfl) fun limit _ => ?_
  simp only [Document.asList, itemsNestedWithin_hole]
  exact (sameOutcome_mapM (alike limit (by omega)) _ _).bind fun _ _ => .refl _

end ReadAlike

end

end Document

/-! ## Records -/

namespace RecordForm

open Document (ReadAlike membersNestedWithin_hole itemsNestedWithin_hole)

variable {Draft Value Report : Type} {form : RecordForm Draft Value}
  {report : Problem → Report} {inner room : Nat} {first second : Document}

theorem read_closed (members : List (Except Problem String × Document)) :
    form.read (.mapping members .closed) = form.takeMembers members >>= form.complete := rfl

theorem readAlike_member {key : Except Problem String}
    (fields : ∀ name, key = .ok name → ∀ draft,
      ReadAlike report inner (form.take draft name) first second)
    (enough : inner ≤ room - 1) (before after : List (Except Problem String × Document)) :
    ReadAlike report room form.read (.mapping (before ++ (key, first) :: after) .closed)
      (.mapping (before ++ (key, second) :: after) .closed) := by
  refine ReadAlike.mapping (fun _ _ => rfl) fun limit _ => ?_
  simp only [read_closed, takeMembers, membersNestedWithin_hole]
  refine (sameOutcome_foldlM (fun draft => ?_) _ _ _).bind fun _ _ => .refl _
  exact (SameOutcome.refl key).bind fun name given =>
    fields name given draft limit (by omega)

theorem sameOutcome_noSurplus (listing : Listing) (count : Nat) (ending : Ending)
    (before after : List Document) :
    SameOutcome report (noSurplus listing count (before ++ first :: after) ending)
      (noSurplus listing count (before ++ second :: after) ending) := by
  cases before <;> exact .refl _

theorem sameOutcome_takeInOrder {ending : Ending} {fields : List (String × Bool)}
    {before after : List Document}
    (same : ∀ field ∈ fields[before.length]?, ∀ draft,
      SameOutcome report (form.take draft field.1 first) (form.take draft field.1 second))
    {next : Draft × List Document → Except Problem Value}
    (surplus : ∀ draft before,
      SameOutcome report (next (draft, before ++ first :: after))
        (next (draft, before ++ second :: after)))
    (position : Nat) (draft : Draft) :
    SameOutcome report
      (form.takeInOrder ending fields position draft (before ++ first :: after) >>= next)
      (form.takeInOrder ending fields position draft (before ++ second :: after) >>= next) := by
  induction fields generalizing before position draft with
  | nil => exact surplus draft before
  | cons field fields induction =>
      cases before with
      | nil =>
          simp only [List.nil_append, takeInOrder, bind_assoc]
          exact (same field rfl draft).bind fun _ _ => .refl _
      | cons item before =>
          simp only [List.cons_append, takeInOrder, bind_assoc]
          exact (SameOutcome.refl _).bind fun filled _ => induction same (position + 1) filled

theorem readAlike_item {before : List Document}
    (fields : ∀ field ∈ form.fields[before.length]?, ∀ draft,
      ReadAlike report inner (form.take draft field.1) first second)
    (enough : inner ≤ room - 1) (listing : Listing) (after : List Document) (ending : Ending) :
    ReadAlike report room form.read (.sequence listing (before ++ first :: after) ending)
      (.sequence listing (before ++ second :: after) ending) := by
  refine ReadAlike.sequence (fun _ _ => rfl) fun limit _ => ?_
  simp only [read, itemsNestedWithin_hole]
  split
  · exact .refl _
  · simp only [List.length_append, List.length_cons]
    refine sameOutcome_takeInOrder (fun field given draft => ?_)
      (fun draft before => (sameOutcome_noSurplus ..).bind fun _ _ => .refl _) 0 _
    exact fields field (by simpa [Document.itemsNestedWithin_eq_map] using given) draft limit
      (by omega)

end RecordForm

end Sociogram
