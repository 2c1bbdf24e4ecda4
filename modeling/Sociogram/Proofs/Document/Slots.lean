import Mathlib.Logic.Function.Basic
import Sociogram.Proofs.Document.Bounded
import Sociogram.Proofs.Document.ReadAlike

/-!
Records whose draft is a family of fields. Each key names one field or none, so that members
can be taken in any order, and a field that is given as what it is without being given can be
left out.
-/

namespace Sociogram.RecordForm

def takeMember {Draft Record : Type} (form : RecordForm Draft Record) (draft : Draft)
    (member : Except Problem String × Document) : Except Problem Draft := do
  let name ← member.1
  form.take draft name member.2

structure Slot (Draft : Type) where
  Value : Type
  /-- The name of the field in problems. -/
  label : String
  reader : Document → Except Problem Value
  given : Draft → Option Value

/-- How the fields of a record lie in its draft, which is made of nothing else. -/
structure Slots {Draft Record : Type} (form : RecordForm Draft Record) where
  Field : Type
  [decidableEq : DecidableEq Field]
  slot : Field → Slot Draft
  /-- The keys of the record, each with the field that it names. -/
  names : List (String × Field)
  ofGiven : ((field : Field) → Option (slot field).Value) → Draft
  given_ofGiven : ∀ values field, (slot field).given (ofGiven values) = values field
  ofGiven_given : ∀ draft, ofGiven (fun field => (slot field).given draft) = draft
  given_blank : ∀ field, (slot field).given form.blank = none
  take_spec : ∀ draft key document,
    form.take draft key document =
      match names.lookup key with
      | none => do
          document.skip
          return draft
      | some field => do
          let value ←
            once (slot field).label ((slot field).given draft) (slot field).reader document
          return ofGiven (Function.update (fun field => (slot field).given draft) field value)

namespace Slots

variable {Draft Record : Type} {form : RecordForm Draft Record} (slots : form.Slots)

instance : DecidableEq slots.Field := slots.decidableEq

def given (draft : Draft) (field : slots.Field) : Option (slots.slot field).Value :=
  (slots.slot field).given draft

def named (key : String) : Option slots.Field := slots.names.lookup key

theorem mem_names_of_named {key : String} {field : slots.Field}
    (known : slots.named key = some field) : (key, field) ∈ slots.names := by
  obtain ⟨before, after, equal, _⟩ := List.lookup_eq_some_iff.mp known
  exact equal ▸ List.mem_append_cons_self

theorem take_eq (draft : Draft) (key : String) (document : Document) :
    form.take draft key document =
      match slots.named key with
      | none => do
          document.skip
          return draft
      | some field => do
          let value ←
            once (slots.slot field).label (slots.given draft field) (slots.slot field).reader
              document
          return slots.ofGiven (Function.update (slots.given draft) field value) := by
  rw [slots.take_spec, named]
  cases slots.names.lookup key <;> rfl

def fill (draft : Draft) (field : slots.Field) (value : (slots.slot field).Value) : Draft :=
  slots.ofGiven (Function.update (slots.given draft) field (some value))

theorem given_fill (draft : Draft) (field : slots.Field) (value : (slots.slot field).Value) :
    slots.given (slots.fill draft field value) =
      Function.update (slots.given draft) field (some value) :=
  funext (slots.given_ofGiven _)

theorem draft_ext {draft other : Draft} (equal : slots.given draft = slots.given other) :
    draft = other := by
  rw [← slots.ofGiven_given draft, ← slots.ofGiven_given other]
  exact congrArg slots.ofGiven equal

/-- Taking a member passes over it or gives the field that its key names. -/
inductive Gives (draft : Draft) (key : String) (document : Document) : Draft → Prop
  | skipped (unknown : slots.named key = none) (passes : document.skip = .ok ()) :
      Gives draft key document draft
  | filled {field : slots.Field} {value : (slots.slot field).Value}
      (known : slots.named key = some field) (missing : slots.given draft field = none)
      (reads : (slots.slot field).reader document = .ok value) :
      Gives draft key document (slots.fill draft field value)

theorem take_eq_ok {draft filled : Draft} {key : String} {document : Document} :
    form.take draft key document = .ok filled ↔ slots.Gives draft key document filled := by
  rw [slots.take_eq]
  constructor
  · intro takes
    split at takes
    · next unknown =>
        obtain ⟨_, passes, equal⟩ := bind_eq_ok.mp takes
        exact Except.ok.inj equal ▸ .skipped unknown passes
    · next field known =>
        obtain ⟨_, takesField, equal⟩ := bind_eq_ok.mp takes
        obtain ⟨missing, value, reads, rfl⟩ := once_eq_ok.mp takesField
        exact Except.ok.inj equal ▸ .filled known missing reads
  · rintro (⟨unknown, passes⟩ | ⟨known, missing, reads⟩)
    · simp [unknown, passes]
    · simp [known, once_eq_ok.mpr ⟨missing, _, reads, rfl⟩, fill]

include slots in
open Document (ReadAlike SkippedAlike) in
theorem readAlike_take {Report : Type} {report : Problem → Report} {room : Nat} {key : String}
    {first second : Document} (skipped : SkippedAlike report first second)
    (fields : ∀ field, slots.named key = some field →
      ReadAlike report room ((slots.slot field).reader) first second) (draft : Draft) :
    ReadAlike report room (form.take draft key) first second := by
  intro limit enough
  rw [slots.take_eq, slots.take_eq]
  split
  · exact (skipped.skip limit).bind fun _ _ => .refl _
  · next field known =>
      refine .bind ?_ fun _ _ => .refl _
      cases slots.given draft field with
      | none => exact (fields field known limit enough).map some
      | some _ => exact .refl _

/-! ## Order -/

theorem fill_comm (draft : Draft) {field other : slots.Field} (different : field ≠ other)
    (value : (slots.slot field).Value) (otherValue : (slots.slot other).Value) :
    slots.fill (slots.fill draft field value) other otherValue =
      slots.fill (slots.fill draft other otherValue) field value := by
  apply slots.draft_ext
  simp only [given_fill]
  exact Function.update_comm different _ _ _

theorem Gives.swap {draft middle filled : Draft} {key other : String}
    {document otherDocument : Document} (first : slots.Gives draft key document middle)
    (second : slots.Gives middle other otherDocument filled) :
    ∃ between, slots.Gives draft other otherDocument between ∧
      slots.Gives between key document filled := by
  cases first with
  | skipped unknown passes => exact ⟨_, second, .skipped unknown passes⟩
  | @filled field value known missing reads =>
      cases second with
      | skipped otherUnknown otherPasses =>
          exact ⟨_, .skipped otherUnknown otherPasses, .filled known missing reads⟩
      | @filled otherField otherValue otherKnown otherMissing otherReads =>
          rw [given_fill] at otherMissing
          have different : otherField ≠ field := by
            rintro rfl
            simp at otherMissing
          rw [Function.update_of_ne different] at otherMissing
          refine ⟨_, .filled otherKnown otherMissing otherReads, ?_⟩
          rw [fill_comm slots draft different.symm]
          refine .filled known ?_ reads
          rw [given_fill, Function.update_of_ne different.symm, missing]

include slots in
/-- Two members can be taken in either order. -/
theorem takeMember_commute (draft : Draft) (member other : Except Problem String × Document) :
    SameOutcome unreported (form.takeMember draft member >>= (form.takeMember · other))
      (form.takeMember draft other >>= (form.takeMember · member)) := by
  rw [sameOutcome_unreported_iff]
  intro filled
  simp only [takeMember, bind_eq_ok, slots.take_eq_ok]
  constructor
  all_goals
    rintro ⟨_, ⟨_, named, first⟩, _, otherNamed, second⟩
    obtain ⟨between, swapped, last⟩ := first.swap slots second
    exact ⟨between, ⟨_, otherNamed, swapped⟩, _, named, last⟩

include slots in
theorem takeMembers_of_perm {members others : List (Except Problem String × Document)}
    (perm : members.Perm others) :
    SameOutcome unreported (form.takeMembers members) (form.takeMembers others) :=
  sameOutcome_foldlM_of_perm slots.takeMember_commute perm form.blank

include slots in
theorem read_of_perm {members others : List (Except Problem String × Document)}
    (perm : members.Perm others) :
    SameOutcome unreported (form.read (.mapping members .closed))
      (form.read (.mapping others .closed)) :=
  (slots.takeMembers_of_perm perm).bind fun _ _ => .refl _

/-! ## Fields that are left out -/

def LeftOut (field : slots.Field) (members : List (Except Problem String × Document)) : Prop :=
  ∀ name document, (.ok name, document) ∈ members → slots.named name ≠ some field

/-- A record is the same with this value for the field as with none. -/
def IsDefault (field : slots.Field) (value : (slots.slot field).Value) : Prop :=
  ∀ draft, slots.given draft field = none →
    form.complete (slots.fill draft field value) = form.complete draft

variable {slots}

theorem Gives.given_eq {draft filled : Draft} {key : String} {document : Document}
    (gives : slots.Gives draft key document filled) {field : slots.Field}
    (different : slots.named key ≠ some field) :
    slots.given filled field = slots.given draft field := by
  cases gives with
  | skipped _ _ => rfl
  | filled known _ _ =>
      rw [given_fill, Function.update_of_ne]
      rintro rfl
      exact different known

theorem given_of_leftOut {field : slots.Field}
    {members : List (Except Problem String × Document)} (leftOut : slots.LeftOut field members)
    {filled : Draft} (takes : form.takeMembers members = .ok filled) :
    slots.given filled field = none := by
  have missing := slots.given_blank field
  rw [takeMembers] at takes
  generalize form.blank = draft at missing takes
  induction members generalizing draft with
  | nil => exact Except.ok.inj takes ▸ missing
  | cons member rest induction =>
      obtain ⟨key, document⟩ := member
      simp only [List.foldlM_cons, bind_eq_ok, slots.take_eq_ok] at takes
      obtain ⟨middle, ⟨name, rfl, gives⟩, takesRest⟩ := takes
      have unchanged := gives.given_eq (leftOut name document (.head _))
      exact induction (fun name document member => leftOut name document (.tail _ member)) middle
        (unchanged.trans missing) takesRest

theorem read_of_default {field : slots.Field} {value : (slots.slot field).Value}
    (isDefault : slots.IsDefault field value)
    {members : List (Except Problem String × Document)} (leftOut : slots.LeftOut field members)
    {key : String} {document : Document} (known : slots.named key = some field)
    (reads : (slots.slot field).reader document = .ok value) :
    SameOutcome unreported (form.read (.mapping members .closed))
      (form.read (.mapping ((.ok key, document) :: members) .closed)) := by
  refine .trans ?_ (slots.read_of_perm (List.perm_append_singleton _ _))
  rw [read_closed, read_closed, takeMembers, takeMembers, List.foldlM_append, bind_assoc]
  refine (SameOutcome.refl _).bind fun draft takes => ?_
  have missing := given_of_leftOut leftOut takes
  have gives := slots.take_eq_ok.mpr (.filled known missing reads)
  simp only [List.foldlM_cons, List.foldlM_nil, pure_eq_ok, ok_bind, gives]
  rw [isDefault draft missing]
  exact .refl _

end Slots

end Sociogram.RecordForm
