import Sociogram.Proofs.Attribute.ReadBack
import Sociogram.Rule.Writing

/-!
The options of rules. An entry's options are first read as any value, which puts them in the
order of their keys, and then as the rule: what is read is the rule that was written, with
null in place of the numbers that JSON cannot write.
-/

namespace Sociogram

/-! ## Operators and joins -/

namespace Operator

/-- The operator is the one that its tag is read as. -/
def InReadForm (operator : Operator) : Prop := ∃ tag, operator = ofTag tag

theorem tag_ofTag (tag : String) : (ofTag tag).tag = tag := by
  rw [ofTag]
  cases found : known.find? fun operator => operator.tag == tag with
  | none => rfl
  | some operator =>
      have same := List.find?_some found
      exact eq_of_beq same

theorem isKnown_of_mem_known : ∀ operator ∈ known, operator.isKnown = true := by
  decide

theorem ofTag_tag_of_mem_known : ∀ operator ∈ known, operator = ofTag operator.tag := by
  decide

theorem inReadForm_iff {operator : Operator} :
    operator.InReadForm ↔ ∀ tag, operator = unknown tag → ∀ other ∈ known, other.tag ≠ tag := by
  constructor
  · rintro ⟨written, rfl⟩ tag isUnknown other member same
    rw [ofTag] at isUnknown
    cases found : known.find? fun operator => operator.tag == written with
    | none =>
        rw [found, Option.getD_none, unknown.injEq] at isUnknown
        have different := List.find?_eq_none.mp found other member
        simp [same, isUnknown] at different
    | some operator =>
        rw [found, Option.getD_some] at isUnknown
        have isKnown := isKnown_of_mem_known operator (List.mem_of_find?_eq_some found)
        rw [isUnknown] at isKnown
        cases isKnown
  · intro different
    cases operator with
    | unknown tag =>
        refine ⟨tag, ?_⟩
        have absent : known.find? (fun operator => operator.tag == tag) = none :=
          List.find?_eq_none.mpr fun other member => by simpa using different tag rfl other member
        rw [ofTag, absent, Option.getD_none]
    | _ => exact ⟨_, ofTag_tag_of_mem_known _ (by decide)⟩

theorem ofDocument_tag {operator : Operator} (inReadForm : operator.InReadForm) :
    ofDocument (.text operator.tag) = .ok operator := by
  obtain ⟨tag, rfl⟩ := inReadForm
  rw [tag_ofTag]
  rfl

theorem asOptional_tag {operator : Operator} (inReadForm : operator.InReadForm) :
    Document.asOptional ofDocument (.text operator.tag) = .ok (some operator) :=
  congrArg (Except.map some) (ofDocument_tag inReadForm)

end Operator

theorem Join.ofTag_tag (join : Join) : ofTag join.tag = join := by
  cases join <;> rfl

theorem AttributeValue.eq_null_of_isNull {value : AttributeValue} (isNull : value.isNull = true) :
    value = .null := by
  cases value <;> first | rfl | cases isNull

/-! ## Options -/

def AttributeValue.keptMembers (value : AttributeValue) : List (String × Json) :=
  if value.isNull then [] else [("value", value.withoutNonFinite.toJson)]

def AttributeValue.keptField (value : AttributeValue) : Option AttributeValue :=
  if value.isNull then none else some value.withoutNonFinite

theorem AttributeValue.getD_keptField (value : AttributeValue) :
    value.keptField.getD .null = value.withoutNonFinite := by
  cases isNull : value.isNull with
  | true =>
      obtain rfl := eq_null_of_isNull isNull
      rfl
  | false => simp [keptField, isNull]

theorem getD_map_some {Value : Type} (given : Option Value) :
    (given.map some).getD none = given := by
  cases given <;> rfl

namespace AlterRule

def withoutNonFinite (rule : AlterRule) : AlterRule :=
  { rule with value := rule.value.withoutNonFinite }

def keptMembers (rule : AlterRule) : List (String × Json) :=
  (rule.attributeName.map fun name => ("attribute", .text name)).toList ++
    (Operator.toMembers rule.operator ++ ([("type", .text rule.nodeType)] ++
      rule.value.keptMembers))

theorem kept_toJson (rule : AlterRule) : rule.toJson.kept = .object rule.keptMembers := by
  obtain ⟨nodeType, attributeName, operator, value⟩ := rule
  rw [toJson, Json.kept, Json.keptMembers_eq_map, keptMembers]
  cases attributeName <;> cases operator <;> cases isNull : value.isNull <;>
    simp only [Operator.toMembers, AttributeValue.toMembers, AttributeValue.keptMembers, isNull,
      Json.kept, Operator.toJson, AttributeValue.kept_toJson, Option.map_none, Option.map_some,
      Option.toList_none, Option.toList_some, List.nil_append, List.cons_append, List.append_nil,
      List.map_cons, List.map_nil, Keyed.ofList, List.foldl_cons, List.foldl_nil, Keyed.insert,
      String.reduceEq, String.reduceLT, Bool.false_eq_true, reduceIte]

theorem read_kept {rule : AlterRule}
    (operators : ∀ operator ∈ rule.operator, operator.InReadForm) :
    form.read (.ofJson rule.toJson.kept) = .ok rule.withoutNonFinite := by
  obtain ⟨nodeType, attributeName, operator, value⟩ := rule
  have takesName : form.Takes {}
      (attributeName.map fun name => ("attribute", Json.text name)).toList
      { attributeName := attributeName.map some } := by
    cases attributeName <;> rfl
  have takesOperator : form.Takes { attributeName := attributeName.map some }
      (Operator.toMembers operator)
      { attributeName := attributeName.map some, operator := operator.map some } := by
    cases operator with
    | none => rfl
    | some operator =>
        refine .single ?_
        have reads := Operator.asOptional_tag (operators operator rfl)
        simp [form, take, RecordForm.once, Operator.toJson, Document.ofJson, reads]
  have takesType : form.Takes
      { attributeName := attributeName.map some, operator := operator.map some }
      [("type", .text nodeType)]
      { attributeName := attributeName.map some, operator := operator.map some,
        nodeType := some nodeType } := .single rfl
  have takesValue : form.Takes
      { attributeName := attributeName.map some, operator := operator.map some,
        nodeType := some nodeType }
      value.keptMembers
      { attributeName := attributeName.map some, operator := operator.map some,
        nodeType := some nodeType, value := value.keptField } := by
    rw [AttributeValue.keptMembers, AttributeValue.keptField]
    split
    · rfl
    · refine .single ?_
      simp [form, take, RecordForm.once, AttributeValue.ofDocument_ofJson]
  have takes := takesName.append (takesOperator.append (takesType.append takesValue))
  rw [kept_toJson, keptMembers, takes.read]
  simp [form, complete, RecordForm.required, withoutNonFinite, getD_map_some,
    AttributeValue.getD_keptField]

end AlterRule

namespace EdgeRule

theorem kept_toJson (rule : EdgeRule) :
    rule.toJson.kept =
      .object [("operator", rule.operator.toJson), ("type", .text rule.edgeType)] := by
  simp only [toJson, Json.kept, Json.keptMembers_eq_map, Operator.toJson, List.map_cons,
    List.map_nil, Keyed.ofList, List.foldl_cons, List.foldl_nil, Keyed.insert, String.reduceEq,
    String.reduceLT, reduceIte]

theorem read_kept {rule : EdgeRule} (inReadForm : rule.operator.InReadForm) :
    form.read (.ofJson rule.toJson.kept) = .ok rule := by
  have takesOperator : form.Takes {} [("operator", rule.operator.toJson)]
      { operator := some rule.operator } := by
    refine .single ?_
    have reads := Operator.ofDocument_tag inReadForm
    simp [form, take, RecordForm.once, Operator.toJson, Document.ofJson, reads]
  have takesType : form.Takes { operator := some rule.operator } [("type", .text rule.edgeType)]
      { operator := some rule.operator, edgeType := some rule.edgeType } := .single rfl
  have takes := takesOperator.append takesType
  rw [List.singleton_append] at takes
  rw [kept_toJson, takes.read]
  rfl

end EdgeRule

namespace EgoRule

def withoutNonFinite (rule : EgoRule) : EgoRule :=
  { rule with value := rule.value.withoutNonFinite }

def keptMembers (rule : EgoRule) : List (String × Json) :=
  [("attribute", .text rule.attributeName)] ++
    (Operator.toMembers rule.operator ++ rule.value.keptMembers)

theorem kept_toJson (rule : EgoRule) : rule.toJson.kept = .object rule.keptMembers := by
  obtain ⟨attributeName, operator, value⟩ := rule
  rw [toJson, Json.kept, Json.keptMembers_eq_map, keptMembers]
  cases operator <;> cases isNull : value.isNull <;>
    simp only [Operator.toMembers, AttributeValue.toMembers, AttributeValue.keptMembers, isNull,
      Json.kept, Operator.toJson, AttributeValue.kept_toJson, Option.map_none, Option.map_some,
      Option.toList_none, Option.toList_some, List.nil_append, List.cons_append, List.append_nil,
      List.map_cons, List.map_nil, Keyed.ofList, List.foldl_cons, List.foldl_nil, Keyed.insert,
      String.reduceEq, String.reduceLT, Bool.false_eq_true, reduceIte]

theorem read_kept {rule : EgoRule}
    (operators : ∀ operator ∈ rule.operator, operator.InReadForm) :
    form.read (.ofJson rule.toJson.kept) = .ok rule.withoutNonFinite := by
  obtain ⟨attributeName, operator, value⟩ := rule
  have takesName : form.Takes {} [("attribute", .text attributeName)]
      { attributeName := some attributeName } := .single rfl
  have takesOperator : form.Takes { attributeName := some attributeName }
      (Operator.toMembers operator)
      { attributeName := some attributeName, operator := operator.map some } := by
    cases operator with
    | none => rfl
    | some operator =>
        refine .single ?_
        have reads := Operator.asOptional_tag (operators operator rfl)
        simp [form, take, RecordForm.once, Operator.toJson, Document.ofJson, reads]
  have takesValue : form.Takes
      { attributeName := some attributeName, operator := operator.map some }
      value.keptMembers
      { attributeName := some attributeName, operator := operator.map some,
        value := value.keptField } := by
    rw [AttributeValue.keptMembers, AttributeValue.keptField]
    split
    · rfl
    · refine .single ?_
      simp [form, take, RecordForm.once, AttributeValue.ofDocument_ofJson]
  have takes := takesName.append (takesOperator.append takesValue)
  rw [kept_toJson, keptMembers, takes.read]
  simp [form, complete, RecordForm.required, withoutNonFinite, getD_map_some,
    AttributeValue.getD_keptField]

end EgoRule

/-! ## Rules -/

namespace Rule

/-- The rule with null in place of the numbers that JSON cannot write. The options of a rule
that is not recognized are kept JSON values, which have no such numbers. -/
def withoutNonFinite : Rule → Rule
  | alter rule => alter rule.withoutNonFinite
  | ego rule => ego rule.withoutNonFinite
  | other => other

def operators : Rule → List Operator
  | alter rule => rule.operator.toList
  | edge rule => [rule.operator]
  | ego rule => rule.operator.toList
  | unrecognized _ _ => []

/-- A rule as it comes from reading: its operators are the ones that their tags are read as,
and where the domain is not recognized it is not one of the known ones, and the options are a
kept JSON value. -/
structure InReadForm (rule : Rule) : Prop where
  operators : ∀ operator ∈ rule.operators, operator.InReadForm
  unrecognized : ∀ domain options, rule = .unrecognized domain options →
    domain ∉ ["alter", "edge", "ego"] ∧ options.IsStorable

theorem ofOptions_kept {rule : Rule} (inReadForm : rule.InReadForm) :
    ofOptions rule.domainTag rule.optionsToJson.kept = .ok rule.withoutNonFinite := by
  cases rule with
  | alter rule =>
      rw [optionsToJson, domainTag, ofOptions, AlterRule.read_kept fun operator found =>
        inReadForm.operators operator (Option.mem_toList.mpr found)]
      rfl
  | edge rule =>
      rw [optionsToJson, domainTag, ofOptions,
        EdgeRule.read_kept (inReadForm.operators rule.operator List.mem_cons_self)]
      rfl
  | ego rule =>
      rw [optionsToJson, domainTag, ofOptions, EgoRule.read_kept fun operator found =>
        inReadForm.operators operator (Option.mem_toList.mpr found)]
      rfl
  | unrecognized domain options =>
      obtain ⟨unknown, storable⟩ := inReadForm.unrecognized domain options rfl
      simp only [List.mem_cons, List.not_mem_nil, or_false, not_or] at unknown
      obtain ⟨notAlter, notEdge, notEgo⟩ := unknown
      have kept : options.kept = options :=
        Json.kept_eq_self (storable.imp fun _ part => part.float)
          (storable.imp fun _ part => part.members)
      rw [optionsToJson, domainTag, kept, ofOptions]
      · rfl
      · exact notAlter
      · exact notEdge
      · exact notEgo

end Rule

/-! ## Parts of written options -/

section

variable {test : Json → Prop}

theorem Operator.forall_mem_toMembers (texts : ∀ text, test (.text text))
    (operator : Option Operator) : ∀ member ∈ toMembers operator, test member.2 := by
  cases operator with
  | none => exact List.forall_mem_nil _
  | some operator => exact List.forall_mem_singleton.mpr (texts operator.tag)

theorem AttributeValue.forall_mem_toMembers {value : AttributeValue} (null : test .null) :
    (∀ member ∈ value.toMembers, test member.2) ↔ test value.toJson := by
  rw [toMembers]
  split
  · next isNull =>
      obtain rfl := eq_null_of_isNull isNull
      exact iff_of_true (List.forall_mem_nil _) null
  · exact List.forall_mem_singleton

theorem AlterRule.exists_members (texts : ∀ text, test (.text text)) (null : test .null)
    (rule : AlterRule) :
    ∃ members, rule.toJson = .object members ∧
      ((∀ member ∈ members, test member.2) ↔ test rule.value.toJson) := by
  refine ⟨_, rfl, ?_⟩
  have name : ∀ member ∈
      (rule.attributeName.map fun name => ("attribute", Json.text name)).toList,
      test member.2 := by
    cases rule.attributeName with
    | none => exact List.forall_mem_nil _
    | some name => exact List.forall_mem_singleton.mpr (texts name)
  simp only [List.forall_mem_append, List.forall_mem_singleton,
    AttributeValue.forall_mem_toMembers null]
  exact and_iff_right ⟨⟨texts _, name⟩, Operator.forall_mem_toMembers texts _⟩

theorem EgoRule.exists_members (texts : ∀ text, test (.text text)) (null : test .null)
    (rule : EgoRule) :
    ∃ members, rule.toJson = .object members ∧
      ((∀ member ∈ members, test member.2) ↔ test rule.value.toJson) := by
  refine ⟨_, rfl, ?_⟩
  simp only [List.forall_mem_append, List.forall_mem_singleton,
    AttributeValue.forall_mem_toMembers null]
  exact and_iff_right ⟨texts _, Operator.forall_mem_toMembers texts _⟩

end

/-! ## What can be read -/

section

variable {limit : Nat} {document : Document}

theorem Operator.inReadForm_of_ofDocument {operator : Operator}
    (reads : ofDocument document = .ok operator) : operator.InReadForm := by
  obtain ⟨tag, _, rfl⟩ := map_eq_ok.mp reads
  exact ⟨tag, rfl⟩

theorem Json.within_text (value : String) : (text value).Within floatIsFinite limit :=
  within_of_parts rfl rfl trivial

theorem AttributeValue.within_getD {given : Option AttributeValue}
    (within : ∀ value ∈ given, value.toJson.Within Json.floatIsFinite limit) :
    (given.getD .null).toJson.Within Json.floatIsFinite limit :=
  RecordForm.getD_of_forall
    (fun value : AttributeValue => value.toJson.Within Json.floatIsFinite limit)
    .null (Json.within_of_parts rfl rfl trivial) within

theorem Operator.inReadForm_getD {given : Option (Option Operator)}
    (inReadForm : ∀ found ∈ given, ∀ operator ∈ found, operator.InReadForm) :
    ∀ operator ∈ given.getD none, operator.InReadForm :=
  RecordForm.getD_of_forall
    (fun found : Option Operator => ∀ operator ∈ found, operator.InReadForm)
    none (by simp) inReadForm

end

namespace AlterRule

structure DraftWithin (limit : Nat) (draft : Draft) : Prop where
  operator : ∀ found ∈ draft.operator, ∀ operator ∈ found, operator.InReadForm
  value : ∀ value ∈ draft.value, value.toJson.Within Json.floatIsFinite limit

theorem within_of_filled {limit : Nat} {draft : Draft} (filled : form.Filled limit draft) :
    DraftWithin limit draft := by
  induction filled with
  | blank => constructor <;> simp [form]
  | take before bounded takes induction =>
      simp only [form, take] at takes
      split at takes <;> simp only [bind_eq_ok, pure_eq_ok, Except.ok.injEq] at takes <;>
        obtain ⟨_, takesOnce, rfl⟩ := takes
      · exact ⟨induction.operator, induction.value⟩
      · exact ⟨induction.operator, induction.value⟩
      · obtain ⟨_, read, reads, rfl⟩ := RecordForm.once_eq_ok.mp takesOnce
        refine ⟨?_, induction.value⟩
        rintro found ⟨⟩ operator ⟨⟩
        exact Operator.inReadForm_of_ofDocument (bounded.asOptional reads)
      · obtain ⟨_, read, reads, rfl⟩ := RecordForm.once_eq_ok.mp takesOnce
        refine ⟨induction.operator, ?_⟩
        rintro value ⟨⟩
        exact AttributeValue.within_of_ofDocument bounded reads
      · exact induction

theorem within_of_read {limit : Nat} {document : Document} (bounded : document.Bounded limit)
    {rule : AlterRule} (reads : form.read document = .ok rule) :
    (∀ operator ∈ rule.operator, operator.InReadForm) ∧
      rule.toJson.Within Json.floatIsFinite limit := by
  obtain ⟨below, draft, rfl, filled, completes⟩ := RecordForm.exists_filled_of_read bounded reads
  have within := within_of_filled filled
  simp only [form, complete, bind_eq_ok, pure_eq_ok, Except.ok.injEq] at completes
  obtain ⟨nodeType, _, rfl⟩ := completes
  refine ⟨Operator.inReadForm_getD within.operator, ?_⟩
  obtain ⟨members, written, each⟩ :=
    exists_members Json.within_text (Json.within_of_parts rfl rfl trivial) _
  rw [written]
  exact Json.within_object trivial (each.mpr (AttributeValue.within_getD within.value))

end AlterRule

namespace EdgeRule

theorem inReadForm_of_filled {limit : Nat} {draft : Draft} (filled : form.Filled limit draft) :
    ∀ operator ∈ draft.operator, operator.InReadForm := by
  induction filled with
  | blank => simp [form]
  | take before bounded takes induction =>
      simp only [form, take] at takes
      split at takes <;> simp only [bind_eq_ok, pure_eq_ok, Except.ok.injEq] at takes <;>
        obtain ⟨_, takesOnce, rfl⟩ := takes
      · exact induction
      · obtain ⟨_, read, reads, rfl⟩ := RecordForm.once_eq_ok.mp takesOnce
        rintro operator ⟨⟩
        exact Operator.inReadForm_of_ofDocument reads
      · exact induction

theorem within_of_read {limit : Nat} {document : Document} (bounded : document.Bounded limit)
    {rule : EdgeRule} (reads : form.read document = .ok rule) :
    rule.operator.InReadForm ∧ rule.toJson.Within Json.floatIsFinite limit := by
  obtain ⟨below, draft, rfl, filled, completes⟩ := RecordForm.exists_filled_of_read bounded reads
  simp only [form, complete, bind_eq_ok, pure_eq_ok, Except.ok.injEq] at completes
  obtain ⟨edgeType, _, operator, found, rfl⟩ := completes
  refine ⟨inReadForm_of_filled filled operator (RecordForm.required_eq_ok.mp found), ?_⟩
  exact Json.within_object trivial (by
    simp [Operator.toJson, Json.within_text])

end EdgeRule

namespace EgoRule

structure DraftWithin (limit : Nat) (draft : Draft) : Prop where
  operator : ∀ found ∈ draft.operator, ∀ operator ∈ found, operator.InReadForm
  value : ∀ value ∈ draft.value, value.toJson.Within Json.floatIsFinite limit

theorem within_of_filled {limit : Nat} {draft : Draft} (filled : form.Filled limit draft) :
    DraftWithin limit draft := by
  induction filled with
  | blank => constructor <;> simp [form]
  | take before bounded takes induction =>
      simp only [form, take] at takes
      split at takes <;> simp only [bind_eq_ok, pure_eq_ok, Except.ok.injEq] at takes <;>
        obtain ⟨_, takesOnce, rfl⟩ := takes
      · exact ⟨induction.operator, induction.value⟩
      · obtain ⟨_, read, reads, rfl⟩ := RecordForm.once_eq_ok.mp takesOnce
        refine ⟨?_, induction.value⟩
        rintro found ⟨⟩ operator ⟨⟩
        exact Operator.inReadForm_of_ofDocument (bounded.asOptional reads)
      · obtain ⟨_, read, reads, rfl⟩ := RecordForm.once_eq_ok.mp takesOnce
        refine ⟨induction.operator, ?_⟩
        rintro value ⟨⟩
        exact AttributeValue.within_of_ofDocument bounded reads
      · exact induction

theorem within_of_read {limit : Nat} {document : Document} (bounded : document.Bounded limit)
    {rule : EgoRule} (reads : form.read document = .ok rule) :
    (∀ operator ∈ rule.operator, operator.InReadForm) ∧
      rule.toJson.Within Json.floatIsFinite limit := by
  obtain ⟨below, draft, rfl, filled, completes⟩ := RecordForm.exists_filled_of_read bounded reads
  have within := within_of_filled filled
  simp only [form, complete, bind_eq_ok, pure_eq_ok, Except.ok.injEq] at completes
  obtain ⟨attributeName, _, rfl⟩ := completes
  refine ⟨Operator.inReadForm_getD within.operator, ?_⟩
  obtain ⟨members, written, each⟩ :=
    exists_members Json.within_text (Json.within_of_parts rfl rfl trivial) _
  rw [written]
  exact Json.within_object trivial (each.mpr (AttributeValue.within_getD within.value))

end EgoRule

namespace Rule

theorem within_of_ofOptions {domain : String} {options : Json} {limit : Nat}
    (within : options.Within Json.IsKeptPart limit) {rule : Rule}
    (reads : ofOptions domain options = .ok rule) :
    rule.InReadForm ∧ rule.optionsToJson.Within Json.floatIsFinite limit := by
  have bounded := Document.bounded_ofJson within
  unfold ofOptions at reads
  split at reads
  · obtain ⟨rule, readsRule, rfl⟩ := map_eq_ok.mp reads
    obtain ⟨operators, written⟩ := AlterRule.within_of_read bounded readsRule
    exact ⟨⟨fun operator found => operators operator (Option.mem_toList.mp found), by simp⟩,
      written⟩
  · obtain ⟨rule, readsRule, rfl⟩ := map_eq_ok.mp reads
    obtain ⟨inReadForm, written⟩ := EdgeRule.within_of_read bounded readsRule
    exact ⟨⟨List.forall_mem_singleton.mpr inReadForm, by simp⟩, written⟩
  · obtain ⟨rule, readsRule, rfl⟩ := map_eq_ok.mp reads
    obtain ⟨operators, written⟩ := EgoRule.within_of_read bounded readsRule
    exact ⟨⟨fun operator found => operators operator (Option.mem_toList.mp found), by simp⟩,
      written⟩
  · next notAlter notEdge notEgo =>
      obtain rfl := Except.ok.inj reads
      refine ⟨⟨List.forall_mem_nil _, ?_⟩, within.imp fun _ part => part.float⟩
      rintro domain options ⟨⟩
      exact ⟨by simpa using ⟨notAlter, notEdge, notEgo⟩, within.passes⟩

end Rule

end Sociogram
