import Sociogram.Proofs.Json.Scanned
import Sociogram.Proofs.Rule.Options

/-!
Rule sets are read back from their texts exactly when the values of their counts are finite,
with null in place of the numbers that JSON cannot write.
-/

namespace Sociogram

/-! ## Counts -/

theorem ok_eq_iff {Value : Type} {value result : Value} {test : Prop} (passes : test) :
    (Except.ok value : Except Problem Value) = .ok result ↔ test ∧ result = value := by
  rw [Except.ok.injEq, eq_comm]
  exact (and_iff_right passes).symm

namespace CountAssertion

theorem read_asWritten {assertion : CountAssertion}
    (inReadForm : assertion.operator.InReadForm) (result : CountAssertion) :
    form.read assertion.toJson.asWritten = .ok result ↔
      assertion.value.isFinite = true ∧ result = assertion := by
  have reads : Operator.ofDocument assertion.operator.toJson.asWritten = .ok assertion.operator :=
    Operator.ofDocument_tag inReadForm
  rw [toJson, RecordForm.read_asWritten]
  simp only [form, List.foldlM_cons, List.foldlM_nil, take, RecordForm.once, reads, Json.asWritten]
  split
  · next finite => exact ok_eq_iff finite
  · next notFinite => exact iff_of_false (by rintro ⟨⟩) fun both => notFinite both.1

end CountAssertion

/-! ## Entries -/

namespace RuleEntry

def withoutNonFinite (entry : RuleEntry) : RuleEntry :=
  { entry with rule := entry.rule.withoutNonFinite }

structure InReadForm (entry : RuleEntry) : Prop where
  rule : entry.rule.InReadForm
  count : ∀ assertion ∈ entry.count, assertion.operator.InReadForm

/-- The count of the entry, if there is one, is compared with a finite number. -/
def HasFiniteCount (entry : RuleEntry) : Prop :=
  ∀ assertion ∈ entry.count, assertion.value.isFinite = true

theorem read_asWritten {entry : RuleEntry} (inReadForm : entry.InReadForm) (result : RuleEntry) :
    form.read entry.toJson.asWritten = .ok result ↔
      entry.HasFiniteCount ∧ result = entry.withoutNonFinite := by
  obtain ⟨rule, count⟩ := entry
  have readsRule := Rule.ofOptions_kept inReadForm.rule
  rw [toJson, RecordForm.read_asWritten]
  simp only [form, List.foldlM_append, List.foldlM_cons, List.foldlM_nil, take, RecordForm.once,
    Json.ofDocument_asWritten]
  simp only [Json.asWritten, Document.asText, map_ok, ok_bind, pure_eq_ok]
  cases count with
  | none =>
      simp only [Option.map_none, Option.toList_none, List.foldlM_nil, pure_eq_ok, ok_bind,
        complete, RecordForm.required, Option.getD_some, readsRule]
      exact ok_eq_iff (by simp [HasFiniteCount])
  | some assertion =>
      have optional : assertion.toJson.asWritten.asOptional CountAssertion.form.read =
          (CountAssertion.form.read assertion.toJson.asWritten).map some := rfl
      have readsCount := CountAssertion.read_asWritten (inReadForm.count assertion rfl)
      simp only [Option.map_some, Option.toList_some, List.foldlM_cons, List.foldlM_nil,
        takeCount, RecordForm.once, optional]
      by_cases finite : assertion.value.isFinite = true
      · simp only [(readsCount assertion).mpr ⟨finite, rfl⟩, map_ok, ok_bind, pure_eq_ok, complete,
          RecordForm.required, Option.getD_some, readsRule]
        exact ok_eq_iff (by simpa [HasFiniteCount] using finite)
      · refine iff_of_false (fun reads => ?_) fun both => finite (both.1 assertion rfl)
        simp only [bind_eq_ok, map_eq_ok] at reads
        obtain ⟨_, ⟨_, ⟨_, ⟨_, ⟨found, readsFound, _⟩, _⟩, _⟩, _⟩, _⟩ := reads
        exact finite ((readsCount found).mp readsFound).1

end RuleEntry

/-! ## Rule sets -/

namespace RuleSet

def withoutNonFinite (ruleSet : RuleSet) : RuleSet :=
  { ruleSet with entries := ruleSet.entries.map RuleEntry.withoutNonFinite }

theorem read_asWritten {ruleSet : RuleSet}
    (inReadForm : ∀ entry ∈ ruleSet.entries, entry.InReadForm) (result : RuleSet) :
    form.read ruleSet.toJson.asWritten = .ok result ↔
      (∀ entry ∈ ruleSet.entries, entry.HasFiniteCount) ∧ result = ruleSet.withoutNonFinite := by
  have readsEntries := Document.asList_asWritten_iff RuleEntry.HasFiniteCount fun entry member =>
    RuleEntry.read_asWritten (inReadForm entry member)
  have readsJoin : Join.ofDocument ruleSet.join.toJson.asWritten = .ok ruleSet.join :=
    congrArg Except.ok ruleSet.join.ofTag_tag
  rw [toJson, RecordForm.read_asWritten]
  simp only [form, List.foldlM_cons, List.foldlM_nil, take, RecordForm.once]
  by_cases finite : ∀ entry ∈ ruleSet.entries, entry.HasFiniteCount
  · simp only [(readsEntries _).mpr ⟨finite, rfl⟩, readsJoin, map_ok, ok_bind, pure_eq_ok,
      complete, Option.getD_some]
    exact ok_eq_iff finite
  · refine iff_of_false (fun reads => ?_) fun both => finite both.1
    simp only [bind_eq_ok, map_eq_ok] at reads
    obtain ⟨_, ⟨_, ⟨_, ⟨found, readsFound, _⟩, _⟩, _⟩, _⟩ := reads
    exact finite ((readsEntries found).mp readsFound).1

end RuleSet

/-! ## Numbers in a rule set -/

namespace Rule

theorem integerIsRead_optionsToJson {rule : Rule} (inReadForm : rule.InReadForm) :
    rule.optionsToJson.Throughout Json.integerIsRead := by
  have only := Json.onlyNumbersFail_integerIsRead
  cases rule with
  | alter rule =>
      obtain ⟨members, written, each⟩ :=
        rule.exists_members only.throughout_text only.throughout_null
      rw [optionsToJson, written, Json.throughout_object]
      exact ⟨trivial, each.mpr rule.value.integerIsRead_toJson⟩
  | edge rule =>
      rw [optionsToJson, EdgeRule.toJson, Json.throughout_object]
      exact ⟨trivial, by simp [Operator.toJson, only.throughout_text]⟩
  | ego rule =>
      obtain ⟨members, written, each⟩ :=
        rule.exists_members only.throughout_text only.throughout_null
      rw [optionsToJson, written, Json.throughout_object]
      exact ⟨trivial, each.mpr rule.value.integerIsRead_toJson⟩
  | unrecognized domain options =>
      exact (inReadForm.unrecognized domain options rfl).2.imp fun _ part => part.integer

theorem withoutNonFinite_eq_self {rule : Rule}
    (finite : rule.optionsToJson.Throughout Json.floatIsFinite) :
    rule.withoutNonFinite = rule := by
  have only := Json.onlyNumbersFail_floatIsFinite
  cases rule with
  | alter rule =>
      obtain ⟨members, written, each⟩ :=
        rule.exists_members only.throughout_text only.throughout_null
      rw [optionsToJson, written, Json.throughout_object] at finite
      rw [withoutNonFinite, AlterRule.withoutNonFinite,
        AttributeValue.withoutNonFinite_eq_self (each.mp finite.2)]
  | ego rule =>
      obtain ⟨members, written, each⟩ :=
        rule.exists_members only.throughout_text only.throughout_null
      rw [optionsToJson, written, Json.throughout_object] at finite
      rw [withoutNonFinite, EgoRule.withoutNonFinite,
        AttributeValue.withoutNonFinite_eq_self (each.mp finite.2)]
  | edge rule => rfl
  | unrecognized domain options => rfl

end Rule

section

variable {test : Json → Prop} (only : Json.OnlyNumbersFail test)

include only

theorem RuleEntry.throughout_toJson (entry : RuleEntry) :
    entry.toJson.Throughout test ↔
      entry.rule.optionsToJson.Throughout test ∧
        ∀ assertion ∈ entry.count, test (.float assertion.value) := by
  have float : ∀ number, (Json.float number).Throughout test ↔ test (.float number) := by
    simp [Json.Throughout, Json.parts]
  cases equal : entry.count <;>
    simp [toJson, equal, CountAssertion.toJson, Operator.toJson, Json.throughout_object,
      only.object, only.throughout_text, float]

theorem RuleSet.throughout_toJson (ruleSet : RuleSet) :
    ruleSet.toJson.Throughout test ↔
      ∀ entry ∈ ruleSet.entries, entry.toJson.Throughout test := by
  simp [toJson, Join.toJson, Json.throughout_object, Json.throughout_array, only.object,
    only.array, only.throughout_text]

end

namespace RuleSet

theorem integerIsRead_toJson {ruleSet : RuleSet}
    (inReadForm : ∀ entry ∈ ruleSet.entries, entry.InReadForm) :
    ruleSet.toJson.Throughout Json.integerIsRead := by
  have only := Json.onlyNumbersFail_integerIsRead
  rw [throughout_toJson only]
  intro entry member
  rw [RuleEntry.throughout_toJson only]
  exact ⟨Rule.integerIsRead_optionsToJson (inReadForm entry member).rule, fun _ _ => trivial⟩

theorem withoutNonFinite_eq_self {ruleSet : RuleSet}
    (finite : ruleSet.toJson.Throughout Json.floatIsFinite) :
    ruleSet.withoutNonFinite = ruleSet := by
  have only := Json.onlyNumbersFail_floatIsFinite
  have same : ruleSet.entries.map RuleEntry.withoutNonFinite = ruleSet.entries :=
    map_eq_self fun entry member => by
      have inEntry := (throughout_toJson only ruleSet).mp finite entry member
      rw [RuleEntry.withoutNonFinite, Rule.withoutNonFinite_eq_self
        ((entry.throughout_toJson only).mp inEntry).1]
  rw [withoutNonFinite, same]

theorem hasFiniteCount_of_finite {ruleSet : RuleSet}
    (finite : ruleSet.toJson.Throughout Json.floatIsFinite) :
    ∀ entry ∈ ruleSet.entries, entry.HasFiniteCount := by
  have only := Json.onlyNumbersFail_floatIsFinite
  intro entry member
  have inEntry := (throughout_toJson only ruleSet).mp finite entry member
  exact ((entry.throughout_toJson only).mp inEntry).2

end RuleSet

/-! ## What can be read -/

theorem Document.Bounded.asNumber {limit : Nat} {document : Document}
    (bounded : document.Bounded limit) {number : Binary64}
    (reads : document.asNumber = .ok number) : number.isFinite = true := by
  cases bounded with
  | integer isRead =>
      obtain rfl := Except.ok.inj reads
      obtain ⟨lower, upper⟩ := isRead
      exact Binary64.isFinite_ofInt (by omega)
  | float finite =>
      obtain rfl := Except.ok.inj reads
      exact finite
  | null | boolean | text | sequence | mapping | buried | faulty => cases reads

namespace CountAssertion

structure DraftRead (draft : Draft) : Prop where
  operator : ∀ operator ∈ draft.operator, operator.InReadForm
  value : ∀ value ∈ draft.value, value.isFinite = true

theorem draftRead_of_filled {limit : Nat} {draft : Draft} (filled : form.Filled limit draft) :
    DraftRead draft := by
  induction filled with
  | blank => constructor <;> simp [form]
  | take before bounded takes induction =>
      simp only [form, take] at takes
      split at takes <;> simp only [bind_eq_ok, pure_eq_ok, Except.ok.injEq] at takes <;>
        obtain ⟨_, takesOnce, rfl⟩ := takes
      · obtain ⟨_, read, reads, rfl⟩ := RecordForm.once_eq_ok.mp takesOnce
        refine ⟨?_, induction.value⟩
        rintro operator ⟨⟩
        exact Operator.inReadForm_of_ofDocument reads
      · obtain ⟨_, read, reads, rfl⟩ := RecordForm.once_eq_ok.mp takesOnce
        refine ⟨induction.operator, ?_⟩
        rintro value ⟨⟩
        exact bounded.asNumber reads
      · exact induction

theorem within_of_read {limit : Nat} {document : Document} (bounded : document.Bounded limit)
    {assertion : CountAssertion} (reads : form.read document = .ok assertion) :
    assertion.operator.InReadForm ∧ assertion.toJson.Within Json.floatIsFinite limit := by
  obtain ⟨below, draft, rfl, filled, completes⟩ := RecordForm.exists_filled_of_read bounded reads
  have draftRead := draftRead_of_filled filled
  simp only [form, complete, bind_eq_ok, pure_eq_ok, Except.ok.injEq,
    RecordForm.required_eq_ok] at completes
  obtain ⟨operator, givenOperator, value, givenValue, rfl⟩ := completes
  refine ⟨draftRead.operator operator givenOperator, Json.within_object trivial ?_⟩
  have number : (Json.float value).Within Json.floatIsFinite below :=
    Json.within_of_parts rfl rfl (draftRead.value value givenValue)
  simp [Operator.toJson, Json.within_text, number]

end CountAssertion

namespace RuleEntry

structure DraftWithin (limit : Nat) (draft : Draft) : Prop where
  options : ∀ options ∈ draft.options, options.Within Json.IsKeptPart limit
  count : ∀ found ∈ draft.count, ∀ assertion ∈ found,
    assertion.operator.InReadForm ∧ assertion.toJson.Within Json.floatIsFinite limit

theorem within_of_takeCount {limit : Nat} {draft filled : Draft} {document : Document}
    (before : DraftWithin limit draft) (bounded : document.Bounded limit)
    (takes : takeCount draft document = .ok filled) : DraftWithin limit filled := by
  simp only [takeCount, bind_eq_ok, pure_eq_ok, Except.ok.injEq] at takes
  obtain ⟨_, takesOnce, rfl⟩ := takes
  obtain ⟨_, read, reads, rfl⟩ := RecordForm.once_eq_ok.mp takesOnce
  refine ⟨before.options, ?_⟩
  rintro found ⟨⟩ assertion ⟨⟩
  exact CountAssertion.within_of_read bounded (bounded.asOptional reads)

theorem within_of_filled {limit : Nat} {draft : Draft} (filled : form.Filled limit draft) :
    DraftWithin limit draft := by
  induction filled with
  | blank => constructor <;> simp [form]
  | take before bounded takes induction =>
      simp only [form, take] at takes
      split at takes
      · simp only [bind_eq_ok, pure_eq_ok, Except.ok.injEq] at takes
        obtain ⟨_, _, rfl⟩ := takes
        exact ⟨induction.options, induction.count⟩
      · simp only [bind_eq_ok, pure_eq_ok, Except.ok.injEq] at takes
        obtain ⟨_, takesOnce, rfl⟩ := takes
        obtain ⟨_, read, reads, rfl⟩ := RecordForm.once_eq_ok.mp takesOnce
        refine ⟨?_, induction.count⟩
        rintro options ⟨⟩
        obtain ⟨json, readsJson, rfl⟩ := map_eq_ok.mp reads
        have within := bounded.value readsJson
        rwa [Json.withoutNonFinite_eq_self (within.passes.imp fun _ part => part.float)]
      · exact within_of_takeCount induction bounded takes
      · exact within_of_takeCount induction bounded takes
      · simp only [bind_eq_ok, pure_eq_ok, Except.ok.injEq] at takes
        obtain ⟨_, _, rfl⟩ := takes
        exact induction

theorem within_of_read {limit : Nat} {document : Document} (bounded : document.Bounded limit)
    {entry : RuleEntry} (reads : form.read document = .ok entry) :
    entry.InReadForm ∧ entry.toJson.Within Json.floatIsFinite limit := by
  obtain ⟨below, draft, rfl, filled, completes⟩ := RecordForm.exists_filled_of_read bounded reads
  have within := within_of_filled filled
  simp only [form, complete, bind_eq_ok, pure_eq_ok, Except.ok.injEq] at completes
  obtain ⟨domain, _, rule, readsRule, rfl⟩ := completes
  have options := RecordForm.getD_of_forall
    (fun options : Json => options.Within Json.IsKeptPart below)
    .null (Json.within_of_parts rfl rfl ⟨trivial, trivial, trivial⟩) within.options
  have count := RecordForm.getD_of_forall
    (fun found : Option CountAssertion => ∀ assertion ∈ found,
      assertion.operator.InReadForm ∧ assertion.toJson.Within Json.floatIsFinite below)
    none (by simp) within.count
  obtain ⟨inReadForm, written⟩ := Rule.within_of_ofOptions options readsRule
  refine ⟨⟨inReadForm, fun assertion member => (count assertion member).1⟩,
    Json.within_object trivial ?_⟩
  rw [List.forall_mem_append]
  refine ⟨by simp [Json.within_text, written], fun member inside => ?_⟩
  simp only [Option.mem_toList, Option.map_eq_some_iff] at inside
  obtain ⟨assertion, found, rfl⟩ := inside
  exact (count assertion found).2

end RuleEntry

namespace RuleSet

def DraftWithin (limit : Nat) (draft : Draft) : Prop :=
  ∀ entries ∈ draft.entries, ∀ entry ∈ entries,
    entry.InReadForm ∧ entry.toJson.Within Json.floatIsFinite limit

theorem within_of_filled {limit : Nat} {draft : Draft}
    (filled : form.Filled (limit + 1) draft) : DraftWithin limit draft := by
  induction filled with
  | blank => simp [form, DraftWithin]
  | take before bounded takes induction =>
      simp only [form, take] at takes
      split at takes <;> simp only [bind_eq_ok, pure_eq_ok, Except.ok.injEq] at takes <;>
        obtain ⟨_, takesOnce, rfl⟩ := takes
      · obtain ⟨_, read, reads, rfl⟩ := RecordForm.once_eq_ok.mp takesOnce
        obtain ⟨below, depth, each⟩ := bounded.asList reads
        obtain rfl : below = limit := by omega
        rintro entries ⟨⟩ entry member
        obtain ⟨item, itemBounded, readsItem⟩ := each entry member
        exact RuleEntry.within_of_read itemBounded readsItem
      · exact induction
      · exact induction

theorem within_of_read {limit : Nat} {document : Document}
    (bounded : document.Bounded (limit + 2)) {ruleSet : RuleSet}
    (reads : form.read document = .ok ruleSet) :
    (∀ entry ∈ ruleSet.entries, entry.InReadForm) ∧
      ruleSet.toJson.Within Json.floatIsFinite (limit + 2) := by
  obtain ⟨below, draft, depth, filled, completes⟩ := RecordForm.exists_filled_of_read bounded reads
  obtain rfl : below = limit + 1 := by omega
  obtain rfl := Except.ok.inj completes
  have within := RecordForm.getD_of_forall
    (fun entries : List RuleEntry => ∀ entry ∈ entries,
      entry.InReadForm ∧ entry.toJson.Within Json.floatIsFinite limit)
    [] (List.forall_mem_nil _) (within_of_filled filled)
  refine ⟨fun entry member => (within entry member).1, Json.within_object trivial ?_⟩
  have rules : (Json.array ((draft.entries.getD []).map RuleEntry.toJson)).Within
      Json.floatIsFinite (limit + 1) :=
    Json.within_array trivial
      (List.forall_mem_map.mpr fun entry member => (within entry member).2)
  simp [rules, Join.toJson, Json.within_text]

/-! ## Texts of rule sets -/

theorem ofText_of_mem_texts {ruleSet : RuleSet}
    (inReadForm : ∀ entry ∈ ruleSet.entries, entry.InReadForm)
    (shallow : ruleSet.toJson.depth ≤ 127)
    (readBack : ruleSet.toJson.Throughout Json.floatIsReadBack) {text : String}
    (written : text ∈ ruleSet.toJson.texts) (result : RuleSet) :
    ofText .json text = .ok result ↔
      (∀ entry ∈ ruleSet.entries, entry.HasFiniteCount) ∧ result = ruleSet.withoutNonFinite := by
  have reads := Json.read_of_mem_texts (integerIsRead_toJson inReadForm) shallow written form.read
  rw [Json.reread_asWritten readBack] at reads
  rw [← read_asWritten inReadForm result, ← reads]
  exact Format.read_json_eq_ok

theorem within_of_ofText {source : String} {ruleSet : RuleSet}
    (reads : ofText .json source = .ok ruleSet) :
    (∀ entry ∈ ruleSet.entries, entry.InReadForm) ∧
      ruleSet.toJson.Within Json.floatIsFinite 127 := by
  obtain ⟨document, bounded, readsDocument⟩ :=
    JsonText.exists_bounded_of_read (Format.read_json_eq_ok.mp reads)
  exact within_of_read bounded readsDocument

/-- A rule set that is not nested too deeply, and whose finite numbers are read back, is read back
from its compact text and from its pretty one, if and only if the values of its counts are finite.
What is read is the same rules in the same order, with null in place of the numbers in the values
of alter and ego rules that JSON cannot write. So nothing changes when all numbers are finite, and
nothing changes in a rule set that was read from a text. -/
theorem texts_read_back_if_counts_finite :
    (∀ ruleSet : RuleSet, (∀ entry ∈ ruleSet.entries, entry.InReadForm) →
      ruleSet.toJson.depth ≤ 127 → ruleSet.toJson.Throughout Json.floatIsReadBack →
        ∀ text ∈ ruleSet.toJson.texts, ∀ result,
          ofText .json text = .ok result ↔
            (∀ entry ∈ ruleSet.entries, entry.HasFiniteCount) ∧
              result = ruleSet.withoutNonFinite) ∧
    (∀ ruleSet : RuleSet, ruleSet.toJson.Throughout Json.floatIsFinite →
      (∀ entry ∈ ruleSet.entries, entry.HasFiniteCount) ∧
        ruleSet.withoutNonFinite = ruleSet) ∧
    ∀ (source : String) (ruleSet : RuleSet), ofText .json source = .ok ruleSet →
      ((∀ entry ∈ ruleSet.entries, entry.InReadForm) ∧ ruleSet.toJson.depth ≤ 127 ∧
        ruleSet.toJson.Throughout Json.floatIsFinite) ∧
        (ruleSet.toJson.Throughout Json.floatIsReadBack →
          ∀ text ∈ ruleSet.toJson.texts, ofText .json text = .ok ruleSet) := by
  refine ⟨fun ruleSet inReadForm shallow readBack text written =>
      ofText_of_mem_texts inReadForm shallow readBack written,
    fun ruleSet finite => ⟨hasFiniteCount_of_finite finite, withoutNonFinite_eq_self finite⟩,
    fun source ruleSet reads => ?_⟩
  obtain ⟨inReadForm, within⟩ := within_of_ofText reads
  refine ⟨⟨inReadForm, within.shallow, within.passes⟩, fun readBack text written => ?_⟩
  exact (ofText_of_mem_texts inReadForm within.shallow readBack written ruleSet).mpr
    ⟨hasFiniteCount_of_finite within.passes, (withoutNonFinite_eq_self within.passes).symm⟩

def surveyed (value : AttributeValue) (expected : Binary64) : RuleSet where
  join := .and
  entries :=
    [⟨.alter ⟨"person", some "", some (.unknown "AT_LEAST"), .array [value, .integer 1]⟩, none⟩,
      ⟨.edge ⟨"knows", .exists⟩, some ⟨.countGreaterThan, expected⟩⟩,
      ⟨.ego ⟨"age", none, .null⟩, none⟩,
      ⟨.unrecognized "place" (.object [("near", .array [.null, .integer 7])]), none⟩]

theorem surveyed_inReadForm (value : AttributeValue) (expected : Binary64) :
    ∀ entry ∈ (surveyed value expected).entries, entry.InReadForm := by
  have unknown : (Operator.unknown "AT_LEAST").InReadForm :=
    Operator.inReadForm_iff.mpr (by rintro tag ⟨⟩; decide)
  have «exists» : Operator.exists.InReadForm := ⟨_, Operator.ofTag_tag_of_mem_known _ (by decide)⟩
  have countGreaterThan : Operator.countGreaterThan.InReadForm :=
    ⟨_, Operator.ofTag_tag_of_mem_known _ (by decide)⟩
  have near : (Json.array [.null, .integer 7]).Within Json.IsKeptPart 1 :=
    Json.within_array ⟨trivial, trivial, trivial⟩ (List.forall_mem_cons.mpr
      ⟨Json.within_of_parts rfl rfl ⟨trivial, trivial, trivial⟩, List.forall_mem_singleton.mpr
        (Json.within_of_parts rfl rfl ⟨by constructor <;> decide, trivial, trivial⟩)⟩)
  have storable : (Json.object [("near", .array [.null, .integer 7])]).IsStorable :=
    (Json.within_object ⟨trivial, trivial, List.pairwise_singleton _ _⟩
      (List.forall_mem_singleton.mpr near)).passes
  simp only [surveyed, List.forall_mem_cons]
  refine ⟨⟨⟨by simp [Rule.operators, unknown], by simp⟩, by simp⟩,
    ⟨⟨by simp [Rule.operators, «exists»], by simp⟩, by simp [countGreaterThan]⟩,
    ⟨⟨by simp [Rule.operators], by simp⟩, by simp⟩,
    ⟨⟨by simp [Rule.operators], by simp [storable]⟩, by simp⟩, List.forall_mem_nil _⟩

theorem texts_read_back_if_counts_finite_surveyed :
    ((∀ entry ∈ (surveyed (.float .nan) (.ofInt 2)).entries, entry.InReadForm) ∧
      (surveyed (.float .nan) (.ofInt 2)).toJson.depth ≤ 127 ∧
      (surveyed (.float .nan) (.ofInt 2)).toJson.Throughout Json.floatIsReadBack ∧
      ∀ text ∈ (surveyed (.float .nan) (.ofInt 2)).toJson.texts,
        ofText .json text = .ok (surveyed .null (.ofInt 2))) ∧
    (∀ text ∈ (surveyed .null .nan).toJson.texts, ∀ result, ofText .json text ≠ .ok result) ∧
    ((surveyed .null (.ofInt 2)).toJson.Throughout Json.floatIsFinite ∧
      (surveyed .null (.ofInt 2)).withoutNonFinite = surveyed .null (.ofInt 2)) ∧
    ((surveyed .null (.ofInt 2)).toJson.Throughout Json.floatIsReadBack ∧
      ∀ text ∈ (surveyed .null (.ofInt 2)).toJson.texts,
        ofText .json text = .ok (surveyed .null (.ofInt 2))) := by
  have two : (Binary64.ofInt 2).isFinite = true := by decide +kernel
  have notNumber : Binary64.nan.isFinite = false := by decide +kernel
  have shallow : (surveyed (.float .nan) (.ofInt 2)).toJson.depth ≤ 127 := by decide
  have readBack : (surveyed (.float .nan) (.ofInt 2)).toJson.Throughout Json.floatIsReadBack := by
    decide +kernel
  have readBackAgain : (surveyed .null (.ofInt 2)).toJson.Throughout Json.floatIsReadBack := by
    decide +kernel
  have replaced : (surveyed (.float .nan) (.ofInt 2)).withoutNonFinite =
      surveyed .null (.ofInt 2) := by
    simp [surveyed, withoutNonFinite, RuleEntry.withoutNonFinite, Rule.withoutNonFinite,
      AlterRule.withoutNonFinite, EgoRule.withoutNonFinite, AttributeValue.withoutNonFinite,
      AttributeValue.itemsWithoutNonFinite, notNumber]
  have finiteCount : ∀ entry ∈ (surveyed (.float .nan) (.ofInt 2)).entries,
      entry.HasFiniteCount := by
    simp [surveyed, RuleEntry.HasFiniteCount, two]
  have reads : ∀ text ∈ (surveyed (.float .nan) (.ofInt 2)).toJson.texts,
      ofText .json text = .ok (surveyed .null (.ofInt 2)) := by
    intro text written
    have inReadForm := surveyed_inReadForm (.float .nan) (.ofInt 2)
    exact (texts_read_back_if_counts_finite.1 _ inReadForm shallow readBack text written _).mpr
      ⟨finiteCount, replaced.symm⟩
  have fails : ∀ text ∈ (surveyed .null .nan).toJson.texts,
      ∀ result, ofText .json text ≠ .ok result := by
    intro text written result succeeds
    have inReadForm := surveyed_inReadForm .null .nan
    have finite := ((texts_read_back_if_counts_finite.1 _ inReadForm (by decide)
      (by decide +kernel) text written result).mp succeeds).1
    simp [surveyed, RuleEntry.HasFiniteCount, notNumber] at finite
  obtain ⟨⟨_, _, finite⟩, readsAgain⟩ :=
    texts_read_back_if_counts_finite.2.2 (surveyed (.float .nan) (.ofInt 2)).toJson.compact _
      (reads _ (by simp [Json.texts]))
  exact ⟨⟨surveyed_inReadForm _ _, shallow, readBack, reads⟩, fails,
    ⟨finite, (texts_read_back_if_counts_finite.2.1 _ finite).2⟩,
    readBackAgain, readsAgain readBackAgain⟩

end RuleSet

end Sociogram
