import Sociogram.Proofs.Filter.Divergence
import Sociogram.Proofs.Filter.Reordering
import Sociogram.Proofs.Query.Grouping

/-!
Rules of a domain that is not known, with or without counts. They are never satisfied, by
no node and not by the ego. Under `or` they may be left out, and under `and` one of them is
enough for nothing to be left.
-/

namespace Sociogram

/-! ## Outcomes that are false -/

namespace Join

variable {Item : Type}

theorem combine_or_filter {outcome kept : Item → Bool} {items : List Item}
    (fails : ∀ item ∈ items, kept item = false → outcome item = false) :
    or.combine ((items.filter kept).map outcome) = or.combine (items.map outcome) := by
  rw [Bool.eq_iff_iff, combine_or_eq_true, combine_or_eq_true]
  constructor
  · rintro ⟨item, member, holds⟩
    exact ⟨item, List.mem_of_mem_filter member, holds⟩
  · rintro ⟨item, member, holds⟩
    refine ⟨item, List.mem_filter.mpr ⟨member, ?_⟩, holds⟩
    cases stays : kept item with
    | true => rfl
    | false => simp [fails item member stays] at holds

theorem combine_and_of_mem {outcome : Item → Bool} {items : List Item} {item : Item}
    (member : item ∈ items) (fails : outcome item = false) :
    and.combine (items.map outcome) = false := by
  rw [← Bool.not_eq_true, combine_and_eq_true]
  intro holds
  simp [holds item member] at fails

end Join

/-! ## Rules of an unknown domain -/

def RuleEntry.isRecognized (entry : RuleEntry) : Bool :=
  entry.rule.domain != .unrecognized

/-- The entries of known domains. -/
def RuleSet.recognized (ruleSet : RuleSet) : RuleSet where
  join := ruleSet.join
  entries := ruleSet.entries.filter RuleEntry.isRecognized

theorem RuleEntry.domain_of_not_recognized {entry : RuleEntry}
    (unknown : entry.isRecognized = false) : entry.rule.domain = .unrecognized := by
  simpa [isRecognized] using unknown

theorem Rule.matchesNode_of_unrecognized {rule : Rule} (unknown : rule.domain = .unrecognized)
    (surroundings : Surroundings) (node : Node) : rule.matchesNode surroundings node = false := by
  cases rule with
  | unrecognized domain options => rfl
  | alter rule => cases unknown
  | edge rule => cases unknown
  | ego rule => cases unknown

theorem RuleEntry.outcome_of_unrecognized {entry : RuleEntry}
    (unknown : entry.rule.domain = .unrecognized) (network : Network) :
    entry.outcome network = false := by
  simp only [outcome, unknown]

namespace RuleSet

/-! ## Under `or` -/

section

variable {ruleSet : RuleSet} (disjunctive : ruleSet.join = .or)

include disjunctive

theorem passes_recognized (surroundings : Surroundings) (node : Node) :
    ruleSet.recognized.passes surroundings node = ruleSet.passes surroundings node := by
  have fails : ∀ entry ∈ ruleSet.entries, entry.isRecognized = false →
      entry.rule.matchesNode surroundings node = false := fun entry _ unknown =>
    Rule.matchesNode_of_unrecognized (entry.domain_of_not_recognized unknown) surroundings node
  simp only [passes, Join.passes, rules, recognized, disjunctive, List.map_map, Function.comp_def]
  exact Join.combine_or_filter fails

theorem outcome_recognized (network : Network) :
    ruleSet.recognized.outcome network = ruleSet.outcome network := by
  have fails : ∀ entry ∈ ruleSet.entries, entry.isRecognized = false →
      entry.outcome network = false := fun entry _ unknown =>
    entry.outcome_of_unrecognized (entry.domain_of_not_recognized unknown) network
  simp only [outcome, recognized, disjunctive]
  exact Join.combine_or_filter fails

end

/-! ## Under `and` -/

section

variable {ruleSet : RuleSet} (conjunctive : ruleSet.join = .and) {rule : Rule}
  (member : rule ∈ ruleSet.rules) (unknown : rule.domain = .unrecognized)

include conjunctive member unknown

/-- No node is left from the stage of such a rule on, and none satisfies it in a single
pass. -/
theorem no_nodes_filtered_of_unrecognized (strategy : Strategy) (network : Network) :
    (ruleSet.filtered strategy network).nodes = [] := by
  have fails := Rule.matchesNode_of_unrecognized unknown
  apply List.eq_nil_iff_forall_not_mem.mpr
  intro node left
  cases strategy with
  | singlePass =>
      have nonempty : ruleSet.rules ≠ [] := List.ne_nil_of_mem member
      have matched := ((mem_singlePass_nodes conjunctive nonempty network node).mp left).2
      simpa [fails] using matched rule member
  | standard =>
      rcases List.append_of_mem member with ⟨earlier, later, split⟩
      rw [filtered, Filter.apply_ofRuleSet_of_and conjunctive, split, List.foldl_append,
        List.foldl_cons] at left
      have kept := (Filter.foldl_narrow_partOf later _).nodes.subset left
      simpa [fails] using (List.mem_filter.mp kept).2

theorem filtered_of_unrecognized (strategy : Strategy) (network : Network) :
    ruleSet.filtered strategy network = network.emptied := by
  have nonempty : ruleSet.rules ≠ [] := List.ne_nil_of_mem member
  rw [(filtered_inducedIn_of_nonempty nonempty strategy network).eq_restrict,
    no_nodes_filtered_of_unrecognized conjunctive member unknown, Network.restrict_nil]

end

/-! ## Main statement -/

/-- Under `or` the entries of unknown domains change nothing, neither what a filter leaves nor
the answer of a query, also when there are no others. Under `and` a single one, wherever it
stands, leaves the ego alone and makes the query false. -/
theorem unrecognized_rules_neutral_or_absorbing (ruleSet : RuleSet) (network : Network) :
    (ruleSet.join = .or →
        (∀ strategy, ruleSet.recognized.filtered strategy network =
          ruleSet.filtered strategy network) ∧
        (Query.ofRuleSet ruleSet.recognized).evaluate network =
          (Query.ofRuleSet ruleSet).evaluate network) ∧
      (ruleSet.join = .and → (∃ entry ∈ ruleSet.entries, entry.rule.domain = .unrecognized) →
        (∀ strategy, ruleSet.filtered strategy network = network.emptied) ∧
        (Query.ofRuleSet ruleSet).evaluate network = false) := by
  constructor
  · intro disjunctive
    have recognizedDisjunctive : ruleSet.recognized.join = .or := disjunctive
    constructor
    · exact filtered_congr_passes disjunctive recognizedDisjunctive
        fun node _ => passes_recognized disjunctive _ node
    · rw [Query.evaluate_ofRuleSet, Query.evaluate_ofRuleSet]
      exact outcome_recognized disjunctive network
  · rintro conjunctive ⟨entry, member, unknown⟩
    have ofRules : entry.rule ∈ ruleSet.rules := List.mem_map_of_mem member
    constructor
    · exact fun strategy => filtered_of_unrecognized conjunctive ofRules unknown strategy network
    · rw [Query.evaluate_ofRuleSet, outcome, conjunctive]
      exact Join.combine_and_of_mem member (entry.outcome_of_unrecognized unknown network)

theorem unrecognized_rules_neutral_or_absorbing_tangled :
    let unknown : RuleEntry := ⟨.unrecognized "pet" .null, some ⟨.countNone, .zero false⟩⟩
    let nameless : RuleEntry := ⟨.ego ⟨"name", some .notExists, .null⟩, none⟩
    let union := RuleSet.mk .or [unknown, nameless, unknown]
    let alone := RuleSet.mk .or [unknown]
    let stages := RuleSet.mk .and [nameless, unknown]
    union.settlesEgo = false ∧ union.recognized.settlesEgo = true ∧
      (∀ strategy, union.recognized.filtered strategy .tangled =
        union.filtered strategy .tangled) ∧
      (union.filtered .singlePass .tangled).nodes.map (·.id.text) = ["a", "a"] ∧
      (Query.ofRuleSet union.recognized).evaluate .tangled =
        (Query.ofRuleSet union).evaluate .tangled ∧
      (Query.ofRuleSet union).evaluate .tangled = true ∧ alone.recognized.entries = [] ∧
      (∀ strategy, alone.recognized.filtered strategy .tangled =
        alone.filtered strategy .tangled) ∧
      (∃ entry ∈ stages.entries, entry.rule.domain = .unrecognized) ∧
      (∀ strategy, stages.filtered strategy .tangled = Network.tangled.emptied) ∧
      (Query.ofRuleSet stages).evaluate .tangled = false := by
  intro unknown nameless union alone stages
  have someUnknown : ∃ entry ∈ stages.entries, entry.rule.domain = .unrecognized :=
    ⟨unknown, by simp [stages], rfl⟩
  have inUnion := (unrecognized_rules_neutral_or_absorbing union .tangled).1 rfl
  have whenAlone := (unrecognized_rules_neutral_or_absorbing alone .tangled).1 rfl
  have inStages := (unrecognized_rules_neutral_or_absorbing stages .tangled).2 rfl someUnknown
  exact ⟨by decide, by decide, inUnion.1, by decide +kernel, inUnion.2, by decide +kernel, rfl,
    whenAlone.1, someUnknown, inStages.1, inStages.2⟩

end RuleSet

end Sociogram
