import Sociogram.Proofs.Filter.Limit
import Sociogram.Proofs.Filter.Union
import Sociogram.Proofs.Query.Grouping

/-!
Queries without counts against filters. Under `or` a query is true when a filter leaves a
node, and otherwise only through an ego rule: the ego satisfies it by itself, while a
filter can keep nothing but nodes that carry the ego's identifier. Under `and` a node that
is left answers for every rule at once, if every rule has been tested on it where the query
tests it, in the whole network.
-/

namespace Sociogram

/-! ## Single rules -/

namespace Rule

theorem matchesEgo_eq_true_iff (rule : Rule) (ego : Option Node) :
    rule.matchesEgo ego = true ↔
      ∃ egoRule egoNode, rule = .ego egoRule ∧ ego = some egoNode ∧
        egoRule.holdsFor egoNode = true := by
  cases rule with
  | ego egoRule => cases ego <;> simp [matchesEgo]
  | alter alterRule => simp [matchesEgo]
  | edge edgeRule => simp [matchesEgo]
  | unrecognized domain options => simp [matchesEgo]

theorem matchesNode_of_holdsFor {egoRule : EgoRule} {ego node : Node}
    (holds : egoRule.holdsFor ego = true) (sameId : node.id = ego.id)
    {surroundings : Surroundings} (present : surroundings.ego = some ego) :
    (Rule.ego egoRule).matchesNode surroundings node = true := by
  simp [matchesNode, present, sameId, holds]

end Rule

/-! ## Entries without counts -/

/-- No alter or edge rule comes with a count. Other rules may, since theirs are not looked
at. -/
def RuleSet.Uncounted (ruleSet : RuleSet) : Prop :=
  ∀ entry ∈ ruleSet.entries, entry.rule.domain = .alter ∨ entry.rule.domain = .edge →
    entry.count = none

theorem RuleEntry.outcome_of_uncounted {entry : RuleEntry} (uncounted : entry.count = none)
    (looksAtNodes : entry.rule.domain = .alter ∨ entry.rule.domain = .edge)
    (network : Network) :
    entry.outcome network = true ↔
      ∃ node ∈ network.nodes, entry.rule.matchesNode (.ofNetwork network) node = true := by
  have someNode : entry.outcome network = !(network.matching entry.rule).isEmpty := by
    rcases looksAtNodes with alter | edge
    · simp only [outcome, alter, uncounted]
    · simp only [outcome, edge, uncounted]
  rw [someNode]
  simp [Network.matching]

theorem RuleEntry.outcome_eq_true_iff {entry : RuleEntry}
    (uncounted : entry.rule.domain = .alter ∨ entry.rule.domain = .edge → entry.count = none)
    (network : Network) :
    entry.outcome network = true ↔
      (∃ node ∈ network.nodes, entry.rule.matchesNode (.ofNetwork network) node = true) ∨
        entry.rule.matchesEgo network.ego = true := by
  rcases entry with ⟨rule, count⟩
  cases rule with
  | alter alterRule =>
      rw [outcome_of_uncounted (uncounted (.inl rfl)) (.inl rfl)]
      simp [Rule.matchesEgo]
  | edge edgeRule =>
      rw [outcome_of_uncounted (uncounted (.inr rfl)) (.inr rfl)]
      simp [Rule.matchesEgo]
  | ego egoRule =>
      constructor
      · exact .inr
      · rintro (⟨node, _, matched⟩ | satisfied)
        · rw [Rule.matchesNode_of_domain_ego rfl, Bool.and_eq_true] at matched
          exact matched.1
        · exact satisfied
  | unrecognized domain options => simp [outcome, Rule.domain, Rule.matchesNode, Rule.matchesEgo]

/-! ## Rule sets -/

namespace RuleSet

section

variable {ruleSet : RuleSet} (disjunctive : ruleSet.join = .or)

include disjunctive

theorem outcome_eq_true_iff (uncounted : ruleSet.Uncounted) (network : Network) :
    ruleSet.outcome network = true ↔
      (∃ node ∈ network.nodes, ruleSet.Selects network node) ∨
        ∃ rule ∈ ruleSet.rules, rule.matchesEgo network.ego = true := by
  have reasons (entry : RuleEntry) (member : entry ∈ ruleSet.entries) :=
    RuleEntry.outcome_eq_true_iff (uncounted entry member) network
  rw [outcome, disjunctive, Join.combine_or_eq_true]
  constructor
  · rintro ⟨entry, member, holds⟩
    have ofRules : entry.rule ∈ ruleSet.rules := List.mem_map_of_mem member
    rcases (reasons entry member).mp holds with ⟨node, inside, matched⟩ | satisfied
    · exact .inl ⟨node, inside, entry.rule, ofRules, matched⟩
    · exact .inr ⟨entry.rule, ofRules, satisfied⟩
  · rintro (⟨node, inside, rule, ofRules, matched⟩ | ⟨rule, ofRules, satisfied⟩)
    · rcases List.mem_map.mp ofRules with ⟨entry, member, rfl⟩
      exact ⟨entry, member, (reasons entry member).mpr (.inl ⟨node, inside, matched⟩)⟩
    · rcases List.mem_map.mp ofRules with ⟨entry, member, rfl⟩
      exact ⟨entry, member, (reasons entry member).mpr (.inr satisfied)⟩

theorem filtered_nodes_ne_nil_iff (strategy : Strategy) (network : Network) :
    (ruleSet.filtered strategy network).nodes ≠ [] ↔
      ∃ node ∈ network.nodes, ruleSet.Selects network node := by
  have passing : network.nodes.filter (ruleSet.passes (.ofNetwork network)) ≠ [] ↔
      ∃ node ∈ network.nodes, ruleSet.Selects network node := by
    simp [passes_iff_selects disjunctive]
  cases strategy with
  | singlePass =>
      rw [filtered, SinglePassFilter.apply_ofRuleSet_of_or disjunctive]
      exact passing
  | standard =>
      -- The nodes left carry the identifiers of those that pass, so there are none of either.
      have sameIds := Filter.mem_ids_union_iff_passes disjunctive network
      rw [← passing, filtered, Filter.apply_ofRuleSet_of_or disjunctive, Network.restrict_nodes,
        not_iff_not, ← List.map_eq_nil_iff (f := Node.id), ← List.map_eq_nil_iff (f := Node.id)]
      simp only [List.eq_nil_iff_forall_not_mem, sameIds]

end

theorem exists_matchesEgo_iff (ruleSet : RuleSet) (ego : Option Node) :
    (∃ rule ∈ ruleSet.rules, rule.matchesEgo ego = true) ↔
      ∃ egoRule egoNode, Rule.ego egoRule ∈ ruleSet.rules ∧ ego = some egoNode ∧
        egoRule.holdsFor egoNode = true := by
  simp only [Rule.matchesEgo_eq_true_iff]
  constructor
  · rintro ⟨rule, ofRules, egoRule, egoNode, rfl, present, holds⟩
    exact ⟨egoRule, egoNode, ofRules, present, holds⟩
  · rintro ⟨egoRule, egoNode, ofRules, present, holds⟩
    exact ⟨.ego egoRule, ofRules, egoRule, egoNode, rfl, present, holds⟩

end RuleSet

namespace Query

/-- Under `or`, without counts on nodes, the answer of a query is true exactly when a filter
leaves a node or the ego satisfies one of the ego rules. The ego makes no difference if
there is no ego rule, if there is no ego, or if the ego is one of the nodes. -/
theorem union_query_sees_nodes_left_or_ego (ruleSet : RuleSet)
    (disjunctive : ruleSet.join = .or) (uncounted : ruleSet.Uncounted) (strategy : Strategy)
    (network : Network) :
    let answer := (ofRuleSet ruleSet).evaluate network
    let nodesLeft := (ruleSet.filtered strategy network).nodes
    (answer = true ↔ nodesLeft ≠ [] ∨
        ∃ egoRule ego, Rule.ego egoRule ∈ ruleSet.rules ∧ network.ego = some ego ∧
          egoRule.holdsFor ego = true) ∧
      ((∀ egoRule, Rule.ego egoRule ∉ ruleSet.rules) ∨ network.ego = none ∨
          (∃ ego, network.ego = some ego ∧ ∃ node ∈ network.nodes, node.id = ego.id) →
        (answer = true ↔ nodesLeft ≠ [])) := by
  intro answer nodesLeft
  have someNode := RuleSet.filtered_nodes_ne_nil_iff disjunctive strategy network
  have reasons : answer = true ↔ nodesLeft ≠ [] ∨
      ∃ egoRule ego, Rule.ego egoRule ∈ ruleSet.rules ∧ network.ego = some ego ∧
        egoRule.holdsFor ego = true := by
    simp only [answer, nodesLeft]
    rw [evaluate_ofRuleSet, RuleSet.outcome_eq_true_iff disjunctive uncounted, someNode,
      RuleSet.exists_matchesEgo_iff]
  refine ⟨reasons, fun condition => ?_⟩
  rw [reasons]
  apply or_iff_left_of_imp
  rintro ⟨egoRule, ego, ofRules, present, holds⟩
  rcases condition with noEgoRule | noEgo | ⟨other, otherPresent, node, inside, sameId⟩
  · exact absurd ofRules (noEgoRule egoRule)
  · rw [noEgo] at present
    cases present
  · -- The node that carries the ego's identifier satisfies the rule as the ego does.
    rw [present, Option.some_inj] at otherPresent
    subst otherPresent
    have matched : (Rule.ego egoRule).matchesNode (.ofNetwork network) node = true :=
      Rule.matchesNode_of_holdsFor holds sameId present
    exact someNode.mpr ⟨node, inside, .ego egoRule, ofRules, matched⟩

def petsOrNamelessEgo : RuleSet where
  join := .or
  entries :=
    [⟨.alter (.ofType "pet" .exists), none⟩,
      ⟨.ego ⟨"name", some .notExists, .null⟩, some ⟨.countNone, .zero false⟩⟩]

theorem union_query_sees_nodes_left_or_ego_tangled :
    let others := Network.tangled.restrict [⟨⟨"b"⟩, "person", .empty⟩]
    let answer := (ofRuleSet petsOrNamelessEgo).evaluate
    let nodesLeft := fun strategy network => (petsOrNamelessEgo.filtered strategy network).nodes
    petsOrNamelessEgo.join = .or ∧ petsOrNamelessEgo.Uncounted ∧
      answer others = true ∧ (∀ strategy, nodesLeft strategy others = []) ∧
      (∃ ego, Network.tangled.ego = some ego ∧
        ∃ node ∈ Network.tangled.nodes, node.id = ego.id) ∧
      ∀ strategy, answer .tangled = true ↔ nodesLeft strategy .tangled ≠ [] := by
  intro others answer nodesLeft
  have uncounted : petsOrNamelessEgo.Uncounted := by
    simp [RuleSet.Uncounted, petsOrNamelessEgo, Rule.domain]
  have inside : ∃ ego, Network.tangled.ego = some ego ∧
      ∃ node ∈ Network.tangled.nodes, node.id = ego.id :=
    ⟨_, rfl, _, List.mem_cons_self, rfl⟩
  have satisfied : ∃ egoRule ego, Rule.ego egoRule ∈ petsOrNamelessEgo.rules ∧
      others.ego = some ego ∧ egoRule.holdsFor ego = true :=
    ⟨⟨"name", some .notExists, .null⟩, _, by simp [RuleSet.rules, petsOrNamelessEgo], rfl,
      by decide +kernel⟩
  have amongOthers := union_query_sees_nodes_left_or_ego petsOrNamelessEgo rfl uncounted
    .standard others
  have nobodyLeft : ∀ strategy, nodesLeft strategy others = [] := by
    intro strategy
    apply List.eq_nil_of_length_eq_zero
    cases strategy <;> decide +kernel
  exact ⟨rfl, uncounted, amongOthers.1.mpr (.inr satisfied), nobodyLeft, inside,
    fun strategy => (union_query_sees_nodes_left_or_ego petsOrNamelessEgo rfl uncounted strategy
      .tangled).2 (.inr (.inr inside))⟩

end Query

/-! ## Conjunctions -/

namespace RuleSet

section

variable {ruleSet : RuleSet} (conjunctive : ruleSet.join = .and) {network : Network}

include conjunctive

theorem outcome_of_matchesNode (uncounted : ruleSet.Uncounted) {node : Node}
    (inside : node ∈ network.nodes)
    (matched : ∀ rule ∈ ruleSet.rules, rule.matchesNode (.ofNetwork network) node = true) :
    ruleSet.outcome network = true := by
  rw [outcome, conjunctive, Join.combine_and_eq_true]
  intro entry member
  have ofRules : entry.rule ∈ ruleSet.rules := List.mem_map_of_mem member
  exact (RuleEntry.outcome_eq_true_iff (uncounted entry member) network).mpr
    (.inl ⟨node, inside, matched entry.rule ofRules⟩)

theorem outcome_of_singlePass_nodes (uncounted : ruleSet.Uncounted)
    (nodesLeft : (ruleSet.filtered .singlePass network).nodes ≠ []) :
    ruleSet.outcome network = true := by
  rcases List.exists_mem_of_ne_nil _ nodesLeft with ⟨node, left⟩
  have inside : node ∈ network.nodes := (ruleSet.filtered_partOf _ network).nodes.subset left
  apply outcome_of_matchesNode conjunctive uncounted inside
  intro rule ofRules
  have nonempty : ruleSet.rules ≠ [] := List.ne_nil_of_mem ofRules
  exact ((mem_singlePass_nodes conjunctive nonempty network node).mp left).2 rule ofRules

theorem singlePass_nodes_of_standard_nodes
    (positive : ∀ rule ∈ ruleSet.rules.tail, rule.Positive)
    (nodesLeft : (ruleSet.filtered .standard network).nodes ≠ []) :
    (ruleSet.filtered .singlePass network).nodes ≠ [] := by
  cases rules : ruleSet.rules with
  | nil =>
      rw [filtered_of_and_nil conjunctive rules] at nodesLeft ⊢
      exact nodesLeft
  | cons first rest =>
      rw [rules, List.tail_cons] at positive
      have part := standard_partOf_singlePass conjunctive rules network positive
      rcases List.exists_mem_of_ne_nil _ nodesLeft with ⟨node, left⟩
      exact List.ne_nil_of_mem (part.nodes.subset left)

end

end RuleSet

namespace Query

/-- Under `and`, without counts on nodes, the query is true of a network of which the single
pass leaves a node. So it is when the standard filter leaves one and no edge rule after the
first rule asks for the absence of edges. -/
theorem conjunctive_query_holds_if_nodes_left (ruleSet : RuleSet)
    (conjunctive : ruleSet.join = .and) (uncounted : ruleSet.Uncounted) (network : Network) :
    let answer := (ofRuleSet ruleSet).evaluate network
    ((ruleSet.filtered .singlePass network).nodes ≠ [] → answer = true) ∧
      ((∀ edgeRule, Rule.edge edgeRule ∈ ruleSet.rules.tail → edgeRule.operator = .exists) →
        (ruleSet.filtered .standard network).nodes ≠ [] → answer = true) := by
  intro answer
  have singlePass : (ruleSet.filtered .singlePass network).nodes ≠ [] → answer = true := by
    intro nodesLeft
    simp only [answer, evaluate_ofRuleSet]
    exact RuleSet.outcome_of_singlePass_nodes conjunctive uncounted nodesLeft
  refine ⟨singlePass, fun presence nodesLeft => singlePass ?_⟩
  exact RuleSet.singlePass_nodes_of_standard_nodes conjunctive (Rule.positive_of_mem presence)
    nodesLeft

theorem conjunctive_query_holds_if_nodes_left_people :
    let unliking := RuleSet.peopleLiking .notExists
    let liking := RuleSet.peopleLiking .exists
    (∀ operator, (RuleSet.peopleLiking operator).join = .and) ∧
      (∀ operator, (RuleSet.peopleLiking operator).Uncounted) ∧
      (unliking.filtered .singlePass .tangled).nodes ≠ [] ∧
      (ofRuleSet unliking).evaluate .tangled = true ∧
      (∀ edgeRule, Rule.edge edgeRule ∈ liking.rules.tail → edgeRule.operator = .exists) ∧
      (liking.filtered .standard .courting).nodes ≠ [] ∧
      (ofRuleSet liking).evaluate .courting = true := by
  intro unliking liking
  have uncounted : ∀ operator, (RuleSet.peopleLiking operator).Uncounted := by
    simp [RuleSet.Uncounted, RuleSet.peopleLiking]
  have presence : ∀ edgeRule, Rule.edge edgeRule ∈ liking.rules.tail →
      edgeRule.operator = .exists := by
    intro edgeRule member
    simp_all [liking, RuleSet.peopleLiking, RuleSet.rules]
  have singlePassLeft : (unliking.filtered .singlePass .tangled).nodes ≠ [] :=
    List.ne_nil_of_length_pos (by decide +kernel)
  have standardLeft : (liking.filtered .standard .courting).nodes ≠ [] :=
    List.ne_nil_of_length_pos (by decide +kernel)
  exact ⟨fun _ => rfl, uncounted, singlePassLeft,
    (conjunctive_query_holds_if_nodes_left unliking rfl (uncounted _) .tangled).1 singlePassLeft,
    presence, standardLeft,
    (conjunctive_query_holds_if_nodes_left liking rfl (uncounted _) .courting).2 presence
      standardLeft⟩

/-- Somebody who likes a place: once the place has gone, nobody is liked any more, and the
standard filter leaves a node although the query is false. -/
example :
    let visitor : Network :=
      ⟨[⟨⟨"a"⟩, "person", .empty⟩, ⟨⟨"b"⟩, "place", .empty⟩],
        [⟨⟨"a"⟩, ⟨"b"⟩, "likes", .empty⟩], none⟩
    let unliking := RuleSet.peopleLiking .notExists
    (unliking.filtered .standard visitor).nodes.map (·.id.text) = ["a"] ∧
      (ofRuleSet unliking).evaluate visitor = false := by
  decide +kernel

end Query

end Sociogram
