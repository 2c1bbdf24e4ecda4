import Sociogram.Filter.SinglePass
import Sociogram.Proofs.Network.Restriction
import Sociogram.Proofs.Rule.Matching

/-!
The single-pass filter against the plain pass, which settles nothing beforehand:
whatever the mix of rules, the same nodes and edges stay.
-/

namespace Sociogram

/-! ## The plain pass -/

namespace RuleSet

/-- Keep the nodes that satisfy the rules together, each rule tested on each node,
and the edges between them. -/
def plainPass (ruleSet : RuleSet) (network : Network) : Network :=
  let nodes := network.nodes.filter (ruleSet.passes (.ofNetwork network))
  ⟨nodes, network.edges.filter fun edge => edge.Joins nodes, network.ego⟩

def egoRules (ruleSet : RuleSet) : List Rule :=
  ruleSet.rules.filter SinglePassFilter.isEgoRule

def otherRules (ruleSet : RuleSet) : List Rule :=
  ruleSet.rules.filter fun rule => !SinglePassFilter.isEgoRule rule

/-- Whether the ego rules are settled before the pass. -/
def settlesEgo (ruleSet : RuleSet) : Bool :=
  !ruleSet.egoRules.isEmpty && (ruleSet.join == .and || ruleSet.otherRules.isEmpty)

end RuleSet

namespace SinglePassFilter

/-! ## What a compiled filter keeps -/

def admits (filter : SinglePassFilter) (ego : Option Node) (node : Node) : Bool :=
  match filter.egoRules with
  | none => true
  | some egoRules =>
      filter.join.combine (egoRules.map fun rule => rule.matchesEgo ego) && node.namesEgo ego

def keeps (filter : SinglePassFilter) (network : Network) (node : Node) : Bool :=
  filter.admits network.ego node &&
    (filter.rules.isEmpty || filter.passes (.ofNetwork network) node)

theorem admits_of_not_settled {filter : SinglePassFilter} (notSettled : filter.egoRules = none)
    (ego : Option Node) : filter.admits ego = fun _ => true := by
  funext node
  simp [admits, notSettled]

theorem admits_of_settled {filter : SinglePassFilter} {egoRules : List Rule}
    (settled : filter.egoRules = some egoRules) (ego : Option Node) :
    filter.admits ego = fun node =>
      filter.join.combine (egoRules.map fun rule => rule.matchesEgo ego) &&
        node.namesEgo ego := by
  funext node
  simp [admits, settled]

theorem candidates_eq_filter (filter : SinglePassFilter) (network : Network) :
    filter.candidates network = network.nodes.filter (filter.admits network.ego) := by
  cases settled : filter.egoRules with
  | none =>
      rw [admits_of_not_settled settled, candidates, settled]
      exact (List.filter_eq_self.mpr fun _ _ => rfl).symm
  | some egoRules =>
      rw [admits_of_settled settled]
      cases passes : filter.join.combine
          (egoRules.map fun rule => rule.matchesEgo network.ego) with
      | false => simp [candidates, settled, passes]
      | true =>
          cases present : network.ego with
          | none => simp [candidates, settled, Network.egoId?, present, Node.namesEgo]
          | some ego =>
              rw [present] at passes
              simp [candidates, settled, Network.egoId?, present, passes, Node.namesEgo,
                BEq.comm]

theorem apply_eq_restrict (filter : SinglePassFilter)
    (nonvacuous : filter.rules ≠ [] ∨ filter.egoRules ≠ none) (network : Network) :
    filter.apply network =
      network.restrict (network.nodes.filter (filter.keeps network)) := by
  have anythingToTest : (filter.rules.isEmpty && filter.egoRules.isNone) = false := by
    rcases nonvacuous with rules | egoRules
    · simp [rules]
    · cases settled : filter.egoRules with
      | none => exact absurd settled egoRules
      | some _ => simp
  have nodes : (if filter.rules.isEmpty then filter.candidates network
      else (filter.candidates network).filter (filter.passes (.ofNetwork network))) =
        network.nodes.filter (filter.keeps network) := by
    unfold keeps
    cases noRules : filter.rules.isEmpty with
    | true => simp [candidates_eq_filter]
    | false => simp [candidates_eq_filter, Bool.and_comm]
  simp only [apply, anythingToTest, nodes, Bool.false_eq_true, if_false]

/-! ## What compiling makes of a rule set -/

theorem ofRuleSet_eq (ruleSet : RuleSet) :
    ofRuleSet ruleSet =
      if ruleSet.settlesEgo then ⟨ruleSet.join, ruleSet.otherRules, some ruleSet.egoRules⟩
      else ⟨ruleSet.join, ruleSet.rules, none⟩ := by
  rw [ofRuleSet, List.partition_eq_filter_filter]
  rfl

theorem combine_egoRules (ruleSet : RuleSet) (nonempty : ruleSet.egoRules ≠ [])
    (surroundings : Surroundings) (node : Node) :
    ruleSet.join.combine
        (ruleSet.egoRules.map fun rule => rule.matchesNode surroundings node) =
      (ruleSet.join.combine
        (ruleSet.egoRules.map fun rule => rule.matchesEgo surroundings.ego) &&
          node.namesEgo surroundings.ego) := by
  rw [← Join.combine_map_and _ _ _ nonempty]
  congr 1
  apply List.map_congr_left
  intro rule member
  have isEgo : rule.domain = .ego := by
    simpa [isEgoRule] using (List.mem_filter.mp member).2
  exact Rule.matchesNode_of_domain_ego isEgo surroundings node

/-- Settling the ego rules beforehand changes no verdict. Under `and` the rules
separate into the ego rules and the others; under `or` there are no others. -/
theorem keeps_of_settlesEgo {ruleSet : RuleSet} (settles : ruleSet.settlesEgo = true)
    (network : Network) :
    keeps ⟨ruleSet.join, ruleSet.otherRules, some ruleSet.egoRules⟩ network =
      ruleSet.passes (.ofNetwork network) := by
  funext node
  simp only [RuleSet.settlesEgo, Bool.and_eq_true, Bool.or_eq_true, beq_iff_eq,
    Bool.not_eq_true', List.isEmpty_eq_false_iff, List.isEmpty_iff] at settles
  have egoPart : admits ⟨ruleSet.join, ruleSet.otherRules, some ruleSet.egoRules⟩
      network.ego node = ruleSet.join.combine (ruleSet.egoRules.map fun rule =>
        rule.matchesNode (.ofNetwork network) node) :=
    (combine_egoRules ruleSet settles.1 (.ofNetwork network) node).symm
  rw [keeps, egoPart]
  rcases settles.2 with conjunctive | onlyEgo
  · have otherPart : (ruleSet.otherRules.isEmpty ||
        passes ⟨ruleSet.join, ruleSet.otherRules, some ruleSet.egoRules⟩
          (.ofNetwork network) node) =
        Join.and.combine (ruleSet.otherRules.map fun rule =>
          rule.matchesNode (.ofNetwork network) node) := by
      cases others : ruleSet.otherRules with
      | nil => rfl
      | cons head tail => simp [passes, conjunctive]
    rw [otherPart, RuleSet.passes, Join.passes, conjunctive]
    exact (Join.combine_and_separate _ isEgoRule ruleSet.rules).symm
  · have allEgo : ruleSet.egoRules = ruleSet.rules :=
      List.filter_eq_self.mpr fun rule member => by
        simpa using List.filter_eq_nil_iff.mp onlyEgo rule member
    simp [onlyEgo, allEgo, RuleSet.passes, Join.passes]

theorem keeps_of_not_settled {ruleSet : RuleSet} (nonempty : ruleSet.rules ≠ [])
    (network : Network) :
    keeps ⟨ruleSet.join, ruleSet.rules, none⟩ network =
      ruleSet.passes (.ofNetwork network) := by
  funext node
  simp [keeps, admits, passes, RuleSet.passes, Join.passes, nonempty]

theorem apply_ofRuleSet (ruleSet : RuleSet) (nonempty : ruleSet.rules ≠ [])
    (network : Network) :
    (ofRuleSet ruleSet).apply network =
      network.restrict (network.nodes.filter (ruleSet.passes (.ofNetwork network))) := by
  rw [ofRuleSet_eq]
  cases settles : ruleSet.settlesEgo with
  | true =>
      rw [if_pos rfl, apply_eq_restrict _ (.inr (by simp)), keeps_of_settlesEgo settles]
  | false =>
      rw [if_neg Bool.false_ne_true, apply_eq_restrict _ (.inl nonempty),
        keeps_of_not_settled nonempty]

/-! Without rules, `and` is satisfied by everything and `or` by nothing. -/

theorem apply_ofRuleSet_of_and_nil {ruleSet : RuleSet} (conjunctive : ruleSet.join = .and)
    (vacuous : ruleSet.rules = []) (network : Network) :
    (ofRuleSet ruleSet).apply network = network := by
  simp [ofRuleSet_eq, RuleSet.settlesEgo, RuleSet.egoRules, vacuous, conjunctive, apply]

theorem apply_ofRuleSet_of_or {ruleSet : RuleSet} (disjunctive : ruleSet.join = .or)
    (network : Network) :
    (ofRuleSet ruleSet).apply network =
      network.restrict (network.nodes.filter (ruleSet.passes (.ofNetwork network))) := by
  cases vacuous : ruleSet.rules with
  | nil =>
      have nothing : network.nodes.filter (ruleSet.passes (.ofNetwork network)) = [] := by
        apply List.filter_eq_nil_iff.mpr
        intro node _
        simp [RuleSet.passes, Join.passes, vacuous, disjunctive, Join.combine]
      rw [nothing, Network.restrict_nil]
      simp [ofRuleSet_eq, RuleSet.settlesEgo, RuleSet.egoRules, vacuous, disjunctive, apply]
  | cons first rest => exact apply_ofRuleSet ruleSet (by simp [vacuous]) network

/-! ## Main statement -/

/-- With at least one rule, the single-pass filter is the plain pass, on any
network: identifiers may be repeated, edges may name absent nodes, and the ego may
be absent or no node. -/
theorem ofRuleSet_apply_eq_plainPass (ruleSet : RuleSet) (nonempty : ruleSet.entries ≠ [])
    (network : Network) :
    (ofRuleSet ruleSet).apply network = ruleSet.plainPass network := by
  have rules : ruleSet.rules ≠ [] := by simpa [RuleSet.rules] using nonempty
  rw [apply_ofRuleSet ruleSet rules, Network.restrict_eq]
  rfl

end SinglePassFilter

/-! ## A hard case -/

/-- The ego's identifier occurs twice, and one edge names an absent node. -/
def Network.tangled : Network where
  nodes :=
    [⟨⟨"a"⟩, "person", .empty⟩, ⟨⟨"b"⟩, "person", .empty⟩, ⟨⟨"a"⟩, "place", .empty⟩]
  edges :=
    [⟨⟨"a"⟩, ⟨"b"⟩, "knows", .empty⟩, ⟨⟨"a"⟩, ⟨"a"⟩, "knows", .empty⟩,
      ⟨⟨"c"⟩, ⟨"b"⟩, "likes", .empty⟩]
  ego := some ⟨⟨"a"⟩, "person", .empty⟩

def RuleSet.mixed (join : Join) : RuleSet where
  join := join
  entries :=
    [⟨.edge ⟨"likes", .notExists⟩, none⟩, ⟨.ego ⟨"name", some .notExists, .null⟩, none⟩,
      ⟨.alter (.ofType "person" .exists), none⟩]

theorem SinglePassFilter.ofRuleSet_apply_eq_plainPass_tangled :
    (RuleSet.mixed .and).entries ≠ [] ∧
      (ofRuleSet (.mixed .and)).apply .tangled = (RuleSet.mixed .and).plainPass .tangled ∧
      ((RuleSet.mixed .and).plainPass .tangled).nodes.map (·.id.text) = ["a"] :=
  ⟨List.cons_ne_nil _ _,
    ofRuleSet_apply_eq_plainPass (.mixed .and) (List.cons_ne_nil _ _) .tangled,
    by decide +kernel⟩

end Sociogram
