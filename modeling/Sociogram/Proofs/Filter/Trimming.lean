import Sociogram.Proofs.Filter.Induced
import Sociogram.Proofs.Filter.Union
import Sociogram.Proofs.Rule.EdgeIndex

/-!
Trimming a network before it is filtered. The edges that trimming takes away name an absent
node, so every filter drops them in the end; until then only rules that look at edges see them,
and of those only the ones that are tested before anything else has been dropped.
-/

namespace Sociogram

/-! ## The trimmed network -/

namespace Network

theorem trimOrphans_inducedIn (network : Network) : network.trimOrphans.InducedIn network :=
  network.inducedIn_restrict (List.Sublist.refl _)

theorem sublist_edges_trimOrphans {network : Network} {edges : List Edge}
    (sublist : edges.Sublist network.edges)
    (wellFormed : isWellFormed ⟨network.nodes, edges, network.ego⟩ = true) :
    edges.Sublist network.trimOrphans.edges :=
  let part : PartOf ⟨network.nodes, edges, network.ego⟩ network :=
    ⟨List.Sublist.refl _, sublist, rfl⟩
  (part.restrict wellFormed (List.Sublist.refl _)).edges

theorem trimOrphans_eq_self_iff (network : Network) :
    network.trimOrphans = network ↔ network.isWellFormed = true := by
  refine ⟨fun same => ?_, restrict_own_nodes⟩
  rw [← same]
  exact network.isWellFormed_restrict network.nodes

theorem restrict_trimOrphans (network : Network) {nodes : List Node}
    (subset : nodes ⊆ network.nodes) :
    network.trimOrphans.restrict nodes = network.restrict nodes :=
  network.restrict_restrict subset

end Network

/-! ## Rules on the trimmed network -/

namespace Rule

theorem matchesNode_trimOrphans {rule : Rule} (notEdge : rule.domain ≠ .edge)
    (network : Network) :
    rule.matchesNode (.ofNetwork network.trimOrphans) = rule.matchesNode (.ofNetwork network) :=
  funext (matchesNode_congr_ego notEdge rfl)

end Rule

/-- An edge rule changes its mind on a node only if the node touches an edge of its type that
names an absent node. -/
theorem EdgeRule.exists_orphan_of_matchesNode_ne {rule : EdgeRule} {network : Network}
    {node : Node}
    (differs : (Rule.edge rule).matchesNode (.ofNetwork network.trimOrphans) node ≠
      (Rule.edge rule).matchesNode (.ofNetwork network) node) :
    ∃ edge ∈ network.edges,
      edge.Touches rule.edgeType node.id ∧ ¬ edge.Joins network.nodes := by
  by_contra noOrphan
  push Not at noOrphan
  have sameEnds :
      (EdgeIndex.ofEdges network.trimOrphans.edges).contains rule.edgeType node.id =
        (EdgeIndex.ofEdges network.edges).contains rule.edgeType node.id := by
    rw [Bool.eq_iff_iff, Network.trimOrphans, EdgeIndex.contains_ofEdges_restrict,
      EdgeIndex.contains_ofEdges]
    exact exists_congr fun edge => and_congr_right fun member =>
      ⟨And.left, fun touches => ⟨touches, noOrphan edge member touches⟩⟩
  exact differs (EdgeRule.matchesNode_congr_contains sameEnds)

/-! ## Filters on the trimmed network -/

namespace Filter

theorem narrow_trimOrphans {rule : Rule} (notEdge : rule.domain ≠ .edge) (network : Network) :
    narrow network.trimOrphans rule = narrow network rule :=
  narrow_restrict notEdge network network.nodes

theorem apply_trimOrphans_of_and {first : RuleEntry} (notEdge : first.rule.domain ≠ .edge)
    (rest : List RuleEntry) (network : Network) :
    (ofRuleSet ⟨.and, first :: rest⟩).apply network.trimOrphans =
      (ofRuleSet ⟨.and, first :: rest⟩).apply network := by
  rw [apply_ofRuleSet_of_and rfl, apply_ofRuleSet_of_and rfl, RuleSet.rules, List.map_cons,
    List.foldl_cons, List.foldl_cons, narrow_trimOrphans notEdge]

theorem matchedIds_trimOrphans {rules : List Rule}
    (noEdgeRule : ∀ rule ∈ rules, rule.domain ≠ .edge) (network : Network) :
    matchedIds rules network.trimOrphans = matchedIds rules network := by
  refine List.foldl_ext _ _ _ fun matched rule member => ?_
  rw [rule.matchesNode_trimOrphans (noEdgeRule rule member)]
  rfl

theorem apply_trimOrphans_of_or {ruleSet : RuleSet} (disjunctive : ruleSet.join = .or)
    (noEdgeRule : ∀ rule ∈ ruleSet.rules, rule.domain ≠ .edge) (network : Network) :
    (ofRuleSet ruleSet).apply network.trimOrphans = (ofRuleSet ruleSet).apply network := by
  rw [apply_ofRuleSet_of_or disjunctive, apply_ofRuleSet_of_or disjunctive,
    matchedIds_trimOrphans noEdgeRule]
  exact network.restrict_trimOrphans (firstOfEach_sublist _ _ _).subset

end Filter

theorem SinglePassFilter.apply_trimOrphans {ruleSet : RuleSet} (nonempty : ruleSet.rules ≠ [])
    (noEdgeRule : ∀ rule ∈ ruleSet.rules, rule.domain ≠ .edge) (network : Network) :
    (ofRuleSet ruleSet).apply network.trimOrphans = (ofRuleSet ruleSet).apply network := by
  have samePasses : ruleSet.passes (.ofNetwork network.trimOrphans) =
      ruleSet.passes (.ofNetwork network) := by
    funext node
    refine congrArg ruleSet.join.combine (List.map_congr_left fun rule member => ?_)
    rw [rule.matchesNode_trimOrphans (noEdgeRule rule member)]
  rw [apply_ofRuleSet ruleSet nonempty, apply_ofRuleSet ruleSet nonempty, samePasses]
  exact network.restrict_trimOrphans List.filter_sublist.subset

theorem RuleSet.filtered_trimOrphans {ruleSet : RuleSet} (nonempty : ruleSet.entries ≠ [])
    (noEdgeRule : ∀ rule ∈ ruleSet.rules, rule.domain ≠ .edge) (strategy : Strategy)
    (network : Network) :
    ruleSet.filtered strategy network.trimOrphans = ruleSet.filtered strategy network := by
  have rules : ruleSet.rules ≠ [] := by simpa [RuleSet.rules] using nonempty
  cases strategy with
  | singlePass => exact SinglePassFilter.apply_trimOrphans rules noEdgeRule network
  | standard =>
      obtain ⟨join, entries⟩ := ruleSet
      cases join with
      | or => exact Filter.apply_trimOrphans_of_or rfl noEdgeRule network
      | and =>
          cases entries with
          | nil => exact absurd rfl nonempty
          | cons first rest =>
              exact Filter.apply_trimOrphans_of_and
                (noEdgeRule first.rule (List.mem_cons_self ..)) rest network

/-! ## What trimming changes -/

/-- Trimming leaves the nodes, the ego and the most edges with which the network is well
formed, so a well-formed network as it is. What it takes away is seen by edge rules alone, and
only in the network as it was given: a conjunction whose first stage does not look at edges,
and every filter without edge rules, leave the same of the trimmed network; and an edge rule
matches the same nodes, except for nodes that touch an edge of its type that names an absent
node. -/
theorem Network.orphans_are_seen_by_edge_rules_alone (network : Network) :
    let trimmed := network.trimOrphans
    (trimmed.isWellFormed = true ∧ trimmed.nodes = network.nodes ∧ trimmed.ego = network.ego) ∧
    (trimmed.edges.Sublist network.edges ∧
      ∀ edges : List Edge, edges.Sublist network.edges →
        isWellFormed ⟨network.nodes, edges, network.ego⟩ = true →
          edges.Sublist trimmed.edges) ∧
    (trimmed = network ↔ network.isWellFormed = true) ∧
    (∀ (first : RuleEntry) (rest : List RuleEntry), first.rule.domain ≠ .edge →
      (Filter.ofRuleSet ⟨.and, first :: rest⟩).apply trimmed =
        (Filter.ofRuleSet ⟨.and, first :: rest⟩).apply network) ∧
    (∀ (ruleSet : RuleSet) (strategy : Strategy), ruleSet.entries ≠ [] →
      (∀ rule ∈ ruleSet.rules, rule.domain ≠ .edge) →
        ruleSet.filtered strategy trimmed = ruleSet.filtered strategy network) ∧
    (∀ (rule : EdgeRule) (node : Node),
      (Rule.edge rule).matchesNode (.ofNetwork trimmed) node ≠
          (Rule.edge rule).matchesNode (.ofNetwork network) node →
        ∃ edge ∈ network.edges,
          edge.Touches rule.edgeType node.id ∧ ¬ edge.Joins network.nodes) := by
  intro trimmed
  have induced : trimmed.InducedIn network := network.trimOrphans_inducedIn
  exact ⟨⟨induced.isWellFormed, rfl, rfl⟩,
    ⟨induced.partOf.edges, fun _ => sublist_edges_trimOrphans⟩,
    network.trimOrphans_eq_self_iff,
    fun _ rest notEdge => Filter.apply_trimOrphans_of_and notEdge rest network,
    fun _ strategy nonempty noEdgeRule =>
      RuleSet.filtered_trimOrphans nonempty noEdgeRule strategy network,
    fun _ _ => EdgeRule.exists_orphan_of_matchesNode_ne⟩

def RuleSet.unlikedPeople (join : Join) : RuleSet where
  join := join
  entries := [⟨.alter (.ofType "person" .exists), none⟩, ⟨.edge ⟨"likes", .notExists⟩, none⟩]

/-- In the tangled network somebody who is absent likes the person `b`. Among the rules for
people who are not liked the edge rule is tested on `b` after the absent one is gone, but not in
a single pass. -/
theorem Network.orphans_are_seen_by_edge_rules_alone_tangled :
    let trimmed := Network.tangled.trimOrphans
    let rules := (RuleSet.unlikedPeople .and).entries
    (∃ first rest, rules = first :: rest ∧ first.rule.domain ≠ .edge) ∧
    (Filter.ofRuleSet ⟨.and, rules⟩).apply trimmed =
      (Filter.ofRuleSet ⟨.and, rules⟩).apply .tangled ∧
    (RuleSet.places.entries ≠ [] ∧ (∀ rule ∈ RuleSet.places.rules, rule.domain ≠ .edge)) ∧
    RuleSet.places.filtered .standard trimmed = RuleSet.places.filtered .standard .tangled ∧
    ((RuleSet.unlikedPeople .and).filtered .singlePass trimmed).nodes.map (·.id.text) =
      ["a", "b"] ∧
    ((RuleSet.unlikedPeople .and).filtered .singlePass .tangled).nodes.map (·.id.text) =
      ["a"] ∧
    ∃ edge ∈ Network.tangled.edges,
      edge.Touches "likes" ⟨"b"⟩ ∧ ¬ edge.Joins Network.tangled.nodes := by
  obtain ⟨_, _, _, stages, filters, visible⟩ := orphans_are_seen_by_edge_rules_alone .tangled
  have noEdgeRule : ∀ rule ∈ RuleSet.places.rules, rule.domain ≠ .edge := by decide
  refine ⟨⟨_, _, rfl, by decide⟩, stages _ _ (by decide),
    ⟨List.cons_ne_nil _ _, noEdgeRule⟩, filters _ _ (List.cons_ne_nil _ _) noEdgeRule,
    by decide +kernel, by decide +kernel, ?_⟩
  exact visible ⟨"likes", .exists⟩ ⟨⟨"b"⟩, "person", .empty⟩ (by decide +kernel)

end Sociogram
