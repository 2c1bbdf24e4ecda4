import Mathlib.Data.List.Nodup
import Sociogram.Proofs.Filter.SinglePass
import Sociogram.Proofs.Filter.Standard

/-!
Where the two ways of filtering agree: under `or` up to nodes that share an
identifier, and under `and` as long as no edge rule comes after the first rule.
-/

namespace Sociogram.Filter

/-! ## Union -/

theorem contains_matchedIds_iff_passes {ruleSet : RuleSet} (disjunctive : ruleSet.join = .or)
    (network : Network) (id : NodeId) :
    (matchedIds ruleSet.rules network).contains id = true ↔
      id ∈ (network.nodes.filter (ruleSet.passes (.ofNetwork network))).map (·.id) := by
  rw [contains_matchedIds]
  simp only [List.mem_map, List.mem_filter, RuleSet.passes, disjunctive, Join.passes,
    Join.combine_or_eq_true]
  constructor
  · rintro ⟨rule, member, node, inside, matched, equal⟩
    exact ⟨node, ⟨inside, rule, member, matched⟩, equal⟩
  · rintro ⟨node, ⟨inside, rule, member, matched⟩, equal⟩
    exact ⟨rule, member, node, inside, matched, equal⟩

theorem mem_ids_union_iff_passes {ruleSet : RuleSet} (disjunctive : ruleSet.join = .or)
    (network : Network) (id : NodeId) :
    id ∈ (firstOfEach (matchedIds ruleSet.rules network) {} network.nodes).map (·.id) ↔
      id ∈ (network.nodes.filter (ruleSet.passes (.ofNetwork network))).map (·.id) := by
  rw [mem_ids_firstOfEach, contains_matchedIds_iff_passes disjunctive]
  constructor
  · intro kept
    exact kept.2.1
  · intro passing
    have occurs := List.map_subset Node.id List.filter_sublist.subset passing
    exact ⟨occurs, passing, Std.TreeSet.contains_emptyc⟩

theorem firstOfEach_eq_filter_passes {ruleSet : RuleSet} (disjunctive : ruleSet.join = .or)
    {network : Network} (distinct : (network.nodes.map (·.id)).Nodup) :
    firstOfEach (matchedIds ruleSet.rules network) {} network.nodes =
      network.nodes.filter (ruleSet.passes (.ofNetwork network)) := by
  rw [firstOfEach_eq_filter distinct fun _ _ => Std.TreeSet.contains_emptyc]
  apply List.filter_congr
  intro node member
  rw [Bool.eq_iff_iff, contains_matchedIds_iff_passes disjunctive, List.mem_map]
  constructor
  · rintro ⟨other, passing, equal⟩
    rcases List.mem_filter.mp passing with ⟨otherMember, passes⟩
    have same := List.inj_on_of_nodup_map distinct otherMember member equal
    exact same ▸ passes
  · intro passes
    exact ⟨node, List.mem_filter.mpr ⟨member, passes⟩, rfl⟩

/-- Under `or` both filters keep the same identifiers, edges and ego. Only of nodes
that share an identifier does the standard filter keep just the first. -/
theorem union_agrees_with_singlePass (ruleSet : RuleSet) (disjunctive : ruleSet.join = .or)
    (network : Network) :
    let standard := (Filter.ofRuleSet ruleSet).apply network
    let singlePass := (SinglePassFilter.ofRuleSet ruleSet).apply network
    (∀ id, id ∈ standard.nodes.map (·.id) ↔ id ∈ singlePass.nodes.map (·.id)) ∧
      standard.edges = singlePass.edges ∧ standard.ego = singlePass.ego ∧
        ((network.nodes.map (·.id)).Nodup → standard = singlePass) := by
  intro standard singlePass
  have union : standard = network.restrict
      (firstOfEach (matchedIds ruleSet.rules network) {} network.nodes) :=
    apply_ofRuleSet_of_or disjunctive network
  have pass : singlePass =
      network.restrict (network.nodes.filter (ruleSet.passes (.ofNetwork network))) :=
    SinglePassFilter.apply_ofRuleSet_of_or disjunctive network
  have sameIds := mem_ids_union_iff_passes disjunctive network
  rw [union, pass]
  refine ⟨sameIds, network.restrict_edges_congr sameIds, rfl, ?_⟩
  intro distinct
  rw [firstOfEach_eq_filter_passes disjunctive distinct]

theorem union_agrees_with_singlePass_tangled :
    let distinct := Network.tangled.restrict (Network.tangled.nodes.take 2)
    (RuleSet.mixed .or).join = .or ∧ (distinct.nodes.map (·.id)).Nodup ∧
      ((Filter.ofRuleSet (.mixed .or)).apply .tangled).edges =
        ((SinglePassFilter.ofRuleSet (.mixed .or)).apply .tangled).edges ∧
      (Filter.ofRuleSet (.mixed .or)).apply distinct =
        (SinglePassFilter.ofRuleSet (.mixed .or)).apply distinct := by
  intro distinct
  have tangled := union_agrees_with_singlePass (.mixed .or) rfl .tangled
  have untangled := union_agrees_with_singlePass (.mixed .or) rfl distinct
  exact ⟨rfl, by decide, tangled.2.1, untangled.2.2.2 (by decide)⟩

/-- The standard filter keeps one of the nodes that share an identifier. -/
example :
    ((Filter.ofRuleSet (.mixed .or)).apply .tangled).nodes.map (·.id.text) = ["a", "b"] ∧
      ((SinglePassFilter.ofRuleSet (.mixed .or)).apply .tangled).nodes.map (·.id.text) =
        ["a", "b", "a"] := by
  decide +kernel

/-! ## Stages -/

/-- Under `and` both filters keep the same network when no edge rule comes after the
first rule. -/
theorem stages_agree_with_singlePass (ruleSet : RuleSet) (conjunctive : ruleSet.join = .and)
    (noLaterEdgeRule : ∀ rule ∈ ruleSet.rules.tail, rule.domain ≠ .edge) (network : Network) :
    (Filter.ofRuleSet ruleSet).apply network =
      (SinglePassFilter.ofRuleSet ruleSet).apply network := by
  rw [apply_ofRuleSet_of_and conjunctive]
  cases rules : ruleSet.rules with
  | nil => exact (SinglePassFilter.apply_ofRuleSet_of_and_nil conjunctive rules network).symm
  | cons first rest =>
      rw [rules, List.tail_cons] at noLaterEdgeRule
      have sameTest : Join.and.passes (first :: rest) = ruleSet.passes := by
        rw [RuleSet.passes, conjunctive, rules]
      have nonempty : ruleSet.rules ≠ [] := by simp [rules]
      rw [foldl_narrow_cons noLaterEdgeRule, sameTest,
        SinglePassFilter.apply_ofRuleSet ruleSet nonempty]

theorem stages_agree_with_singlePass_tangled :
    (RuleSet.mixed .and).join = .and ∧
      (∀ rule ∈ (RuleSet.mixed .and).rules.tail, rule.domain ≠ .edge) ∧
      (Filter.ofRuleSet (.mixed .and)).apply .tangled =
        (SinglePassFilter.ofRuleSet (.mixed .and)).apply .tangled :=
  ⟨rfl, by decide, stages_agree_with_singlePass (.mixed .and) rfl (by decide) .tangled⟩

/-- A later edge rule sees only the edges that the stages before it left. -/
example :
    let ruleSet : RuleSet :=
      ⟨.and, [⟨.alter (.ofType "person" .exists), none⟩, ⟨.edge ⟨"likes", .exists⟩, none⟩]⟩
    ((Filter.ofRuleSet ruleSet).apply .tangled).nodes.map (·.id.text) = [] ∧
      ((SinglePassFilter.ofRuleSet ruleSet).apply .tangled).nodes.map (·.id.text) = ["b"] := by
  decide +kernel

end Sociogram.Filter
