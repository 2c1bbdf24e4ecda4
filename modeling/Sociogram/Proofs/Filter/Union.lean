import Sociogram.Proofs.Filter.Agreement

/-!
What the standard filter keeps under `or`. A rule selects nodes, but identifiers
are what is collected, and for each of them the first node that carries it stays.
With repeated identifiers that need not be a node that any rule selects.
-/

namespace Sociogram

/-! ## Selected nodes -/

/-- At least one rule is satisfied by the node, all edges of the network taken
together. -/
def RuleSet.Selects (ruleSet : RuleSet) (network : Network) (node : Node) : Prop :=
  ∃ rule ∈ ruleSet.rules, rule.matchesNode (.ofNetwork network) node = true

instance (ruleSet : RuleSet) (network : Network) (node : Node) :
    Decidable (ruleSet.Selects network node) :=
  inferInstanceAs (Decidable (∃ rule ∈ ruleSet.rules, _))

theorem RuleSet.passes_iff_selects {ruleSet : RuleSet} (disjunctive : ruleSet.join = .or)
    (network : Network) (node : Node) :
    ruleSet.passes (.ofNetwork network) node = true ↔ ruleSet.Selects network node := by
  rw [passes, disjunctive]
  exact Join.combine_or_eq_true _ _

def RuleSet.places : RuleSet := ⟨.or, [⟨.alter (.ofType "place" .exists), none⟩]⟩

namespace Network

theorem exists_find? {network : Network} {node : Node} (member : node ∈ network.nodes) :
    ∃ first ∈ network.nodes, network.find? node.id = some first ∧ first.id = node.id := by
  have found : (network.find? node.id).isSome := by
    rw [find?, List.find?_isSome]
    exact ⟨node, member, beq_self_eq_true _⟩
  obtain ⟨first, present⟩ := Option.isSome_iff_exists.mp found
  exact ⟨first, List.mem_of_find?_eq_some present, present,
    by simpa using List.find?_some present⟩

theorem find?_of_nodup {network : Network} (distinct : (network.nodes.map (·.id)).Nodup)
    {node : Node} (member : node ∈ network.nodes) : network.find? node.id = some node := by
  obtain ⟨first, inside, present, sameId⟩ := exists_find? member
  rw [present, List.inj_on_of_nodup_map distinct inside member sameId]

end Network

namespace Filter

/-! ## The union -/

theorem contains_matchedIds_iff_selects {ruleSet : RuleSet} (disjunctive : ruleSet.join = .or)
    (network : Network) (id : NodeId) :
    (matchedIds ruleSet.rules network).contains id = true ↔
      ∃ node ∈ network.nodes, node.id = id ∧ ruleSet.Selects network node := by
  rw [contains_matchedIds_iff_passes disjunctive, List.mem_map]
  constructor
  · rintro ⟨node, kept, sameId⟩
    obtain ⟨inside, passing⟩ := List.mem_filter.mp kept
    exact ⟨node, inside, sameId, (RuleSet.passes_iff_selects disjunctive network node).mp passing⟩
  · rintro ⟨node, inside, sameId, selected⟩
    have passing := (RuleSet.passes_iff_selects disjunctive network node).mpr selected
    exact ⟨node, List.mem_filter.mpr ⟨inside, passing⟩, sameId⟩

/-- A node stays when it is the first of its identifier and any node of that
identifier is selected. -/
theorem mem_nodes_apply_of_or {ruleSet : RuleSet} (disjunctive : ruleSet.join = .or)
    (network : Network) (node : Node) :
    node ∈ ((ofRuleSet ruleSet).apply network).nodes ↔
      network.find? node.id = some node ∧
        ∃ other ∈ network.nodes, other.id = node.id ∧ ruleSet.Selects network other := by
  rw [apply_ofRuleSet_of_or disjunctive, Network.restrict_nodes, mem_firstOfEach,
    contains_matchedIds_iff_selects disjunctive, Network.find?]
  simp

theorem nodup_ids_apply_of_or {ruleSet : RuleSet} (disjunctive : ruleSet.join = .or)
    (network : Network) :
    (((ofRuleSet ruleSet).apply network).nodes.map (·.id)).Nodup := by
  rw [apply_ofRuleSet_of_or disjunctive]
  exact nodup_ids_firstOfEach _ _ _

theorem count_id_apply_of_or {ruleSet : RuleSet} (disjunctive : ruleSet.join = .or)
    {network : Network} {node : Node} (member : node ∈ network.nodes)
    (selected : ruleSet.Selects network node) :
    (((ofRuleSet ruleSet).apply network).nodes.map (·.id)).count node.id = 1 := by
  apply List.count_eq_one_of_mem (nodup_ids_apply_of_or disjunctive network)
  rw [apply_ofRuleSet_of_or disjunctive, Network.restrict_nodes, mem_ids_firstOfEach,
    contains_matchedIds_iff_selects disjunctive]
  exact ⟨List.mem_map_of_mem member, ⟨node, member, rfl, selected⟩, by simp⟩

theorem all_selected_iff {ruleSet : RuleSet} (disjunctive : ruleSet.join = .or)
    (network : Network) :
    (∀ node ∈ ((ofRuleSet ruleSet).apply network).nodes, ruleSet.Selects network node) ↔
      ∀ node ∈ network.nodes, ruleSet.Selects network node →
        ∃ first, network.find? node.id = some first ∧ ruleSet.Selects network first := by
  constructor
  · intro onlySelected node member selected
    obtain ⟨first, _, present, sameId⟩ := Network.exists_find? member
    have kept : first ∈ ((ofRuleSet ruleSet).apply network).nodes :=
      (mem_nodes_apply_of_or disjunctive network first).mpr
        ⟨sameId ▸ present, node, member, sameId.symm, selected⟩
    exact ⟨first, present, onlySelected first kept⟩
  · intro firstSelected node kept
    obtain ⟨isFirst, other, member, sameId, selected⟩ :=
      (mem_nodes_apply_of_or disjunctive network node).mp kept
    obtain ⟨first, present, firstIsSelected⟩ := firstSelected other member selected
    rw [sameId, isFirst, Option.some_inj] at present
    exact present ▸ firstIsSelected

/-- Under `or` one node stays for each selected identifier, the first that carries
it. All of them are selected when identifiers are not repeated, and in general just
when the first node of every selected identifier is. -/
theorem union_keeps_first_of_each_selected (ruleSet : RuleSet)
    (disjunctive : ruleSet.join = .or) (network : Network) :
    let result := (ofRuleSet ruleSet).apply network
    (∀ node ∈ network.nodes, ruleSet.Selects network node →
        (result.nodes.map (·.id)).count node.id = 1) ∧
      (∀ node, node ∈ result.nodes ↔
        network.find? node.id = some node ∧
          ∃ other ∈ network.nodes, other.id = node.id ∧ ruleSet.Selects network other) ∧
      ((∀ node ∈ result.nodes, ruleSet.Selects network node) ↔
        ∀ node ∈ network.nodes, ruleSet.Selects network node →
          ∃ first, network.find? node.id = some first ∧ ruleSet.Selects network first) ∧
      ((network.nodes.map (·.id)).Nodup →
        ∀ node ∈ result.nodes, ruleSet.Selects network node) := by
  intro result
  refine ⟨fun node member selected => count_id_apply_of_or disjunctive member selected,
    mem_nodes_apply_of_or disjunctive network, all_selected_iff disjunctive network, ?_⟩
  intro distinct
  apply (all_selected_iff disjunctive network).mpr
  intro node member selected
  exact ⟨node, Network.find?_of_nodup distinct member, selected⟩

theorem union_keeps_first_of_each_selected_tangled :
    let person : Node := ⟨⟨"a"⟩, "person", .empty⟩
    let place : Node := ⟨⟨"a"⟩, "place", .empty⟩
    let result := (ofRuleSet .places).apply .tangled
    RuleSet.places.join = .or ∧ place ∈ Network.tangled.nodes ∧
      RuleSet.places.Selects .tangled place ∧
      (result.nodes.map (·.id)).count place.id = 1 ∧ person ∈ result.nodes := by
  intro person place result
  have union := union_keeps_first_of_each_selected .places rfl .tangled
  have member : place ∈ Network.tangled.nodes := by simp [Network.tangled, place]
  have selected : RuleSet.places.Selects .tangled place := by decide +kernel
  exact ⟨rfl, member, selected, union.1 place member selected,
    (union.2.1 person).mpr ⟨rfl, place, member, rfl, selected⟩⟩

theorem union_keeps_unselected_node :
    RuleSet.places.join = .or ∧
      ∃ node ∈ ((ofRuleSet .places).apply .tangled).nodes,
        ¬ RuleSet.places.Selects .tangled node := by
  decide +kernel

end Filter

end Sociogram
