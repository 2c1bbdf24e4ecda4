import Sociogram.Proofs.Filter.Divergence
import Sociogram.Proofs.Filter.Union

/-!
The same rules under `and` and under `or`. A node that is left under `and` has at least
satisfied the first rule, and that in the whole network, so that it is selected under `or`
too, with whichever filter on either side.
-/

namespace Sociogram.RuleSet

/-! ## Under `and` -/

theorem matchesNode_first_of_mem_filtered {ruleSet : RuleSet} (conjunctive : ruleSet.join = .and)
    {first : Rule} {rest : List Rule} (rules : ruleSet.rules = first :: rest)
    {strategy : Strategy} {network : Network} {node : Node}
    (left : node ∈ (ruleSet.filtered strategy network).nodes) :
    first.matchesNode (.ofNetwork network) node = true := by
  cases strategy with
  | standard =>
      rw [filtered_standard_cons conjunctive rules] at left
      have kept : node ∈ (Filter.narrow network first).nodes :=
        (Filter.foldl_narrow_partOf rest _).nodes.subset left
      exact (List.mem_filter.mp kept).2
  | singlePass =>
      have nonempty : ruleSet.rules ≠ [] := by simp [rules]
      have matched := ((mem_singlePass_nodes conjunctive nonempty network node).mp left).2
      exact matched first (rules ▸ List.mem_cons_self)

/-! ## Under `or` -/

section

variable {ruleSet : RuleSet} (disjunctive : ruleSet.join = .or)

include disjunctive

theorem mem_ids_filtered_of_or (strategy : Strategy) (network : Network) (id : NodeId) :
    id ∈ (ruleSet.filtered strategy network).nodes.map (·.id) ↔
      id ∈ (ruleSet.filtered .singlePass network).nodes.map (·.id) := by
  cases strategy with
  | singlePass => exact Iff.rfl
  | standard =>
      rw [filtered, filtered, Filter.apply_ofRuleSet_of_or disjunctive,
        SinglePassFilter.apply_ofRuleSet_of_or disjunctive]
      exact Filter.mem_ids_union_iff_passes disjunctive network id

theorem filtered_edges_of_or (strategy : Strategy) (network : Network) :
    (ruleSet.filtered strategy network).edges =
      (ruleSet.filtered .singlePass network).edges := by
  have nonvacuous : ¬ (ruleSet.join = .and ∧ ruleSet.rules = []) := by simp [disjunctive]
  have induced (strategy : Strategy) := filtered_inducedIn nonvacuous strategy network
  rw [(induced strategy).eq_restrict, (induced .singlePass).eq_restrict]
  exact network.restrict_edges_congr (mem_ids_filtered_of_or disjunctive strategy network)

theorem partOf_singlePass_of_or {part network : Network} (partOf : part.PartOf network)
    (wellFormed : part.isWellFormed = true)
    (selected : ∀ node ∈ part.nodes, ruleSet.Selects network node) :
    part.PartOf (ruleSet.filtered .singlePass network) := by
  rw [filtered, SinglePassFilter.apply_ofRuleSet_of_or disjunctive]
  apply partOf.restrict wellFormed
  have stays := partOf.nodes.filter (ruleSet.passes (.ofNetwork network))
  rwa [List.filter_eq_self.mpr fun node member =>
    (passes_iff_selects disjunctive network node).mpr (selected node member)] at stays

end

/-! ## Main statement -/

theorem conjunction_partOf_disjunction {entries : List RuleEntry} (nonempty : entries ≠ [])
    (strategy : Strategy) (network : Network) :
    ((RuleSet.mk .and entries).filtered strategy network).PartOf
      ((RuleSet.mk .or entries).filtered .singlePass network) := by
  rcases List.exists_cons_of_ne_nil nonempty with ⟨first, rest, equal⟩
  have someRule : (RuleSet.mk .and entries).rules ≠ [] := by simpa [rules] using nonempty
  have induced := filtered_inducedIn_of_nonempty someRule strategy network
  apply partOf_singlePass_of_or rfl induced.partOf induced.isWellFormed
  intro node left
  have conjunction : (RuleSet.mk .and entries).rules = first.rule :: rest.map (·.rule) := by
    rw [rules, equal, List.map_cons]
  have matched := matchesNode_first_of_mem_filtered rfl conjunction left
  have ofRules : first.rule ∈ (RuleSet.mk .or entries).rules := by simp [rules, equal]
  exact ⟨first.rule, ofRules, matched⟩

/-- With the same rules, of which there is at least one, nothing is left under `and` that is
not left under `or`, whichever filter is used for either: no identifier and no edge. Under
`or` the standard filter may keep another node of an identifier, but the single pass keeps
all nodes that are left under `and`. -/
theorem conjunction_included_in_disjunction (entries : List RuleEntry)
    (nonempty : entries ≠ []) (strategy otherStrategy : Strategy) (network : Network) :
    let conjunction := (RuleSet.mk .and entries).filtered strategy network
    let disjunction := fun strategy => (RuleSet.mk .or entries).filtered strategy network
    (∀ id ∈ conjunction.nodes.map (·.id),
        id ∈ (disjunction otherStrategy).nodes.map (·.id)) ∧
      conjunction.edges.Sublist (disjunction otherStrategy).edges ∧
      conjunction.nodes.Sublist (disjunction .singlePass).nodes := by
  intro conjunction disjunction
  have part : conjunction.PartOf (disjunction .singlePass) :=
    conjunction_partOf_disjunction nonempty strategy network
  have disjunctive : (RuleSet.mk .or entries).join = .or := rfl
  have sameIds := mem_ids_filtered_of_or disjunctive otherStrategy network
  have sameEdges : (disjunction otherStrategy).edges = (disjunction .singlePass).edges :=
    filtered_edges_of_or disjunctive otherStrategy network
  refine ⟨fun id left => ?_, ?_, part.nodes⟩
  · exact (sameIds id).mpr (List.map_subset _ part.nodes.subset left)
  · rw [sameEdges]
    exact part.edges

def unlikedPlaces : List RuleEntry :=
  [⟨.alter (.ofType "place" .exists), none⟩, ⟨.edge ⟨"likes", .notExists⟩, none⟩]

theorem conjunction_included_in_disjunction_tangled :
    let conjunction := (RuleSet.mk .and unlikedPlaces).filtered .standard .tangled
    let disjunction := fun strategy => (RuleSet.mk .or unlikedPlaces).filtered strategy .tangled
    unlikedPlaces ≠ [] ∧ conjunction.nodes.map (·.nodeType) = ["place"] ∧
      (∀ id ∈ conjunction.nodes.map (·.id), id ∈ (disjunction .standard).nodes.map (·.id)) ∧
      (disjunction .standard).nodes.map (·.nodeType) = ["person"] ∧
      conjunction.edges.Sublist (disjunction .standard).edges ∧ conjunction.edges.length = 1 ∧
      conjunction.nodes.Sublist (disjunction .singlePass).nodes := by
  intro conjunction disjunction
  have nonempty : unlikedPlaces ≠ [] := List.cons_ne_nil _ _
  have included :=
    conjunction_included_in_disjunction unlikedPlaces nonempty .standard .standard .tangled
  exact ⟨nonempty, by decide +kernel, included.1, by decide +kernel, included.2.1,
    by decide +kernel, included.2.2⟩

end Sociogram.RuleSet
