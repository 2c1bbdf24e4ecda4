import Sociogram.Proofs.Filter.SinglePass
import Sociogram.Proofs.Filter.Standard

/-!
Both ways of filtering take an induced part of the network: some of its nodes in
their order, all edges between them, and the ego.
-/

namespace Sociogram

/-- The two ways of filtering. -/
inductive Strategy where
  | standard
  | singlePass
deriving DecidableEq

namespace RuleSet

def filtered (ruleSet : RuleSet) (strategy : Strategy) (network : Network) : Network :=
  match strategy with
  | .standard => (Filter.ofRuleSet ruleSet).apply network
  | .singlePass => (SinglePassFilter.ofRuleSet ruleSet).apply network

theorem filtered_of_and_nil {ruleSet : RuleSet} (conjunctive : ruleSet.join = .and)
    (vacuous : ruleSet.rules = []) (strategy : Strategy) (network : Network) :
    ruleSet.filtered strategy network = network := by
  cases strategy with
  | standard => rw [filtered, Filter.apply_ofRuleSet_of_and conjunctive, vacuous, List.foldl_nil]
  | singlePass => exact SinglePassFilter.apply_ofRuleSet_of_and_nil conjunctive vacuous network

theorem filtered_inducedIn {ruleSet : RuleSet}
    (nonvacuous : ¬ (ruleSet.join = .and ∧ ruleSet.rules = [])) (strategy : Strategy)
    (network : Network) : (ruleSet.filtered strategy network).InducedIn network := by
  cases join : ruleSet.join with
  | and =>
      have nonempty : ruleSet.rules ≠ [] := fun vacuous => nonvacuous ⟨join, vacuous⟩
      cases strategy with
      | standard =>
          rw [filtered, Filter.apply_ofRuleSet_of_and join]
          cases rules : ruleSet.rules with
          | nil => exact absurd rules nonempty
          | cons first rest =>
              exact Filter.foldl_narrow_inducedIn (Filter.narrow_inducedIn network first) rest
      | singlePass =>
          rw [filtered, SinglePassFilter.apply_ofRuleSet ruleSet nonempty]
          exact network.inducedIn_restrict List.filter_sublist
  | or =>
      cases strategy with
      | standard =>
          rw [filtered, Filter.apply_ofRuleSet_of_or join]
          exact network.inducedIn_restrict (Filter.firstOfEach_sublist _ _ _)
      | singlePass =>
          rw [filtered, SinglePassFilter.apply_ofRuleSet_of_or join]
          exact network.inducedIn_restrict List.filter_sublist

theorem filtered_inducedIn_of_nonempty {ruleSet : RuleSet} (nonempty : ruleSet.rules ≠ [])
    (strategy : Strategy) (network : Network) :
    (ruleSet.filtered strategy network).InducedIn network :=
  filtered_inducedIn (fun vacuous => nonempty vacuous.2) strategy network

theorem filtered_partOf (ruleSet : RuleSet) (strategy : Strategy) (network : Network) :
    (ruleSet.filtered strategy network).PartOf network := by
  by_cases vacuous : ruleSet.join = .and ∧ ruleSet.rules = []
  · rw [filtered_of_and_nil vacuous.1 vacuous.2]
    exact .refl network
  · exact (filtered_inducedIn vacuous strategy network).partOf

/-- What is left of a network has some of its nodes in their order, its ego and
exactly the edges between the nodes that are left, so that it is well formed. The
empty `and` alone takes nothing away. -/
theorem filtered_is_induced_part (ruleSet : RuleSet) (strategy : Strategy)
    (network : Network) :
    let result := ruleSet.filtered strategy network
    result.nodes.Sublist network.nodes ∧ result.ego = network.ego ∧
      (if ruleSet.join = .and ∧ ruleSet.entries = [] then result = network
        else result.edges = network.edges.filter (fun edge => edge.Joins result.nodes) ∧
          result.isWellFormed = true) ∧
      (network.isWellFormed = true → result.isWellFormed = true) := by
  intro result
  by_cases vacuous : ruleSet.join = .and ∧ ruleSet.entries = []
  · have unchanged : result = network :=
      filtered_of_and_nil vacuous.1 (by rw [rules, vacuous.2, List.map_nil]) strategy network
    rw [if_pos vacuous, unchanged]
    exact ⟨List.Sublist.refl _, rfl, rfl, id⟩
  · have induced : result.InducedIn network :=
      filtered_inducedIn (by simpa [rules] using vacuous) strategy network
    rw [if_neg vacuous]
    exact ⟨induced.nodes, induced.ego, ⟨induced.edges, induced.isWellFormed⟩,
      fun _ => induced.isWellFormed⟩

end RuleSet

end Sociogram
