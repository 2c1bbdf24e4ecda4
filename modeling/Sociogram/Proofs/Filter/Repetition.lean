import Sociogram.Proofs.Filter.Induced
import Sociogram.Proofs.Filter.Union
import Sociogram.Proofs.Rule.EdgeIndex

/-!
Filtering again. Under `or` a node that stays keeps its reason to stay: an edge that
a rule finds at one end it finds at the other end too, so that both ends stay, and
the edge with them. Edges that name absent nodes, and for the standard filter
repeated identifiers, can spoil this, but no first result has any of them.
-/

namespace Sociogram

/-! ## Reasons to stay -/

theorem Rule.matchesNode_restrict {rule : Rule} {network : Network}
    (wellFormed : network.isWellFormed = true) {kept : List Node}
    (closed : ∀ other ∈ network.nodes,
      rule.matchesNode (.ofNetwork network) other = true → other ∈ kept)
    {node : Node} (matched : rule.matchesNode (.ofNetwork network) node = true) :
    rule.matchesNode (.ofNetwork (network.restrict kept)) node = true := by
  cases rule with
  | alter rule => exact matched
  | ego rule => exact matched
  | unrecognized domain options => exact matched
  | edge rule =>
      by_cases presence : rule.operator = .exists
      · have found := EdgeRule.matchesNode_of_exists presence network.edges
        obtain ⟨edge, member, touches⟩ := (found node).mp matched
        have endStays : ∀ id, edge.Touches rule.edgeType id → id ∈ network.nodes.map (·.id) →
            id ∈ kept.map (·.id) := by
          intro id touchesEnd occurs
          obtain ⟨other, inside, sameId⟩ := List.mem_map.mp occurs
          subst sameId
          exact List.mem_map_of_mem
            (closed other inside ((found other).mpr ⟨edge, member, touchesEnd⟩))
        have joins := (Network.isWellFormed_iff network).mp wellFormed edge member
        have joinsKept : edge.Joins kept :=
          ⟨endStays _ ⟨touches.1, .inl rfl⟩ joins.1, endStays _ ⟨touches.1, .inr rfl⟩ joins.2⟩
        apply (EdgeRule.matchesNode_of_exists presence (network.restrict kept).edges node).mpr
        refine ⟨edge, ?_, touches⟩
        rw [Network.restrict_edges, List.mem_filter]
        exact ⟨member, decide_eq_true joinsKept⟩
      · have untouched :=
          (EdgeRule.matchesNode_of_not_exists presence network.edges node).mp matched
        apply (EdgeRule.matchesNode_of_not_exists presence (network.restrict kept).edges node).mpr
        intro edge member
        rw [Network.restrict_edges] at member
        exact untouched edge (List.mem_of_mem_filter member)

theorem RuleSet.passes_restrict_passing {ruleSet : RuleSet} (disjunctive : ruleSet.join = .or)
    {network : Network} (wellFormed : network.isWellFormed = true) {node : Node}
    (passing : ruleSet.passes (.ofNetwork network) node = true) :
    ruleSet.passes
      (.ofNetwork (network.restrict
        (network.nodes.filter (ruleSet.passes (.ofNetwork network))))) node = true := by
  rw [passes_iff_selects disjunctive] at passing ⊢
  obtain ⟨rule, member, matched⟩ := passing
  refine ⟨rule, member, Rule.matchesNode_restrict wellFormed ?_ matched⟩
  intro other inside otherMatched
  have otherPasses :=
    (passes_iff_selects disjunctive network other).mpr ⟨rule, member, otherMatched⟩
  exact List.mem_filter.mpr ⟨inside, otherPasses⟩

/-! ## The second time -/

theorem SinglePassFilter.apply_apply_of_or {ruleSet : RuleSet}
    (disjunctive : ruleSet.join = .or) {network : Network}
    (wellFormed : network.isWellFormed = true) :
    (ofRuleSet ruleSet).apply ((ofRuleSet ruleSet).apply network) =
      (ofRuleSet ruleSet).apply network := by
  rw [apply_ofRuleSet_of_or disjunctive network, apply_ofRuleSet_of_or disjunctive,
    Network.restrict_nodes]
  -- All that passed pass again, so the second restriction is to the same nodes.
  rw [List.filter_eq_self.mpr fun node member =>
    RuleSet.passes_restrict_passing disjunctive wellFormed (List.mem_filter.mp member).2]
  exact network.restrict_restrict (List.Subset.refl _)

namespace Filter

theorem apply_eq_singlePass_of_nodup {ruleSet : RuleSet} (disjunctive : ruleSet.join = .or)
    {network : Network} (distinct : (network.nodes.map (·.id)).Nodup) :
    (ofRuleSet ruleSet).apply network = (SinglePassFilter.ofRuleSet ruleSet).apply network := by
  rw [apply_ofRuleSet_of_or disjunctive, firstOfEach_eq_filter_passes disjunctive distinct,
    SinglePassFilter.apply_ofRuleSet_of_or disjunctive]

theorem apply_apply_of_or {ruleSet : RuleSet} (disjunctive : ruleSet.join = .or)
    {network : Network} (wellFormed : network.isWellFormed = true)
    (distinct : (network.nodes.map (·.id)).Nodup) :
    (ofRuleSet ruleSet).apply ((ofRuleSet ruleSet).apply network) =
      (ofRuleSet ruleSet).apply network := by
  rw [apply_eq_singlePass_of_nodup disjunctive (nodup_ids_apply_of_or disjunctive network),
    apply_eq_singlePass_of_nodup disjunctive distinct]
  exact SinglePassFilter.apply_apply_of_or disjunctive wellFormed

end Filter

namespace RuleSet

theorem filtered_filtered_of_or {ruleSet : RuleSet} (disjunctive : ruleSet.join = .or)
    {strategy : Strategy} {network : Network} (wellFormed : network.isWellFormed = true)
    (distinct : strategy = .standard → (network.nodes.map (·.id)).Nodup) :
    ruleSet.filtered strategy (ruleSet.filtered strategy network) =
      ruleSet.filtered strategy network := by
  cases strategy with
  | standard => exact Filter.apply_apply_of_or disjunctive wellFormed (distinct rfl)
  | singlePass => exact SinglePassFilter.apply_apply_of_or disjunctive wellFormed

/-- Under `or` the third time changes nothing, on any network. The second time
changes nothing on a well-formed network, if for the standard filter identifiers are
not repeated. -/
theorem union_filtering_settles (ruleSet : RuleSet) (disjunctive : ruleSet.join = .or)
    (strategy : Strategy) (network : Network) :
    let filter := ruleSet.filtered strategy
    filter (filter (filter network)) = filter (filter network) ∧
      (network.isWellFormed = true →
        (strategy = .standard → (network.nodes.map (·.id)).Nodup) →
          filter (filter network) = filter network) := by
  intro filter
  refine ⟨?_, fun wellFormed distinct => filtered_filtered_of_or disjunctive wellFormed distinct⟩
  have nonvacuous : ¬ (ruleSet.join = .and ∧ ruleSet.rules = []) := by simp [disjunctive]
  apply filtered_filtered_of_or disjunctive
  · exact (filtered_inducedIn nonvacuous strategy network).isWellFormed
  · intro standard
    subst standard
    exact Filter.nodup_ids_apply_of_or disjunctive network

def acquainted : RuleSet where
  join := .or
  entries := [⟨.edge ⟨"knows", .exists⟩, none⟩, ⟨.edge ⟨"likes", .exists⟩, none⟩]

theorem union_filtering_settles_tangled :
    let trimmed := Network.tangled.trimOrphans
    let distinct := trimmed.restrict (trimmed.nodes.take 2)
    let standard := acquainted.filtered .standard
    let singlePass := acquainted.filtered .singlePass
    acquainted.join = .or ∧ trimmed.isWellFormed = true ∧ distinct.isWellFormed = true ∧
      (distinct.nodes.map (·.id)).Nodup ∧
      standard (standard (standard .tangled)) = standard (standard .tangled) ∧
      standard (standard distinct) = standard distinct ∧
      singlePass (singlePass (singlePass .tangled)) = singlePass (singlePass .tangled) ∧
      singlePass (singlePass trimmed) = singlePass trimmed := by
  intro trimmed distinct standard singlePass
  have trimmedIsWellFormed : trimmed.isWellFormed = true :=
    Network.isWellFormed_restrict _ _
  have distinctIsWellFormed : distinct.isWellFormed = true :=
    Network.isWellFormed_restrict _ _
  have nodup : (distinct.nodes.map (·.id)).Nodup := by decide
  exact ⟨rfl, trimmedIsWellFormed, distinctIsWellFormed, nodup,
    (union_filtering_settles acquainted rfl .standard .tangled).1,
    (union_filtering_settles acquainted rfl .standard distinct).2 distinctIsWellFormed
      fun _ => nodup,
    (union_filtering_settles acquainted rfl .singlePass .tangled).1,
    (union_filtering_settles acquainted rfl .singlePass trimmed).2 trimmedIsWellFormed
      fun impossible => by cases impossible⟩

/-- An edge that names an absent node is found the first time and gone the second
time. -/
example :
    let likes : RuleSet := ⟨.or, [⟨.edge ⟨"likes", .exists⟩, none⟩]⟩
    let once := likes.filtered .singlePass .tangled
    once.nodes.map (·.id.text) = ["b"] ∧
      (likes.filtered .singlePass once).nodes.map (·.id.text) = [] := by
  decide +kernel

end RuleSet

end Sociogram
