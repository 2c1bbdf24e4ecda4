import Sociogram.Proofs.Filter.Limit
import Sociogram.Proofs.Filter.Repetition

/-!
Filtering once and for all. Under `and` a second time changes nothing if no rule asks for
an edge, since fewer edges only make it easier to satisfy the others. In the standard
filter the last rule may ask for an edge: both ends of one that it finds stay.
-/

namespace Sociogram

/-! ## What stages leave -/

namespace Filter

theorem isWellFormed_foldl_narrow {rules : List Rule} {network : Network}
    (fitting : network.isWellFormed = true ∨ rules ≠ []) :
    (rules.foldl narrow network).isWellFormed = true := by
  cases rules with
  | nil => exact fitting.resolve_right fun nonempty => nonempty rfl
  | cons first rest =>
      exact (foldl_narrow_inducedIn (narrow_inducedIn network first) rest).isWellFormed

/-- What stages of negative rules leave, and every part of it, satisfies all these rules:
each has seen more edges than are left. -/
theorem matchesNode_of_partOf_foldl_narrow {rules : List Rule}
    (negative : ∀ rule ∈ rules, rule.Negative) {part network : Network}
    (partOf : part.PartOf (rules.foldl narrow network)) :
    ∀ rule ∈ rules, ∀ node ∈ part.nodes, rule.matchesNode (.ofNetwork part) node = true := by
  induction rules generalizing network with
  | nil => simp
  | cons first rest induction =>
      rw [List.foldl_cons] at partOf
      have stage : part.PartOf (narrow network first) :=
        partOf.trans (foldl_narrow_partOf rest _)
      have firstMatched : ∀ node ∈ part.nodes,
          first.matchesNode (.ofNetwork part) node = true := by
        intro node member
        apply (negative first List.mem_cons_self).matchesNode_part
          (stage.trans (narrow_partOf network first))
        exact (List.mem_filter.mp (stage.nodes.subset member)).2
      have restMatched := induction
        (fun rule member => negative rule (List.mem_cons_of_mem first member)) partOf
      exact List.forall_mem_cons.mpr ⟨firstMatched, restMatched⟩

end Filter

/-! ## What a filter leaves -/

namespace RuleSet

section

variable {ruleSet : RuleSet} (conjunctive : ruleSet.join = .and)

include conjunctive

theorem filtered_filtered_of_holdsThroughout {strategy : Strategy} {network : Network}
    (holds : ruleSet.HoldsThroughout (ruleSet.filtered strategy network)) :
    ruleSet.filtered strategy (ruleSet.filtered strategy network) =
      ruleSet.filtered strategy network := by
  by_cases vacuous : ruleSet.rules = []
  · exact filtered_of_and_nil conjunctive vacuous strategy _
  · have induced := filtered_inducedIn_of_nonempty vacuous strategy network
    exact filtered_eq_self conjunctive strategy induced.isWellFormed holds

theorem holdsThroughout_filtered_of_negative
    (negative : ∀ rule ∈ ruleSet.rules, rule.Negative) (strategy : Strategy)
    (network : Network) : ruleSet.HoldsThroughout (ruleSet.filtered strategy network) := by
  intro node member rule ofRules
  cases strategy with
  | standard =>
      rw [filtered, Filter.apply_ofRuleSet_of_and conjunctive] at member ⊢
      exact Filter.matchesNode_of_partOf_foldl_narrow negative (.refl _) rule ofRules node member
  | singlePass =>
      have nonempty : ruleSet.rules ≠ [] := List.ne_nil_of_mem ofRules
      apply (negative rule ofRules).matchesNode_part (ruleSet.filtered_partOf .singlePass network)
      exact ((mem_singlePass_nodes conjunctive nonempty network node).mp member).2 rule ofRules

theorem holdsThroughout_filtered_of_last {earlier : List Rule} {last : Rule}
    (rules : ruleSet.rules = earlier ++ [last])
    (negative : ∀ rule ∈ earlier, rule.Negative) {network : Network}
    (fitting : network.isWellFormed = true ∨ earlier ≠ []) :
    ruleSet.HoldsThroughout (ruleSet.filtered .standard network) := by
  have result : ruleSet.filtered .standard network =
      Filter.narrow (earlier.foldl Filter.narrow network) last := by
    rw [filtered, Filter.apply_ofRuleSet_of_and conjunctive, rules, List.foldl_append,
      List.foldl_cons, List.foldl_nil]
  have wellFormed := Filter.isWellFormed_foldl_narrow fitting
  rw [result]
  intro node member rule ofRules
  rw [rules, List.mem_append, List.mem_singleton] at ofRules
  rcases ofRules with before | equal
  · exact Filter.matchesNode_of_partOf_foldl_narrow negative (Filter.narrow_partOf _ last)
      rule before node member
  · subst equal
    apply Rule.matchesNode_restrict wellFormed
    · exact fun other inside matched => List.mem_filter.mpr ⟨inside, matched⟩
    · exact (List.mem_filter.mp member).2

end

/-- Under `and`, filtering a second time changes nothing when no rule asks for an edge,
either way. In the standard filter the last rule may do so, if other stages come before
it or no edge names an absent node. -/
theorem absence_filtering_is_idempotent (ruleSet : RuleSet) (conjunctive : ruleSet.join = .and)
    (network : Network) :
    ((∀ edgeRule, Rule.edge edgeRule ∈ ruleSet.rules → edgeRule.operator ≠ .exists) →
        ∀ strategy, ruleSet.filtered strategy (ruleSet.filtered strategy network) =
          ruleSet.filtered strategy network) ∧
      ((∀ edgeRule, Rule.edge edgeRule ∈ ruleSet.rules.dropLast → edgeRule.operator ≠ .exists) →
        network.isWellFormed = true ∨ ruleSet.rules.dropLast ≠ [] →
          ruleSet.filtered .standard (ruleSet.filtered .standard network) =
            ruleSet.filtered .standard network) := by
  constructor
  · intro absence strategy
    apply filtered_filtered_of_holdsThroughout conjunctive
    exact holdsThroughout_filtered_of_negative conjunctive (Rule.negative_of_mem absence)
      strategy network
  · intro absence fitting
    by_cases vacuous : ruleSet.rules = []
    · exact filtered_of_and_nil conjunctive vacuous .standard _
    · apply filtered_filtered_of_holdsThroughout conjunctive
      exact holdsThroughout_filtered_of_last conjunctive
        (List.dropLast_append_getLast vacuous).symm (Rule.negative_of_mem absence) fitting

theorem absence_filtering_is_idempotent_people :
    let unliking := (peopleLiking .notExists).filtered
    let liking := (peopleLiking .exists).filtered .standard
    (∀ operator, (peopleLiking operator).join = .and) ∧
      (∀ edgeRule, Rule.edge edgeRule ∈ (peopleLiking .notExists).rules →
        edgeRule.operator ≠ .exists) ∧
      (∀ strategy, unliking strategy (unliking strategy .tangled) = unliking strategy .tangled) ∧
      (unliking .standard .tangled).nodes.map (·.id.text) = ["a", "b"] ∧
      (unliking .singlePass .tangled).nodes.map (·.id.text) = ["a"] ∧
      (∀ edgeRule, Rule.edge edgeRule ∈ (peopleLiking .exists).rules.dropLast →
        edgeRule.operator ≠ .exists) ∧
      (peopleLiking .exists).rules.dropLast ≠ [] ∧
      liking (liking .courting) = liking .courting ∧
      (liking .courting).nodes.map (·.id.text) = ["a", "b"] := by
  intro unliking liking
  have absence : ∀ edgeRule, Rule.edge edgeRule ∈ (peopleLiking .notExists).rules →
      edgeRule.operator ≠ .exists := by
    intro edgeRule member
    simp_all [peopleLiking, rules]
  have noEarlierPresence : ∀ edgeRule,
      Rule.edge edgeRule ∈ (peopleLiking .exists).rules.dropLast →
        edgeRule.operator ≠ .exists := by
    intro edgeRule member
    simp_all [peopleLiking, rules]
  have preceded : (peopleLiking .exists).rules.dropLast ≠ [] := List.cons_ne_nil _ _
  have first := (absence_filtering_is_idempotent (peopleLiking .notExists) rfl .tangled).1 absence
  have second := (absence_filtering_is_idempotent (peopleLiking .exists) rfl .courting).2
    noEarlierPresence (.inr preceded)
  exact ⟨fun _ => rfl, absence, first, by decide +kernel, by decide +kernel,
    noEarlierPresence, preceded, second, by decide +kernel⟩

/-- The single pass looks for edges before the place has gone, last rule or not. -/
example :
    let liking := (peopleLiking .exists).filtered .singlePass
    (liking .courting).nodes.map (·.id.text) = ["a", "b", "c"] ∧
      (liking (liking .courting)).nodes.map (·.id.text) = ["a", "b"] := by
  decide +kernel

end RuleSet

end Sociogram
