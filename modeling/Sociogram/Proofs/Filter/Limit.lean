import Mathlib.Data.List.Basic
import Sociogram.Proofs.Filter.Settled

/-!
Where filtering over and over ends under `and`, when no rule asks for the absence of
edges. What is left does not depend on the way of filtering or the order of the rules: it
is the greatest list of nodes that satisfy all rules among themselves.
-/

namespace Sociogram

/-! ## Support -/

namespace RuleSet

/-- Among these nodes, with the edges between them, each satisfies every rule. -/
def Sustains (ruleSet : RuleSet) (network : Network) (nodes : List Node) : Prop :=
  ∀ node ∈ nodes, ∀ rule ∈ ruleSet.rules,
    rule.matchesNode (.ofNetwork (network.restrict nodes)) node = true

/-- The greatest of the lists of nodes that satisfy every rule among themselves. -/
structure GreatestSupport (ruleSet : RuleSet) (network : Network) (nodes : List Node) :
    Prop where
  sublist : nodes.Sublist network.nodes
  sustained : ruleSet.Sustains network nodes
  greatest : ∀ others : List Node, others.Sublist network.nodes →
    ruleSet.Sustains network others → others.Sublist nodes

theorem GreatestSupport.unique {ruleSet : RuleSet} {network : Network} {left right : List Node}
    (leftGreatest : ruleSet.GreatestSupport network left)
    (rightGreatest : ruleSet.GreatestSupport network right) : left = right :=
  (rightGreatest.greatest left leftGreatest.sublist leftGreatest.sustained).antisymm
    (leftGreatest.greatest right rightGreatest.sublist rightGreatest.sustained)

theorem GreatestSupport.congr_rules {ruleSet other : RuleSet}
    (sameRules : ∀ rule, rule ∈ other.rules ↔ rule ∈ ruleSet.rules) {network : Network}
    {nodes : List Node} (greatest : other.GreatestSupport network nodes) :
    ruleSet.GreatestSupport network nodes := by
  have sameSupport : ∀ others, other.Sustains network others ↔ ruleSet.Sustains network others :=
    fun others => by simp only [Sustains, sameRules]
  exact ⟨greatest.sublist, (sameSupport nodes).mp greatest.sustained,
    fun others sublist sustained =>
      greatest.greatest others sublist ((sameSupport others).mpr sustained)⟩

section

variable {ruleSet : RuleSet} (conjunctive : ruleSet.join = .and)
  (nonempty : ruleSet.rules ≠ []) (positive : ∀ rule ∈ ruleSet.rules, rule.Positive)

include conjunctive nonempty positive

theorem partOf_filtered (strategy : Strategy) {part network : Network}
    (partOf : part.PartOf network) (wellFormed : part.isWellFormed = true)
    (sustained : ruleSet.HoldsThroughout part) :
    part.PartOf (ruleSet.filtered strategy network) := by
  cases strategy with
  | singlePass =>
      apply partOf_singlePass conjunctive nonempty partOf wellFormed
      intro node member rule ofRules
      exact (positive rule ofRules).matchesNode_of_part partOf (sustained node member rule ofRules)
  | standard =>
      rw [filtered, Filter.apply_ofRuleSet_of_and conjunctive]
      exact Filter.partOf_foldl_narrow_of_positive positive partOf wellFormed
        fun rule ofRules node member => sustained node member rule ofRules

theorem partOf_iterate (strategy : Strategy) {part network : Network}
    (partOf : part.PartOf network) (wellFormed : part.isWellFormed = true)
    (sustained : ruleSet.HoldsThroughout part) (times : Nat) :
    part.PartOf ((ruleSet.filtered strategy)^[times] network) := by
  induction times with
  | zero => exact partOf
  | succ times induction =>
      rw [Function.iterate_succ_apply']
      exact partOf_filtered conjunctive nonempty positive strategy induction wellFormed sustained

theorem greatestSupport_of_settled (strategy : Strategy) (network : Network) {times : Nat}
    (settled : ruleSet.filtered strategy ((ruleSet.filtered strategy)^[times + 1] network) =
      (ruleSet.filtered strategy)^[times + 1] network) :
    ruleSet.GreatestSupport network ((ruleSet.filtered strategy)^[times + 1] network).nodes := by
  have induced := Network.iterate_inducedIn
    (filtered_inducedIn_of_nonempty nonempty strategy) network times
  have holds := holdsThroughout_of_filtered_eq_self conjunctive strategy settled
  refine ⟨induced.nodes, ?_, ?_⟩
  · rwa [induced.eq_restrict] at holds
  · intro others sublist sustained
    exact (partOf_iterate conjunctive nonempty positive strategy
      (network.inducedIn_restrict sublist).partOf (network.isWellFormed_restrict others)
      sustained (times + 1)).nodes

theorem iterate_eq_restrict_greatestSupport {network : Network} {nodes : List Node}
    (greatest : ruleSet.GreatestSupport network nodes) (strategy : Strategy) {times : Nat}
    (enough : network.nodes.length + 1 ≤ times) :
    (ruleSet.filtered strategy)^[times] network = network.restrict nodes := by
  have inducedStep := filtered_inducedIn_of_nonempty nonempty strategy
  have settled := Network.iterate_settles inducedStep network
  have reached := greatestSupport_of_settled conjunctive nonempty positive strategy network settled
  rw [Network.iterate_of_le inducedStep network enough, ← reached.unique greatest]
  exact (Network.iterate_inducedIn inducedStep network network.nodes.length).eq_restrict

theorem exists_greatestSupport (network : Network) :
    ∃ nodes, ruleSet.GreatestSupport network nodes :=
  ⟨_, greatestSupport_of_settled conjunctive nonempty positive .standard network
    (Network.iterate_settles (filtered_inducedIn_of_nonempty nonempty .standard) network)⟩

end

/-- Under `and`, when no rule asks for the absence of edges, filtering over and over ends
in the part of the network on the greatest list of nodes that satisfy all rules among
themselves, after one time more than there are nodes at the latest. Either way of
filtering and any order of the rules end there. -/
theorem repeated_filters_reach_greatest_support (ruleSet : RuleSet)
    (conjunctive : ruleSet.join = .and) (nonempty : ruleSet.entries ≠ [])
    (presence : ∀ edgeRule, Rule.edge edgeRule ∈ ruleSet.rules → edgeRule.operator = .exists)
    (network : Network) :
    ∃ final : Network, final.InducedIn network ∧
      ruleSet.GreatestSupport network final.nodes ∧
      ∀ other : RuleSet, other.join = .and → other.rules.Perm ruleSet.rules →
        ∀ strategy, other.filtered strategy final = final ∧
          ∀ times, network.nodes.length + 1 ≤ times →
            (other.filtered strategy)^[times] network = final := by
  have rules : ruleSet.rules ≠ [] := by simpa [RuleSet.rules] using nonempty
  obtain ⟨nodes, greatest⟩ :=
    exists_greatestSupport conjunctive rules (Rule.positive_of_mem presence) network
  refine ⟨network.restrict nodes, network.inducedIn_restrict greatest.sublist, greatest, ?_⟩
  intro other otherConjunctive reordered strategy
  have otherRules : other.rules ≠ [] := by
    intro empty
    rw [empty] at reordered
    exact rules reordered.nil_eq.symm
  have otherPositive : ∀ rule ∈ other.rules, rule.Positive := fun rule member =>
    Rule.positive_of_mem presence rule (reordered.subset member)
  have otherGreatest : other.GreatestSupport network nodes :=
    greatest.congr_rules fun rule => reordered.symm.mem_iff
  have reached {times : Nat} (enough : network.nodes.length + 1 ≤ times) :
      (other.filtered strategy)^[times] network = network.restrict nodes :=
    iterate_eq_restrict_greatestSupport otherConjunctive otherRules otherPositive otherGreatest
      strategy enough
  refine ⟨?_, fun times enough => reached enough⟩
  have once := reached (Nat.le_refl _)
  have again := reached (Nat.le_succ (network.nodes.length + 1))
  rwa [Function.iterate_succ_apply', once] at again

def likingPeople : RuleSet where
  join := .and
  entries := [⟨.edge ⟨"likes", .exists⟩, none⟩, ⟨.alter (.ofType "person" .exists), none⟩]

end RuleSet

def Network.courting : Network where
  nodes :=
    [⟨⟨"a"⟩, "person", .empty⟩, ⟨⟨"b"⟩, "person", .empty⟩, ⟨⟨"c"⟩, "person", .empty⟩,
      ⟨⟨"d"⟩, "place", .empty⟩]
  edges := [⟨⟨"a"⟩, ⟨"b"⟩, "likes", .empty⟩, ⟨⟨"c"⟩, ⟨"d"⟩, "likes", .empty⟩]
  ego := none

namespace RuleSet

theorem repeated_filters_reach_greatest_support_courting :
    likingPeople.join = .and ∧ likingPeople.entries ≠ [] ∧
      (∀ edgeRule, Rule.edge edgeRule ∈ likingPeople.rules → edgeRule.operator = .exists) ∧
      (likingPeople.filtered .standard .courting).nodes.map (·.id.text) = ["a", "b", "c"] ∧
      ∃ final : Network, final.InducedIn .courting ∧
        likingPeople.GreatestSupport .courting final.nodes ∧
        final.nodes.map (·.id.text) = ["a", "b"] ∧
        ∀ other : RuleSet, other.join = .and → other.rules.Perm likingPeople.rules →
          ∀ strategy, other.filtered strategy final = final ∧
            ∀ times, 5 ≤ times → (other.filtered strategy)^[times] .courting = final := by
  have nonempty : likingPeople.entries ≠ [] := List.cons_ne_nil _ _
  have presence : ∀ edgeRule, Rule.edge edgeRule ∈ likingPeople.rules →
      edgeRule.operator = .exists := by
    intro edgeRule member
    simp_all [likingPeople, rules]
  obtain ⟨final, induced, greatest, reached⟩ :=
    repeated_filters_reach_greatest_support likingPeople rfl nonempty presence .courting
  have fifth := (reached likingPeople rfl (.refl _) .standard).2 5 (Nat.le_refl 5)
  refine ⟨rfl, nonempty, presence, by decide +kernel, final, induced, greatest, ?_, reached⟩
  rw [← fifth]
  decide +kernel

end RuleSet

end Sociogram
