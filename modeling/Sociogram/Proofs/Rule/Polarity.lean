import Sociogram.Proofs.Network.Restriction
import Sociogram.Proofs.Rule.EdgeIndex
import Sociogram.Proofs.Rule.Matching

/-!
Rules among fewer edges. A rule that asks for an edge can only lose nodes when edges
go, one that asks for the absence of edges can only win some, and a rule that does not
look at edges keeps its verdicts.
-/

namespace Sociogram.Rule

/-- An edge rule of this kind asks for an edge. -/
def Positive (rule : Rule) : Prop :=
  ∀ edgeRule, rule = .edge edgeRule → edgeRule.operator = .exists

/-- An edge rule of this kind asks for the absence of edges. -/
def Negative (rule : Rule) : Prop :=
  ∀ edgeRule, rule = .edge edgeRule → edgeRule.operator ≠ .exists

theorem positive_of_mem {rules : List Rule}
    (presence : ∀ edgeRule, Rule.edge edgeRule ∈ rules → edgeRule.operator = .exists) :
    ∀ rule ∈ rules, rule.Positive :=
  fun _ member edgeRule equal => presence edgeRule (equal ▸ member)

theorem negative_of_mem {rules : List Rule}
    (absence : ∀ edgeRule, Rule.edge edgeRule ∈ rules → edgeRule.operator ≠ .exists) :
    ∀ rule ∈ rules, rule.Negative :=
  fun _ member edgeRule equal => absence edgeRule (equal ▸ member)

theorem Positive.matchesNode_of_part {rule : Rule} (positive : rule.Positive)
    {part whole : Network} (partOf : part.PartOf whole) {node : Node}
    (matched : rule.matchesNode (.ofNetwork part) node = true) :
    rule.matchesNode (.ofNetwork whole) node = true := by
  cases rule with
  | edge edgeRule =>
      have presence := positive edgeRule rfl
      obtain ⟨edge, member, touches⟩ :=
        (EdgeRule.matchesNode_of_exists presence part.edges node).mp matched
      exact (EdgeRule.matchesNode_of_exists presence whole.edges node).mpr
        ⟨edge, partOf.edges.subset member, touches⟩
  | alter alterRule => exact matched
  | ego egoRule =>
      have sameEgo : (Surroundings.ofNetwork part).ego = (Surroundings.ofNetwork whole).ego :=
        partOf.ego
      simpa only [matchesNode, sameEgo] using matched
  | unrecognized domain options => exact matched

theorem Negative.matchesNode_part {rule : Rule} (negative : rule.Negative)
    {part whole : Network} (partOf : part.PartOf whole) {node : Node}
    (matched : rule.matchesNode (.ofNetwork whole) node = true) :
    rule.matchesNode (.ofNetwork part) node = true := by
  cases rule with
  | edge edgeRule =>
      have absence := negative edgeRule rfl
      have untouched := (EdgeRule.matchesNode_of_not_exists absence whole.edges node).mp matched
      exact (EdgeRule.matchesNode_of_not_exists absence part.edges node).mpr
        fun edge member => untouched edge (partOf.edges.subset member)
  | alter alterRule => exact matched
  | ego egoRule =>
      have sameEgo : (Surroundings.ofNetwork part).ego = (Surroundings.ofNetwork whole).ego :=
        partOf.ego
      simpa only [matchesNode, sameEgo] using matched
  | unrecognized domain options => exact matched

end Sociogram.Rule
