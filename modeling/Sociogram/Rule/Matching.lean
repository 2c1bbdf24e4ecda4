import Sociogram.Rule.EdgeIndex
import Sociogram.Rule.RuleSet

/-!
When a node, or the ego, satisfies a rule.
-/

namespace Sociogram

structure Surroundings where
  index : EdgeIndex
  ego : Option Node

namespace Surroundings

def ofNetwork (network : Network) : Surroundings :=
  ⟨.ofEdges network.edges, network.ego⟩

end Surroundings

/-- Without an attribute only the type is looked at: `EXISTS` asks for the type,
any other operator, or none, for any other type. With one, the node must be of
the type and the operator must hold for its value. -/
def AlterRule.matchesNode (rule : AlterRule) (node : Node) : Bool :=
  match rule.testedAttribute? with
  | none =>
      if rule.operator = some .exists then node.nodeType == rule.nodeType
      else node.nodeType != rule.nodeType
  | some name =>
      node.nodeType == rule.nodeType &&
        Operator.holdsOptional rule.operator (node.attributes.get name) rule.value

/-- `EXISTS` asks for an edge of the type at the node, any other operator for the
absence of one. -/
def EdgeRule.matchesNode (rule : EdgeRule) (index : EdgeIndex) (node : Node) : Bool :=
  let touches := index.contains rule.edgeType node.id
  if rule.operator = .exists then touches else !touches

def EgoRule.holdsFor (rule : EgoRule) (ego : Node) : Bool :=
  Operator.holdsOptional rule.operator (ego.attributes.get rule.attributeName) rule.value

namespace Rule

/-- Whether a node satisfies a rule. An ego rule is satisfied by the nodes with the
ego's identifier, if the ego itself passes. -/
def matchesNode (rule : Rule) (surroundings : Surroundings) (node : Node) : Bool :=
  match rule with
  | alter rule => rule.matchesNode node
  | edge rule => rule.matchesNode surroundings.index node
  | ego rule =>
      match surroundings.ego with
      | some egoNode => egoNode.id == node.id && rule.holdsFor egoNode
      | none => false
  | unrecognized _ _ => false

def matchesEgo (rule : Rule) (ego : Option Node) : Bool :=
  match rule, ego with
  | .ego rule, some node => rule.holdsFor node
  | _, _ => false

end Rule

end Sociogram
