import Sociogram.Filter.Restriction
import Sociogram.Rule.Matching

/-!
The standard filter: the sub-network that matches a rule set.

Under `and` the rules are stages. Each stage sees the nodes and edges that the
one before it left, so a later edge rule can only be satisfied by an edge that is
still there. Under `or` every rule sees the whole network, and the nodes that
some rule matched are kept with all edges between them.
-/

namespace Sociogram

structure Filter where
  join : Join
  rules : List Rule

namespace Filter

def ofRuleSet (ruleSet : RuleSet) : Filter := ⟨ruleSet.join, ruleSet.rules⟩

def narrow (network : Network) (rule : Rule) : Network :=
  network.restrict (network.nodes.filter (rule.matchesNode (.ofNetwork network)))

/-- Further stages. Once no node is left there is nothing to do. -/
def narrowAll (network : Network) : List Rule → Network
  | [] => network
  | rule :: rules =>
      if network.nodes.isEmpty then network else narrowAll (narrow network rule) rules

/-- The first rule always makes a stage; without rules the network stays as it
is. -/
def applyStages (rules : List Rule) (network : Network) : Network :=
  match rules with
  | [] => network
  | first :: rest => narrowAll (narrow network first) rest

def matchedIds (rules : List Rule) (network : Network) : NodeIds :=
  let surroundings := Surroundings.ofNetwork network
  rules.foldl
    (fun matched rule =>
      matched.insertMany ((network.nodes.filter (rule.matchesNode surroundings)).map (·.id)))
    {}

/-- The first node of each identifier among the given ones, leaving out the
identifiers already seen. -/
def firstOfEach (ids seen : NodeIds) : List Node → List Node
  | [] => []
  | node :: nodes =>
      if ids.contains node.id && !seen.contains node.id then
        node :: firstOfEach ids (seen.insert node.id) nodes
      else firstOfEach ids seen nodes

def applyUnion (rules : List Rule) (network : Network) : Network :=
  if rules.isEmpty then network.emptied
  else network.restrict (firstOfEach (matchedIds rules network) {} network.nodes)

def apply (filter : Filter) (network : Network) : Network :=
  match filter.join with
  | .and => applyStages filter.rules network
  | .or => applyUnion filter.rules network

end Filter

end Sociogram
