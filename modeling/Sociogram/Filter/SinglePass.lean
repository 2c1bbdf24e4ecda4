import Sociogram.Filter.Restriction
import Sociogram.Rule.Matching

/-!
The single-pass filter, for large networks: one edge index for the whole network,
and every rule tested on every node against it. Where ego rules alone decide
whether any node but the ego's can stay, they are settled once beforehand.
-/

namespace Sociogram

structure SinglePassFilter where
  join : Join
  rules : List Rule
  /-- The ego rules, when they are settled before the pass. -/
  egoRules : Option (List Rule)

namespace SinglePassFilter

def isEgoRule (rule : Rule) : Bool := rule.domain == .ego

/-- Ego rules can be settled beforehand when all rules must hold, or when there are
no others. -/
def ofRuleSet (ruleSet : RuleSet) : SinglePassFilter :=
  let (egoRules, others) := ruleSet.rules.partition isEgoRule
  if !egoRules.isEmpty && (ruleSet.join == .and || others.isEmpty) then
    ⟨ruleSet.join, others, some egoRules⟩
  else ⟨ruleSet.join, ruleSet.rules, none⟩

/-- The nodes that the pass has to look at. After ego rules that hold these are the
nodes with the ego's identifier, and after ego rules that fail there are none. -/
def candidates (filter : SinglePassFilter) (network : Network) : List Node :=
  match filter.egoRules with
  | none => network.nodes
  | some egoRules =>
      let egoPasses :=
        filter.join.combine (egoRules.map fun rule => rule.matchesEgo network.ego)
      match egoPasses, network.egoId? with
      | true, some egoId => network.nodes.filter fun node => node.id == egoId
      | _, _ => []

def passes (filter : SinglePassFilter) (surroundings : Surroundings) (node : Node) : Bool :=
  filter.join.combine (filter.rules.map fun rule => rule.matchesNode surroundings node)

def apply (filter : SinglePassFilter) (network : Network) : Network :=
  if filter.rules.isEmpty && filter.egoRules.isNone then
    match filter.join with
    | .and => network
    | .or => network.emptied
  else
    let candidates := filter.candidates network
    let nodes :=
      if filter.rules.isEmpty then candidates
      else candidates.filter (filter.passes (.ofNetwork network))
    network.restrict nodes

end SinglePassFilter

end Sociogram
