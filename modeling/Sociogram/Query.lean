import Sociogram.Rule.Matching

/-!
Queries: whether a network satisfies a rule set.

Rules are grouped by domain, the groups in the order in which the domains first
appear. The join is applied within each group and then to the groups. An alter
or edge rule passes when some node matches it, or, with a count, when the number
of matching nodes is as expected.
-/

namespace Sociogram

structure RuleGroup where
  domain : Domain
  entries : List RuleEntry

structure Query where
  join : Join
  groups : List RuleGroup

namespace RuleGroup

def add (entry : RuleEntry) : List RuleGroup → List RuleGroup
  | [] => [⟨entry.rule.domain, [entry]⟩]
  | group :: groups =>
      if group.domain = entry.rule.domain then
        ⟨group.domain, group.entries ++ [entry]⟩ :: groups
      else group :: add entry groups

end RuleGroup

/-- Whether enough nodes match: some node, or as many as the count expects. -/
def RuleEntry.passes (entry : RuleEntry) (surroundings : Surroundings)
    (nodes : List Node) : Bool :=
  match entry.count with
  | some assertion =>
      assertion.operator.holdsForCount
        (nodes.countP (entry.rule.matchesNode surroundings)) assertion.value
  | none => nodes.any (entry.rule.matchesNode surroundings)

/-- The outcome of a group. Ego rules are tested on the ego and have no counts;
rules of an unknown domain are never satisfied. -/
def RuleGroup.outcome (group : RuleGroup) (join : Join) (surroundings : Surroundings)
    (nodes : List Node) : Bool :=
  match group.domain with
  | .ego =>
      join.combine (group.entries.map fun entry => entry.rule.matchesEgo surroundings.ego)
  | .alter | .edge =>
      join.combine (group.entries.map fun entry => entry.passes surroundings nodes)
  | .unrecognized => false

namespace Query

def ofRuleSet (ruleSet : RuleSet) : Query :=
  ⟨ruleSet.join, ruleSet.entries.foldl (fun groups entry => RuleGroup.add entry groups) []⟩

def surroundings (query : Query) (network : Network) : Surroundings :=
  if query.groups.any fun group => group.domain == .edge then .ofNetwork network
  else ⟨.empty, network.ego⟩

def evaluate (query : Query) (network : Network) : Bool :=
  let surroundings := query.surroundings network
  query.join.combine
    (query.groups.map fun group =>
      group.outcome query.join surroundings network.nodes)

end Query

end Sociogram
