import Sociogram.Proofs.Filter.SinglePass
import Sociogram.Proofs.Rule.Matching
import Sociogram.Query

/-!
Queries read without groups: every rule has an outcome of its own on the whole
network, and the join of these outcomes is the answer. Grouping only rearranges
the entries, so neither their order nor their repetition can be seen.
-/

namespace Sociogram

/-! ## Outcomes of single rules -/

/-- The nodes that satisfy a rule, all edges of the network taken together. -/
def Network.matching (network : Network) (rule : Rule) : List Node :=
  network.nodes.filter (rule.matchesNode (.ofNetwork network))

/-- The outcome of an entry by itself. Only alter and edge rules are counted; without
an expectation on the count, one matching node is enough. -/
def RuleEntry.outcome (entry : RuleEntry) (network : Network) : Bool :=
  match entry.rule.domain with
  | .ego => entry.rule.matchesEgo network.ego
  | .unrecognized => false
  | .alter | .edge =>
      match entry.count with
      | none => !(network.matching entry.rule).isEmpty
      | some assertion =>
          assertion.operator.holdsForCount (network.matching entry.rule).length
            assertion.value

/-- The flat reading of a rule set. -/
def RuleSet.outcome (ruleSet : RuleSet) (network : Network) : Bool :=
  ruleSet.join.combine (ruleSet.entries.map fun entry => entry.outcome network)

theorem RuleEntry.passes_ofNetwork (entry : RuleEntry) (network : Network) :
    entry.passes (.ofNetwork network) network.nodes =
      match entry.count with
      | none => !(network.matching entry.rule).isEmpty
      | some assertion =>
          assertion.operator.holdsForCount (network.matching entry.rule).length
            assertion.value := by
  cases count : entry.count with
  | none =>
      rw [Bool.eq_iff_iff]
      simp [RuleEntry.passes, count, Network.matching]
  | some assertion =>
      simp [RuleEntry.passes, count, Network.matching, List.countP_eq_length_filter]

theorem RuleEntry.passes_congr_ego {entry : RuleEntry} (notEdge : entry.rule.domain ≠ .edge)
    {left right : Surroundings} (sameEgo : left.ego = right.ego) (nodes : List Node) :
    entry.passes left nodes = entry.passes right nodes := by
  have sameTest : entry.rule.matchesNode left = entry.rule.matchesNode right :=
    funext (Rule.matchesNode_congr_ego notEdge sameEgo)
  rw [RuleEntry.passes, RuleEntry.passes, sameTest]

/-! ## Groups -/

namespace RuleGroup

structure Uniform (group : RuleGroup) : Prop where
  nonempty : group.entries ≠ []
  domain : ∀ entry ∈ group.entries, entry.rule.domain = group.domain

theorem uniform_add (entry : RuleEntry) {groups : List RuleGroup}
    (uniform : ∀ group ∈ groups, group.Uniform) :
    ∀ group ∈ add entry groups, group.Uniform := by
  induction groups with
  | nil =>
      intro group member
      rw [add, List.mem_singleton] at member
      subst member
      exact ⟨List.cons_ne_nil entry [], by simp⟩
  | cons first rest induction =>
      have uniformFirst := uniform first List.mem_cons_self
      have uniformRest : ∀ group ∈ rest, group.Uniform :=
        fun group member => uniform group (List.mem_cons_of_mem first member)
      intro group member
      rw [add] at member
      split at member
      · next same =>
          rcases List.mem_cons.mp member with equal | later
          · subst equal
            refine ⟨by simp, ?_⟩
            intro other inside
            rcases List.mem_append.mp inside with before | new
            · exact uniformFirst.domain other before
            · rw [List.mem_singleton.mp new]
              exact same.symm
          · exact uniformRest group later
      · rcases List.mem_cons.mp member with equal | later
        · exact equal ▸ uniformFirst
        · exact induction uniformRest group later

theorem flatMap_entries_add_perm (entry : RuleEntry) (groups : List RuleGroup) :
    ((add entry groups).flatMap (·.entries)).Perm
      (entry :: groups.flatMap (·.entries)) := by
  induction groups with
  | nil => exact List.Perm.refl _
  | cons first rest induction =>
      rw [add]
      split
      · -- The entry goes between the entries of its group and the later groups.
        rw [List.flatMap_cons, List.flatMap_cons, List.append_assoc, List.singleton_append]
        exact List.perm_middle
      · rw [List.flatMap_cons, List.flatMap_cons]
        exact (induction.append_left first.entries).trans List.perm_middle

theorem outcome_of_uniform {group : RuleGroup} (uniform : group.Uniform) (join : Join)
    {surroundings : Surroundings} {network : Network}
    (sameEgo : surroundings.ego = network.ego)
    (indexed : group.domain = .edge → surroundings = .ofNetwork network) :
    group.outcome join surroundings network.nodes =
      join.combine (group.entries.map fun entry => entry.outcome network) := by
  cases domain : group.domain with
  | ego =>
      simp only [outcome, domain, sameEgo]
      congr 1
      apply List.map_congr_left
      intro entry member
      simp only [RuleEntry.outcome, uniform.domain entry member, domain]
  | alter =>
      simp only [outcome, domain]
      congr 1
      apply List.map_congr_left
      intro entry member
      have isAlter : entry.rule.domain = .alter := (uniform.domain entry member).trans domain
      have notEdge : entry.rule.domain ≠ .edge := by simp [isAlter]
      have wholeEgo : surroundings.ego = (Surroundings.ofNetwork network).ego := sameEgo
      rw [RuleEntry.passes_congr_ego notEdge wholeEgo, RuleEntry.passes_ofNetwork]
      simp only [RuleEntry.outcome, isAlter]
  | edge =>
      simp only [outcome, domain, indexed domain]
      congr 1
      apply List.map_congr_left
      intro entry member
      rw [RuleEntry.passes_ofNetwork]
      simp only [RuleEntry.outcome, uniform.domain entry member, domain]
  | unrecognized =>
      have fails : ∀ entry ∈ group.entries, entry.outcome network = false := by
        intro entry member
        simp only [RuleEntry.outcome, uniform.domain entry member, domain]
      simp only [outcome, domain]
      exact (join.combine_of_all_false uniform.nonempty fails).symm

end RuleGroup

/-! ## Queries -/

namespace Query

theorem uniform_groups (ruleSet : RuleSet) :
    ∀ group ∈ (ofRuleSet ruleSet).groups, group.Uniform := by
  suffices run : ∀ (entries : List RuleEntry) (groups : List RuleGroup),
      (∀ group ∈ groups, group.Uniform) →
        ∀ group ∈ entries.foldl (fun groups entry => RuleGroup.add entry groups) groups,
          group.Uniform from
    run ruleSet.entries [] (by simp)
  intro entries
  induction entries with
  | nil => exact fun _ uniform => uniform
  | cons entry entries induction =>
      exact fun _ uniform => induction _ (RuleGroup.uniform_add entry uniform)

theorem flatMap_entries_perm (ruleSet : RuleSet) :
    ((ofRuleSet ruleSet).groups.flatMap (·.entries)).Perm ruleSet.entries := by
  suffices run : ∀ (entries : List RuleEntry) (groups : List RuleGroup),
      ((entries.foldl (fun groups entry => RuleGroup.add entry groups) groups).flatMap
        (·.entries)).Perm (entries ++ groups.flatMap (·.entries)) by
    simpa [ofRuleSet] using run ruleSet.entries []
  intro entries
  induction entries with
  | nil => exact fun groups => List.Perm.refl _
  | cons entry entries induction =>
      intro groups
      rw [List.foldl_cons, List.cons_append]
      have step := (RuleGroup.flatMap_entries_add_perm entry groups).append_left entries
      exact ((induction _).trans step).trans List.perm_middle

theorem surroundings_ego (query : Query) (network : Network) :
    (query.surroundings network).ego = network.ego := by
  rw [surroundings]
  split <;> rfl

theorem surroundings_of_edge {query : Query} {group : RuleGroup} (member : group ∈ query.groups)
    (isEdge : group.domain = .edge) (network : Network) :
    query.surroundings network = .ofNetwork network := by
  have looksAtEdges : query.groups.any (fun group => group.domain == .edge) = true :=
    List.any_eq_true.mpr ⟨group, member, by simp [isEdge]⟩
  rw [surroundings, if_pos looksAtEdges]

theorem evaluate_ofRuleSet (ruleSet : RuleSet) (network : Network) :
    (ofRuleSet ruleSet).evaluate network = ruleSet.outcome network := by
  have groupOutcome : ∀ group ∈ (ofRuleSet ruleSet).groups,
      group.outcome ruleSet.join ((ofRuleSet ruleSet).surroundings network) network.nodes =
        ruleSet.join.combine (group.entries.map fun entry => entry.outcome network) := by
    intro group member
    exact RuleGroup.outcome_of_uniform (uniform_groups ruleSet group member) ruleSet.join
      (surroundings_ego _ network) fun isEdge => surroundings_of_edge member isEdge network
  calc (ofRuleSet ruleSet).evaluate network
      = ruleSet.join.combine ((ofRuleSet ruleSet).groups.map fun group =>
          ruleSet.join.combine (group.entries.map fun entry => entry.outcome network)) :=
        congrArg ruleSet.join.combine (List.map_congr_left groupOutcome)
    _ = ruleSet.join.combine (((ofRuleSet ruleSet).groups.flatMap (·.entries)).map
          fun entry => entry.outcome network) :=
        ruleSet.join.combine_flatMap _ _ _
    _ = ruleSet.outcome network :=
        ruleSet.join.combine_congr_mem _ fun _ => (flatMap_entries_perm ruleSet).mem_iff

/-- The answer of a query is the flat reading of its rule set, whatever the groups.
Rule sets with the same join and the same entries, in any order and any number of
times, have the same answer. -/
theorem evaluate_is_flat_outcome (ruleSet : RuleSet) (network : Network) :
    (ofRuleSet ruleSet).evaluate network = ruleSet.outcome network ∧
      ∀ entries : List RuleEntry, (∀ entry, entry ∈ entries ↔ entry ∈ ruleSet.entries) →
        (ofRuleSet ⟨ruleSet.join, entries⟩).evaluate network =
          (ofRuleSet ruleSet).evaluate network := by
  refine ⟨evaluate_ofRuleSet ruleSet network, ?_⟩
  intro entries sameEntries
  rw [evaluate_ofRuleSet, evaluate_ofRuleSet]
  exact ruleSet.join.combine_congr_mem _ sameEntries

theorem evaluate_is_flat_outcome_tangled :
    let entries := (RuleSet.mixed .and).entries.reverse ++ (RuleSet.mixed .and).entries
    (∀ entry, entry ∈ entries ↔ entry ∈ (RuleSet.mixed .and).entries) ∧
      (ofRuleSet ⟨.and, entries⟩).evaluate .tangled =
        (ofRuleSet (.mixed .and)).evaluate .tangled ∧
      (ofRuleSet ⟨.and, entries⟩).groups.map (·.domain) ≠
        (ofRuleSet (.mixed .and)).groups.map (·.domain) := by
  intro entries
  have sameEntries : ∀ entry, entry ∈ entries ↔ entry ∈ (RuleSet.mixed .and).entries := by
    simp [entries]
  exact ⟨sameEntries,
    (evaluate_is_flat_outcome (.mixed .and) .tangled).2 entries sameEntries, by decide⟩

end Query

end Sociogram
