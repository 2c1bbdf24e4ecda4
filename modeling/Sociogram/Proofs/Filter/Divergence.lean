import Sociogram.Proofs.Filter.Induced
import Sociogram.Proofs.Rule.Polarity

/-!
How far the two ways of filtering may differ under `and`. After the first rule a stage
sees fewer edges than the single pass does, so where edge rules ask for edges the
standard filter keeps less, and where they ask for the absence of edges it keeps more.
-/

namespace Sociogram

namespace Filter

theorem narrow_partOf (network : Network) (rule : Rule) :
    (narrow network rule).PartOf network :=
  (narrow_inducedIn network rule).partOf

theorem foldl_narrow_partOf (rules : List Rule) (network : Network) :
    (rules.foldl narrow network).PartOf network := by
  induction rules generalizing network with
  | nil => exact .refl network
  | cons rule rules induction => exact (induction _).trans (narrow_partOf network rule)

/-! ## Positive rules -/

theorem matchesNode_of_mem_foldl_narrow {rules : List Rule}
    (positive : ∀ rule ∈ rules, rule.Positive) {part whole : Network}
    (partOf : part.PartOf whole) {node : Node} (left : node ∈ (rules.foldl narrow part).nodes) :
    ∀ rule ∈ rules, rule.matchesNode (.ofNetwork whole) node = true := by
  induction rules generalizing part with
  | nil => simp
  | cons first rest induction =>
      rw [List.foldl_cons] at left
      have stage := narrow_partOf part first
      have later := induction (fun rule member => positive rule (List.mem_cons_of_mem first member))
        (stage.trans partOf) left
      have kept : node ∈ (narrow part first).nodes :=
        (foldl_narrow_partOf rest _).nodes.subset left
      have now := (positive first List.mem_cons_self).matchesNode_of_part partOf
        (List.mem_filter.mp kept).2
      exact List.forall_mem_cons.mpr ⟨now, later⟩

/-! ## Parts that stay -/

theorem partOf_narrow {part network : Network} (partOf : part.PartOf network)
    (wellFormed : part.isWellFormed = true) {rule : Rule}
    (matched : ∀ node ∈ part.nodes, rule.matchesNode (.ofNetwork network) node = true) :
    part.PartOf (narrow network rule) := by
  apply partOf.restrict wellFormed
  have stays := partOf.nodes.filter (rule.matchesNode (.ofNetwork network))
  rwa [List.filter_eq_self.mpr matched] at stays

/-- A well-formed part whose nodes match negative rules in the whole network stays in
all stages: no stage shows an edge that the network does not have. -/
theorem partOf_foldl_narrow_of_negative {rules : List Rule}
    (negative : ∀ rule ∈ rules, rule.Negative) {part middle whole : Network}
    (inner : part.PartOf middle) (outer : middle.PartOf whole)
    (wellFormed : part.isWellFormed = true)
    (matched : ∀ rule ∈ rules, ∀ node ∈ part.nodes,
      rule.matchesNode (.ofNetwork whole) node = true) :
    part.PartOf (rules.foldl narrow middle) := by
  induction rules generalizing middle with
  | nil => exact inner
  | cons first rest induction =>
      obtain ⟨firstNegative, restNegative⟩ := List.forall_mem_cons.mp negative
      obtain ⟨firstMatched, restMatched⟩ := List.forall_mem_cons.mp matched
      have matchedHere : ∀ node ∈ part.nodes,
          first.matchesNode (.ofNetwork middle) node = true := fun node member =>
        firstNegative.matchesNode_part outer (firstMatched node member)
      exact induction restNegative (partOf_narrow inner wellFormed matchedHere)
        ((narrow_partOf middle first).trans outer) restMatched

/-- A well-formed part whose nodes match positive rules within it stays in all stages:
every stage still shows its edges. -/
theorem partOf_foldl_narrow_of_positive {rules : List Rule}
    (positive : ∀ rule ∈ rules, rule.Positive) {part network : Network}
    (partOf : part.PartOf network) (wellFormed : part.isWellFormed = true)
    (matched : ∀ rule ∈ rules, ∀ node ∈ part.nodes,
      rule.matchesNode (.ofNetwork part) node = true) :
    part.PartOf (rules.foldl narrow network) := by
  induction rules generalizing network with
  | nil => exact partOf
  | cons first rest induction =>
      obtain ⟨firstPositive, restPositive⟩ := List.forall_mem_cons.mp positive
      obtain ⟨firstMatched, restMatched⟩ := List.forall_mem_cons.mp matched
      have matchedHere : ∀ node ∈ part.nodes,
          first.matchesNode (.ofNetwork network) node = true := fun node member =>
        firstPositive.matchesNode_of_part partOf (firstMatched node member)
      exact induction restPositive (partOf_narrow partOf wellFormed matchedHere) restMatched

end Filter

namespace RuleSet

theorem passes_of_and_iff {ruleSet : RuleSet} (conjunctive : ruleSet.join = .and)
    (surroundings : Surroundings) (node : Node) :
    ruleSet.passes surroundings node = true ↔
      ∀ rule ∈ ruleSet.rules, rule.matchesNode surroundings node = true := by
  rw [passes, Join.passes, conjunctive, Join.combine_and_eq_true]

theorem mem_singlePass_nodes {ruleSet : RuleSet} (conjunctive : ruleSet.join = .and)
    (nonempty : ruleSet.rules ≠ []) (network : Network) (node : Node) :
    node ∈ (ruleSet.filtered .singlePass network).nodes ↔
      node ∈ network.nodes ∧
        ∀ rule ∈ ruleSet.rules, rule.matchesNode (.ofNetwork network) node = true := by
  rw [filtered, SinglePassFilter.apply_ofRuleSet ruleSet nonempty, Network.restrict_nodes,
    List.mem_filter, passes_of_and_iff conjunctive]

theorem partOf_singlePass {ruleSet : RuleSet} (conjunctive : ruleSet.join = .and)
    (nonempty : ruleSet.rules ≠ []) {part network : Network} (partOf : part.PartOf network)
    (wellFormed : part.isWellFormed = true)
    (matched : ∀ node ∈ part.nodes, ∀ rule ∈ ruleSet.rules,
      rule.matchesNode (.ofNetwork network) node = true) :
    part.PartOf (ruleSet.filtered .singlePass network) := by
  rw [filtered, SinglePassFilter.apply_ofRuleSet ruleSet nonempty]
  apply partOf.restrict wellFormed
  have stays := partOf.nodes.filter (ruleSet.passes (.ofNetwork network))
  rwa [List.filter_eq_self.mpr fun node member =>
    (passes_of_and_iff conjunctive _ node).mpr (matched node member)] at stays

section

variable {ruleSet : RuleSet} (conjunctive : ruleSet.join = .and) {first : Rule}
  {rest : List Rule} (rules : ruleSet.rules = first :: rest) (network : Network)

include conjunctive rules

theorem filtered_standard_cons :
    ruleSet.filtered .standard network =
      rest.foldl Filter.narrow (Filter.narrow network first) := by
  rw [filtered, Filter.apply_ofRuleSet_of_and conjunctive, rules, List.foldl_cons]

theorem standard_partOf_singlePass (positive : ∀ rule ∈ rest, rule.Positive) :
    (ruleSet.filtered .standard network).PartOf (ruleSet.filtered .singlePass network) := by
  have nonempty : ruleSet.rules ≠ [] := by simp [rules]
  have induced : (ruleSet.filtered .standard network).InducedIn network :=
    filtered_inducedIn_of_nonempty nonempty .standard network
  apply partOf_singlePass conjunctive nonempty induced.partOf induced.isWellFormed
  intro node left
  rw [filtered_standard_cons conjunctive rules] at left
  have kept : node ∈ (Filter.narrow network first).nodes :=
    (Filter.foldl_narrow_partOf rest _).nodes.subset left
  rw [rules]
  exact List.forall_mem_cons.mpr ⟨(List.mem_filter.mp kept).2,
    Filter.matchesNode_of_mem_foldl_narrow positive (Filter.narrow_partOf network first) left⟩

theorem singlePass_partOf_standard (negative : ∀ rule ∈ rest, rule.Negative) :
    (ruleSet.filtered .singlePass network).PartOf (ruleSet.filtered .standard network) := by
  have nonempty : ruleSet.rules ≠ [] := by simp [rules]
  have induced : (ruleSet.filtered .singlePass network).InducedIn network :=
    filtered_inducedIn_of_nonempty nonempty .singlePass network
  have matched : ∀ node ∈ (ruleSet.filtered .singlePass network).nodes, ∀ rule ∈ first :: rest,
      rule.matchesNode (.ofNetwork network) node = true := fun node member =>
    rules ▸ ((mem_singlePass_nodes conjunctive nonempty network node).mp member).2
  rw [filtered_standard_cons conjunctive rules]
  refine Filter.partOf_foldl_narrow_of_negative negative ?_ (Filter.narrow_partOf network first)
    induced.isWellFormed fun rule member node kept =>
      matched node kept rule (List.mem_cons_of_mem first member)
  exact Filter.partOf_narrow induced.partOf induced.isWellFormed fun node kept =>
    matched node kept first List.mem_cons_self

end

/-- Under `and` the two ways of filtering differ in one direction only. When the edge
rules after the first rule all ask for edges, the standard filter keeps a part of what
the single pass keeps; when they all ask for the absence of edges, it is the other way
round. -/
theorem filters_differ_in_one_direction (ruleSet : RuleSet)
    (conjunctive : ruleSet.join = .and) (network : Network) :
    let standard := ruleSet.filtered .standard network
    let singlePass := ruleSet.filtered .singlePass network
    ((∀ edgeRule, Rule.edge edgeRule ∈ ruleSet.rules.tail → edgeRule.operator = .exists) →
        standard.nodes.Sublist singlePass.nodes ∧ standard.edges.Sublist singlePass.edges) ∧
      ((∀ edgeRule, Rule.edge edgeRule ∈ ruleSet.rules.tail → edgeRule.operator ≠ .exists) →
        singlePass.nodes.Sublist standard.nodes ∧ singlePass.edges.Sublist standard.edges) := by
  intro standard singlePass
  cases rules : ruleSet.rules with
  | nil =>
      have unchanged : standard = singlePass := by
        simp only [standard, singlePass, filtered_of_and_nil conjunctive rules]
      rw [unchanged]
      exact ⟨fun _ => ⟨.refl _, .refl _⟩, fun _ => ⟨.refl _, .refl _⟩⟩
  | cons first rest =>
      constructor
      · intro presence
        have part := standard_partOf_singlePass conjunctive rules network
          (Rule.positive_of_mem presence)
        exact ⟨part.nodes, part.edges⟩
      · intro absence
        have part := singlePass_partOf_standard conjunctive rules network
          (Rule.negative_of_mem absence)
        exact ⟨part.nodes, part.edges⟩

def peopleLiking (operator : Operator) : RuleSet where
  join := .and
  entries := [⟨.alter (.ofType "person" .exists), none⟩, ⟨.edge ⟨"likes", operator⟩, none⟩]

theorem filters_differ_in_one_direction_tangled :
    let standard := fun operator => (peopleLiking operator).filtered .standard .tangled
    let singlePass := fun operator => (peopleLiking operator).filtered .singlePass .tangled
    (∀ operator, (peopleLiking operator).join = .and) ∧
      (standard .exists).nodes.Sublist (singlePass .exists).nodes ∧
      (standard .exists).edges.Sublist (singlePass .exists).edges ∧
      (standard .exists).nodes.length = 0 ∧ (singlePass .exists).nodes.length = 1 ∧
      (singlePass .notExists).nodes.Sublist (standard .notExists).nodes ∧
      (singlePass .notExists).edges.Sublist (standard .notExists).edges ∧
      (singlePass .notExists).edges.length = 1 ∧ (standard .notExists).edges.length = 2 := by
  intro standard singlePass
  have presence := (filters_differ_in_one_direction (peopleLiking .exists) rfl .tangled).1
    fun edgeRule member => by simp_all [peopleLiking, rules]
  have absence := (filters_differ_in_one_direction (peopleLiking .notExists) rfl .tangled).2
    fun edgeRule member => by simp_all [peopleLiking, rules]
  exact ⟨fun _ => rfl, presence.1, presence.2, by decide +kernel, by decide +kernel,
    absence.1, absence.2, by decide +kernel, by decide +kernel⟩

end RuleSet

end Sociogram
