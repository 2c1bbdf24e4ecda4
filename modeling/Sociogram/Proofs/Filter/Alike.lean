import Sociogram.Proofs.Filter.Correspondence
import Sociogram.Proofs.Rule.Alike

/-!
What results depend on. Of the attributes only those matter that rules name, and of their
values only what they are exactly equal to. Between two networks that agree in this, and
between rules whose values do, neither filters nor queries see a difference.
-/

namespace Sociogram

/-! ## Networks with equal values -/

/-- The same identifier and type, and values that are alike wherever an alter rule looks. A
missing attribute counts as null. -/
structure Node.AlikeFor (rules : List Rule) (node other : Node) : Prop where
  id : node.id = other.id
  nodeType : node.nodeType = other.nodeType
  attributes : ∀ alterRule, Rule.alter alterRule ∈ rules →
    ∀ name, alterRule.testedAttribute? = some name →
      (node.attributes.get name).Alike (other.attributes.get name)

structure Node.AlikeAsEgoFor (rules : List Rule) (ego other : Node) : Prop where
  id : ego.id = other.id
  attributes : ∀ egoRule, Rule.ego egoRule ∈ rules →
    (ego.attributes.get egoRule.attributeName).Alike
      (other.attributes.get egoRule.attributeName)

structure Network.AlikeFor (rules : List Rule) (network other : Network) : Prop where
  nodes : List.Forall₂ (Node.AlikeFor rules) network.nodes other.nodes
  edges : network.edges = other.edges
  ego : Option.Rel (Node.AlikeAsEgoFor rules) network.ego other.ego

namespace Network

variable {rules : List Rule} {left right : Network}

theorem AlikeFor.of_mem_zip (alike : left.AlikeFor rules right) :
    ∀ pair ∈ left.nodes.zip right.nodes, pair.1.AlikeFor rules pair.2 :=
  fun _ member => (List.forall₂_iff_zip.mp alike.nodes).2 member

theorem AlikeFor.restrict (alike : left.AlikeFor rules right) {kept : List (Node × Node)}
    (sublist : kept.Sublist (left.nodes.zip right.nodes)) :
    (left.restrict (kept.map Prod.fst)).AlikeFor rules (right.restrict (kept.map Prod.snd)) := by
  have pairs : ∀ pair ∈ kept, pair.1.AlikeFor rules pair.2 := fun pair member =>
    alike.of_mem_zip pair (sublist.subset member)
  have sameIds : (kept.map Prod.fst).map (·.id) = (kept.map Prod.snd).map (·.id) := by
    rw [List.map_map, List.map_map]
    exact List.map_congr_left fun pair member => (pairs pair member).id
  refine ⟨?_, ?_, alike.ego⟩
  · rw [restrict_nodes, restrict_nodes, List.forall₂_map_left_iff, List.forall₂_map_right_iff,
      List.forall₂_same]
    exact pairs
  · rw [restrict_edges, restrict_edges, alike.edges]
    apply List.filter_congr
    intro edge _
    exact decide_eq_decide.mpr (edge.joins_congr fun id => by rw [sameIds])

theorem correspondence_alikeFor (rules : List Rule) :
    Correspondence fun left right => left.AlikeFor rules right where
  length := fun alike => alike.nodes.length_eq
  sameIds := by
    intro left right alike pair member other otherMember
    rw [(alike.of_mem_zip pair member).id, (alike.of_mem_zip other otherMember).id]
  restrict := fun alike => alike.restrict

end Network

/-! ## Verdicts of rules -/

namespace Rule

variable {rules : List Rule}

theorem sameVerdicts_of_alike_alter {rule : AlterRule} {value : AttributeValue}
    (values : rule.value.Alike value) (member : Rule.alter rule ∈ rules) :
    SameVerdicts (fun left right => left.AlikeFor rules right) (.alter rule)
      (.alter { rule with value }) where
  domain := rfl
  ego := fun _ => rfl
  node := by
    intro left right alike pair pairMember
    have nodes := alike.of_mem_zip pair pairMember
    have sameName : AlterRule.testedAttribute? { rule with value } = rule.testedAttribute? := rfl
    simp only [matchesNode, AlterRule.matchesNode, nodes.nodeType, sameName]
    cases tested : rule.testedAttribute? with
    | none => rfl
    | some name =>
        simp only [Operator.holdsOptional_of_alike rule.operator
          (nodes.attributes rule member name tested) values]

theorem matchesEgo_of_alike {rule : EgoRule} {value : AttributeValue}
    (values : rule.value.Alike value) (member : Rule.ego rule ∈ rules) {ego other : Option Node}
    (egos : Option.Rel (Node.AlikeAsEgoFor rules) ego other) :
    (Rule.ego rule).matchesEgo ego = (Rule.ego { rule with value }).matchesEgo other := by
  cases egos with
  | none => rfl
  | some nodes =>
      exact Operator.holdsOptional_of_alike rule.operator (nodes.attributes rule member) values

theorem namesEgo_of_alike {node otherNode : Node} (sameId : node.id = otherNode.id)
    {ego other : Option Node} (egos : Option.Rel (Node.AlikeAsEgoFor rules) ego other) :
    node.namesEgo ego = otherNode.namesEgo other := by
  cases egos with
  | none => rfl
  | some nodes => simp only [Node.namesEgo, Option.any_some, nodes.id, sameId]

theorem sameVerdicts_of_alike_ego {rule : EgoRule} {value : AttributeValue}
    (values : rule.value.Alike value) (member : Rule.ego rule ∈ rules) :
    SameVerdicts (fun left right => left.AlikeFor rules right) (.ego rule)
      (.ego { rule with value }) where
  domain := rfl
  ego := fun alike => matchesEgo_of_alike values member alike.ego
  node := by
    intro left right alike pair pairMember
    have sameId := (alike.of_mem_zip pair pairMember).id
    rw [matchesNode_of_domain_ego rfl, matchesNode_of_domain_ego rfl]
    exact congrArg₂ and (matchesEgo_of_alike values member alike.ego)
      (namesEgo_of_alike sameId alike.ego)

theorem sameVerdicts_edge (rule : EdgeRule) :
    SameVerdicts (fun left right => left.AlikeFor rules right) (.edge rule) (.edge rule) where
  domain := rfl
  ego := fun _ => rfl
  node := by
    intro left right alike pair pairMember
    have sameId := (alike.of_mem_zip pair pairMember).id
    simp only [matchesNode, EdgeRule.matchesNode, Surroundings.ofNetwork, alike.edges, sameId]

theorem Alike.sameVerdicts {rule other : Rule} (alike : rule.Alike other)
    (member : rule ∈ rules) :
    SameVerdicts (fun left right => left.AlikeFor rules right) rule other := by
  cases alike with
  | alter values => exact sameVerdicts_of_alike_alter values member
  | edge rule => exact sameVerdicts_edge rule
  | ego values => exact sameVerdicts_of_alike_ego values member
  | unrecognized domain options => exact ⟨rfl, fun _ _ _ => rfl, fun _ => rfl⟩

end Rule

theorem RuleSet.Alike.sameVerdicts {ruleSet other : RuleSet} (alike : ruleSet.Alike other) :
    SameVerdicts (fun left right => left.AlikeFor ruleSet.rules right) ruleSet other where
  join := alike.join
  entries := by
    have members : ∀ entry ∈ ruleSet.entries, entry.rule ∈ ruleSet.rules :=
      fun _ member => List.mem_map_of_mem member
    have each := (List.forall₂_and_left _ _).mpr ⟨members, alike.entries⟩
    exact each.imp fun _ _ entries => ⟨entries.2.rule.sameVerdicts entries.1, entries.2.count⟩

/-! ## Main statement -/

/-- Operators answer alike for values that are alike, on both sides. So do rules: if two
networks differ only in attributes that no rule names, or in values that are exactly
equal, and if the values in the rules are exchanged for exactly equal ones, then either filter
keeps nodes at the same positions and the same edges, and the query has the same answer. -/
theorem results_depend_on_values_up_to_equality :
    (∀ (operator : Operator) (value sameValue other sameOther : AttributeValue),
        value.Alike sameValue → other.Alike sameOther →
          operator.holds value other = operator.holds sameValue sameOther) ∧
      ∀ (ruleSet sameRuleSet : RuleSet) (left right : Network),
        ruleSet.Alike sameRuleSet → left.AlikeFor ruleSet.rules right →
          (∀ strategy,
            let leftResult := ruleSet.filtered strategy left
            let rightResult := sameRuleSet.filtered strategy right
            Network.SamePositions left right leftResult rightResult ∧
              leftResult.edges = rightResult.edges) ∧
            (Query.ofRuleSet ruleSet).evaluate left =
              (Query.ofRuleSet sameRuleSet).evaluate right := by
  refine ⟨fun operator _ _ _ _ => operator.holds_of_alike, ?_⟩
  intro ruleSet sameRuleSet left right sameRules alike
  have correspondence := Network.correspondence_alikeFor ruleSet.rules
  constructor
  · intro strategy
    have cut := RuleSet.cutAlike_filtered sameRules.sameVerdicts correspondence alike strategy
    exact ⟨cut.positions, cut.related.edges⟩
  · exact Query.evaluate_of_sameVerdicts correspondence alike sameRules.sameVerdicts

def Network.measuredPair (height unknown score : AttributeValue) : Network where
  nodes :=
    [⟨⟨"a"⟩, "person", .ofList [("height", height)]⟩,
      ⟨⟨"b"⟩, "person", .ofList [("height", unknown), ("shade", height)]⟩]
  edges := [⟨⟨"a"⟩, ⟨"b"⟩, "knows", .empty⟩]
  ego := some ⟨⟨"a"⟩, "person", .ofList [("scores", .array [score, .text "x"])]⟩

def RuleSet.tallerThan (height score : AttributeValue) : RuleSet where
  join := .and
  entries :=
    [⟨.edge ⟨"knows", .exists⟩, none⟩,
      ⟨.alter (.ofAttribute "person" "height" .greaterThan height), none⟩,
      ⟨.ego (.ofAttribute "scores" .includes score), none⟩]

theorem RuleSet.alike_tallerThan {height sameHeight score sameScore : AttributeValue}
    (heights : height.Alike sameHeight) (scores : score.Alike sameScore) :
    (tallerThan height score).Alike (tallerThan sameHeight sameScore) :=
  ⟨rfl, .cons ⟨.edge _, rfl⟩ (.cons ⟨.alter heights, rfl⟩ (.cons ⟨.ego scores, rfl⟩ .nil))⟩

/-- The same measures as integers and as floating-point numbers, a negative zero among them.
The NaN is only like itself, and the shade, which is another one, does not matter. -/
theorem results_depend_on_values_up_to_equality_measuredPair :
    let left := Network.measuredPair (.integer 180) (.float .nan) (.integer 0)
    let right := Network.measuredPair (.float (.ofInt 180)) (.float .nan) (.float (.zero true))
    let rules := RuleSet.tallerThan (.integer 170) (.integer 0)
    let sameRules := RuleSet.tallerThan (.float (.ofInt 170)) (.float (.zero true))
    rules.Alike sameRules ∧ left.AlikeFor rules.rules right ∧
      (∀ strategy,
        Network.SamePositions left right (rules.filtered strategy left)
            (sameRules.filtered strategy right) ∧
          (rules.filtered strategy left).edges = (sameRules.filtered strategy right).edges) ∧
      (rules.filtered .standard left).nodes.map (·.id.text) = ["a"] ∧
      (Query.ofRuleSet rules).evaluate left = (Query.ofRuleSet sameRules).evaluate right ∧
      (Query.ofRuleSet rules).evaluate left = true := by
  intro left right rules sameRules
  have sameRulesAlike : rules.Alike sameRules :=
    RuleSet.alike_tallerThan (.inr (by decide +kernel)) (.inr (by decide +kernel))
  have namesHeight : ∀ alterRule, Rule.alter alterRule ∈ rules.rules →
      ∀ name, alterRule.testedAttribute? = some name → "height" = name := by
    intro alterRule member name tested
    have sameRule : alterRule = .ofAttribute "person" "height" .greaterThan (.integer 170) := by
      simpa [rules, RuleSet.tallerThan, RuleSet.rules] using member
    rw [sameRule] at tested
    exact Option.some.inj tested
  have namesScores : ∀ egoRule, Rule.ego egoRule ∈ rules.rules →
      "scores" = egoRule.attributeName := by
    intro egoRule member
    have sameRule : egoRule = .ofAttribute "scores" .includes (.integer 0) := by
      simpa [rules, RuleSet.tallerThan, RuleSet.rules] using member
    rw [sameRule]
    rfl
  have alike : left.AlikeFor rules.rules right := by
    refine ⟨.cons ⟨rfl, rfl, ?_⟩ (.cons ⟨rfl, rfl, ?_⟩ .nil), rfl, .some ⟨rfl, ?_⟩⟩
    · intro alterRule member name tested
      rw [← namesHeight alterRule member name tested]
      exact .inr (by decide +kernel)
    · intro alterRule member name tested
      rw [← namesHeight alterRule member name tested]
      exact .inl rfl
    · intro egoRule member
      rw [← namesScores egoRule member]
      exact .inr (by decide +kernel)
  have same := results_depend_on_values_up_to_equality.2 rules sameRules left right sameRulesAlike
    alike
  exact ⟨sameRulesAlike, alike, same.1, by decide +kernel, same.2, by decide +kernel⟩

end Sociogram
