import Sociogram.Proofs.Filter.Agreement
import Sociogram.Proofs.Filter.Induced

/-!
Rules in another order, or more often than once. Where every rule sees the whole network
this changes nothing. Stages see what the stages before them have left, but only edge rules
look at edges, so that the other rules may be rearranged between one edge rule and the next.
-/

namespace Sociogram

/-! ## The same rules -/

theorem eq_nil_iff_of_sameRules {rules others : List Rule}
    (sameRules : ∀ rule, rule ∈ others ↔ rule ∈ rules) : others = [] ↔ rules = [] := by
  simp only [List.eq_nil_iff_forall_not_mem, sameRules]

theorem Join.passes_congr_rules (join : Join) {rules others : List Rule}
    (sameRules : ∀ rule, rule ∈ others ↔ rule ∈ rules) :
    join.passes others = join.passes rules := by
  funext surroundings node
  exact join.combine_congr_mem _ sameRules

namespace Filter

theorem firstOfEach_congr_ids {ids others : NodeIds} {nodes : List Node}
    (sameIds : ∀ node ∈ nodes, ids.contains node.id = others.contains node.id) (seen : NodeIds) :
    firstOfEach ids seen nodes = firstOfEach others seen nodes := by
  induction nodes generalizing seen with
  | nil => rfl
  | cons first rest induction =>
      rcases List.forall_mem_cons.mp sameIds with ⟨sameFirst, sameRest⟩
      rw [firstOfEach, firstOfEach, sameFirst, induction sameRest, induction sameRest]

end Filter

namespace RuleSet

theorem filtered_congr_passes {ruleSet other : RuleSet} (disjunctive : ruleSet.join = .or)
    (otherDisjunctive : other.join = .or) {network : Network}
    (samePass : ∀ node ∈ network.nodes,
      other.passes (.ofNetwork network) node = ruleSet.passes (.ofNetwork network) node)
    (strategy : Strategy) :
    other.filtered strategy network = ruleSet.filtered strategy network := by
  have samePassing : network.nodes.filter (other.passes (.ofNetwork network)) =
      network.nodes.filter (ruleSet.passes (.ofNetwork network)) := List.filter_congr samePass
  cases strategy with
  | singlePass =>
      rw [filtered, filtered, SinglePassFilter.apply_ofRuleSet_of_or otherDisjunctive,
        SinglePassFilter.apply_ofRuleSet_of_or disjunctive, samePassing]
  | standard =>
      have sameIds : ∀ node ∈ network.nodes,
          (Filter.matchedIds other.rules network).contains node.id =
            (Filter.matchedIds ruleSet.rules network).contains node.id := by
        intro node _
        rw [Bool.eq_iff_iff, Filter.contains_matchedIds_iff_passes otherDisjunctive,
          Filter.contains_matchedIds_iff_passes disjunctive, samePassing]
      rw [filtered, filtered, Filter.apply_ofRuleSet_of_or otherDisjunctive,
        Filter.apply_ofRuleSet_of_or disjunctive, Filter.firstOfEach_congr_ids sameIds]

section

variable {ruleSet other : RuleSet} (sameJoin : other.join = ruleSet.join)
  (sameRules : ∀ rule, rule ∈ other.rules ↔ rule ∈ ruleSet.rules)

include sameJoin sameRules

theorem passes_congr_rules : other.passes = ruleSet.passes := by
  rw [passes, passes, sameJoin]
  exact ruleSet.join.passes_congr_rules sameRules

theorem filtered_singlePass_congr_rules (network : Network) :
    other.filtered .singlePass network = ruleSet.filtered .singlePass network := by
  have samePass := passes_congr_rules sameJoin sameRules
  cases join : ruleSet.join with
  | or => exact filtered_congr_passes join (sameJoin.trans join) (fun _ _ => by rw [samePass]) _
  | and =>
      have sameVacuity := eq_nil_iff_of_sameRules sameRules
      by_cases vacuous : ruleSet.rules = []
      · rw [filtered_of_and_nil join vacuous,
          filtered_of_and_nil (sameJoin.trans join) (sameVacuity.mpr vacuous)]
      · rw [filtered, filtered, SinglePassFilter.apply_ofRuleSet ruleSet vacuous,
          SinglePassFilter.apply_ofRuleSet other (mt sameVacuity.mp vacuous), samePass]

end

end RuleSet

/-! ## Runs between edge rules -/

/-- Rules of which none looks at edges, and the same rules in any order and any number of
times. -/
structure SameRun (run otherRun : List Rule) : Prop where
  noEdgeRule : ∀ rule ∈ run, rule.domain ≠ .edge
  sameRules : ∀ rule, rule ∈ otherRun ↔ rule ∈ run

/-- The same edge rules in the same order. Before the first of them, from each to the next
and after the last there is the same run of other rules. -/
inductive SameRuns : List Rule → List Rule → Prop
  | run {run otherRun : List Rule} (same : SameRun run otherRun) : SameRuns run otherRun
  | edge {run otherRun rest otherRest : List Rule} (same : SameRun run otherRun)
      (edgeRule : EdgeRule) (later : SameRuns rest otherRest) :
      SameRuns (run ++ .edge edgeRule :: rest) (otherRun ++ .edge edgeRule :: otherRest)

namespace Filter

theorem foldl_narrow_run {rules : List Rule} (nonempty : rules ≠ [])
    (noEdgeRule : ∀ rule ∈ rules, rule.domain ≠ .edge) (network : Network) :
    rules.foldl narrow network =
      network.restrict (network.nodes.filter (Join.and.passes rules (.ofNetwork network))) := by
  cases rules with
  | nil => exact absurd rfl nonempty
  | cons first rest =>
      exact foldl_narrow_cons (fun rule member => noEdgeRule rule (List.mem_cons_of_mem _ member))
        network

theorem foldl_narrow_of_sameRun {run otherRun : List Rule} (same : SameRun run otherRun)
    (network : Network) : otherRun.foldl narrow network = run.foldl narrow network := by
  have sameVacuity := eq_nil_iff_of_sameRules same.sameRules
  by_cases vacuous : run = []
  · rw [vacuous, sameVacuity.mpr vacuous]
  · have noEdgeRuleEither : ∀ rule ∈ otherRun, rule.domain ≠ .edge := fun rule member =>
      same.noEdgeRule rule ((same.sameRules rule).mp member)
    rw [foldl_narrow_run vacuous same.noEdgeRule,
      foldl_narrow_run (mt sameVacuity.mp vacuous) noEdgeRuleEither,
      Join.and.passes_congr_rules same.sameRules]

theorem foldl_narrow_of_sameRuns {rules others : List Rule} (same : SameRuns rules others)
    (network : Network) : others.foldl narrow network = rules.foldl narrow network := by
  induction same generalizing network with
  | run same => exact foldl_narrow_of_sameRun same network
  | edge same edgeRule _ induction =>
      rw [List.foldl_append, List.foldl_append, foldl_narrow_of_sameRun same, List.foldl_cons,
        List.foldl_cons, induction]

end Filter

/-! ## Main statement -/

namespace RuleSet

/-- The same rules in any order and any number of times filter alike under `or`, and in a
single pass under `and`. In stages it is enough that this holds between the edge rules, which
come in the same order. -/
theorem reordered_rules_filter_alike (ruleSet other : RuleSet)
    (sameJoin : other.join = ruleSet.join) (network : Network) :
    ((∀ rule, rule ∈ other.rules ↔ rule ∈ ruleSet.rules) →
        ∀ strategy, ruleSet.join = .or ∨ strategy = .singlePass →
          other.filtered strategy network = ruleSet.filtered strategy network) ∧
      (ruleSet.join = .and → SameRuns ruleSet.rules other.rules →
        other.filtered .standard network = ruleSet.filtered .standard network) := by
  constructor
  · rintro sameRules strategy (disjunctive | singlePass)
    · have samePass := passes_congr_rules sameJoin sameRules
      exact filtered_congr_passes disjunctive (sameJoin.trans disjunctive)
        (fun _ _ => by rw [samePass]) strategy
    · rw [singlePass]
      exact filtered_singlePass_congr_rules sameJoin sameRules network
  · intro conjunctive sameRuns
    rw [filtered, filtered, Filter.apply_ofRuleSet_of_and (sameJoin.trans conjunctive),
      Filter.apply_ofRuleSet_of_and conjunctive]
    exact Filter.foldl_narrow_of_sameRuns sameRuns network

theorem reordered_rules_filter_alike_tangled :
    let again := fun join => RuleSet.mk join ((mixed join).entries.reverse ++ (mixed join).entries)
    let people : Rule := .alter (.ofType "person" .exists)
    let noPlace : Rule := .alter (.ofType "place" .notExists)
    let nameless : Rule := .ego ⟨"name", some .notExists, .null⟩
    let knowing : EdgeRule := ⟨"knows", .exists⟩
    let staged := fun rules : List Rule => RuleSet.mk .and (rules.map (⟨·, none⟩))
    let plain := staged [people, noPlace, .edge knowing, people, nameless]
    let rearranged :=
      staged [noPlace, people, noPlace, .edge knowing, nameless, people, nameless]
    (∀ join rule, rule ∈ (again join).rules ↔ rule ∈ (mixed join).rules) ∧
      (∀ strategy, (again .or).filtered strategy .tangled =
        (mixed .or).filtered strategy .tangled) ∧
      (again .and).filtered .singlePass .tangled = (mixed .and).filtered .singlePass .tangled ∧
      SameRuns plain.rules rearranged.rules ∧
      rearranged.filtered .standard .tangled = plain.filtered .standard .tangled ∧
      (plain.filtered .standard .tangled).nodes.map (·.id.text) = ["a"] := by
  intro again people noPlace nameless knowing staged plain rearranged
  have sameRules : ∀ join rule, rule ∈ (again join).rules ↔ rule ∈ (mixed join).rules := by
    simp [again, rules]
  have before : SameRun [people, noPlace] [noPlace, people, noPlace] :=
    ⟨by simp [people, noPlace, Rule.domain], by simp [or_comm]⟩
  have after : SameRun [people, nameless] [nameless, people, nameless] :=
    ⟨by simp [people, nameless, Rule.domain], by simp [or_comm]⟩
  have sameRuns : SameRuns plain.rules rearranged.rules := .edge before knowing (.run after)
  have underOr := (reordered_rules_filter_alike (mixed .or) (again .or) rfl .tangled).1
    (sameRules .or)
  have underAnd := (reordered_rules_filter_alike (mixed .and) (again .and) rfl .tangled).1
    (sameRules .and)
  have inStages := (reordered_rules_filter_alike plain rearranged rfl .tangled).2 rfl sameRuns
  exact ⟨sameRules, fun strategy => underOr strategy (.inl rfl), underAnd .singlePass (.inr rfl),
    sameRuns, inStages, by decide +kernel⟩

/-- An edge rule may neither change places with another rule nor be repeated: after the first
stage the edge that names an absent node has gone. -/
example :
    let people : RuleEntry := ⟨.alter (.ofType "person" .exists), none⟩
    let liking : RuleEntry := ⟨.edge ⟨"likes", .exists⟩, none⟩
    let left := fun entries => ((RuleSet.mk .and entries).filtered .standard .tangled).nodes
    (left [liking, people]).map (·.id.text) = ["b"] ∧
      (left [people, liking]).map (·.id.text) = [] ∧
      (left [liking, liking, people]).map (·.id.text) = [] := by
  decide +kernel

end RuleSet

end Sociogram
