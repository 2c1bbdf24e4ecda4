import Sociogram.Filter.Standard
import Sociogram.Proofs.Network.Restriction
import Sociogram.Proofs.Rule.Matching

/-!
The standard filter. Under `and` the stages are a fold, although they stop early,
and every stage takes an induced part of the network before it. Under `or` the
first node of each matched identifier is kept.
-/

namespace Sociogram.Filter

/-! ## One stage -/

theorem narrow_inducedIn (network : Network) (rule : Rule) :
    (narrow network rule).InducedIn network :=
  network.inducedIn_restrict List.filter_sublist

theorem narrow_of_no_nodes {network : Network} (wellFormed : network.isWellFormed = true)
    (noNodes : network.nodes = []) (rule : Rule) : narrow network rule = network := by
  have noEdges : network.edges = [] := by
    apply List.eq_nil_iff_forall_not_mem.mpr
    intro edge member
    have joins := (Network.isWellFormed_iff network).mp wellFormed edge member
    simp [Edge.Joins, noNodes] at joins
  rw [narrow, noNodes, List.filter_nil, Network.restrict_nil, Network.emptied,
    ← noNodes, ← noEdges]

/-- A rule that does not look at edges asks the same of a node in every part of the
network. -/
theorem narrow_restrict {rule : Rule} (notEdge : rule.domain ≠ .edge) (network : Network)
    (nodes : List Node) :
    narrow (network.restrict nodes) rule =
      network.restrict (nodes.filter (rule.matchesNode (.ofNetwork network))) := by
  have sameEgo : (Surroundings.ofNetwork (network.restrict nodes)).ego =
      (Surroundings.ofNetwork network).ego := rfl
  have sameTest := funext (Rule.matchesNode_congr_ego notEdge sameEgo)
  rw [narrow, sameTest]
  exact network.restrict_restrict List.filter_sublist.subset

/-! ## All stages -/

theorem narrowAll_eq_foldl {network : Network} (wellFormed : network.isWellFormed = true)
    (rules : List Rule) : narrowAll network rules = rules.foldl narrow network := by
  -- Every stage leaves a well-formed network, and one without nodes stays as it is.
  induction rules generalizing network with
  | nil => rfl
  | cons rule rules induction =>
      rw [List.foldl_cons]
      cases noNodes : network.nodes with
      | nil =>
          rw [narrow_of_no_nodes wellFormed noNodes, ← induction wellFormed]
          cases rules with
          | nil => simp [narrowAll, noNodes]
          | cons next later => simp [narrowAll, noNodes]
      | cons node nodes =>
          rw [← induction (narrow_inducedIn network rule).isWellFormed]
          simp [narrowAll, noNodes]

theorem applyStages_eq_foldl (rules : List Rule) (network : Network) :
    applyStages rules network = rules.foldl narrow network := by
  cases rules with
  | nil => rfl
  | cons first rest =>
      exact narrowAll_eq_foldl (narrow_inducedIn network first).isWellFormed rest

theorem apply_ofRuleSet_of_and {ruleSet : RuleSet} (conjunctive : ruleSet.join = .and)
    (network : Network) :
    (ofRuleSet ruleSet).apply network = ruleSet.rules.foldl narrow network := by
  rw [← applyStages_eq_foldl]
  simp only [apply, ofRuleSet, conjunctive]

theorem foldl_narrow_inducedIn {part whole : Network} (induced : part.InducedIn whole)
    (rules : List Rule) : (rules.foldl narrow part).InducedIn whole := by
  induction rules generalizing part with
  | nil => exact induced
  | cons rule rules induction => exact induction ((narrow_inducedIn part rule).trans induced)

theorem foldl_narrow_restrict {rules : List Rule}
    (noEdgeRule : ∀ rule ∈ rules, rule.domain ≠ .edge) (network : Network)
    (nodes : List Node) :
    rules.foldl narrow (network.restrict nodes) =
      network.restrict (nodes.filter (Join.and.passes rules (.ofNetwork network))) := by
  induction rules generalizing nodes with
  | nil =>
      have all : nodes.filter (Join.and.passes [] (.ofNetwork network)) = nodes :=
        List.filter_eq_self.mpr fun _ _ => rfl
      rw [all, List.foldl_nil]
  | cons rule rules induction =>
      have noEdgeRuleLater : ∀ later ∈ rules, later.domain ≠ .edge :=
        fun later member => noEdgeRule later (List.mem_cons_of_mem rule member)
      rw [List.foldl_cons, narrow_restrict (noEdgeRule rule List.mem_cons_self),
        induction noEdgeRuleLater, Join.filter_passes_and_cons]

/-- The first stage sees the whole network, so its rule may look at edges. -/
theorem foldl_narrow_cons {first : Rule} {rest : List Rule}
    (noEdgeRule : ∀ rule ∈ rest, rule.domain ≠ .edge) (network : Network) :
    (first :: rest).foldl narrow network =
      network.restrict
        (network.nodes.filter (Join.and.passes (first :: rest) (.ofNetwork network))) := by
  rw [List.foldl_cons, narrow, foldl_narrow_restrict noEdgeRule, Join.filter_passes_and_cons]

/-- A conjunction may be cut anywhere into two filters that run one after the other,
also where one of them has no rules. Both ways every rule makes its stage, although a
filter stops once no node is left. -/
theorem stages_run_one_after_the_other (earlier later : List RuleEntry) (network : Network) :
    let joined := (ofRuleSet ⟨.and, earlier ++ later⟩).apply network
    joined = (ofRuleSet ⟨.and, later⟩).apply ((ofRuleSet ⟨.and, earlier⟩).apply network) ∧
      joined = (earlier ++ later).foldl (fun left entry => narrow left entry.rule) network := by
  intro joined
  have everyStage (entries : List RuleEntry) (start : Network) :
      (ofRuleSet ⟨.and, entries⟩).apply start =
        entries.foldl (fun left entry => narrow left entry.rule) start := by
    rw [apply_ofRuleSet_of_and rfl, RuleSet.rules, List.foldl_map]
  constructor
  · calc joined
        = (earlier ++ later).foldl (fun left entry => narrow left entry.rule) network :=
          everyStage (earlier ++ later) network
      _ = later.foldl (fun left entry => narrow left entry.rule)
            (earlier.foldl (fun left entry => narrow left entry.rule) network) :=
          List.foldl_append
      _ = (ofRuleSet ⟨.and, later⟩).apply ((ofRuleSet ⟨.and, earlier⟩).apply network) := by
          rw [everyStage, everyStage]
  · exact everyStage (earlier ++ later) network

/-! ## Union -/

theorem contains_foldl_insertMany (members : Rule → List NodeId) (rules : List Rule)
    (ids : NodeIds) (id : NodeId) :
    (rules.foldl (fun matched rule => matched.insertMany (members rule)) ids).contains id =
        true ↔
      ids.contains id = true ∨ ∃ rule ∈ rules, id ∈ members rule := by
  induction rules generalizing ids with
  | nil => simp
  | cons rule rules induction =>
      rw [List.foldl_cons, induction, Std.TreeSet.contains_insertMany_list]
      simp [or_assoc]

theorem contains_matchedIds (rules : List Rule) (network : Network) (id : NodeId) :
    (matchedIds rules network).contains id = true ↔
      ∃ rule ∈ rules, ∃ node ∈ network.nodes,
        rule.matchesNode (.ofNetwork network) node = true ∧ node.id = id := by
  rw [matchedIds, contains_foldl_insertMany]
  simp [and_assoc]

theorem firstOfEach_sublist (ids seen : NodeIds) (nodes : List Node) :
    (firstOfEach ids seen nodes).Sublist nodes := by
  induction nodes generalizing seen with
  | nil => exact List.Sublist.refl []
  | cons node nodes induction =>
      rw [firstOfEach]
      split
      · exact (induction (seen.insert node.id)).cons_cons node
      · exact (induction seen).cons node

theorem mem_ids_firstOfEach (ids seen : NodeIds) (nodes : List Node) (id : NodeId) :
    id ∈ (firstOfEach ids seen nodes).map (·.id) ↔
      id ∈ nodes.map (·.id) ∧ ids.contains id = true ∧ seen.contains id = false := by
  induction nodes generalizing seen with
  | nil => simp [firstOfEach]
  | cons node nodes induction =>
      rw [firstOfEach]
      -- A node of another identifier changes nothing about this one.
      by_cases same : node.id = id
      · subst same
        cases asked : ids.contains node.id with
        | false => simp [induction, asked]
        | true =>
            cases before : seen.contains node.id with
            | false => simp
            | true => simp [induction, before]
      · have otherwise : (seen.insert node.id).contains id = seen.contains id := by
          simp [Std.TreeSet.contains_insert, same]
        split
        · rw [List.map_cons, List.mem_cons, induction, otherwise]
          simp [Ne.symm same]
        · rw [induction]
          simp [Ne.symm same]

theorem nodup_ids_firstOfEach (ids seen : NodeIds) (nodes : List Node) :
    ((firstOfEach ids seen nodes).map (·.id)).Nodup := by
  induction nodes generalizing seen with
  | nil => exact List.Pairwise.nil
  | cons node nodes induction =>
      rw [firstOfEach]
      split
      · rw [List.map_cons, List.nodup_cons]
        refine ⟨?_, induction _⟩
        intro again
        have unseen := ((mem_ids_firstOfEach _ _ _ _).mp again).2.2
        simp at unseen
      · exact induction seen

theorem mem_firstOfEach (ids seen : NodeIds) (nodes : List Node) (node : Node) :
    node ∈ firstOfEach ids seen nodes ↔
      nodes.find? (fun other => other.id == node.id) = some node ∧
        ids.contains node.id = true ∧ seen.contains node.id = false := by
  induction nodes generalizing seen with
  | nil => simp [firstOfEach]
  | cons first rest induction =>
      rw [firstOfEach]
      by_cases same : first.id = node.id
      · -- The head is the first of its identifier, so no later node is kept for it.
        have found : (first :: rest).find? (fun other => other.id == node.id) = some first := by
          simp [same]
        rw [found, Option.some_inj]
        split
        · next kept =>
            rw [Bool.and_eq_true, Bool.not_eq_true', same] at kept
            rw [List.mem_cons, induction]
            simp [same, kept, eq_comm]
        · next dropped =>
            rw [same, Bool.and_eq_true, Bool.not_eq_true'] at dropped
            rw [induction]
            simp only [dropped, and_false]
      · have found : (first :: rest).find? (fun other => other.id == node.id) =
            rest.find? fun other => other.id == node.id := by
          simp [same]
        have different : node ≠ first := fun equal => same (congrArg Node.id equal).symm
        rw [found]
        split
        · rw [List.mem_cons, induction]
          simp [different, Std.TreeSet.contains_insert, same]
        · exact induction seen

theorem firstOfEach_eq_filter {ids seen : NodeIds} {nodes : List Node}
    (distinct : (nodes.map (·.id)).Nodup)
    (unseen : ∀ node ∈ nodes, seen.contains node.id = false) :
    firstOfEach ids seen nodes = nodes.filter fun node => ids.contains node.id := by
  induction nodes generalizing seen with
  | nil => rfl
  | cons node nodes induction =>
      rw [List.map_cons, List.nodup_cons] at distinct
      have unseenLater : ∀ later ∈ nodes, (seen.insert node.id).contains later.id = false := by
        intro later member
        have different : node.id ≠ later.id := fun equal =>
          distinct.1 (equal ▸ List.mem_map_of_mem member)
        simp [Std.TreeSet.contains_insert, different,
          unseen later (List.mem_cons_of_mem node member)]
      have now := unseen node List.mem_cons_self
      cases asked : ids.contains node.id with
      | true => simp [firstOfEach, asked, now, induction distinct.2 unseenLater]
      | false =>
          have unseenStill : ∀ later ∈ nodes, seen.contains later.id = false :=
            fun later member => unseen later (List.mem_cons_of_mem node member)
          simp [firstOfEach, asked, induction distinct.2 unseenStill]

theorem applyUnion_eq_restrict (rules : List Rule) (network : Network) :
    applyUnion rules network =
      network.restrict (firstOfEach (matchedIds rules network) {} network.nodes) := by
  cases rules with
  | cons first rest => rfl
  | nil =>
      have nobody : firstOfEach (matchedIds [] network) {} network.nodes = [] := by
        apply List.eq_nil_iff_forall_not_mem.mpr
        intro node member
        have kept := (mem_ids_firstOfEach _ _ _ _).mp (List.mem_map_of_mem member)
        simpa using (contains_matchedIds [] network node.id).mp kept.2.1
      rw [nobody, Network.restrict_nil]
      rfl

theorem apply_ofRuleSet_of_or {ruleSet : RuleSet} (disjunctive : ruleSet.join = .or)
    (network : Network) :
    (ofRuleSet ruleSet).apply network =
      network.restrict (firstOfEach (matchedIds ruleSet.rules network) {} network.nodes) := by
  rw [← applyUnion_eq_restrict]
  simp only [apply, ofRuleSet, disjunctive]

end Sociogram.Filter
