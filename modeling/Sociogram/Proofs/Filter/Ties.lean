import Sociogram.Proofs.Filter.Correspondence
import Sociogram.Proofs.Rule.EdgeIndex

/-!
What edges are seen of. For each type it matters which identifiers an edge ties to each
other, and nothing else: neither its direction nor its place among the edges, how often it
is there or what its attributes are decides which nodes are selected.
-/

namespace Sociogram

/-! ## Ties -/

/-- The edge is of the type and goes between two identifiers, one way or the other. -/
def Edge.Ties (edge : Edge) (edgeType : String) (one other : NodeId) : Prop :=
  edge.edgeType = edgeType ∧
    (edge.source = one ∧ edge.target = other ∨ edge.source = other ∧ edge.target = one)

/-- Two edges of one type between the same ends, in the same or in opposite directions. -/
def Edge.Parallel (edge other : Edge) : Prop :=
  other.Ties edge.edgeType edge.source edge.target

instance (edge : Edge) (edgeType : String) (one other : NodeId) :
    Decidable (edge.Ties edgeType one other) :=
  inferInstanceAs (Decidable (_ ∧ _))

instance (edge other : Edge) : Decidable (edge.Parallel other) :=
  inferInstanceAs (Decidable (other.Ties _ _ _))

namespace Edge

theorem Ties.touches {edge : Edge} {edgeType : String} {one other : NodeId}
    (ties : edge.Ties edgeType one other) : edge.Touches edgeType one :=
  ⟨ties.1, ties.2.imp And.left And.right⟩

theorem Touches.exists_ties {edge : Edge} {edgeType : String} {id : NodeId}
    (touches : edge.Touches edgeType id) : ∃ other, edge.Ties edgeType id other := by
  rcases touches with ⟨sameType, atSource | atTarget⟩
  · exact ⟨edge.target, sameType, .inl ⟨atSource, rfl⟩⟩
  · exact ⟨edge.source, sameType, .inr ⟨rfl, atTarget⟩⟩

theorem Ties.joins_iff {edge : Edge} {edgeType : String} {one other : NodeId}
    (ties : edge.Ties edgeType one other) (nodes : List Node) :
    edge.Joins nodes ↔ one ∈ nodes.map (·.id) ∧ other ∈ nodes.map (·.id) := by
  rcases ties with ⟨_, ⟨source, target⟩ | ⟨source, target⟩⟩
  · rw [Joins, source, target]
  · rw [Joins, source, target, and_comm]

theorem Parallel.ties {edge parallel : Edge} (isParallel : edge.Parallel parallel)
    {edgeType : String} {one other : NodeId} (ties : edge.Ties edgeType one other) :
    parallel.Ties edgeType one other := by
  rcases isParallel with ⟨sameType, ends⟩
  rcases ties with ⟨rfl, ⟨rfl, rfl⟩ | ⟨rfl, rfl⟩⟩
  · exact ⟨sameType, ends⟩
  · exact ⟨sameType, ends.symm⟩

end Edge

namespace Network

def Tied (network : Network) (edgeType : String) (one other : NodeId) : Prop :=
  ∃ edge ∈ network.edges, edge.Ties edgeType one other

theorem exists_touches_iff_tied (network : Network) (edgeType : String) (id : NodeId) :
    (∃ edge ∈ network.edges, edge.Touches edgeType id) ↔
      ∃ other, network.Tied edgeType id other := by
  constructor
  · rintro ⟨edge, member, touches⟩
    rcases touches.exists_ties with ⟨other, ties⟩
    exact ⟨other, edge, member, ties⟩
  · rintro ⟨other, edge, member, ties⟩
    exact ⟨edge, member, ties.touches⟩

theorem tied_restrict_iff (network : Network) (nodes : List Node) (edgeType : String)
    (one other : NodeId) :
    (network.restrict nodes).Tied edgeType one other ↔
      network.Tied edgeType one other ∧
        one ∈ nodes.map (·.id) ∧ other ∈ nodes.map (·.id) := by
  simp only [Tied, restrict_edges, List.mem_filter, decide_eq_true_eq]
  constructor
  · rintro ⟨edge, ⟨member, joins⟩, ties⟩
    exact ⟨⟨edge, member, ties⟩, (ties.joins_iff nodes).mp joins⟩
  · rintro ⟨⟨edge, member, ties⟩, ends⟩
    exact ⟨edge, ⟨member, (ties.joins_iff nodes).mpr ends⟩, ties⟩

/-! ## Networks with the same ties -/

/-- The same nodes and ego, and for each type the same pairs of identifiers tied to each
other. -/
structure SameTies (left right : Network) : Prop where
  nodes : left.nodes = right.nodes
  ego : left.ego = right.ego
  tied : ∀ edgeType one other, left.Tied edgeType one other ↔ right.Tied edgeType one other

theorem Tied.of_parallel {left right : Network}
    (parallel : ∀ edge ∈ left.edges, ∃ other ∈ right.edges, edge.Parallel other)
    {edgeType : String} {one other : NodeId} (tied : left.Tied edgeType one other) :
    right.Tied edgeType one other := by
  rcases tied with ⟨edge, member, ties⟩
  rcases parallel edge member with ⟨otherEdge, otherMember, isParallel⟩
  exact ⟨otherEdge, otherMember, isParallel.ties ties⟩

namespace SameTies

theorem of_parallel {left right : Network} (nodes : left.nodes = right.nodes)
    (ego : left.ego = right.ego)
    (forth : ∀ edge ∈ left.edges, ∃ other ∈ right.edges, edge.Parallel other)
    (back : ∀ edge ∈ right.edges, ∃ other ∈ left.edges, edge.Parallel other) :
    left.SameTies right :=
  ⟨nodes, ego, fun _ _ _ => ⟨Tied.of_parallel forth, Tied.of_parallel back⟩⟩

variable {left right : Network} (same : left.SameTies right)

include same

theorem eq_of_mem_zip : ∀ pair ∈ left.nodes.zip right.nodes, pair.1 = pair.2 := by
  have each : List.Forall₂ Eq left.nodes right.nodes := by
    rw [same.nodes]
    exact List.forall₂_refl right.nodes
  exact fun _ member => (List.forall₂_iff_zip.mp each).2 member

theorem restrict (nodes : List Node) : (left.restrict nodes).SameTies (right.restrict nodes) where
  nodes := rfl
  ego := same.ego
  tied := by
    intro edgeType one other
    rw [tied_restrict_iff, tied_restrict_iff, same.tied]

theorem contains_index (edgeType : String) (id : NodeId) :
    (EdgeIndex.ofEdges left.edges).contains edgeType id =
      (EdgeIndex.ofEdges right.edges).contains edgeType id := by
  rw [Bool.eq_iff_iff, EdgeIndex.contains_ofEdges, EdgeIndex.contains_ofEdges,
    exists_touches_iff_tied, exists_touches_iff_tied]
  exact exists_congr fun other => same.tied edgeType id other

end SameTies

theorem correspondence_sameTies : Correspondence SameTies where
  length := fun same => congrArg List.length same.nodes
  sameIds := by
    intro left right same pair member other otherMember
    rw [same.eq_of_mem_zip pair member, same.eq_of_mem_zip other otherMember]
  restrict := by
    intro left right same kept sublist
    have sameNodes : kept.map Prod.fst = kept.map Prod.snd :=
      List.map_congr_left fun pair member => same.eq_of_mem_zip pair (sublist.subset member)
    rw [sameNodes]
    exact same.restrict _

end Network

/-! ## Verdicts of rules -/

theorem Rule.sameVerdicts_of_sameTies (rule : Rule) :
    SameVerdicts Network.SameTies rule rule where
  domain := rfl
  ego := fun same => congrArg rule.matchesEgo same.ego
  node := by
    intro left right same pair member
    rw [same.eq_of_mem_zip pair member]
    cases rule with
    | edge edgeRule =>
        exact EdgeRule.matchesNode_congr_contains (same.contains_index edgeRule.edgeType pair.2.id)
    | alter alterRule => rfl
    | ego egoRule => exact matchesNode_congr_ego (by simp [domain]) same.ego pair.2
    | unrecognized domain options => rfl

/-! ## Main statement -/

/-- Two networks with the same nodes and ego, in which for each type the same identifiers are
tied to each other, are filtered to the same nodes, tied as before, and queries have the
same answer. -/
theorem only_ties_of_edges_matter (ruleSet : RuleSet) (left right : Network)
    (same : left.SameTies right) :
    (∀ strategy,
      let leftResult := ruleSet.filtered strategy left
      let rightResult := ruleSet.filtered strategy right
      leftResult.nodes = rightResult.nodes ∧
        ∀ edgeType one other, leftResult.Tied edgeType one other ↔
          rightResult.Tied edgeType one other) ∧
      (Query.ofRuleSet ruleSet).evaluate left = (Query.ofRuleSet ruleSet).evaluate right := by
  have verdicts := RuleSet.sameVerdicts_self Rule.sameVerdicts_of_sameTies ruleSet
  constructor
  · intro strategy
    have cut := RuleSet.cutAlike_filtered verdicts Network.correspondence_sameTies same strategy
    exact ⟨cut.related.nodes, cut.related.tied⟩
  · exact Query.evaluate_of_sameVerdicts Network.correspondence_sameTies same verdicts

def Network.tangledOtherwise : Network where
  nodes := Network.tangled.nodes
  edges :=
    [⟨⟨"b"⟩, ⟨"c"⟩, "likes", .empty⟩, ⟨⟨"a"⟩, ⟨"a"⟩, "knows", .empty⟩,
      ⟨⟨"b"⟩, ⟨"a"⟩, "knows", .ofList [("years", .integer 3)]⟩,
      ⟨⟨"a"⟩, ⟨"b"⟩, "knows", .empty⟩]
  ego := Network.tangled.ego

theorem only_ties_of_edges_matter_tangled :
    let left := Network.tangled
    let right := Network.tangledOtherwise
    let ruleSet := RuleSet.mixed .and
    left.SameTies right ∧ left.edges.length ≠ right.edges.length ∧
      (∀ strategy,
        (ruleSet.filtered strategy left).nodes = (ruleSet.filtered strategy right).nodes) ∧
      (ruleSet.filtered .standard right).nodes.map (·.id.text) = ["a"] ∧
      (Query.ofRuleSet ruleSet).evaluate left = (Query.ofRuleSet ruleSet).evaluate right := by
  intro left right ruleSet
  have same : left.SameTies right :=
    .of_parallel rfl rfl (by decide) (by decide)
  have matters := only_ties_of_edges_matter ruleSet left right same
  exact ⟨same, by decide, fun strategy => (matters.1 strategy).1, by decide +kernel, matters.2⟩

end Sociogram
