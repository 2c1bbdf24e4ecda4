import Sociogram.Filter.Restriction

/-!
Sub-networks on some of the nodes, as lists: which edges a restriction keeps, what
a restriction of a restriction is, and when a network is an induced part of
another one.
-/

namespace Sociogram

/-! ## Edges between nodes -/

def Edge.Joins (edge : Edge) (nodes : List Node) : Prop :=
  edge.source ∈ nodes.map (·.id) ∧ edge.target ∈ nodes.map (·.id)

instance (edge : Edge) (nodes : List Node) : Decidable (edge.Joins nodes) :=
  inferInstanceAs (Decidable (_ ∧ _))

theorem Edge.Joins.mono {edge : Edge} {kept nodes : List Node}
    (joins : edge.Joins kept) (subset : kept.map (·.id) ⊆ nodes.map (·.id)) :
    edge.Joins nodes :=
  ⟨subset joins.1, subset joins.2⟩

theorem Edge.joins_congr {left right : List Node} (edge : Edge)
    (equal : ∀ id, id ∈ left.map (·.id) ↔ id ∈ right.map (·.id)) :
    edge.Joins left ↔ edge.Joins right :=
  and_congr (equal _) (equal _)

namespace Network

theorem contains_idsOf (nodes : List Node) (id : NodeId) :
    (idsOf nodes).contains id = decide (id ∈ nodes.map (·.id)) := by
  rw [idsOf, Std.TreeSet.contains_ofList, List.contains_eq_mem]

theorem within_idsOf (edge : Edge) (nodes : List Node) :
    edge.within (idsOf nodes) = decide (edge.Joins nodes) := by
  rw [Edge.within, contains_idsOf, contains_idsOf]
  exact (Bool.decide_and _ _).symm

theorem isWellFormed_iff (network : Network) :
    network.isWellFormed = true ↔ ∀ edge ∈ network.edges, edge.Joins network.nodes := by
  simp only [isWellFormed, nodeIds, within_idsOf, List.all_eq_true, decide_eq_true_eq]

/-! ## Restrictions -/

theorem restrict_eq (network : Network) (nodes : List Node) :
    network.restrict nodes =
      ⟨nodes, network.edges.filter fun edge => edge.Joins nodes, network.ego⟩ := by
  simp only [restrict, within_idsOf]

@[simp] theorem restrict_nodes (network : Network) (nodes : List Node) :
    (network.restrict nodes).nodes = nodes := rfl

@[simp] theorem restrict_ego (network : Network) (nodes : List Node) :
    (network.restrict nodes).ego = network.ego := rfl

theorem restrict_edges (network : Network) (nodes : List Node) :
    (network.restrict nodes).edges =
      network.edges.filter fun edge => edge.Joins nodes := by
  rw [restrict_eq]

theorem restrict_nil (network : Network) : network.restrict [] = network.emptied := by
  simp [restrict_eq, emptied, Edge.Joins]

theorem restrict_edges_congr {left right : List Node} (network : Network)
    (equal : ∀ id, id ∈ left.map (·.id) ↔ id ∈ right.map (·.id)) :
    (network.restrict left).edges = (network.restrict right).edges := by
  simp only [restrict_edges, Edge.joins_congr _ equal]

theorem restrict_restrict {kept nodes : List Node} (network : Network)
    (subset : kept ⊆ nodes) :
    (network.restrict nodes).restrict kept = network.restrict kept := by
  simp only [restrict_eq, List.filter_filter]
  congr 1
  apply List.filter_congr
  intro edge _
  by_cases joins : edge.Joins kept
  · have joinsNodes := joins.mono (List.map_subset _ subset)
    simp [joins, joinsNodes]
  · simp [joins]

theorem isWellFormed_restrict (network : Network) (nodes : List Node) :
    (network.restrict nodes).isWellFormed = true := by
  rw [isWellFormed_iff]
  intro edge member
  rw [restrict_edges] at member
  simpa using (List.mem_filter.mp member).2

/-! ## Induced parts -/

/-- The part of a network on some of its nodes, with all edges between them. -/
structure InducedIn (part whole : Network) : Prop where
  nodes : part.nodes.Sublist whole.nodes
  edges : part.edges = whole.edges.filter fun edge => edge.Joins part.nodes
  ego : part.ego = whole.ego

theorem inducedIn_restrict {nodes : List Node} (network : Network)
    (sublist : nodes.Sublist network.nodes) : (network.restrict nodes).InducedIn network :=
  ⟨sublist, network.restrict_edges nodes, rfl⟩

namespace InducedIn

theorem eq_restrict {part whole : Network} (induced : part.InducedIn whole) :
    part = whole.restrict part.nodes := by
  rw [restrict_eq, ← induced.edges, ← induced.ego]

theorem isWellFormed {part whole : Network} (induced : part.InducedIn whole) :
    part.isWellFormed = true := by
  rw [induced.eq_restrict]
  exact whole.isWellFormed_restrict part.nodes

theorem trans {part middle whole : Network} (inner : part.InducedIn middle)
    (outer : middle.InducedIn whole) : part.InducedIn whole := by
  have equal : part = whole.restrict part.nodes := by
    rw [inner.eq_restrict, outer.eq_restrict, restrict_nodes]
    exact whole.restrict_restrict inner.nodes.subset
  rw [equal]
  exact whole.inducedIn_restrict (inner.nodes.trans outer.nodes)

end InducedIn

/-! ## Parts -/

/-- Some of the nodes and some of the edges of a network, in their order, with its
ego. Unlike an induced part, a part may lack edges between its nodes, and every
network is a part of itself. -/
structure PartOf (part whole : Network) : Prop where
  nodes : part.nodes.Sublist whole.nodes
  edges : part.edges.Sublist whole.edges
  ego : part.ego = whole.ego

theorem InducedIn.partOf {part whole : Network} (induced : part.InducedIn whole) :
    part.PartOf whole :=
  ⟨induced.nodes, induced.edges ▸ List.filter_sublist, induced.ego⟩

namespace PartOf

theorem refl (network : Network) : network.PartOf network :=
  ⟨List.Sublist.refl _, List.Sublist.refl _, rfl⟩

theorem trans {part middle whole : Network} (inner : part.PartOf middle)
    (outer : middle.PartOf whole) : part.PartOf whole :=
  ⟨inner.nodes.trans outer.nodes, inner.edges.trans outer.edges, inner.ego.trans outer.ego⟩

theorem antisymm {left right : Network} (inner : left.PartOf right)
    (outer : right.PartOf left) : left = right := by
  rcases left with ⟨leftNodes, leftEdges, leftEgo⟩
  rcases right with ⟨rightNodes, rightEdges, rightEgo⟩
  have nodes : leftNodes = rightNodes :=
    inner.nodes.eq_of_length_le outer.nodes.length_le
  have edges : leftEdges = rightEdges :=
    inner.edges.eq_of_length_le outer.edges.length_le
  have ego : leftEgo = rightEgo := inner.ego
  rw [nodes, edges, ego]

/-- A well-formed part loses none of its edges when the network is restricted to nodes
that include its own. -/
theorem restrict {part whole : Network} (partOf : part.PartOf whole)
    (wellFormed : part.isWellFormed = true) {nodes : List Node}
    (sublist : part.nodes.Sublist nodes) : part.PartOf (whole.restrict nodes) := by
  refine ⟨sublist, ?_, partOf.ego⟩
  have joinsNodes : ∀ edge ∈ part.edges, edge.Joins nodes := fun edge member =>
    ((isWellFormed_iff part).mp wellFormed edge member).mono (List.map_subset _ sublist.subset)
  rw [restrict_edges, ← List.filter_eq_self.mpr fun edge member =>
    decide_eq_true (joinsNodes edge member)]
  exact partOf.edges.filter _

end PartOf

theorem restrict_own_nodes {network : Network} (wellFormed : network.isWellFormed = true) :
    network.restrict network.nodes = network := by
  rw [restrict_eq, List.filter_eq_self.mpr fun edge member =>
    decide_eq_true ((isWellFormed_iff network).mp wellFormed edge member)]

theorem InducedIn.eq_of_length_le {part whole : Network} (induced : part.InducedIn whole)
    (wellFormed : whole.isWellFormed = true)
    (length : whole.nodes.length ≤ part.nodes.length) : part = whole := by
  have nodes : part.nodes = whole.nodes := induced.nodes.eq_of_length_le length
  rw [induced.eq_restrict, nodes, restrict_own_nodes wellFormed]

end Network

end Sociogram
