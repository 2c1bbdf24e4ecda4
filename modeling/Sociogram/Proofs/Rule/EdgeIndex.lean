import Sociogram.Proofs.Network.Restriction
import Sociogram.Rule.Matching

/-!
The edge index as a statement about the edges themselves, and edge rules as
statements about the edges that touch a node.
-/

namespace Sociogram

/-- The edge is of the type, and the node is one of its ends. -/
def Edge.Touches (edge : Edge) (edgeType : String) (id : NodeId) : Prop :=
  edge.edgeType = edgeType ∧ (edge.source = id ∨ edge.target = id)

instance (edge : Edge) (edgeType : String) (id : NodeId) :
    Decidable (edge.Touches edgeType id) :=
  inferInstanceAs (Decidable (_ ∧ _))

namespace EdgeIndex

theorem contains_empty (edgeType : String) (id : NodeId) :
    empty.contains edgeType id = false := by
  simp [contains, empty]

theorem contains_eq_getD (index : EdgeIndex) (edgeType : String) (id : NodeId) :
    index.contains edgeType id = (index.byType.getD edgeType {}).contains id := by
  rw [contains, Std.TreeMap.getD_eq_getD_getElem?]
  cases index.byType[edgeType]? with
  | none => simp
  | some members => rfl

theorem contains_addEdge (index : EdgeIndex) (edge : Edge) (edgeType : String) (id : NodeId) :
    (index.addEdge edge).contains edgeType id = true ↔
      index.contains edgeType id = true ∨ edge.Touches edgeType id := by
  simp only [contains_eq_getD, addEdge, Std.TreeMap.getD_insert, Edge.Touches,
    Std.LawfulEqCmp.compare_eq_iff_eq]
  by_cases same : edge.edgeType = edgeType
  · subst same
    simp only [if_true, Std.TreeSet.contains_insert, Bool.or_eq_true, beq_iff_eq,
      Std.LawfulEqCmp.compare_eq_iff_eq, true_and]
    rw [← or_assoc, or_comm (a := edge.target = id), or_comm]
  · simp [same]

theorem contains_ofEdges (edges : List Edge) (edgeType : String) (id : NodeId) :
    (ofEdges edges).contains edgeType id = true ↔
      ∃ edge ∈ edges, edge.Touches edgeType id := by
  suffices run : ∀ index : EdgeIndex,
      (edges.foldl addEdge index).contains edgeType id = true ↔
        index.contains edgeType id = true ∨ ∃ edge ∈ edges, edge.Touches edgeType id by
    simpa [ofEdges, contains_empty] using run empty
  induction edges with
  | nil => simp
  | cons edge edges induction =>
      intro index
      rw [List.foldl_cons, induction, contains_addEdge, or_assoc]
      simp

theorem contains_ofEdges_restrict (network : Network) (kept : List Node) (edgeType : String)
    (id : NodeId) :
    (ofEdges (network.restrict kept).edges).contains edgeType id = true ↔
      ∃ edge ∈ network.edges, edge.Touches edgeType id ∧ edge.Joins kept := by
  rw [contains_ofEdges, Network.restrict_edges]
  simp only [List.mem_filter, decide_eq_true_eq, and_assoc, and_comm]

/-- The index of some edges tells which nodes are ends of an edge of a type, and nothing else
about them. In a sub-network a node loses the types of which it has no edge left between two of
the kept nodes, and no others, and it gains none. -/
theorem members_are_ends_of_edges (edgeType : String) (id : NodeId) :
    (∀ edges : List Edge, (ofEdges edges).contains edgeType id = true ↔
      ∃ edge ∈ edges, edge.edgeType = edgeType ∧ (edge.source = id ∨ edge.target = id)) ∧
    ∀ (network : Network) (kept : List Node),
      let part := ofEdges (network.restrict kept).edges
      (part.contains edgeType id = true → (ofEdges network.edges).contains edgeType id = true) ∧
      (part.contains edgeType id = true ↔ ∃ edge ∈ network.edges,
        edge.edgeType = edgeType ∧ (edge.source = id ∨ edge.target = id) ∧
          edge.source ∈ kept.map (·.id) ∧ edge.target ∈ kept.map (·.id)) := by
  refine ⟨fun edges => contains_ofEdges edges edgeType id, fun network kept => ?_⟩
  intro part
  have left : part.contains edgeType id = true ↔
      ∃ edge ∈ network.edges, edge.Touches edgeType id ∧ edge.Joins kept :=
    contains_ofEdges_restrict network kept edgeType id
  constructor
  · intro inPart
    obtain ⟨edge, member, touches, _⟩ := left.mp inPart
    exact (contains_ofEdges network.edges edgeType id).mpr ⟨edge, member, touches⟩
  · simpa only [Edge.Touches, Edge.Joins, and_assoc] using left

end EdgeIndex

namespace EdgeRule

theorem matchesNode_congr_contains {rule : EdgeRule} {left right : EdgeIndex} {node other : Node}
    (sameAnswer : left.contains rule.edgeType node.id = right.contains rule.edgeType other.id) :
    rule.matchesNode left node = rule.matchesNode right other := by
  simp only [matchesNode, sameAnswer]

theorem matchesNode_of_exists {rule : EdgeRule} (presence : rule.operator = .exists)
    (edges : List Edge) (node : Node) :
    rule.matchesNode (.ofEdges edges) node = true ↔
      ∃ edge ∈ edges, edge.Touches rule.edgeType node.id := by
  simp [matchesNode, presence, EdgeIndex.contains_ofEdges]

theorem matchesNode_of_not_exists {rule : EdgeRule} (absence : rule.operator ≠ .exists)
    (edges : List Edge) (node : Node) :
    rule.matchesNode (.ofEdges edges) node = true ↔
      ∀ edge ∈ edges, ¬ edge.Touches rule.edgeType node.id := by
  have notTouched : rule.matchesNode (.ofEdges edges) node =
      !(EdgeIndex.ofEdges edges).contains rule.edgeType node.id := by
    simp [matchesNode, absence]
  rw [notTouched, Bool.not_eq_true', ← Bool.not_eq_true, EdgeIndex.contains_ofEdges]
  simp

end EdgeRule

end Sociogram
