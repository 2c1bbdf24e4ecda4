import Sociogram.Attribute.Attributes
import Std.Data.TreeSet

/-!
Ego-centred networks: the people and other entities of an interview, their
relationships, and the participant who was asked.
-/

namespace Sociogram

/-! ## Identifiers -/

structure NodeId where
  text : String
deriving DecidableEq

namespace NodeId

instance : Inhabited NodeId := ⟨⟨""⟩⟩

def ofInt (number : Int) : NodeId := ⟨toString number⟩

instance : Ord NodeId := ⟨fun left right => compare left.text right.text⟩

theorem compare_text (left right : NodeId) :
    compare left right = compare left.text right.text := rfl

instance : Std.TransOrd NodeId where
  eq_swap {left right} := by
    have swapped : compare left.text right.text = (compare right.text left.text).swap :=
      Std.OrientedCmp.eq_swap
    exact swapped
  isLE_trans {left middle right} first second := by
    rw [compare_text] at first second ⊢
    exact Std.TransCmp.isLE_trans first second

instance : Std.LawfulEqOrd NodeId where
  eq_of_compare {left right} equal := by
    cases left; cases right
    rw [compare_text] at equal
    simpa using equal

def sort (ids : List NodeId) : List NodeId :=
  ids.mergeSort fun left right => (compare left right).isLE

end NodeId

abbrev NodeIds := Std.TreeSet NodeId

/-! ## Nodes and edges -/

structure Node where
  id : NodeId
  nodeType : String
  attributes : Attributes

namespace Node

def same (node other : Node) : Bool :=
  node.id == other.id && node.nodeType == other.nodeType &&
    node.attributes.same other.attributes

end Node

/-- A relationship of some type. Its direction is recorded and no rule looks at
it. -/
structure Edge where
  source : NodeId
  target : NodeId
  edgeType : String
  attributes : Attributes

namespace Edge

def within (edge : Edge) (ids : NodeIds) : Bool :=
  ids.contains edge.source && ids.contains edge.target

def same (edge other : Edge) : Bool :=
  edge.source == other.source && edge.target == other.target &&
    edge.edgeType == other.edgeType && edge.attributes.same other.attributes

end Edge

/-! ## Networks -/

/-- Nodes and edges in the order in which they were collected. The ego, who was
asked, is recorded apart from the nodes and need not be one of them. Nothing
keeps two nodes from having one identifier or an edge from naming an absent
node. -/
structure Network where
  nodes : List Node
  edges : List Edge
  ego : Option Node

namespace Network

def empty : Network := ⟨[], [], none⟩

instance : Inhabited Network := ⟨empty⟩

def emptied (network : Network) : Network := ⟨[], [], network.ego⟩

def idsOf (nodes : List Node) : NodeIds :=
  Std.TreeSet.ofList (nodes.map (·.id)) compare

def nodeIds (network : Network) : NodeIds := idsOf network.nodes

def egoId? (network : Network) : Option NodeId := network.ego.map (·.id)

def isWellFormed (network : Network) : Bool :=
  let ids := network.nodeIds
  network.edges.all (·.within ids)

def find? (network : Network) (id : NodeId) : Option Node :=
  network.nodes.find? (·.id == id)

def same (network other : Network) : Bool :=
  network.nodes.isEqv other.nodes Node.same &&
    network.edges.isEqv other.edges Edge.same &&
      match network.ego, other.ego with
      | none, none => true
      | some ego, some otherEgo => ego.same otherEgo
      | _, _ => false

end Network

end Sociogram
