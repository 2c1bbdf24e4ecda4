import Std.Data.TreeMap
import Sociogram.Network

/-!
Which nodes touch an edge of a type. Direction and number of the edges do not
matter.
-/

namespace Sociogram

/-- For each edge type the nodes at either end of an edge of that type. -/
structure EdgeIndex where
  byType : Std.TreeMap String NodeIds

namespace EdgeIndex

def empty : EdgeIndex := ⟨{}⟩

def addEdge (index : EdgeIndex) (edge : Edge) : EdgeIndex :=
  let members := index.byType.getD edge.edgeType {}
  ⟨index.byType.insert edge.edgeType ((members.insert edge.source).insert edge.target)⟩

def ofEdges (edges : List Edge) : EdgeIndex := edges.foldl addEdge empty

def contains (index : EdgeIndex) (edgeType : String) (id : NodeId) : Bool :=
  match index.byType[edgeType]? with
  | some members => members.contains id
  | none => false

end EdgeIndex

end Sociogram
