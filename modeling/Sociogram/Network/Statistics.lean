import Sociogram.Network

/-!
Figures about a network.
-/

namespace Sociogram

structure Statistics where
  nodeCount : Nat
  edgeCount : Nat
  egoId : Option NodeId
  /-- The distinct identifiers of the nodes, in their order. -/
  nodeIds : List NodeId
  wellFormed : Bool

def Network.statistics (network : Network) : Statistics where
  nodeCount := network.nodes.length
  edgeCount := network.edges.length
  egoId := network.egoId?
  nodeIds := network.nodeIds.toList
  wellFormed := network.isWellFormed

end Sociogram
