import Sociogram.Network

/-!
Sub-networks on some of the nodes. An edge stays when both its ends stay.
-/

namespace Sociogram.Network

/-- The sub-network on some nodes: the ego stays, and every edge between two kept
nodes. -/
def restrict (network : Network) (nodes : List Node) : Network :=
  let ids := idsOf nodes
  ⟨nodes, network.edges.filter (·.within ids), network.ego⟩

def trimOrphans (network : Network) : Network := network.restrict network.nodes

end Sociogram.Network
