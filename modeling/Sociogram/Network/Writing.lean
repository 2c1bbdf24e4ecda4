import Sociogram.Json.Written
import Sociogram.Network

/-!
Networks as JSON.
-/

namespace Sociogram

namespace AttributeValue

mutual

def toJson : AttributeValue → Json
  | null => .null
  | boolean value => .boolean value
  | integer value => .integer value.toInt
  | float value => .float value
  | text value => .text value
  | array items => .array (toJsonItems items)
termination_by structural value => value

def toJsonItems : List AttributeValue → List Json
  | [] => []
  | item :: rest => item.toJson :: toJsonItems rest
termination_by structural items => items

end

end AttributeValue

def Attributes.toJson (attributes : Attributes) : Json :=
  .object (attributes.entries.map fun (name, value) => (name, value.toJson))

def NodeId.toJson (id : NodeId) : Json := .text id.text

def Node.toJson (node : Node) : Json :=
  .object [
    ("id", node.id.toJson),
    ("type", .text node.nodeType),
    ("attributes", node.attributes.toJson)]

def Edge.toJson (edge : Edge) : Json :=
  .object <|
    [("from", edge.source.toJson), ("to", edge.target.toJson), ("type", .text edge.edgeType)] ++
      if edge.attributes.isEmpty then [] else [("attributes", edge.attributes.toJson)]

def Network.toJson (network : Network) : Json :=
  .object <|
    [("nodes", .array (network.nodes.map Node.toJson)),
      ("edges", .array (network.edges.map Edge.toJson))] ++
      (network.ego.map fun ego => ("ego", ego.toJson)).toList

end Sociogram
