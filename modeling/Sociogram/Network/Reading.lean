import Sociogram.Document.Record
import Sociogram.Network

/-!
Reading networks from documents.
-/

namespace Sociogram

/-! ## Values and identifiers -/

namespace AttributeValue

/-- Integers beyond 64 bits with a sign are the nearest floating-point numbers. -/
def ofInt (value : Int) : AttributeValue :=
  if Int64.minValue.toInt ≤ value ∧ value ≤ Int64.maxValue.toInt then
    integer (Int64.ofInt value)
  else float (.ofInt value)

mutual

def ofJson? : Json → Option AttributeValue
  | .null => some null
  | .boolean value => some (boolean value)
  | .integer value => some (ofInt value)
  | .float value => some (float value)
  | .text value => some (text value)
  | .array items => (ofJsonItems? items).map array
  | .object _ => none
termination_by structural value => value

def ofJsonItems? : List Json → Option (List AttributeValue)
  | [] => some []
  | item :: rest => do
      let value ← ofJson? item
      let values ← ofJsonItems? rest
      return value :: values
termination_by structural items => items

end

/-- The whole value is read before it is looked at. -/
def ofDocument (document : Document) : Except Problem AttributeValue := do
  let json ← document.value
  match ofJson? json with
  | some value => .ok value
  | none => .error (.noAlternative "AttributeValue")

end AttributeValue

def Attributes.ofDocument (document : Document) : Except Problem Attributes :=
  (document.asEntries AttributeValue.ofDocument).map Attributes.ofList

/-- A text, or an integer of 64 bits with a sign. -/
def NodeId.ofDocument (document : Document) : Except Problem NodeId := do
  match ← document.value with
  | .text value => return ⟨value⟩
  | .integer value =>
      if Int64.minValue.toInt ≤ value ∧ value ≤ Int64.maxValue.toInt then
        return .ofInt value
      else .error (.noAlternative "RawNodeId")
  | _ => .error (.noAlternative "RawNodeId")

/-! ## Nodes -/

namespace Node

structure Draft where
  id : Option NodeId := none
  nodeType : Option String := none
  attributes : Option Attributes := none

def take (draft : Draft) (name : String) (document : Document) : Except Problem Draft :=
  match name with
  | "id" => do
      return { draft with id := ← RecordForm.once "id" draft.id NodeId.ofDocument document }
  | "type" => do
      return { draft with
        nodeType := ← RecordForm.once "type" draft.nodeType Document.asText document }
  | "attributes" => do
      return { draft with
        attributes := ←
          RecordForm.once "attributes" draft.attributes Attributes.ofDocument document }
  | _ => do
      document.skip
      return draft

def complete (draft : Draft) : Except Problem Node := do
  return {
    id := ← RecordForm.required "id" draft.id
    nodeType := ← RecordForm.required "type" draft.nodeType
    attributes := draft.attributes.getD .empty }

def form : RecordForm Draft Node where
  name := "Node"
  fields := [("id", false), ("type", false), ("attributes", true)]
  blank := {}
  take := take
  complete := complete

end Node

/-! ## Edges -/

namespace Edge

structure Draft where
  source : Option NodeId := none
  target : Option NodeId := none
  edgeType : Option String := none
  attributes : Option Attributes := none

def take (draft : Draft) (name : String) (document : Document) : Except Problem Draft :=
  match name with
  | "from" => do
      return { draft with
        source := ← RecordForm.once "from" draft.source NodeId.ofDocument document }
  | "to" => do
      return { draft with
        target := ← RecordForm.once "to" draft.target NodeId.ofDocument document }
  | "type" => do
      return { draft with
        edgeType := ← RecordForm.once "type" draft.edgeType Document.asText document }
  | "attributes" => do
      return { draft with
        attributes := ←
          RecordForm.once "attributes" draft.attributes Attributes.ofDocument document }
  | _ => do
      document.skip
      return draft

def complete (draft : Draft) : Except Problem Edge := do
  return {
    source := ← RecordForm.required "from" draft.source
    target := ← RecordForm.required "to" draft.target
    edgeType := ← RecordForm.required "type" draft.edgeType
    attributes := draft.attributes.getD .empty }

def form : RecordForm Draft Edge where
  name := "Edge"
  fields := [("from", false), ("to", false), ("type", false), ("attributes", true)]
  blank := {}
  take := take
  complete := complete

end Edge

/-! ## Networks -/

namespace Network

structure Draft where
  nodes : Option (List Node) := none
  edges : Option (List Edge) := none
  ego : Option (Option Node) := none

def take (draft : Draft) (name : String) (document : Document) : Except Problem Draft :=
  match name with
  | "nodes" => do
      return { draft with
        nodes := ←
          RecordForm.once "nodes" draft.nodes (Document.asList Node.form.read) document }
  | "edges" => do
      return { draft with
        edges := ←
          RecordForm.once "edges" draft.edges (Document.asList Edge.form.read) document }
  | "ego" => do
      return { draft with
        ego := ← RecordForm.once "ego" draft.ego (Document.asOptional Node.form.read) document }
  | _ => do
      document.skip
      return draft

def complete (draft : Draft) : Except Problem Network :=
  .ok {
    nodes := draft.nodes.getD []
    edges := draft.edges.getD []
    ego := draft.ego.getD none }

def form : RecordForm Draft Network where
  name := "Network"
  fields := [("nodes", true), ("edges", true), ("ego", true)]
  blank := {}
  take := take
  complete := complete

end Network

end Sociogram
