import Sociogram.Network.Reading
import Sociogram.Proofs.Document.Slots

/-!
The fields of nodes, edges and networks, and what they are when they are left out.
-/

namespace Sociogram

/-! ## Nodes -/

namespace Node

inductive Field
  | id
  | nodeType
  | attributes
deriving DecidableEq

def slots : form.Slots where
  Field := Field
  slot
    | .id => ⟨NodeId, "id", NodeId.ofDocument, Draft.id⟩
    | .nodeType => ⟨String, "type", Document.asText, Draft.nodeType⟩
    | .attributes => ⟨Attributes, "attributes", Attributes.ofDocument, Draft.attributes⟩
  names := [("id", .id), ("type", .nodeType), ("attributes", .attributes)]
  ofGiven values := ⟨values .id, values .nodeType, values .attributes⟩
  given_ofGiven := by rintro values ⟨⟩ <;> rfl
  ofGiven_given _ := rfl
  given_blank := by rintro ⟨⟩ <;> rfl
  take_spec := by
    intro draft key document
    simp only [form, take]
    split
    · rfl
    · rfl
    · rfl
    · rw [List.lookup_eq_none_iff.mpr (by grind)]

theorem isDefault_attributes : slots.IsDefault .attributes Attributes.empty := by
  rintro ⟨_, _, _⟩ ⟨⟩
  rfl

end Node

/-! ## Edges -/

namespace Edge

inductive Field
  | source
  | target
  | edgeType
  | attributes
deriving DecidableEq

def slots : form.Slots where
  Field := Field
  slot
    | .source => ⟨NodeId, "from", NodeId.ofDocument, Draft.source⟩
    | .target => ⟨NodeId, "to", NodeId.ofDocument, Draft.target⟩
    | .edgeType => ⟨String, "type", Document.asText, Draft.edgeType⟩
    | .attributes => ⟨Attributes, "attributes", Attributes.ofDocument, Draft.attributes⟩
  names := [("from", .source), ("to", .target), ("type", .edgeType), ("attributes", .attributes)]
  ofGiven values := ⟨values .source, values .target, values .edgeType, values .attributes⟩
  given_ofGiven := by rintro values ⟨⟩ <;> rfl
  ofGiven_given _ := rfl
  given_blank := by rintro ⟨⟩ <;> rfl
  take_spec := by
    intro draft key document
    simp only [form, take]
    split
    · rfl
    · rfl
    · rfl
    · rfl
    · rw [List.lookup_eq_none_iff.mpr (by grind)]

theorem isDefault_attributes : slots.IsDefault .attributes Attributes.empty := by
  rintro ⟨_, _, _, _⟩ ⟨⟩
  rfl

end Edge

/-! ## Networks -/

namespace Network

inductive Field
  | nodes
  | edges
  | ego
deriving DecidableEq

def slots : form.Slots where
  Field := Field
  slot
    | .nodes => ⟨List Node, "nodes", Document.asList Node.form.read, Draft.nodes⟩
    | .edges => ⟨List Edge, "edges", Document.asList Edge.form.read, Draft.edges⟩
    | .ego => ⟨Option Node, "ego", Document.asOptional Node.form.read, Draft.ego⟩
  names := [("nodes", .nodes), ("edges", .edges), ("ego", .ego)]
  ofGiven values := ⟨values .nodes, values .edges, values .ego⟩
  given_ofGiven := by rintro values ⟨⟩ <;> rfl
  ofGiven_given _ := rfl
  given_blank := by rintro ⟨⟩ <;> rfl
  take_spec := by
    intro draft key document
    simp only [form, take]
    split
    · rfl
    · rfl
    · rfl
    · rw [List.lookup_eq_none_iff.mpr (by grind)]

theorem isDefault_nodes : slots.IsDefault .nodes ([] : List Node) := by
  rintro ⟨_, _, _⟩ ⟨⟩
  rfl

theorem isDefault_edges : slots.IsDefault .edges ([] : List Edge) := by
  rintro ⟨_, _, _⟩ ⟨⟩
  rfl

theorem isDefault_ego : slots.IsDefault .ego (none : Option Node) := by
  rintro ⟨_, _, _⟩ ⟨⟩
  rfl

end Network

end Sociogram
