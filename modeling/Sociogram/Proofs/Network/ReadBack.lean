import Sociogram.Proofs.Attribute.ReadBack
import Sociogram.Proofs.Json.Scanned

/-!
Networks are read back from their texts, with null in place of the numbers that JSON
cannot write.
-/

namespace Sociogram

/-! ## Values put in place of values -/

theorem Attributes.ext {attributes others : Attributes}
    (entries : attributes.entries = others.entries) : attributes = others := by
  cases attributes
  cases others
  simpa using entries

section

variable (image : AttributeValue → AttributeValue)

def Attributes.mapValues (attributes : Attributes) : Attributes where
  entries := attributes.entries.map fun (name, value) => (name, image value)
  ascending := (Keyed.ascending_map image).mpr attributes.ascending

def Node.mapValues (node : Node) : Node :=
  { node with attributes := node.attributes.mapValues image }

def Edge.mapValues (edge : Edge) : Edge :=
  { edge with attributes := edge.attributes.mapValues image }

def Network.mapValues (network : Network) : Network where
  nodes := network.nodes.map (Node.mapValues image)
  edges := network.edges.map (Edge.mapValues image)
  ego := network.ego.map (Node.mapValues image)

end

/-- The network with null in place of the numbers that JSON cannot write, at any depth of
any attribute. -/
def Network.withoutNonFinite (network : Network) : Network :=
  network.mapValues AttributeValue.withoutNonFinite

/-- The network with every value as its text is read. -/
def Network.reread (network : Network) : Network := network.mapValues AttributeValue.reread

/-! ## Reading what is written -/

theorem Attributes.mapValues_of_isEmpty (image : AttributeValue → AttributeValue)
    {attributes : Attributes} (isEmpty : attributes.isEmpty = true) :
    attributes.mapValues image = .empty :=
  ext (List.map_eq_nil_iff.mpr (List.isEmpty_iff.mp isEmpty))

theorem Attributes.ofDocument_asWritten (attributes : Attributes) :
    ofDocument attributes.toJson.asWritten =
      .ok (attributes.mapValues AttributeValue.withoutNonFinite) := by
  rw [ofDocument, toJson, Json.asWritten, Json.membersAsWritten_eq_map, List.map_map,
    Document.asEntries,
    mapM_map_ok (fun (name, value) => (name, value.withoutNonFinite)) fun entry _ => by
      simp [AttributeValue.ofDocument_asWritten]]
  refine congrArg Except.ok (ext ?_)
  exact Keyed.ofList_of_ascending (attributes.mapValues AttributeValue.withoutNonFinite).ascending

theorem NodeId.ofDocument_asWritten (id : NodeId) :
    ofDocument id.toJson.asWritten = .ok id := rfl

theorem Node.read_asWritten (node : Node) :
    form.read node.toJson.asWritten =
      .ok (node.mapValues AttributeValue.withoutNonFinite) := by
  rw [toJson, RecordForm.read_asWritten]
  simp only [form, List.foldlM_cons, List.foldlM_nil, take, RecordForm.once,
    NodeId.ofDocument_asWritten, Attributes.ofDocument_asWritten]
  rfl

theorem Node.asOptional_asWritten (node : Node) :
    node.toJson.asWritten.asOptional form.read =
      .ok (some (node.mapValues AttributeValue.withoutNonFinite)) :=
  congrArg (Except.map some) node.read_asWritten

theorem Edge.read_asWritten (edge : Edge) :
    form.read edge.toJson.asWritten =
      .ok (edge.mapValues AttributeValue.withoutNonFinite) := by
  rw [toJson, RecordForm.read_asWritten]
  by_cases isEmpty : edge.attributes.isEmpty = true
  · rw [if_pos isEmpty, mapValues, Attributes.mapValues_of_isEmpty _ isEmpty]
    rfl
  · rw [if_neg isEmpty]
    simp only [form, List.cons_append, List.nil_append, List.foldlM_cons, List.foldlM_nil, take,
      RecordForm.once, NodeId.ofDocument_asWritten, Attributes.ofDocument_asWritten]
    rfl

theorem Network.read_asWritten (network : Network) :
    form.read network.toJson.asWritten = .ok network.withoutNonFinite := by
  have nodes := Document.asList_asWritten fun node (_ : node ∈ network.nodes) =>
    node.read_asWritten
  have edges := Document.asList_asWritten fun edge (_ : edge ∈ network.edges) =>
    edge.read_asWritten
  rw [toJson, RecordForm.read_asWritten]
  cases equal : network.ego with
  | none =>
      simp only [form, Option.map_none, Option.toList_none, List.append_nil, List.foldlM_cons,
        List.foldlM_nil, take, RecordForm.once, nodes, edges]
      rw [withoutNonFinite, mapValues, equal]
      rfl
  | some ego =>
      simp only [form, Option.map_some, Option.toList_some, List.cons_append, List.nil_append,
        List.foldlM_cons, List.foldlM_nil, take, RecordForm.once, nodes, edges,
        ego.asOptional_asWritten]
      rw [withoutNonFinite, mapValues, equal]
      rfl

/-! ## Numbers in a network -/

section

variable {test : Json → Prop} (only : Json.OnlyNumbersFail test)

include only

theorem Attributes.throughout_toJson (attributes : Attributes) :
    attributes.toJson.Throughout test ↔
      ∀ entry ∈ attributes.entries, entry.2.toJson.Throughout test := by
  rw [toJson, Json.throughout_object, List.forall_mem_map]
  exact and_iff_right (only.object _)

theorem Node.throughout_toJson (node : Node) :
    node.toJson.Throughout test ↔ node.attributes.toJson.Throughout test := by
  simp [toJson, Json.throughout_object, NodeId.toJson, only.object, only.throughout_text]

theorem Edge.throughout_toJson (edge : Edge) :
    edge.toJson.Throughout test ↔ edge.attributes.toJson.Throughout test := by
  by_cases isEmpty : edge.attributes.isEmpty = true
  · have none : ∀ entry ∈ edge.attributes.entries, entry.2.toJson.Throughout test := by
      rw [List.isEmpty_iff.mp isEmpty]
      exact List.forall_mem_nil _
    have empty := (edge.attributes.throughout_toJson only).mpr none
    simp [toJson, isEmpty, Json.throughout_object, NodeId.toJson, only.object,
      only.throughout_text, empty]
  · simp [toJson, isEmpty, Json.throughout_object, NodeId.toJson, only.object,
      only.throughout_text]

theorem Network.throughout_toJson (network : Network) :
    network.toJson.Throughout test ↔
      (∀ node ∈ network.nodes, node.attributes.toJson.Throughout test) ∧
        (∀ edge ∈ network.edges, edge.attributes.toJson.Throughout test) ∧
          ∀ ego ∈ network.ego, ego.attributes.toJson.Throughout test := by
  simp [toJson, Json.throughout_object, Json.throughout_array, only.object, only.array,
    Node.throughout_toJson only, Edge.throughout_toJson only, or_imp, forall_and]

end

theorem Attributes.integerIsRead_toJson (attributes : Attributes) :
    attributes.toJson.Throughout Json.integerIsRead :=
  (attributes.throughout_toJson Json.onlyNumbersFail_integerIsRead).mpr fun entry _ =>
    entry.2.integerIsRead_toJson

theorem Network.integerIsRead_toJson (network : Network) :
    network.toJson.Throughout Json.integerIsRead :=
  (network.throughout_toJson Json.onlyNumbersFail_integerIsRead).mpr
    ⟨fun node _ => node.attributes.integerIsRead_toJson,
      fun edge _ => edge.attributes.integerIsRead_toJson,
      fun ego _ => ego.attributes.integerIsRead_toJson⟩

section

variable {test : Json → Prop} (only : Json.OnlyNumbersFail test)
  {image other : AttributeValue → AttributeValue}
  (each : ∀ value : AttributeValue, value.toJson.Throughout test → image value = other value)

include only each

theorem Attributes.mapValues_congr {attributes : Attributes}
    (all : attributes.toJson.Throughout test) :
    attributes.mapValues image = attributes.mapValues other :=
  ext (List.map_congr_left fun entry member =>
    Prod.ext rfl (each entry.2 ((attributes.throughout_toJson only).mp all entry member)))

/-- When two images agree on all values that pass a test, they agree on a network whose numbers
pass it. -/
theorem Network.mapValues_congr {network : Network} (all : network.toJson.Throughout test) :
    network.mapValues image = network.mapValues other := by
  obtain ⟨nodes, edges, ego⟩ := (network.throughout_toJson only).mp all
  have same {attributes : Attributes} (all : attributes.toJson.Throughout test) :=
    Attributes.mapValues_congr only each all
  have sameNodes : network.nodes.map (Node.mapValues image) =
      network.nodes.map (Node.mapValues other) :=
    List.map_congr_left fun node member => by
      rw [Node.mapValues, Node.mapValues, same (nodes node member)]
  have sameEdges : network.edges.map (Edge.mapValues image) =
      network.edges.map (Edge.mapValues other) :=
    List.map_congr_left fun edge member => by
      rw [Edge.mapValues, Edge.mapValues, same (edges edge member)]
  have sameEgo : network.ego.map (Node.mapValues image) =
      network.ego.map (Node.mapValues other) :=
    Option.map_congr fun node member => by
      rw [Node.mapValues, Node.mapValues, same (ego node member)]
  rw [mapValues, mapValues, sameNodes, sameEdges, sameEgo]

end

theorem Attributes.mapValues_id (attributes : Attributes) : attributes.mapValues id = attributes :=
  ext (List.map_id attributes.entries)

theorem Network.mapValues_id (network : Network) : network.mapValues id = network := by
  have node : Node.mapValues id = id := funext fun node => by
    rw [Node.mapValues, Attributes.mapValues_id, id]
  have edge : Edge.mapValues id = id := funext fun edge => by
    rw [Edge.mapValues, Attributes.mapValues_id, id]
  rw [mapValues, node, edge, List.map_id, List.map_id, Option.map_id, id]

theorem Network.withoutNonFinite_eq_self {network : Network}
    (finite : network.toJson.Throughout Json.floatIsFinite) :
    network.withoutNonFinite = network :=
  (mapValues_congr Json.onlyNumbersFail_floatIsFinite
    (fun _ => AttributeValue.withoutNonFinite_eq_self) finite).trans network.mapValues_id

theorem Network.reread_eq_withoutNonFinite {network : Network}
    (readBack : network.toJson.Throughout Json.floatIsReadBack) :
    network.reread = network.withoutNonFinite :=
  mapValues_congr Json.onlyNumbersFail_floatIsReadBack
    (fun _ => AttributeValue.reread_eq_withoutNonFinite) readBack

/-! ## What texts are read as -/

theorem Attributes.toJson_reread (attributes : Attributes) :
    (attributes.mapValues AttributeValue.reread).toJson = attributes.toJson.reread := by
  rw [toJson, toJson, Json.reread, Json.rereadMembers_eq_map, mapValues, List.map_map, List.map_map]
  refine congrArg Json.object (List.map_congr_left fun entry _ => ?_)
  exact Prod.ext rfl entry.2.toJson_reread

theorem Node.toJson_reread (node : Node) :
    (node.mapValues AttributeValue.reread).toJson = node.toJson.reread := by
  simp [toJson, mapValues, Attributes.toJson_reread, NodeId.toJson, Json.reread,
    Json.rereadMembers]

theorem Edge.toJson_reread (edge : Edge) :
    (edge.mapValues AttributeValue.reread).toJson = edge.toJson.reread := by
  have isEmpty : (edge.attributes.mapValues AttributeValue.reread).isEmpty =
      edge.attributes.isEmpty := List.isEmpty_map
  cases empty : edge.attributes.isEmpty <;>
    simp [toJson, mapValues, isEmpty, empty, Attributes.toJson_reread, NodeId.toJson, Json.reread,
      Json.rereadMembers]

theorem Network.toJson_reread (network : Network) :
    network.reread.toJson = network.toJson.reread := by
  have nodes : (network.nodes.map (Node.mapValues AttributeValue.reread)).map Node.toJson =
      (network.nodes.map Node.toJson).map Json.reread := by
    rw [List.map_map, List.map_map]
    exact List.map_congr_left fun node _ => node.toJson_reread
  have edges : (network.edges.map (Edge.mapValues AttributeValue.reread)).map Edge.toJson =
      (network.edges.map Edge.toJson).map Json.reread := by
    rw [List.map_map, List.map_map]
    exact List.map_congr_left fun edge _ => edge.toJson_reread
  cases equal : network.ego <;>
    simp [toJson, reread, mapValues, equal, nodes, edges, Json.reread, Json.rereadMembers,
      Json.rereadItems_eq_map, Node.toJson_reread]

theorem Network.read_reread_asWritten (network : Network) :
    form.read network.toJson.reread.asWritten = .ok network.reread := by
  have finite : network.reread.toJson.Throughout Json.floatIsFinite :=
    network.toJson_reread ▸ network.toJson.floatIsFinite_reread
  rw [← toJson_reread, read_asWritten, withoutNonFinite_eq_self finite]

/-! ## What can be read -/

theorem Attributes.within_of_ofDocument {document : Document} {limit : Nat}
    (bounded : document.Bounded limit) {attributes : Attributes}
    (reads : ofDocument document = .ok attributes) :
    attributes.toJson.Within Json.floatIsFinite limit := by
  obtain ⟨entries, readsEntries, rfl⟩ := map_eq_ok.mp reads
  obtain ⟨below, rfl, each⟩ := bounded.asEntries readsEntries
  refine Json.within_object trivial (List.forall_mem_map.mpr fun entry member => ?_)
  obtain ⟨item, itemBounded, readsItem⟩ := each entry (Keyed.mem_of_mem_ofList member)
  exact AttributeValue.within_of_ofDocument itemBounded readsItem

theorem Attributes.within_getD {limit : Nat} {given : Option Attributes}
    (within : ∀ attributes ∈ given, attributes.toJson.Within Json.floatIsFinite (limit + 1)) :
    (given.getD empty).toJson.Within Json.floatIsFinite (limit + 1) :=
  RecordForm.getD_of_forall
    (fun attributes : Attributes => attributes.toJson.Within Json.floatIsFinite (limit + 1))
    empty (Json.within_object trivial (List.forall_mem_nil _)) within

theorem Node.within_of_filled {limit : Nat} {draft : Draft} (filled : form.Filled limit draft) :
    ∀ attributes ∈ draft.attributes, attributes.toJson.Within Json.floatIsFinite limit := by
  induction filled with
  | blank => simp [form]
  | take before bounded takes induction =>
      simp only [form, take] at takes
      split at takes <;> simp only [bind_eq_ok, pure_eq_ok, Except.ok.injEq] at takes
      case h_3 =>
        obtain ⟨_, takesOnce, rfl⟩ := takes
        obtain ⟨_, read, reads, rfl⟩ := RecordForm.once_eq_ok.mp takesOnce
        rintro attributes ⟨⟩
        exact Attributes.within_of_ofDocument bounded reads
      -- The other fields leave the attributes as they are.
      all_goals
        obtain ⟨_, _, rfl⟩ := takes
        exact induction

theorem Node.within_of_read {document : Document} {limit : Nat}
    (bounded : document.Bounded (limit + 2)) {node : Node}
    (reads : form.read document = .ok node) :
    node.toJson.Within Json.floatIsFinite (limit + 2) := by
  obtain ⟨below, draft, depth, filled, completes⟩ := RecordForm.exists_filled_of_read bounded reads
  obtain rfl : below = limit + 1 := by omega
  have attributes := Attributes.within_getD (within_of_filled filled)
  simp only [form, complete, bind_eq_ok, pure_eq_ok, Except.ok.injEq] at completes
  obtain ⟨id, _, nodeType, _, rfl⟩ := completes
  refine Json.within_object trivial fun member inside => ?_
  simp only [List.mem_cons, List.not_mem_nil, or_false] at inside
  rcases inside with rfl | rfl | rfl
  · exact Json.within_of_parts rfl rfl trivial
  · exact Json.within_of_parts rfl rfl trivial
  · exact attributes

theorem Edge.within_of_filled {limit : Nat} {draft : Draft} (filled : form.Filled limit draft) :
    ∀ attributes ∈ draft.attributes, attributes.toJson.Within Json.floatIsFinite limit := by
  induction filled with
  | blank => simp [form]
  | take before bounded takes induction =>
      simp only [form, take] at takes
      split at takes <;> simp only [bind_eq_ok, pure_eq_ok, Except.ok.injEq] at takes
      case h_4 =>
        obtain ⟨_, takesOnce, rfl⟩ := takes
        obtain ⟨_, read, reads, rfl⟩ := RecordForm.once_eq_ok.mp takesOnce
        rintro attributes ⟨⟩
        exact Attributes.within_of_ofDocument bounded reads
      -- The other fields leave the attributes as they are.
      all_goals
        obtain ⟨_, _, rfl⟩ := takes
        exact induction

theorem Edge.within_of_read {document : Document} {limit : Nat}
    (bounded : document.Bounded (limit + 2)) {edge : Edge}
    (reads : form.read document = .ok edge) :
    edge.toJson.Within Json.floatIsFinite (limit + 2) := by
  obtain ⟨below, draft, depth, filled, completes⟩ := RecordForm.exists_filled_of_read bounded reads
  obtain rfl : below = limit + 1 := by omega
  have attributes := Attributes.within_getD (within_of_filled filled)
  simp only [form, complete, bind_eq_ok, pure_eq_ok, Except.ok.injEq] at completes
  obtain ⟨source, _, target, _, edgeType, _, rfl⟩ := completes
  refine Json.within_object trivial fun member inside => ?_
  simp only [List.mem_append, List.mem_cons, List.not_mem_nil, or_false] at inside
  rcases inside with (rfl | rfl | rfl) | inside
  · exact Json.within_of_parts rfl rfl trivial
  · exact Json.within_of_parts rfl rfl trivial
  · exact Json.within_of_parts rfl rfl trivial
  · split at inside
    · simp at inside
    · obtain rfl := List.mem_singleton.mp inside
      exact attributes

structure Network.DraftWithin (limit : Nat) (draft : Draft) : Prop where
  nodes : ∀ nodes ∈ draft.nodes, ∀ node ∈ nodes,
    node.toJson.Within Json.floatIsFinite (limit + 2)
  edges : ∀ edges ∈ draft.edges, ∀ edge ∈ edges,
    edge.toJson.Within Json.floatIsFinite (limit + 2)
  ego : ∀ found ∈ draft.ego, ∀ ego ∈ found, ego.toJson.Within Json.floatIsFinite (limit + 3)

theorem Network.within_of_filled {limit : Nat} {draft : Draft}
    (filled : form.Filled (limit + 3) draft) : DraftWithin limit draft := by
  induction filled with
  | blank => constructor <;> simp [form]
  | take before bounded takes induction =>
      simp only [form, take] at takes
      split at takes <;> simp only [bind_eq_ok, pure_eq_ok, Except.ok.injEq] at takes <;>
        obtain ⟨_, takesOnce, rfl⟩ := takes
      · obtain ⟨_, read, reads, rfl⟩ := RecordForm.once_eq_ok.mp takesOnce
        obtain ⟨below, depth, each⟩ := bounded.asList reads
        obtain rfl : below = limit + 2 := by omega
        refine ⟨?_, induction.edges, induction.ego⟩
        rintro nodes ⟨⟩ node member
        obtain ⟨item, itemBounded, readsItem⟩ := each node member
        exact Node.within_of_read itemBounded readsItem
      · obtain ⟨_, read, reads, rfl⟩ := RecordForm.once_eq_ok.mp takesOnce
        obtain ⟨below, depth, each⟩ := bounded.asList reads
        obtain rfl : below = limit + 2 := by omega
        refine ⟨induction.nodes, ?_, induction.ego⟩
        rintro edges ⟨⟩ edge member
        obtain ⟨item, itemBounded, readsItem⟩ := each edge member
        exact Edge.within_of_read itemBounded readsItem
      · obtain ⟨_, read, reads, rfl⟩ := RecordForm.once_eq_ok.mp takesOnce
        refine ⟨induction.nodes, induction.edges, ?_⟩
        rintro found ⟨⟩ ego ⟨⟩
        exact Node.within_of_read bounded (bounded.asOptional reads)
      · exact induction

theorem Network.within_of_read {document : Document} {limit : Nat}
    (bounded : document.Bounded (limit + 4)) {network : Network}
    (reads : form.read document = .ok network) :
    network.toJson.Within Json.floatIsFinite (limit + 4) := by
  obtain ⟨below, draft, depth, filled, completes⟩ := RecordForm.exists_filled_of_read bounded reads
  obtain rfl : below = limit + 3 := by omega
  have within := within_of_filled filled
  have nodes := RecordForm.getD_of_forall
    (fun nodes : List Node => ∀ node ∈ nodes, node.toJson.Within Json.floatIsFinite (limit + 2))
    [] (List.forall_mem_nil _) within.nodes
  have edges := RecordForm.getD_of_forall
    (fun edges : List Edge => ∀ edge ∈ edges, edge.toJson.Within Json.floatIsFinite (limit + 2))
    [] (List.forall_mem_nil _) within.edges
  have ego := RecordForm.getD_of_forall
    (fun found : Option Node => ∀ ego ∈ found, ego.toJson.Within Json.floatIsFinite (limit + 3))
    none (by simp) within.ego
  obtain rfl := Except.ok.inj completes
  refine Json.within_object trivial fun member inside => ?_
  simp only [List.mem_append, List.mem_cons, List.not_mem_nil, or_false, Option.mem_toList,
    Option.map_eq_some_iff] at inside
  rcases inside with (rfl | rfl) | ⟨node, found, rfl⟩
  · exact Json.within_array trivial (List.forall_mem_map.mpr nodes)
  · exact Json.within_array trivial (List.forall_mem_map.mpr edges)
  · exact ego node found

/-! ## Texts of networks -/

namespace Network

theorem ofText_of_mem_texts {network : Network} (shallow : network.toJson.depth ≤ 127)
    {text : String} (written : text ∈ network.toJson.texts) :
    ofText .json text = .ok network.reread := by
  have reads := Json.read_of_mem_texts network.integerIsRead_toJson shallow written form.read
  exact Format.read_json_eq_ok.mpr (reads.trans network.read_reread_asWritten)

theorem within_of_ofText {source : String} {network : Network}
    (reads : ofText .json source = .ok network) :
    network.toJson.Within Json.floatIsFinite 127 := by
  obtain ⟨document, bounded, readsDocument⟩ :=
    JsonText.exists_bounded_of_read (Format.read_json_eq_ok.mp reads)
  exact within_of_read bounded readsDocument

/-- A network that is not nested too deeply is read back from its compact text and from its
pretty one: the same nodes, edges and ego in the same order, every integer an integer, every
finite number what its own text is read as, and null in place of the numbers that JSON cannot
write. So nothing else changes when the finite numbers are read back, and nothing at all when
there are no other numbers, as in every network that was read from a text. -/
theorem texts_read_back :
    (∀ network : Network, network.toJson.depth ≤ 127 → ∀ text ∈ network.toJson.texts,
      ofText .json text = .ok network.reread ∧
        (network.toJson.Throughout Json.floatIsReadBack →
          ofText .json text = .ok network.withoutNonFinite)) ∧
    (∀ network : Network, network.toJson.Throughout Json.floatIsFinite →
      network.withoutNonFinite = network) ∧
    ∀ (source : String) (network : Network), ofText .json source = .ok network →
      (network.toJson.depth ≤ 127 ∧ network.toJson.Throughout Json.floatIsFinite) ∧
        (network.toJson.Throughout Json.floatIsReadBack →
          ∀ text ∈ network.toJson.texts, ofText .json text = .ok network) := by
  refine ⟨fun network shallow text written => ?_,
    fun network finite => withoutNonFinite_eq_self finite, fun source network reads => ?_⟩
  · have readsAgain := ofText_of_mem_texts shallow written
    exact ⟨readsAgain, fun readBack => reread_eq_withoutNonFinite readBack ▸ readsAgain⟩
  · have within := within_of_ofText reads
    refine ⟨⟨within.shallow, within.passes⟩, fun readBack text written => ?_⟩
    rw [ofText_of_mem_texts within.shallow written, reread_eq_withoutNonFinite readBack,
      withoutNonFinite_eq_self within.passes]

def readings (items : List AttributeValue) : Attributes :=
  ⟨[("readings", .array items)], List.pairwise_singleton _ _⟩

/-- A node whose identifier is a digit, with an integer, the floating-point numbers one and
minus zero, a NaN and an infinity; an edge without attributes, and an ego without a node. -/
def measured : Network where
  nodes := [⟨⟨"7"⟩, "person", readings [.integer 1, .float (.ofInt 1), .float (.zero true),
    .float .nan, .array [.float (.infinity true)]]⟩]
  edges := [⟨⟨"7"⟩, ⟨"ego"⟩, "knows", .empty⟩]
  ego := some ⟨⟨"ego"⟩, "", .empty⟩

def measuredAgain : Network where
  nodes := [⟨⟨"7"⟩, "person", readings [.integer 1, .float (.ofInt 1), .float (.zero true),
    .null, .array [.null]]⟩]
  edges := [⟨⟨"7"⟩, ⟨"ego"⟩, "knows", .empty⟩]
  ego := some ⟨⟨"ego"⟩, "", .empty⟩

theorem measured_withoutNonFinite : measured.withoutNonFinite = measuredAgain := by
  have one : (Binary64.ofInt 1).isFinite = true := by decide +kernel
  have minusZero : (Binary64.zero true).isFinite = true := by decide +kernel
  have notNumber : Binary64.nan.isFinite = false := by decide +kernel
  have infinite : (Binary64.infinity true).isFinite = false := by decide +kernel
  simp [measured, measuredAgain, withoutNonFinite, mapValues, Node.mapValues, Edge.mapValues,
    Attributes.mapValues, readings, Attributes.empty, AttributeValue.withoutNonFinite,
    AttributeValue.itemsWithoutNonFinite, one, minusZero, notNumber, infinite]

theorem texts_read_back_measured :
    (measured.toJson.depth ≤ 127 ∧ measured.toJson.Throughout Json.floatIsReadBack ∧
      ∀ text ∈ measured.toJson.texts, ofText .json text = .ok measuredAgain) ∧
    (measuredAgain.toJson.Throughout Json.floatIsFinite ∧
      measuredAgain.withoutNonFinite = measuredAgain) ∧
    (measuredAgain.toJson.Throughout Json.floatIsReadBack ∧
      ∀ text ∈ measuredAgain.toJson.texts, ofText .json text = .ok measuredAgain) := by
  have shallow : measured.toJson.depth ≤ 127 := by decide
  have readBack : measured.toJson.Throughout Json.floatIsReadBack := by decide +kernel
  have readBackAgain : measuredAgain.toJson.Throughout Json.floatIsReadBack := by decide +kernel
  have reads : ∀ text ∈ measured.toJson.texts, ofText .json text = .ok measuredAgain := by
    intro text written
    rw [(texts_read_back.1 measured shallow text written).2 readBack, measured_withoutNonFinite]
  obtain ⟨⟨_, finite⟩, readsAgain⟩ :=
    texts_read_back.2.2 measured.toJson.compact measuredAgain (reads _ (by simp [Json.texts]))
  exact ⟨⟨shallow, readBack, reads⟩, ⟨finite, texts_read_back.2.1 measuredAgain finite⟩,
    readBackAgain, readsAgain readBackAgain⟩

end Network

end Sociogram
