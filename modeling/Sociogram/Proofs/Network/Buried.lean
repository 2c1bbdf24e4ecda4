import Sociogram.Proofs.Network.ReadBack

/-!
Texts that are nested too deeply. A network passes over nothing that is written of it, so that
its text is read only if all of it lies within the limit on depth.
-/

namespace Sociogram

/-! ## Written values within a limit -/

namespace Json

def writtenWithin (limit : Nat) (value : Json) : Document := value.asWritten.nestedWithin limit

theorem writtenWithin_array (limit : Nat) (items : List Json) :
    (array items).writtenWithin (limit + 1) =
      .sequence .written (items.map (writtenWithin limit)) .closed := by
  rw [writtenWithin, asWritten, itemsAsWritten_eq_map, Document.nestedWithin,
    Document.itemsNestedWithin_eq_map, List.map_map]
  rfl

theorem writtenWithin_object (limit : Nat) (members : List (String × Json)) :
    (object members).writtenWithin (limit + 1) =
      .mapping (members.map fun (key, value) => (.ok key, value.writtenWithin limit)) .closed := by
  rw [writtenWithin, asWritten, membersAsWritten_eq_map, Document.nestedWithin,
    Document.membersNestedWithin_eq_map, List.map_map]
  rfl

end Json

/-- A reader looks at all that is written of a value: it reads the text only if all of it lies
within the limit on depth. -/
def ReadsThroughout {Source Value : Type} (read : Document → Except Problem Value)
    (toJson : Source → Json) : Prop :=
  ∀ source limit value, read ((toJson source).writtenWithin limit) = .ok value →
    (toJson source).depth ≤ limit

open Json (depth_array_le depth_object_le writtenWithin_array writtenWithin_object)

theorem readsThroughout_value : ReadsThroughout Document.value id := by
  intro source
  induction source using Json.inductionOn with
  | null | boolean | integer | float | text => exact fun limit _ _ => Nat.zero_le limit
  | array items induction =>
      intro limit kept reads
      cases limit with
      | zero => cases reads
      | succ limit =>
          simp only [id, writtenWithin_array, Document.value, Document.itemValues_eq_mapM,
            bind_eq_ok] at reads
          obtain ⟨values, readsItems, _⟩ := reads
          refine depth_array_le.mpr fun item member => ?_
          obtain ⟨_, readsItem⟩ := exists_of_mem_items readsItems (List.mem_map_of_mem member)
          exact induction item member limit _ readsItem
  | object members induction =>
      intro limit kept reads
      cases limit with
      | zero => cases reads
      | succ limit =>
          simp only [id, writtenWithin_object, Document.value, Document.memberValues_eq_mapM,
            bind_eq_ok] at reads
          obtain ⟨entries, readsMembers, _⟩ := reads
          refine depth_object_le.mpr fun member inside => ?_
          obtain ⟨_, readsMember⟩ := exists_of_mem_items readsMembers (List.mem_map_of_mem inside)
          simp only [ok_bind, bind_eq_ok] at readsMember
          obtain ⟨_, readsValue, _⟩ := readsMember
          exact induction member inside limit _ readsValue

theorem ReadsThroughout.asList {Source Value : Type} {read : Document → Except Problem Value}
    {toJson : Source → Json} (throughout : ReadsThroughout read toJson) :
    ReadsThroughout (Document.asList read) fun items : List Source =>
      .array (items.map toJson) := by
  intro items limit values reads
  cases limit with
  | zero => cases reads
  | succ limit =>
      simp only [writtenWithin_array, Document.asList, bind_eq_ok, List.map_map] at reads
      obtain ⟨_, readsItems, _⟩ := reads
      refine depth_array_le.mpr (List.forall_mem_map.mpr fun item member => ?_)
      obtain ⟨_, readsItem⟩ := exists_of_mem_items readsItems (List.mem_map_of_mem member)
      exact throughout item limit _ readsItem

theorem AttributeValue.readsThroughout : ReadsThroughout ofDocument toJson := by
  intro value limit result reads
  rw [ofDocument, bind_eq_ok] at reads
  obtain ⟨_, readsJson, _⟩ := reads
  exact readsThroughout_value _ limit _ readsJson

theorem Attributes.readsThroughout : ReadsThroughout ofDocument toJson := by
  intro attributes limit result reads
  obtain ⟨_, readsEntries, _⟩ := map_eq_ok.mp reads
  cases limit with
  | zero => cases readsEntries
  | succ limit =>
      simp only [toJson, writtenWithin_object, Document.asEntries, bind_eq_ok, List.map_map]
        at readsEntries
      obtain ⟨_, readsMembers, _⟩ := readsEntries
      refine depth_object_le.mpr (List.forall_mem_map.mpr fun entry member => ?_)
      obtain ⟨_, readsMember⟩ := exists_of_mem_items readsMembers (List.mem_map_of_mem member)
      simp only [Function.comp_apply, ok_bind, bind_eq_ok] at readsMember
      obtain ⟨_, readsValue, _⟩ := readsMember
      exact AttributeValue.readsThroughout entry.2 limit _ readsValue

/-! ## Records -/

theorem RecordForm.exists_take_of_read {Draft Value : Type} {form : RecordForm Draft Value}
    {limit : Nat} {members : List (String × Json)} {value : Value}
    (reads : form.read ((Json.object members).writtenWithin limit) = .ok value) :
    ∃ below, limit = below + 1 ∧ ∀ member ∈ members, ∃ draft filled,
      form.take draft member.1 (member.2.writtenWithin below) = .ok filled := by
  cases limit with
  | zero => cases reads
  | succ below =>
      refine ⟨below, rfl, fun member inside => ?_⟩
      rw [writtenWithin_object, read_mapping, bind_eq_ok] at reads
      obtain ⟨_, takes, _⟩ := reads
      exact exists_of_mem_steps takes inside

theorem Node.readsThroughout : ReadsThroughout form.read toJson := by
  intro node limit result reads
  obtain ⟨below, rfl, taken⟩ := RecordForm.exists_take_of_read reads
  obtain ⟨_, _, takes⟩ := taken ("attributes", node.attributes.toJson) (by simp)
  simp only [form, take, bind_eq_ok] at takes
  obtain ⟨_, takesOnce, _⟩ := takes
  obtain ⟨_, _, readsAttributes, _⟩ := RecordForm.once_eq_ok.mp takesOnce
  have attributes := Attributes.readsThroughout node.attributes below _ readsAttributes
  exact depth_object_le.mpr (by simp [NodeId.toJson, Json.depth, attributes])

theorem Edge.readsThroughout : ReadsThroughout form.read toJson := by
  intro edge limit result reads
  obtain ⟨below, rfl, taken⟩ := RecordForm.exists_take_of_read reads
  refine depth_object_le.mpr ?_
  by_cases isEmpty : edge.attributes.isEmpty = true
  · simp [isEmpty, NodeId.toJson, Json.depth]
  · obtain ⟨_, _, takes⟩ := taken ("attributes", edge.attributes.toJson) (by simp [isEmpty])
    simp only [form, take, bind_eq_ok] at takes
    obtain ⟨_, takesOnce, _⟩ := takes
    obtain ⟨_, _, readsAttributes, _⟩ := RecordForm.once_eq_ok.mp takesOnce
    have attributes := Attributes.readsThroughout edge.attributes below _ readsAttributes
    simp [isEmpty, NodeId.toJson, Json.depth, attributes]

theorem Node.asOptional_writtenWithin (node : Node) (limit : Nat) :
    (node.toJson.writtenWithin limit).asOptional form.read =
      (form.read (node.toJson.writtenWithin limit)).map some := by
  cases limit <;> rfl

theorem Network.readsThroughout : ReadsThroughout form.read toJson := by
  intro network limit result reads
  obtain ⟨below, rfl, taken⟩ := RecordForm.exists_take_of_read reads
  obtain ⟨_, _, takesNodes⟩ := taken ("nodes", .array (network.nodes.map Node.toJson)) (by simp)
  obtain ⟨_, _, takesEdges⟩ := taken ("edges", .array (network.edges.map Edge.toJson)) (by simp)
  simp only [form, take, bind_eq_ok] at takesNodes takesEdges
  obtain ⟨_, takesNodesOnce, _⟩ := takesNodes
  obtain ⟨_, takesEdgesOnce, _⟩ := takesEdges
  obtain ⟨_, _, readsNodes, _⟩ := RecordForm.once_eq_ok.mp takesNodesOnce
  obtain ⟨_, _, readsEdges, _⟩ := RecordForm.once_eq_ok.mp takesEdgesOnce
  have nodes := Node.readsThroughout.asList network.nodes below _ readsNodes
  have edges := Edge.readsThroughout.asList network.edges below _ readsEdges
  refine depth_object_le.mpr ?_
  cases found : network.ego with
  | none => simp [nodes, edges]
  | some ego =>
      obtain ⟨_, _, takesEgo⟩ := taken ("ego", ego.toJson) (by simp [found])
      simp only [form, take, bind_eq_ok] at takesEgo
      obtain ⟨_, takesEgoOnce, _⟩ := takesEgo
      obtain ⟨_, _, readsEgo, _⟩ := RecordForm.once_eq_ok.mp takesEgoOnce
      rw [ego.asOptional_writtenWithin, map_eq_ok] at readsEgo
      obtain ⟨_, readsNode, _⟩ := readsEgo
      simp [nodes, edges, Node.readsThroughout ego below _ readsNode]

/-! ## Texts with blanks after them -/

theorem JsonText.read_chars_append {Result : Type} {layout : Json.Layout}
    (onlyBlanks : layout.OnlyBlanks) {value : Json}
    (integers : value.Throughout Json.integerIsRead) {blanks : List Char}
    (blank : ∀ character ∈ blanks, isBlank character = true)
    (reader : Document → Except Problem Result) :
    read reader (String.ofList (value.chars layout 0 ++ blanks)) =
      reader (value.reread.writtenWithin depthLimit) := by
  have skipped : skipBlanks blanks = [] := by
    have none := skipBlanks_append blank []
    rwa [List.append_nil] at none
  have ends : EndsNumber blanks := by
    have ends := @endsNumber_append blanks [] blank (by simp [EndsNumber])
    rwa [List.append_nil] at ends
  have enough : 2 * (value.chars layout 0).length ≤ fuelFor (value.chars layout 0 ++ blanks) := by
    rw [fuelFor, List.length_append]
    omega
  have scanned := scansBack onlyBlanks integers 0 _ blanks enough ends
  simp only [read, String.toList_ofList, scanned, Option.map_some, skipped, Json.writtenWithin]
  cases reader (value.reread.asWritten.nestedWithin depthLimit) <;> rfl

/-- The text of a network on a line of its own is read if and only if it is not nested too
deeply, with every value as its text is read. -/
theorem Network.ofText_pretty_line (network result : Network) :
    ofText .json (network.toJson.pretty ++ "\n") = .ok result ↔
      network.toJson.depth ≤ 127 ∧ result = network.reread := by
  have line : network.toJson.pretty ++ "\n" =
      String.ofList (network.toJson.chars .pretty 0 ++ ['\n']) := by
    rw [Json.pretty, String.ofList_append]
  have blank : ∀ character ∈ ['\n'], JsonText.isBlank character = true :=
    List.forall_mem_singleton.mpr rfl
  rw [line, ofText, Format.read_json_eq_ok,
    JsonText.read_chars_append Json.onlyBlanks_pretty network.integerIsRead_toJson blank,
    ← Json.depth_reread_le]
  have reads (shallow : network.toJson.reread.depth ≤ JsonText.depthLimit) :
      form.read (network.toJson.reread.writtenWithin JsonText.depthLimit) =
        .ok network.reread := by
    rw [Json.writtenWithin, Json.nestedWithin_asWritten shallow, network.read_reread_asWritten]
  constructor
  · intro readsResult
    have shallow : network.toJson.reread.depth ≤ JsonText.depthLimit := by
      rw [← network.toJson_reread] at readsResult ⊢
      exact readsThroughout network.reread _ _ readsResult
    exact ⟨shallow, Except.ok.inj (readsResult.symm.trans (reads shallow))⟩
  · rintro ⟨shallow, rfl⟩
    exact reads shallow

end Sociogram
