import Mathlib.Data.Set.Function
import Sociogram.Proofs.Filter.Correspondence
import Sociogram.Proofs.Rule.EdgeIndex

/-!
Identifiers are opaque. When those of a network are renamed, and no two of them to the same
one, filters leave the renamed nodes, and queries do not see a difference. So no identifier
is special, the ego's neither.
-/

namespace Sociogram

/-! ## Renamed networks -/

def Node.renamed (rename : NodeId → NodeId) (node : Node) : Node :=
  { node with id := rename node.id }

def Edge.renamed (rename : NodeId → NodeId) (edge : Edge) : Edge :=
  { edge with source := rename edge.source, target := rename edge.target }

namespace Network

def renamed (rename : NodeId → NodeId) (network : Network) : Network where
  nodes := network.nodes.map (·.renamed rename)
  edges := network.edges.map (·.renamed rename)
  ego := network.ego.map (·.renamed rename)

def identifiers (network : Network) : List NodeId :=
  network.nodes.map (·.id) ++ network.edges.flatMap (fun edge => [edge.source, edge.target]) ++
    network.egoId?.toList

/-- Different identifiers of the network get different names. -/
def KeptApart (rename : NodeId → NodeId) (network : Network) : Prop :=
  Set.InjOn rename {id | id ∈ network.identifiers}

instance (rename : NodeId → NodeId) (network : Network) : Decidable (network.KeptApart rename) :=
  decidable_of_iff
    (∀ one ∈ network.identifiers, ∀ other ∈ network.identifiers,
      rename one = rename other → one = other)
    ⟨fun distinct _ occurs _ otherOccurs => distinct _ occurs _ otherOccurs,
      fun apart _ occurs _ otherOccurs => apart occurs otherOccurs⟩

theorem keptApart_of_injective {rename : NodeId → NodeId} (injective : Function.Injective rename)
    (network : Network) : network.KeptApart rename :=
  injective.injOn

theorem id_mem_identifiers {network : Network} {node : Node} (member : node ∈ network.nodes) :
    node.id ∈ network.identifiers := by
  simp only [identifiers, List.mem_append]
  exact .inl (.inl (List.mem_map_of_mem member))

theorem source_mem_identifiers {network : Network} {edge : Edge}
    (member : edge ∈ network.edges) : edge.source ∈ network.identifiers := by
  simp only [identifiers, List.mem_append, List.mem_flatMap]
  exact .inl (.inr ⟨edge, member, List.mem_cons_self⟩)

theorem target_mem_identifiers {network : Network} {edge : Edge}
    (member : edge ∈ network.edges) : edge.target ∈ network.identifiers := by
  simp only [identifiers, List.mem_append, List.mem_flatMap]
  exact .inl (.inr ⟨edge, member, List.mem_cons_of_mem _ List.mem_cons_self⟩)

theorem egoId_mem_identifiers {network : Network} {ego : Node}
    (present : network.ego = some ego) : ego.id ∈ network.identifiers := by
  simp [identifiers, egoId?, present]

theorem identifiers_restrict_subset {network : Network} {nodes : List Node}
    (subset : nodes ⊆ network.nodes) :
    (network.restrict nodes).identifiers ⊆ network.identifiers := by
  intro id member
  simp only [identifiers, List.mem_append, List.mem_flatMap, restrict_nodes, restrict_edges]
    at member
  rcases member with (ofNode | ⟨edge, kept, atEnd⟩) | ofEgo
  · rcases List.mem_map.mp ofNode with ⟨node, inside, rfl⟩
    exact id_mem_identifiers (subset inside)
  · have inside := List.mem_of_mem_filter kept
    simp only [List.mem_cons, List.not_mem_nil, or_false] at atEnd
    rcases atEnd with rfl | rfl
    · exact source_mem_identifiers inside
    · exact target_mem_identifiers inside
  · exact List.mem_append_right _ ofEgo

namespace KeptApart

variable {rename : NodeId → NodeId} {network : Network} (apart : network.KeptApart rename)

include apart

theorem restrict {nodes : List Node} (subset : nodes ⊆ network.nodes) :
    (network.restrict nodes).KeptApart rename :=
  Set.InjOn.mono (fun _ member => identifiers_restrict_subset subset member) apart

theorem rename_eq_iff {one other : NodeId} (oneOccurs : one ∈ network.identifiers)
    (otherOccurs : other ∈ network.identifiers) : rename one = rename other ↔ one = other :=
  apart.eq_iff oneOccurs otherOccurs

theorem mem_ids_renamed_iff {nodes : List Node} (subset : nodes ⊆ network.nodes) {id : NodeId}
    (occurs : id ∈ network.identifiers) :
    rename id ∈ (nodes.map (·.renamed rename)).map (·.id) ↔ id ∈ nodes.map (·.id) := by
  simp only [List.map_map, List.mem_map, Function.comp_apply, Node.renamed]
  constructor
  · rintro ⟨node, member, equal⟩
    have nodeOccurs := id_mem_identifiers (subset member)
    exact ⟨node, member, (apart.rename_eq_iff nodeOccurs occurs).mp equal⟩
  · rintro ⟨node, member, equal⟩
    exact ⟨node, member, congrArg rename equal⟩

theorem joins_renamed_iff {nodes : List Node} (subset : nodes ⊆ network.nodes) {edge : Edge}
    (member : edge ∈ network.edges) :
    (edge.renamed rename).Joins (nodes.map (·.renamed rename)) ↔ edge.Joins nodes :=
  and_congr (apart.mem_ids_renamed_iff subset (source_mem_identifiers member))
    (apart.mem_ids_renamed_iff subset (target_mem_identifiers member))

theorem restrict_renamed {nodes : List Node} (subset : nodes ⊆ network.nodes) :
    (network.renamed rename).restrict (nodes.map (·.renamed rename)) =
      (network.restrict nodes).renamed rename := by
  have sameEdges : (network.edges.map (·.renamed rename)).filter
        (fun edge => edge.Joins (nodes.map (·.renamed rename))) =
      (network.edges.filter fun edge => edge.Joins nodes).map (·.renamed rename) := by
    rw [List.filter_map]
    congr 1
    apply List.filter_congr
    intro edge member
    exact decide_eq_decide.mpr (apart.joins_renamed_iff subset member)
  rw [restrict_eq, restrict_eq]
  simp only [renamed, sameEdges]

theorem isWellFormed_renamed :
    (network.renamed rename).isWellFormed = network.isWellFormed := by
  rw [Bool.eq_iff_iff, isWellFormed_iff, isWellFormed_iff]
  simp only [renamed, List.forall_mem_map]
  exact forall₂_congr fun _ member => apart.joins_renamed_iff (List.Subset.refl _) member

theorem touches_renamed_iff {edge : Edge} (member : edge ∈ network.edges) (edgeType : String)
    {id : NodeId} (occurs : id ∈ network.identifiers) :
    (edge.renamed rename).Touches edgeType (rename id) ↔ edge.Touches edgeType id := by
  have atSource := apart.rename_eq_iff (source_mem_identifiers member) occurs
  have atTarget := apart.rename_eq_iff (target_mem_identifiers member) occurs
  simp only [Edge.Touches, Edge.renamed, atSource, atTarget]

theorem contains_index_renamed (edgeType : String) {id : NodeId}
    (occurs : id ∈ network.identifiers) :
    (EdgeIndex.ofEdges (network.renamed rename).edges).contains edgeType (rename id) =
      (EdgeIndex.ofEdges network.edges).contains edgeType id := by
  rw [Bool.eq_iff_iff, EdgeIndex.contains_ofEdges, EdgeIndex.contains_ofEdges]
  simp only [renamed, List.mem_map]
  constructor
  · rintro ⟨_, ⟨edge, member, rfl⟩, touches⟩
    exact ⟨edge, member, (apart.touches_renamed_iff member edgeType occurs).mp touches⟩
  · rintro ⟨edge, member, touches⟩
    exact ⟨_, ⟨edge, member, rfl⟩, (apart.touches_renamed_iff member edgeType occurs).mpr touches⟩

theorem namesEgo_renamed {node : Node} (member : node ∈ network.nodes) :
    (node.renamed rename).namesEgo (network.renamed rename).ego = node.namesEgo network.ego := by
  cases present : network.ego with
  | none => simp [renamed, present, Node.namesEgo]
  | some ego =>
      have sameId := apart.rename_eq_iff (egoId_mem_identifiers present)
        (id_mem_identifiers member)
      rw [Bool.eq_iff_iff]
      simpa [renamed, present, Node.namesEgo, Node.renamed] using sameId

end KeptApart

/-! ## A network beside its renamed form -/

/-- The second network is the first one with other identifiers. -/
structure RenamesTo (rename : NodeId → NodeId) (network other : Network) : Prop where
  apart : network.KeptApart rename
  eq_renamed : other = network.renamed rename

namespace RenamesTo

variable {rename : NodeId → NodeId} {left right : Network}
  (renames : RenamesTo rename left right)

include renames

theorem of_mem_zip :
    ∀ pair ∈ left.nodes.zip right.nodes,
      pair.1 ∈ left.nodes ∧ pair.2 = pair.1.renamed rename := by
  have each : List.Forall₂ (fun node other => node ∈ left.nodes ∧ other = node.renamed rename)
      left.nodes right.nodes := by
    rw [renames.eq_renamed, renamed, List.forall₂_map_right_iff, List.forall₂_same]
    exact fun node member => ⟨member, rfl⟩
  exact fun _ member => (List.forall₂_iff_zip.mp each).2 member

theorem restrict {kept : List (Node × Node)} (sublist : kept.Sublist (left.nodes.zip right.nodes)) :
    RenamesTo rename (left.restrict (kept.map Prod.fst)) (right.restrict (kept.map Prod.snd)) := by
  have pairs : ∀ pair ∈ kept, pair.1 ∈ left.nodes ∧ pair.2 = pair.1.renamed rename :=
    fun pair member => renames.of_mem_zip pair (sublist.subset member)
  have subset : kept.map Prod.fst ⊆ left.nodes :=
    List.forall_mem_map.mpr fun pair member => (pairs pair member).1
  have renamedKept : kept.map Prod.snd = (kept.map Prod.fst).map (·.renamed rename) := by
    rw [List.map_map]
    exact List.map_congr_left fun pair member => (pairs pair member).2
  refine ⟨renames.apart.restrict subset, ?_⟩
  rw [renamedKept, renames.eq_renamed]
  exact renames.apart.restrict_renamed subset

end RenamesTo

theorem correspondence_renamesTo (rename : NodeId → NodeId) :
    Correspondence (RenamesTo rename) where
  length := by
    intro left right renames
    rw [renames.eq_renamed, renamed, List.length_map]
  sameIds := by
    intro left right renames pair member other otherMember
    rcases renames.of_mem_zip pair member with ⟨inside, renamedPair⟩
    rcases renames.of_mem_zip other otherMember with ⟨otherInside, renamedOther⟩
    rw [renamedPair, renamedOther]
    exact (renames.apart.rename_eq_iff (id_mem_identifiers inside)
      (id_mem_identifiers otherInside)).symm
  restrict := fun renames _ sublist => renames.restrict sublist

end Network

/-! ## Verdicts of rules -/

theorem Rule.matchesEgo_renamed (rule : Rule) (rename : NodeId → NodeId) (ego : Option Node) :
    rule.matchesEgo (ego.map (·.renamed rename)) = rule.matchesEgo ego := by
  cases rule <;> cases ego <;> rfl

theorem Rule.sameVerdicts_of_renamesTo (rename : NodeId → NodeId) (rule : Rule) :
    SameVerdicts (Network.RenamesTo rename) rule rule where
  domain := rfl
  ego := by
    intro left right renames
    rw [renames.eq_renamed]
    exact (rule.matchesEgo_renamed rename left.ego).symm
  node := by
    intro left right renames pair member
    rcases renames.of_mem_zip pair member with ⟨inside, renamedPair⟩
    rw [renamedPair, renames.eq_renamed]
    cases rule with
    | alter alterRule => rfl
    | edge edgeRule =>
        have occurs := Network.id_mem_identifiers inside
        exact (EdgeRule.matchesNode_congr_contains
          (renames.apart.contains_index_renamed edgeRule.edgeType occurs)).symm
    | ego egoRule =>
        rw [matchesNode_of_domain_ego rfl, matchesNode_of_domain_ego rfl]
        exact congrArg₂ and (matchesEgo_renamed _ rename left.ego).symm
          (renames.apart.namesEgo_renamed inside).symm
    | unrecognized domain options => rfl

/-! ## Main statement -/

/-- When the identifiers of a network are renamed, and different ones stay different, either
filter leaves the renamed form of what it left before, and queries have the same answer. The
renamed network is as well formed as before and is trimmed to the renamed form of the
trimmed one. -/
theorem renaming_commutes_with_filtering (rename : NodeId → NodeId) (network : Network)
    (apart : network.KeptApart rename) :
    (∀ ruleSet : RuleSet,
      (∀ strategy, ruleSet.filtered strategy (network.renamed rename) =
        (ruleSet.filtered strategy network).renamed rename) ∧
      (Query.ofRuleSet ruleSet).evaluate (network.renamed rename) =
        (Query.ofRuleSet ruleSet).evaluate network) ∧
      (network.renamed rename).isWellFormed = network.isWellFormed ∧
      (network.renamed rename).trimOrphans = network.trimOrphans.renamed rename := by
  have correspondence := Network.correspondence_renamesTo rename
  have renames : Network.RenamesTo rename network (network.renamed rename) := ⟨apart, rfl⟩
  refine ⟨fun ruleSet => ?_, apart.isWellFormed_renamed, ?_⟩
  · have verdicts := RuleSet.sameVerdicts_self (Rule.sameVerdicts_of_renamesTo rename) ruleSet
    constructor
    · intro strategy
      have cut := RuleSet.cutAlike_filtered verdicts correspondence renames strategy
      exact cut.related.eq_renamed
    · exact (Query.evaluate_of_sameVerdicts correspondence renames verdicts).symm
  · exact apart.restrict_renamed (List.Subset.refl network.nodes)

def NodeId.numbered (id : NodeId) : NodeId :=
  if id = ⟨"a"⟩ then .ofInt 1 else if id = ⟨"b"⟩ then .ofInt 2 else .ofInt 3

theorem renaming_commutes_with_filtering_tangled :
    let exchanged : NodeId → NodeId := Equiv.swap ⟨"a"⟩ ⟨"ego"⟩
    let ruleSet := RuleSet.mixed .and
    Network.tangled.KeptApart exchanged ∧ Network.tangled.KeptApart NodeId.numbered ∧
      (∀ strategy, ruleSet.filtered strategy (Network.tangled.renamed exchanged) =
        (ruleSet.filtered strategy .tangled).renamed exchanged) ∧
      (ruleSet.filtered .standard (Network.tangled.renamed exchanged)).nodes.map (·.id.text) =
        ["ego"] ∧
      (∀ strategy, ruleSet.filtered strategy (Network.tangled.renamed .numbered) =
        (ruleSet.filtered strategy .tangled).renamed .numbered) ∧
      (ruleSet.filtered .standard (Network.tangled.renamed .numbered)).nodes.map (·.id.text) =
        ["1"] := by
  intro exchanged ruleSet
  have exchangedApart : Network.tangled.KeptApart exchanged :=
    Network.keptApart_of_injective (Equiv.injective _) .tangled
  have numberedApart : Network.tangled.KeptApart NodeId.numbered := by decide +kernel
  have underExchange := renaming_commutes_with_filtering exchanged .tangled exchangedApart
  have underNumbers := renaming_commutes_with_filtering .numbered .tangled numberedApart
  exact ⟨exchangedApart, numberedApart, (underExchange.1 ruleSet).1, by decide +kernel,
    (underNumbers.1 ruleSet).1, by decide +kernel⟩

end Sociogram
