import Mathlib.Logic.Function.Iterate
import Sociogram.Proofs.Filter.Divergence

/-!
Networks that filtering leaves as they are. Every result is a part of the one before it,
so that filtering over and over settles after about as many times as there are nodes,
whatever the rules. Under `and` a network is left as it is only if every node satisfies
every rule in it, and then always if it is well formed.
-/

namespace Sociogram

/-! ## Steps that take parts -/

namespace Network

section

variable {step : Network → Network}
  (induced : ∀ network, (step network).InducedIn network)

include induced

theorem iterate_inducedIn (network : Network) (times : Nat) :
    (step^[times + 1] network).InducedIn network := by
  induction times with
  | zero => exact induced network
  | succ times induction =>
      rw [Function.iterate_succ_apply']
      exact (induced _).trans induction

/-- From the second time on, a result that has lost no node has lost no edge either. The
first one may have lost edges that name absent nodes. -/
theorem iterate_unchanged_or_shorter (network : Network) (times : Nat) :
    step (step^[times + 1] network) = step^[times + 1] network ∨
      (step (step^[times + 1] network)).nodes.length <
        (step^[times + 1] network).nodes.length := by
  have wellFormed := (iterate_inducedIn induced network times).isWellFormed
  rcases Nat.lt_or_ge (step (step^[times + 1] network)).nodes.length
      (step^[times + 1] network).nodes.length with lost | same
  · exact .inr lost
  · exact .inl ((induced _).eq_of_length_le wellFormed same)

theorem iterate_settled_or_shorter (network : Network) (times : Nat) :
    step (step^[times + 1] network) = step^[times + 1] network ∨
      (step^[times + 1] network).nodes.length + times ≤ network.nodes.length := by
  induction times with
  | zero => exact .inr (induced network).nodes.length_le
  | succ times induction =>
      rw [Function.iterate_succ_apply' step (times + 1)]
      rcases induction with settled | shorter
      · exact .inl (congrArg step settled)
      · rcases iterate_unchanged_or_shorter induced network times with unchanged | lost
        · exact .inl (congrArg step unchanged)
        · exact .inr (by omega)

theorem iterate_settles (network : Network) :
    step (step^[network.nodes.length + 1] network) = step^[network.nodes.length + 1] network := by
  rcases iterate_settled_or_shorter induced network network.nodes.length with settled | shorter
  · exact settled
  · have wellFormed := (iterate_inducedIn induced network network.nodes.length).isWellFormed
    exact (induced _).eq_of_length_le wellFormed (by omega)

theorem iterate_of_le (network : Network) {times : Nat}
    (enough : network.nodes.length + 1 ≤ times) :
    step^[times] network = step^[network.nodes.length + 1] network := by
  obtain ⟨more, equal⟩ := Nat.exists_eq_add_of_le' enough
  rw [equal, Function.iterate_add_apply]
  exact Function.iterate_fixed (iterate_settles induced network) more

end

end Network

/-! ## Stages that change nothing -/

namespace Filter

theorem narrow_eq_self {network : Network} (wellFormed : network.isWellFormed = true)
    {rule : Rule}
    (matched : ∀ node ∈ network.nodes, rule.matchesNode (.ofNetwork network) node = true) :
    narrow network rule = network := by
  rw [narrow, List.filter_eq_self.mpr matched]
  exact Network.restrict_own_nodes wellFormed

theorem foldl_narrow_eq_self {rules : List Rule} {network : Network}
    (wellFormed : network.isWellFormed = true)
    (matched : ∀ rule ∈ rules, ∀ node ∈ network.nodes,
      rule.matchesNode (.ofNetwork network) node = true) :
    rules.foldl narrow network = network := by
  induction rules with
  | nil => rfl
  | cons first rest induction =>
      have stage : narrow network first = network :=
        narrow_eq_self wellFormed (matched first List.mem_cons_self)
      rw [List.foldl_cons, stage]
      exact induction fun rule member => matched rule (List.mem_cons_of_mem first member)

/-- Stages that together change nothing change nothing one by one, since none can bring
back what another one took. -/
theorem matchesNode_of_foldl_narrow_eq_self {rules : List Rule} {network : Network}
    (unchanged : rules.foldl narrow network = network) :
    ∀ rule ∈ rules, ∀ node ∈ network.nodes,
      rule.matchesNode (.ofNetwork network) node = true := by
  induction rules with
  | nil => simp
  | cons first rest induction =>
      rw [List.foldl_cons] at unchanged
      have later : network.PartOf (narrow network first) := by
        have stages := foldl_narrow_partOf rest (narrow network first)
        rwa [unchanged] at stages
      have stage : narrow network first = network :=
        (narrow_partOf network first).antisymm later
      rw [stage] at unchanged
      have firstMatched : ∀ node ∈ network.nodes,
          first.matchesNode (.ofNetwork network) node = true := by
        intro node member
        rw [← stage] at member
        exact (List.mem_filter.mp member).2
      exact List.forall_mem_cons.mpr ⟨firstMatched, induction unchanged⟩

end Filter

namespace RuleSet

/-! ## Rules that hold throughout -/

/-- Every node of the network satisfies every rule in it. -/
def HoldsThroughout (ruleSet : RuleSet) (network : Network) : Prop :=
  ∀ node ∈ network.nodes, ∀ rule ∈ ruleSet.rules,
    rule.matchesNode (.ofNetwork network) node = true

section

variable {ruleSet : RuleSet} (conjunctive : ruleSet.join = .and)

include conjunctive

theorem filtered_eq_self (strategy : Strategy) {network : Network}
    (wellFormed : network.isWellFormed = true) (holds : ruleSet.HoldsThroughout network) :
    ruleSet.filtered strategy network = network := by
  cases strategy with
  | standard =>
      rw [filtered, Filter.apply_ofRuleSet_of_and conjunctive]
      exact Filter.foldl_narrow_eq_self wellFormed
        fun rule ofRules node member => holds node member rule ofRules
  | singlePass =>
      by_cases vacuous : ruleSet.rules = []
      · exact filtered_of_and_nil conjunctive vacuous .singlePass network
      · have allPass : ∀ node ∈ network.nodes,
            ruleSet.passes (.ofNetwork network) node = true := fun node member =>
          (passes_of_and_iff conjunctive _ node).mpr (holds node member)
        rw [filtered, SinglePassFilter.apply_ofRuleSet ruleSet vacuous,
          List.filter_eq_self.mpr allPass]
        exact Network.restrict_own_nodes wellFormed

theorem holdsThroughout_of_filtered_eq_self (strategy : Strategy) {network : Network}
    (unchanged : ruleSet.filtered strategy network = network) :
    ruleSet.HoldsThroughout network := by
  intro node member rule ofRules
  cases strategy with
  | standard =>
      rw [filtered, Filter.apply_ofRuleSet_of_and conjunctive] at unchanged
      exact Filter.matchesNode_of_foldl_narrow_eq_self unchanged rule ofRules node member
  | singlePass =>
      have nonempty : ruleSet.rules ≠ [] := List.ne_nil_of_mem ofRules
      rw [← unchanged, mem_singlePass_nodes conjunctive nonempty] at member
      exact member.2 rule ofRules

end

/-! ## Over and over

The empty conjunction takes nothing away, not even edges that name absent nodes, and is
settled from the start. -/

theorem iterate_filtered_unchanged_or_shorter (ruleSet : RuleSet) (strategy : Strategy)
    (network : Network) (times : Nat) :
    let result := (ruleSet.filtered strategy)^[times + 1] network
    ruleSet.filtered strategy result = result ∨
      (ruleSet.filtered strategy result).nodes.length < result.nodes.length := by
  intro result
  by_cases vacuous : ruleSet.join = .and ∧ ruleSet.rules = []
  · exact .inl (filtered_of_and_nil vacuous.1 vacuous.2 strategy result)
  · exact Network.iterate_unchanged_or_shorter (filtered_inducedIn vacuous strategy) network times

theorem iterate_filtered_settles (ruleSet : RuleSet) (strategy : Strategy)
    (network : Network) :
    let final := (ruleSet.filtered strategy)^[network.nodes.length + 1] network
    ruleSet.filtered strategy final = final := by
  intro final
  by_cases vacuous : ruleSet.join = .and ∧ ruleSet.rules = []
  · exact filtered_of_and_nil vacuous.1 vacuous.2 strategy final
  · exact Network.iterate_settles (filtered_inducedIn vacuous strategy) network

/-- Under `and`, whatever the rules ask for, filtering over and over settles, after one
time more than there are nodes at the latest, on a network in which every node
satisfies every rule. On the way nothing comes back, and after the first result each one
has lost a node or is the one before it. -/
theorem repeated_filtering_settles (ruleSet : RuleSet) (conjunctive : ruleSet.join = .and)
    (strategy : Strategy) (network : Network) :
    let result := fun times => (ruleSet.filtered strategy)^[times] network
    let final := result (network.nodes.length + 1)
    ruleSet.filtered strategy final = final ∧ ruleSet.HoldsThroughout final ∧
      (∀ times, (result (times + 1)).nodes.Sublist (result times).nodes ∧
        (result (times + 1)).edges.Sublist (result times).edges) ∧
      ∀ times, result (times + 2) = result (times + 1) ∨
        (result (times + 2)).nodes.length < (result (times + 1)).nodes.length := by
  intro result final
  have settled : ruleSet.filtered strategy final = final :=
    iterate_filtered_settles ruleSet strategy network
  have next (times : Nat) : result (times + 1) = ruleSet.filtered strategy (result times) :=
    Function.iterate_succ_apply' _ times network
  refine ⟨settled, holdsThroughout_of_filtered_eq_self conjunctive strategy settled, ?_, ?_⟩
  · intro times
    have part : (result (times + 1)).PartOf (result times) := by
      rw [next]
      exact ruleSet.filtered_partOf strategy (result times)
    exact ⟨part.nodes, part.edges⟩
  · intro times
    rw [next (times + 1)]
    exact iterate_filtered_unchanged_or_shorter ruleSet strategy network times

def friendly : RuleSet where
  join := .and
  entries :=
    [⟨.edge ⟨"likes", .exists⟩, none⟩, ⟨.edge ⟨"knows", .exists⟩, none⟩,
      ⟨.edge ⟨"avoids", .notExists⟩, none⟩]

end RuleSet

def Network.village : Network where
  nodes := ["a", "b", "c", "d", "e", "f", "g"].map fun name => ⟨⟨name⟩, "person", .empty⟩
  edges :=
    [⟨⟨"a"⟩, ⟨"b"⟩, "likes", .empty⟩, ⟨⟨"b"⟩, ⟨"c"⟩, "knows", .empty⟩,
      ⟨⟨"c"⟩, ⟨"d"⟩, "likes", .empty⟩, ⟨⟨"d"⟩, ⟨"e"⟩, "knows", .empty⟩,
      ⟨⟨"e"⟩, ⟨"z"⟩, "likes", .empty⟩, ⟨⟨"f"⟩, ⟨"a"⟩, "avoids", .empty⟩,
      ⟨⟨"f"⟩, ⟨"g"⟩, "likes", .empty⟩, ⟨⟨"f"⟩, ⟨"g"⟩, "knows", .empty⟩]
  ego := none

namespace RuleSet

/-- With rules of both kinds the two ways of filtering may settle on different networks:
in the single pass the couple is separated before the avoided one has gone. -/
theorem repeated_filtering_settles_village :
    let final := fun strategy => (friendly.filtered strategy)^[8] .village
    friendly.join = .and ∧
      (∀ strategy, friendly.filtered strategy (final strategy) = final strategy ∧
        friendly.HoldsThroughout (final strategy)) ∧
      (final .standard).nodes.map (·.id.text) = ["f", "g"] ∧
      (final .singlePass).nodes.map (·.id.text) = [] := by
  intro final
  have settles (strategy : Strategy) :=
    repeated_filtering_settles friendly rfl strategy .village
  exact ⟨rfl, fun strategy => ⟨(settles strategy).1, (settles strategy).2.1⟩,
    by decide +kernel, by decide +kernel⟩

end RuleSet

end Sociogram
