import Sociogram.Rule.Matching

/-!
Joins of outcomes as statements about all or some of the rules, and what the
domain of a rule says about the nodes that satisfy it.
-/

namespace Sociogram

/-! ## Joins -/

namespace Join

variable {Item : Type}

theorem combine_and_eq_true (outcome : Item → Bool) (items : List Item) :
    and.combine (items.map outcome) = true ↔ ∀ item ∈ items, outcome item = true := by
  simp [combine]

theorem combine_or_eq_true (outcome : Item → Bool) (items : List Item) :
    or.combine (items.map outcome) = true ↔ ∃ item ∈ items, outcome item = true := by
  simp [combine]

/-- A condition that every outcome contains can be tested once, unless there is no
outcome at all. -/
theorem combine_map_and (join : Join) (outcome : Item → Bool) (shared : Bool)
    {items : List Item} (nonempty : items ≠ []) :
    join.combine (items.map fun item => outcome item && shared) =
      (join.combine (items.map outcome) && shared) := by
  cases shared with
  | true => simp
  | false =>
      cases items with
      | nil => exact absurd rfl nonempty
      | cons head tail => cases join <;> simp [combine]

theorem combine_and_separate (outcome separates : Item → Bool) (items : List Item) :
    and.combine (items.map outcome) =
      (and.combine ((items.filter separates).map outcome) &&
        and.combine ((items.filter fun item => !separates item).map outcome)) := by
  rw [Bool.eq_iff_iff, Bool.and_eq_true]
  simp only [combine_and_eq_true, List.mem_filter]
  constructor
  · intro holds
    exact ⟨fun item member => holds item member.1, fun item member => holds item member.1⟩
  · intro holds item member
    cases side : separates item with
    | true => exact holds.1 item ⟨member, side⟩
    | false => exact holds.2 item ⟨member, by simp [side]⟩

theorem combine_flatMap {Group : Type} (join : Join) (outcome : Item → Bool)
    (members : Group → List Item) (groups : List Group) :
    join.combine (groups.map fun group => join.combine ((members group).map outcome)) =
      join.combine ((groups.flatMap members).map outcome) := by
  rw [Bool.eq_iff_iff]
  cases join with
  | and =>
      simp only [combine_and_eq_true, List.mem_flatMap]
      constructor
      · rintro holds item ⟨group, inside, member⟩
        exact holds group inside item member
      · intro holds group inside item member
        exact holds item ⟨group, inside, member⟩
  | or =>
      simp only [combine_or_eq_true, List.mem_flatMap]
      constructor
      · rintro ⟨group, inside, item, member, holds⟩
        exact ⟨item, ⟨group, inside, member⟩, holds⟩
      · rintro ⟨item, ⟨group, inside, member⟩, holds⟩
        exact ⟨group, inside, item, member, holds⟩

theorem combine_congr_mem (join : Join) (outcome : Item → Bool) {left right : List Item}
    (sameItems : ∀ item, item ∈ left ↔ item ∈ right) :
    join.combine (left.map outcome) = join.combine (right.map outcome) := by
  rw [Bool.eq_iff_iff]
  cases join with
  | and => simp only [combine_and_eq_true, sameItems]
  | or => simp only [combine_or_eq_true, sameItems]

theorem combine_of_all_false (join : Join) {outcome : Item → Bool} {items : List Item}
    (nonempty : items ≠ []) (fails : ∀ item ∈ items, outcome item = false) :
    join.combine (items.map outcome) = false := by
  have allFalse : items.map outcome = items.map fun item => outcome item && false :=
    List.map_congr_left fun item member => by rw [fails item member, Bool.and_false]
  rw [allFalse, combine_map_and join outcome false nonempty, Bool.and_false]

/-- The join that asks for one outcome where the other asks for all. -/
def dual : Join → Join
  | and => or
  | or => and

theorem combine_map_not (join : Join) (outcome : Item → Bool) (items : List Item) :
    join.combine (items.map fun item => !outcome item) =
      !join.dual.combine (items.map outcome) := by
  cases join with
  | and => simp [combine, dual, List.not_any_eq_all_not, Function.comp_def]
  | or => simp [combine, dual, List.not_all_eq_any_not, Function.comp_def]

end Join

/-! ## Rules by domain -/

def Node.namesEgo (node : Node) (ego : Option Node) : Bool :=
  ego.any fun egoNode => egoNode.id == node.id

namespace Rule

theorem matchesNode_congr_ego {rule : Rule} (notEdge : rule.domain ≠ .edge)
    {left right : Surroundings} (sameEgo : left.ego = right.ego) (node : Node) :
    rule.matchesNode left node = rule.matchesNode right node := by
  cases rule with
  | alter rule => rfl
  | edge rule => exact absurd rfl notEdge
  | ego rule => simp only [matchesNode, sameEgo]
  | unrecognized domain options => rfl

theorem matchesNode_of_domain_ego {rule : Rule} (isEgo : rule.domain = .ego)
    (surroundings : Surroundings) (node : Node) :
    rule.matchesNode surroundings node =
      (rule.matchesEgo surroundings.ego && node.namesEgo surroundings.ego) := by
  cases rule with
  | ego rule =>
      cases present : surroundings.ego with
      | none => simp [matchesNode, matchesEgo, present]
      | some egoNode =>
          simp [matchesNode, matchesEgo, present, Node.namesEgo, Bool.and_comm]
  | alter rule => cases isEgo
  | edge rule => cases isEgo
  | unrecognized domain options => cases isEgo

end Rule

/-! ## Rules together -/

/-- Whether a node satisfies rules together, as a join combines them. -/
def Join.passes (join : Join) (rules : List Rule) (surroundings : Surroundings)
    (node : Node) : Bool :=
  join.combine (rules.map fun rule => rule.matchesNode surroundings node)

def RuleSet.passes (ruleSet : RuleSet) : Surroundings → Node → Bool :=
  ruleSet.join.passes ruleSet.rules

theorem Join.filter_passes_and_cons (rule : Rule) (rules : List Rule)
    (surroundings : Surroundings) (nodes : List Node) :
    nodes.filter (and.passes (rule :: rules) surroundings) =
      (nodes.filter (rule.matchesNode surroundings)).filter
        (and.passes rules surroundings) := by
  rw [List.filter_filter]
  apply List.filter_congr
  intro node _
  simp [passes, combine, Bool.and_comm]

end Sociogram
