import Sociogram.Proofs.List.Related
import Sociogram.Proofs.Number.Exact
import Sociogram.Proofs.Query.Grouping

/-!
Counts against existence. To ask for any number of matching nodes is to ask for one, and to
ask for none is to ask for the contrary, although counts are compared as floating-point
numbers: rounding makes no count zero. Only from `2 ^ 63` on does a count turn negative.
-/

namespace Sociogram

/-! ## Counts as numbers -/

namespace Binary64

theorem roundedUnits_pos {count : Nat} (bounded : count ≤ 2 ^ 63) (positive : 0 < count) :
    0 < roundedUnits count := by
  have kept := (keptDigits_bounds positive).1
  rw [roundedUnits_eq bounded]
  exact Nat.mul_pos (by omega) (Nat.two_pow_pos _)

theorem units?_ofNat {count : Nat} (bounded : count ≤ 2 ^ 63) :
    (ofInt count).units? = some (roundedUnits count : Int) := by
  have notNegative : decide ((count : Int) < 0) = false := decide_eq_false (by omega)
  rw [units?_ofInt (by omega), notNegative, Int.natAbs_natCast]
  rfl

theorem units?_zero : (zero false).units? = some 0 := by decide +kernel

theorem order?_ofNat_zero {count : Nat} (bounded : count ≤ 2 ^ 63) :
    (ofInt count).order? (zero false) = some (compare count 0) := by
  rw [order?, units?_ofNat bounded, units?_zero]
  rcases Nat.eq_zero_or_pos count with none | positive
  · have rounded : roundedUnits 0 = 0 := by
      rw [roundedUnits_of_le (Nat.zero_le _), Nat.zero_mul]
    rw [none, rounded]
    rfl
  · have rounded : (0 : Int) < roundedUnits count := by
      exact_mod_cast roundedUnits_pos bounded positive
    simp only [Int.compare_eq_gt.mpr rounded, Nat.compare_eq_gt.mpr positive]

end Binary64

namespace Operator

section

variable {count : Nat} (bounded : count < 2 ^ 63) (expected : Binary64)

include bounded

theorem asFloat?_integer_count :
    (AttributeValue.integer (Int64.ofNat count)).asFloat? = some (.ofInt count) := by
  rw [AttributeValue.asFloat?, Int64.toInt_ofNat_of_lt bounded]

theorem countAny_holdsForCount : countAny.holdsForCount count expected = decide (0 < count) := by
  rw [holdsForCount, holds, asFloat?_integer_count bounded]
  simp only [Binary64.order?_ofNat_zero (Nat.le_of_lt bounded)]
  rw [Bool.eq_iff_iff, beq_iff_eq, Option.some_inj, Nat.compare_eq_gt, decide_eq_true_iff]

theorem countNone_holdsForCount : countNone.holdsForCount count expected = decide (count = 0) := by
  rw [holdsForCount, holds, asFloat?_integer_count bounded]
  simp only [Binary64.sameValue, Binary64.order?_ofNat_zero (Nat.le_of_lt bounded)]
  rw [Bool.eq_iff_iff, beq_iff_eq, Option.some_inj, Nat.compare_eq_eq, decide_eq_true_iff]

end

/-- A count that a 64-bit integer cannot hold is a negative one. -/
example : countAny.holdsForCount (2 ^ 63) .nan = false ∧
    countAny.holdsForCount (2 ^ 63 - 1) .nan = true := by
  decide +kernel

end Operator

/-! ## Counts in entries -/

namespace RuleEntry

/-- The same entry, or one that asks for any count of matches where this one has no count. -/
def MayCountAny (entry counted : RuleEntry) : Prop :=
  counted = entry ∨
    entry.count = none ∧ ∃ expected, counted = ⟨entry.rule, some ⟨.countAny, expected⟩⟩

/-- The rule looks at nodes and asks for no match. -/
def CountsNone (entry : RuleEntry) : Prop :=
  (entry.rule.domain = .alter ∨ entry.rule.domain = .edge) ∧
    ∃ expected, entry.count = some ⟨.countNone, expected⟩

def withoutCount (entry : RuleEntry) : RuleEntry := ⟨entry.rule, none⟩

section

variable {network : Network} (fewNodes : network.nodes.length < 2 ^ 63)

include fewNodes

theorem length_matching_lt (rule : Rule) : (network.matching rule).length < 2 ^ 63 :=
  Nat.lt_of_le_of_lt (List.length_filter_le _ _) fewNodes

theorem outcome_of_countAny (rule : Rule) (expected : Binary64) :
    outcome ⟨rule, some ⟨.countAny, expected⟩⟩ network = outcome ⟨rule, none⟩ network := by
  have counted := Operator.countAny_holdsForCount (length_matching_lt fewNodes rule) expected
  have someMatch : decide (0 < (network.matching rule).length) =
      !(network.matching rule).isEmpty := by
    cases network.matching rule <;> simp
  rw [someMatch] at counted
  cases domain : rule.domain with
  | alter => simp only [outcome, domain, counted]
  | edge => simp only [outcome, domain, counted]
  | ego => simp only [outcome, domain]
  | unrecognized => simp only [outcome, domain]

theorem outcome_of_mayCountAny {entry counted : RuleEntry} (mayCount : entry.MayCountAny counted) :
    counted.outcome network = entry.outcome network := by
  rcases entry with ⟨rule, count⟩
  rcases mayCount with equal | ⟨uncounted, expected, equal⟩
  · rw [equal]
  · rw [equal, outcome_of_countAny fewNodes]
    congr
    exact uncounted.symm

theorem outcome_of_countsNone {entry : RuleEntry} (countsNone : entry.CountsNone) :
    entry.outcome network = !entry.withoutCount.outcome network := by
  rcases countsNone with ⟨looksAtNodes, expected, count⟩
  have counted :=
    Operator.countNone_holdsForCount (length_matching_lt fewNodes entry.rule) expected
  have noMatch : decide ((network.matching entry.rule).length = 0) =
      (network.matching entry.rule).isEmpty := by
    cases network.matching entry.rule <;> simp
  rw [noMatch] at counted
  rcases looksAtNodes with alter | edge
  · simp only [outcome, withoutCount, alter, count, counted, Bool.not_not]
  · simp only [outcome, withoutCount, edge, count, counted, Bool.not_not]

end

end RuleEntry

/-! ## Counts in rule sets -/

namespace RuleSet

section

variable {network : Network} (fewNodes : network.nodes.length < 2 ^ 63)

include fewNodes

theorem outcome_of_mayCountAny {ruleSet counted : RuleSet} (sameJoin : counted.join = ruleSet.join)
    (mayCount : List.Forall₂ RuleEntry.MayCountAny ruleSet.entries counted.entries) :
    counted.outcome network = ruleSet.outcome network := by
  have sameOutcome (entry other : RuleEntry) (mayCountOther : entry.MayCountAny other) :
      entry.outcome network = other.outcome network :=
    (RuleEntry.outcome_of_mayCountAny fewNodes mayCountOther).symm
  rw [outcome, outcome, sameJoin, map_eq_map_of_forall₂ sameOutcome mayCount]

theorem outcome_of_countsNone (join : Join) {entries : List RuleEntry}
    (countsNone : ∀ entry ∈ entries, entry.CountsNone) :
    (RuleSet.mk join entries).outcome network =
      !(RuleSet.mk join.dual (entries.map (·.withoutCount))).outcome network := by
  have negated : entries.map (fun entry => entry.outcome network) =
      entries.map fun entry => !entry.withoutCount.outcome network :=
    List.map_congr_left fun entry member =>
      RuleEntry.outcome_of_countsNone fewNodes (countsNone entry member)
  rw [outcome, outcome, negated, Join.combine_map_not, List.map_map]
  rfl

end

end RuleSet

namespace Query

/-- On fewer than `2 ^ 63` nodes a query may count instead of looking for a match. Entries
without a count may ask for any count, whatever value goes with it. Under either join, rules
about nodes that ask for no match have the contrary answer to that of the same rules without
counts under the other join. -/
theorem counting_agrees_with_existence (network : Network)
    (fewNodes : network.nodes.length < 2 ^ 63) :
    (∀ ruleSet counted : RuleSet, counted.join = ruleSet.join →
        List.Forall₂ RuleEntry.MayCountAny ruleSet.entries counted.entries →
          (ofRuleSet counted).evaluate network = (ofRuleSet ruleSet).evaluate network) ∧
      ∀ entries : List RuleEntry, (∀ entry ∈ entries, entry.CountsNone) →
        let uncounted := entries.map (·.withoutCount)
        (ofRuleSet ⟨.and, entries⟩).evaluate network =
            !(ofRuleSet ⟨.or, uncounted⟩).evaluate network ∧
          (ofRuleSet ⟨.or, entries⟩).evaluate network =
            !(ofRuleSet ⟨.and, uncounted⟩).evaluate network := by
  constructor
  · intro ruleSet counted sameJoin mayCount
    rw [evaluate_ofRuleSet, evaluate_ofRuleSet]
    exact RuleSet.outcome_of_mayCountAny fewNodes sameJoin mayCount
  · intro entries countsNone uncounted
    simp only [evaluate_ofRuleSet]
    exact ⟨RuleSet.outcome_of_countsNone fewNodes .and countsNone,
      RuleSet.outcome_of_countsNone fewNodes .or countsNone⟩

theorem counting_agrees_with_existence_tangled :
    let places : Rule := .alter (.ofType "place" .exists)
    let pets : Rule := .alter (.ofType "pet" .exists)
    let liked : Rule := .edge ⟨"likes", .exists⟩
    let nameless : Rule := .ego ⟨"name", some .notExists, .null⟩
    let plain : RuleSet := ⟨.and, [⟨places, none⟩, ⟨liked, none⟩, ⟨nameless, none⟩]⟩
    let counted : RuleSet :=
      ⟨.and, [⟨places, some ⟨.countAny, .nan⟩⟩, ⟨liked, none⟩, ⟨nameless, some ⟨.countAny, .nan⟩⟩]⟩
    let absent : List RuleEntry :=
      [⟨pets, some ⟨.countNone, .nan⟩⟩, ⟨liked, some ⟨.countNone, .zero false⟩⟩]
    Network.tangled.nodes.length < 2 ^ 63 ∧
      List.Forall₂ RuleEntry.MayCountAny plain.entries counted.entries ∧
      (ofRuleSet counted).evaluate .tangled = (ofRuleSet plain).evaluate .tangled ∧
      (ofRuleSet plain).evaluate .tangled = true ∧
      (∀ entry ∈ absent, entry.CountsNone) ∧
      (ofRuleSet ⟨.and, absent⟩).evaluate .tangled =
        !(ofRuleSet ⟨.or, absent.map (·.withoutCount)⟩).evaluate .tangled ∧
      (ofRuleSet ⟨.and, absent⟩).evaluate .tangled = false ∧
      (ofRuleSet ⟨.or, absent⟩).evaluate .tangled =
        !(ofRuleSet ⟨.and, absent.map (·.withoutCount)⟩).evaluate .tangled ∧
      (ofRuleSet ⟨.or, absent⟩).evaluate .tangled = true := by
  intro places pets liked nameless plain counted absent
  have fewNodes : Network.tangled.nodes.length < 2 ^ 63 := by decide
  have mayCount : List.Forall₂ RuleEntry.MayCountAny plain.entries counted.entries :=
    .cons (.inr ⟨rfl, .nan, rfl⟩) (.cons (.inl rfl) (.cons (.inr ⟨rfl, .nan, rfl⟩) .nil))
  have countsNone : ∀ entry ∈ absent, entry.CountsNone := by
    simp [absent, RuleEntry.CountsNone, pets, liked, Rule.domain]
  have agreement := counting_agrees_with_existence .tangled fewNodes
  have contrary := agreement.2 absent countsNone
  exact ⟨fewNodes, mayCount, agreement.1 plain counted rfl mayCount, by decide +kernel,
    countsNone, contrary.1, by decide +kernel, contrary.2, by decide +kernel⟩

end Query

end Sociogram
