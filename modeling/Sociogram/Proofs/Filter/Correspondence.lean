import Sociogram.Proofs.Filter.Agreement
import Sociogram.Proofs.Filter.Induced
import Sociogram.Proofs.List.Related
import Sociogram.Proofs.Query.Grouping

/-!
Two networks side by side. Their nodes correspond position by position, and rules have the
same verdicts on nodes that do. As long as this is so of what each stage leaves, both ways
of filtering keep nodes at the same positions, and queries have the same answer.
-/

namespace Sociogram

namespace Network

/-! ## Positions -/

def SamePositions (left right leftPart rightPart : Network) : Prop :=
  ∃ kept : List (Node × Node), kept.Sublist (left.nodes.zip right.nodes) ∧
    leftPart.nodes = kept.map Prod.fst ∧ rightPart.nodes = kept.map Prod.snd

theorem SamePositions.trans {left right leftMiddle rightMiddle leftPart rightPart : Network}
    (outer : SamePositions left right leftMiddle rightMiddle)
    (inner : SamePositions leftMiddle rightMiddle leftPart rightPart) :
    SamePositions left right leftPart rightPart := by
  rcases outer with ⟨keptFirst, sublistFirst, leftFirst, rightFirst⟩
  rcases inner with ⟨kept, sublist, leftKept, rightKept⟩
  rw [leftFirst, rightFirst, zip_map_fst_map_snd] at sublist
  exact ⟨kept, sublist.trans sublistFirst, leftKept, rightKept⟩

/-- A relation between networks whose nodes correspond position by position. The same
nodes share an identifier on either side, and the relation passes to the parts on nodes at
the same positions. -/
structure Correspondence (related : Network → Network → Prop) : Prop where
  length : ∀ {left right : Network}, related left right →
    left.nodes.length = right.nodes.length
  sameIds : ∀ {left right : Network}, related left right →
    ∀ pair ∈ left.nodes.zip right.nodes, ∀ other ∈ left.nodes.zip right.nodes,
      pair.1.id = other.1.id ↔ pair.2.id = other.2.id
  restrict : ∀ {left right : Network}, related left right →
    ∀ {kept : List (Node × Node)}, kept.Sublist (left.nodes.zip right.nodes) →
      related (left.restrict (kept.map Prod.fst)) (right.restrict (kept.map Prod.snd))

end Network

/-- Rules that related networks cannot tell apart: on corresponding nodes, and on the egos,
their verdicts are the same. -/
structure Rule.SameVerdicts (related : Network → Network → Prop) (rule other : Rule) : Prop where
  domain : rule.domain = other.domain
  node : ∀ {left right : Network}, related left right →
    ∀ pair ∈ left.nodes.zip right.nodes,
      rule.matchesNode (.ofNetwork left) pair.1 = other.matchesNode (.ofNetwork right) pair.2
  ego : ∀ {left right : Network}, related left right →
    rule.matchesEgo left.ego = other.matchesEgo right.ego

structure RuleEntry.SameVerdicts (related : Network → Network → Prop) (entry other : RuleEntry) :
    Prop where
  rule : Rule.SameVerdicts related entry.rule other.rule
  count : entry.count = other.count

structure RuleSet.SameVerdicts (related : Network → Network → Prop) (ruleSet other : RuleSet) :
    Prop where
  join : ruleSet.join = other.join
  entries : List.Forall₂ (RuleEntry.SameVerdicts related) ruleSet.entries other.entries

theorem RuleSet.SameVerdicts.rules {related : Network → Network → Prop} {ruleSet other : RuleSet}
    (verdicts : SameVerdicts related ruleSet other) :
    List.Forall₂ (Rule.SameVerdicts related) ruleSet.rules other.rules := by
  rw [RuleSet.rules, RuleSet.rules, List.forall₂_map_left_iff, List.forall₂_map_right_iff]
  exact verdicts.entries.imp fun _ _ same => same.rule

theorem RuleSet.sameVerdicts_self {related : Network → Network → Prop}
    (verdicts : ∀ rule, Rule.SameVerdicts related rule rule) (ruleSet : RuleSet) :
    SameVerdicts related ruleSet ruleSet where
  join := rfl
  entries := List.forall₂_same.mpr fun entry _ => ⟨verdicts entry.rule, rfl⟩

/-! ## Parts on the same nodes -/

namespace Network

/-- Two parts have kept nodes at the same positions, and are related as the networks are. -/
structure CutAlike (related : Network → Network → Prop)
    (left right leftPart rightPart : Network) : Prop where
  positions : SamePositions left right leftPart rightPart
  related : related leftPart rightPart

variable {related : Network → Network → Prop} {left right : Network}

theorem CutAlike.trans {leftMiddle rightMiddle leftPart rightPart : Network}
    (outer : CutAlike related left right leftMiddle rightMiddle)
    (inner : CutAlike related leftMiddle rightMiddle leftPart rightPart) :
    CutAlike related left right leftPart rightPart :=
  ⟨outer.positions.trans inner.positions, inner.related⟩

namespace Correspondence

variable (correspondence : Correspondence related) (alike : related left right)

include correspondence alike

theorem map_fst_zip : (left.nodes.zip right.nodes).map Prod.fst = left.nodes :=
  List.map_fst_zip (Nat.le_of_eq (correspondence.length alike))

theorem map_snd_zip : (left.nodes.zip right.nodes).map Prod.snd = right.nodes :=
  List.map_snd_zip (Nat.le_of_eq (correspondence.length alike).symm)

theorem cutAlike_refl : CutAlike related left right left right :=
  ⟨⟨_, .refl _, (correspondence.map_fst_zip alike).symm, (correspondence.map_snd_zip alike).symm⟩,
    alike⟩

theorem cutAlike_restrict {kept : List (Node × Node)}
    (sublist : kept.Sublist (left.nodes.zip right.nodes)) :
    CutAlike related left right (left.restrict (kept.map Prod.fst))
      (right.restrict (kept.map Prod.snd)) :=
  ⟨⟨kept, sublist, rfl, rfl⟩, correspondence.restrict alike sublist⟩

theorem exists_kept_of_filter {leftTest rightTest : Node → Bool}
    (same : ∀ pair ∈ left.nodes.zip right.nodes, leftTest pair.1 = rightTest pair.2) :
    ∃ kept : List (Node × Node), kept.Sublist (left.nodes.zip right.nodes) ∧
      left.nodes.filter leftTest = kept.map Prod.fst ∧
      right.nodes.filter rightTest = kept.map Prod.snd := by
  have both := filter_map_of_pairs same
  rw [correspondence.map_fst_zip alike, correspondence.map_snd_zip alike] at both
  exact ⟨_, List.filter_sublist, both⟩

theorem cutAlike_filter {leftTest rightTest : Node → Bool}
    (same : ∀ pair ∈ left.nodes.zip right.nodes, leftTest pair.1 = rightTest pair.2) :
    CutAlike related left right (left.restrict (left.nodes.filter leftTest))
      (right.restrict (right.nodes.filter rightTest)) := by
  rcases correspondence.exists_kept_of_filter alike same with ⟨kept, sublist, leftKept, rightKept⟩
  rw [leftKept, rightKept]
  exact correspondence.cutAlike_restrict alike sublist

end Correspondence

end Network

/-! ## Stages -/

namespace Filter

open Network (CutAlike Correspondence)

variable {related : Network → Network → Prop} (correspondence : Correspondence related)
  {left right : Network} (alike : related left right)

include correspondence

include alike in
theorem cutAlike_narrow {rule other : Rule} (verdicts : rule.SameVerdicts related other) :
    CutAlike related left right (narrow left rule) (narrow right other) :=
  correspondence.cutAlike_filter alike (verdicts.node alike)

theorem cutAlike_foldl_narrow {rules others : List Rule}
    (verdicts : List.Forall₂ (Rule.SameVerdicts related) rules others) {left right : Network}
    (alike : related left right) :
    CutAlike related left right (rules.foldl narrow left) (others.foldl narrow right) := by
  induction verdicts generalizing left right with
  | nil => exact correspondence.cutAlike_refl alike
  | cons first _ induction =>
      rw [List.foldl_cons, List.foldl_cons]
      have stage := cutAlike_narrow correspondence alike first
      exact stage.trans (induction stage.related)

/-! ## Union -/

omit correspondence in
theorem firstOfEach_of_pairs {pairs : List (Node × Node)}
    (sameIds : ∀ pair ∈ pairs, ∀ other ∈ pairs,
      pair.1.id = other.1.id ↔ pair.2.id = other.2.id)
    {leftIds rightIds leftSeen rightSeen : NodeIds}
    (sameAsked : ∀ pair ∈ pairs, leftIds.contains pair.1.id = rightIds.contains pair.2.id)
    (sameSeen : ∀ pair ∈ pairs, leftSeen.contains pair.1.id = rightSeen.contains pair.2.id) :
    ∃ kept : List (Node × Node), kept.Sublist pairs ∧
      firstOfEach leftIds leftSeen (pairs.map Prod.fst) = kept.map Prod.fst ∧
      firstOfEach rightIds rightSeen (pairs.map Prod.snd) = kept.map Prod.snd := by
  induction pairs generalizing leftSeen rightSeen with
  | nil => exact ⟨[], .slnil, rfl, rfl⟩
  | cons pair pairs induction =>
      have sameIdsLater : ∀ other ∈ pairs, ∀ third ∈ pairs,
          other.1.id = third.1.id ↔ other.2.id = third.2.id := fun other member third thirdMember =>
        sameIds other (List.mem_cons_of_mem _ member) third (List.mem_cons_of_mem _ thirdMember)
      have asked := List.forall_mem_cons.mp sameAsked
      have seen := List.forall_mem_cons.mp sameSeen
      rw [List.map_cons, List.map_cons, firstOfEach, firstOfEach, ← asked.1, ← seen.1]
      cases leftIds.contains pair.1.id && !leftSeen.contains pair.1.id with
      | true =>
          have seenLater : ∀ other ∈ pairs,
              (leftSeen.insert pair.1.id).contains other.1.id =
                (rightSeen.insert pair.2.id).contains other.2.id := by
            intro other member
            have sameId := sameIds pair List.mem_cons_self other (List.mem_cons_of_mem _ member)
            rw [Bool.eq_iff_iff]
            simp [Std.TreeSet.contains_insert, seen.2 other member, sameId]
          rcases induction sameIdsLater asked.2 seenLater with ⟨kept, sublist, left, right⟩
          exact ⟨pair :: kept, sublist.cons_cons pair, congrArg (pair.1 :: ·) left,
            congrArg (pair.2 :: ·) right⟩
      | false =>
          rcases induction sameIdsLater asked.2 seen.2 with ⟨kept, sublist, left, right⟩
          exact ⟨kept, sublist.cons pair, left, right⟩

end Filter

namespace RuleSet

open Network (CutAlike Correspondence)

variable {related : Network → Network → Prop} {ruleSet other : RuleSet}
  (verdicts : ruleSet.SameVerdicts related other)

include verdicts

theorem passes_of_sameVerdicts {left right : Network} (alike : related left right) :
    ∀ pair ∈ left.nodes.zip right.nodes,
      ruleSet.passes (.ofNetwork left) pair.1 = other.passes (.ofNetwork right) pair.2 := by
  intro pair member
  have sameOutcome (rule otherRule : Rule) (same : rule.SameVerdicts related otherRule) :=
    same.node alike pair member
  have outcomes := map_eq_map_of_forall₂ sameOutcome verdicts.rules
  rw [passes, passes, Join.passes, Join.passes, outcomes, verdicts.join]

variable (correspondence : Correspondence related) {left right : Network}
  (alike : related left right)

include correspondence alike

theorem contains_matchedIds_of_sameVerdicts (disjunctive : ruleSet.join = .or) :
    ∀ pair ∈ left.nodes.zip right.nodes,
      (Filter.matchedIds ruleSet.rules left).contains pair.1.id =
        (Filter.matchedIds other.rules right).contains pair.2.id := by
  intro pair member
  have otherDisjunctive : other.join = .or := verdicts.join.symm.trans disjunctive
  rcases correspondence.exists_kept_of_filter alike (passes_of_sameVerdicts verdicts alike) with
    ⟨kept, sublist, leftKept, rightKept⟩
  rw [Bool.eq_iff_iff, Filter.contains_matchedIds_iff_passes disjunctive, leftKept,
    Filter.contains_matchedIds_iff_passes otherDisjunctive, rightKept]
  simp only [List.map_map, List.mem_map]
  have sameId (keptPair : Node × Node) (inside : keptPair ∈ kept) :
      keptPair.1.id = pair.1.id ↔ keptPair.2.id = pair.2.id :=
    correspondence.sameIds alike keptPair (sublist.subset inside) pair member
  constructor
  · rintro ⟨keptPair, inside, equal⟩
    exact ⟨keptPair, inside, (sameId keptPair inside).mp equal⟩
  · rintro ⟨keptPair, inside, equal⟩
    exact ⟨keptPair, inside, (sameId keptPair inside).mpr equal⟩

theorem cutAlike_union (disjunctive : ruleSet.join = .or) :
    CutAlike related left right (ruleSet.filtered .standard left)
      (other.filtered .standard right) := by
  have otherDisjunctive : other.join = .or := verdicts.join.symm.trans disjunctive
  have matched := contains_matchedIds_of_sameVerdicts verdicts correspondence alike disjunctive
  have unseen : ∀ pair ∈ left.nodes.zip right.nodes,
      ({} : NodeIds).contains pair.1.id = ({} : NodeIds).contains pair.2.id := by simp
  rcases Filter.firstOfEach_of_pairs (correspondence.sameIds alike) matched unseen with
    ⟨kept, sublist, leftKept, rightKept⟩
  rw [correspondence.map_fst_zip alike] at leftKept
  rw [correspondence.map_snd_zip alike] at rightKept
  rw [filtered, filtered, Filter.apply_ofRuleSet_of_or disjunctive, leftKept,
    Filter.apply_ofRuleSet_of_or otherDisjunctive, rightKept]
  exact correspondence.cutAlike_restrict alike sublist

theorem cutAlike_filtered (strategy : Strategy) :
    CutAlike related left right (ruleSet.filtered strategy left)
      (other.filtered strategy right) := by
  have passing := correspondence.cutAlike_filter alike (passes_of_sameVerdicts verdicts alike)
  cases join : ruleSet.join with
  | or =>
      have otherJoin : other.join = .or := verdicts.join.symm.trans join
      cases strategy with
      | standard => exact cutAlike_union verdicts correspondence alike join
      | singlePass =>
          rw [filtered, filtered, SinglePassFilter.apply_ofRuleSet_of_or join,
            SinglePassFilter.apply_ofRuleSet_of_or otherJoin]
          exact passing
  | and =>
      have otherJoin : other.join = .and := verdicts.join.symm.trans join
      cases strategy with
      | standard =>
          rw [filtered, filtered, Filter.apply_ofRuleSet_of_and join,
            Filter.apply_ofRuleSet_of_and otherJoin]
          exact Filter.cutAlike_foldl_narrow correspondence verdicts.rules alike
      | singlePass =>
          by_cases vacuous : ruleSet.rules = []
          · have otherVacuous : other.rules = [] := by
              simpa [vacuous] using verdicts.rules
            rw [filtered_of_and_nil join vacuous, filtered_of_and_nil otherJoin otherVacuous]
            exact correspondence.cutAlike_refl alike
          · have otherNonempty : other.rules ≠ [] := fun otherVacuous =>
              vacuous (by simpa [otherVacuous] using verdicts.rules)
            rw [filtered, filtered, SinglePassFilter.apply_ofRuleSet ruleSet vacuous,
              SinglePassFilter.apply_ofRuleSet other otherNonempty]
            exact passing

end RuleSet

/-! ## Queries -/

section

open Network (Correspondence)

variable {related : Network → Network → Prop} (correspondence : Correspondence related)
  {left right : Network} (alike : related left right)

include correspondence alike

theorem Network.length_matching_of_sameVerdicts {rule other : Rule}
    (same : rule.SameVerdicts related other) :
    (left.matching rule).length = (right.matching other).length := by
  rcases correspondence.exists_kept_of_filter alike (same.node alike) with
    ⟨kept, _, leftKept, rightKept⟩
  rw [matching, matching, leftKept, rightKept, List.length_map, List.length_map]

theorem RuleEntry.outcome_of_sameVerdicts {entry other : RuleEntry}
    (same : entry.SameVerdicts related other) : entry.outcome left = other.outcome right := by
  have length := Network.length_matching_of_sameVerdicts correspondence alike same.rule
  have someMatch : (left.matching entry.rule).isEmpty = (right.matching other.rule).isEmpty := by
    rw [Bool.eq_iff_iff, List.isEmpty_iff_length_eq_zero, List.isEmpty_iff_length_eq_zero, length]
  simp only [outcome, same.rule.domain, same.rule.ego alike, same.count, length, someMatch]

theorem Query.evaluate_of_sameVerdicts {ruleSet other : RuleSet}
    (verdicts : ruleSet.SameVerdicts related other) :
    (ofRuleSet ruleSet).evaluate left = (ofRuleSet other).evaluate right := by
  have sameOutcome (entry otherEntry : RuleEntry) (same : entry.SameVerdicts related otherEntry) :=
    RuleEntry.outcome_of_sameVerdicts correspondence alike same
  rw [evaluate_ofRuleSet, evaluate_ofRuleSet, RuleSet.outcome, RuleSet.outcome,
    map_eq_map_of_forall₂ sameOutcome verdicts.entries, verdicts.join]

end

end Sociogram
