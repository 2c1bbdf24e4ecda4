import Mathlib.Data.List.Forall2

/-!
Lists whose items are related one by one, and lists of pairs as two lists side by side.
-/

namespace Sociogram

variable {Item Other Outcome : Type}

/-! ## Related items -/

section

variable {related : Item → Other → Prop} {items : List Item} {others : List Other}

theorem map_eq_map_of_forall₂ {left : Item → Outcome} {right : Other → Outcome}
    (same : ∀ item other, related item other → left item = right other)
    (each : List.Forall₂ related items others) : items.map left = others.map right := by
  induction each with
  | nil => rfl
  | cons first _ induction => rw [List.map_cons, List.map_cons, same _ _ first, induction]

theorem any_eq_any_of_forall₂ {left : Item → Bool} {right : Other → Bool}
    (same : ∀ item other, related item other → left item = right other)
    (each : List.Forall₂ related items others) : items.any left = others.any right := by
  have outcomes := map_eq_map_of_forall₂ same each
  simpa [List.any_map, Function.comp_def] using congrArg (fun values => values.any id) outcomes

theorem all_eq_all_of_forall₂ {left : Item → Bool} {right : Other → Bool}
    (same : ∀ item other, related item other → left item = right other)
    (each : List.Forall₂ related items others) : items.all left = others.all right := by
  have outcomes := map_eq_map_of_forall₂ same each
  simpa [List.all_map, Function.comp_def] using congrArg (fun values => values.all id) outcomes

end

/-! ## Pairs -/

theorem zip_map_fst_map_snd (pairs : List (Item × Other)) :
    (pairs.map Prod.fst).zip (pairs.map Prod.snd) = pairs :=
  (List.zip_of_prod rfl rfl).symm

theorem filter_map_of_pairs {left : Item → Bool} {right : Other → Bool}
    {pairs : List (Item × Other)} (same : ∀ pair ∈ pairs, left pair.1 = right pair.2) :
    (pairs.map Prod.fst).filter left = (pairs.filter fun pair => left pair.1).map Prod.fst ∧
      (pairs.map Prod.snd).filter right =
        (pairs.filter fun pair => left pair.1).map Prod.snd := by
  constructor
  · exact List.filter_map
  · rw [List.filter_map, List.filter_congr same]
    rfl

end Sociogram
