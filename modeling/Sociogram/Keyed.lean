/-!
Lists of values under text keys, in the order of the keys.

A key occurs once. Keys are compared by the code points of their characters.
-/

namespace Sociogram.Keyed

variable {α : Type}

/-- Put a value under a key: in place of the value that the key had, or else
before the first greater key. -/
def insert (key : String) (value : α) : List (String × α) → List (String × α)
  | [] => [(key, value)]
  | (other, kept) :: rest =>
      if key = other then (key, value) :: rest
      else if key < other then (key, value) :: (other, kept) :: rest
      else (other, kept) :: insert key value rest

def get? (key : String) : List (String × α) → Option α
  | [] => none
  | (other, value) :: rest => if key = other then some value else get? key rest

/-- Enter all pairs in turn; of a repeated key the last value stays. -/
def ofList (pairs : List (String × α)) : List (String × α) :=
  pairs.foldl (fun entries pair => insert pair.1 pair.2 entries) []

def Ascending (entries : List (String × α)) : Prop :=
  entries.Pairwise fun left right => left.1 < right.1

theorem get?_insert_self (key : String) (value : α) (entries : List (String × α)) :
    get? key (insert key value entries) = some value := by
  induction entries with
  | nil => rw [insert, get?, if_pos rfl]
  | cons head rest induction =>
      obtain ⟨other, kept⟩ := head
      rw [insert]
      split
      · rw [get?, if_pos rfl]
      · next different =>
          split
          · rw [get?, if_pos rfl]
          · rw [get?, if_neg different, induction]

theorem get?_insert_of_ne {key other : String} (different : key ≠ other) (value : α)
    (entries : List (String × α)) :
    get? key (insert other value entries) = get? key entries := by
  induction entries with
  | nil => exact if_neg different
  | cons head rest induction =>
      obtain ⟨third, kept⟩ := head
      rw [insert]
      split
      · next same => rw [get?, get?, if_neg different, if_neg (same ▸ different)]
      · split
        · rw [get?, if_neg different]
        · rw [get?, get?, induction]

theorem mem_insert {key : String} {value : α} {entries : List (String × α)}
    {entry : String × α} (member : entry ∈ insert key value entries) :
    entry = (key, value) ∨ entry ∈ entries := by
  induction entries with
  | nil => exact .inl (List.mem_singleton.mp member)
  | cons head rest induction =>
      obtain ⟨other, kept⟩ := head
      simp only [insert] at member
      split at member
      · rcases List.mem_cons.mp member with equal | later
        · exact .inl equal
        · exact .inr (List.mem_cons_of_mem _ later)
      · split at member
        · rcases List.mem_cons.mp member with equal | later
          · exact .inl equal
          · exact .inr later
        · rcases List.mem_cons.mp member with equal | later
          · exact .inr (by rw [equal]; exact List.mem_cons_self)
          · exact (induction later).imp_right (List.mem_cons_of_mem _)

theorem ascending_nil : Ascending ([] : List (String × α)) := List.Pairwise.nil

theorem ascending_insert {key : String} {value : α}
    {entries : List (String × α)} (ascending : Ascending entries) :
    Ascending (insert key value entries) := by
  induction entries with
  | nil => exact List.pairwise_singleton _ _
  | cons head rest induction =>
      obtain ⟨other, kept⟩ := head
      obtain ⟨above, ascendingRest⟩ := List.pairwise_cons.mp ascending
      simp only [insert]
      split
      · next equal =>
          refine List.pairwise_cons.mpr ⟨fun entry member => ?_, ascendingRest⟩
          simpa [equal] using above entry member
      · next different =>
          split
          · next below =>
              refine List.pairwise_cons.mpr ⟨fun entry member => ?_, ascending⟩
              rcases List.mem_cons.mp member with equal | later
              · simpa [equal] using below
              · exact String.lt_trans below (above entry later)
          · next notBelow =>
              refine List.pairwise_cons.mpr
                ⟨fun entry member => ?_, induction ascendingRest⟩
              have otherBelow : other < key :=
                String.not_le.mp fun atMost =>
                  different (String.le_antisymm atMost (String.not_lt.mp notBelow))
              rcases mem_insert member with equal | later
              · simpa [equal] using otherBelow
              · exact above entry later

theorem ascending_ofList (pairs : List (String × α)) : Ascending (ofList pairs) := by
  suffices general : ∀ entries : List (String × α), Ascending entries →
      Ascending (pairs.foldl (fun entries pair => insert pair.1 pair.2 entries) entries) from
    general [] ascending_nil
  induction pairs with
  | nil => exact fun _ ascending => ascending
  | cons pair rest induction =>
      exact fun entries ascending => induction _ (ascending_insert ascending)

example : ofList [("b", 1), ("a", 2), ("b", 3)] = [("a", 2), ("b", 3)] := by decide +kernel

end Sociogram.Keyed
