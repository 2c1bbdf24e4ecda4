import Sociogram.Load
import Sociogram.Proofs.Document.Bounded

/-!
What is scanned from JSON texts. Every scanned document has finite numbers and integers that
are read as integers, and a reader gets it with the limit on depth applied.
-/

namespace Sociogram

theorem Format.read_json_eq_ok {Value : Type} {reader : Document → Except Problem Value}
    {text : String} {value : Value} :
    json.read reader text = .ok value ↔ JsonText.read reader text = .ok value := by
  rw [Format.read]
  cases JsonText.read reader text <;> simp [Except.mapError]

namespace JsonText

open Document (Limitable limitable_sequence limitable_mapping limitable_faulty)

theorem limitable_floatDocument (decimal : Decimal) : (floatDocument decimal).Limitable := by
  rw [floatDocument]
  split
  · next finite => exact fun _ => .float finite
  · exact limitable_faulty _ _

theorem limitable_integerDocument (negative : Bool) (digits : Nat) :
    ∀ document ∈ integerDocument negative digits, document.Limitable := by
  intro document found
  simp only [integerDocument, Nat.pow_eq] at found
  split at found
  · split at found
    · obtain rfl := Option.some.inj found
      exact fun _ => .integer (by constructor <;> omega)
    · simp at found
  · split at found
    · obtain rfl := Option.some.inj found
      exact fun _ => .integer (by constructor <;> omega)
    · simp at found

theorem limitable_missingDigit (rest : List Char) : (missingDigit rest).1.Limitable := by
  cases rest <;> exact limitable_faulty _ _

theorem limitable_scanExponent (negative : Bool) (whole fraction characters : List Char) :
    (scanExponent negative whole fraction characters).1.Limitable := by
  unfold scanExponent
  simp only
  split
  all_goals
    split
    · exact limitable_missingDigit _
    · exact limitable_floatDocument _

theorem limitable_scanFraction (negative : Bool) (whole characters : List Char) :
    (scanFraction negative whole characters).1.Limitable := by
  unfold scanFraction
  split
  · simp only
    split
    · exact limitable_missingDigit _
    · split
      · exact limitable_scanExponent _ _ _ _
      · exact limitable_scanExponent _ _ _ _
      · exact limitable_floatDocument _
  · exact limitable_scanExponent _ _ _ _
  · exact limitable_scanExponent _ _ _ _
  · simp only
    cases found : integerDocument negative (Nat.ofDigitChars 10 whole 0) with
    | none => exact limitable_floatDocument _
    | some document => exact limitable_integerDocument _ _ document found

theorem limitable_scanNumber (negative : Bool) (characters : List Char) :
    (scanNumber negative characters).1.Limitable := by
  rw [scanNumber]
  split
  · exact limitable_missingDigit _
  · exact limitable_faulty _ _
  · exact limitable_scanFraction _ _ _

theorem limitable_scanWord {document : Document} (limitable : document.Limitable)
    (word characters : List Char) : (scanWord document word characters).1.Limitable := by
  induction word generalizing characters with
  | nil => cases characters <;> exact limitable
  | cons wanted word induction =>
      cases characters with
      | nil => exact limitable_faulty _ _
      | cons character rest =>
          rw [scanWord]
          split
          · exact induction rest
          · exact limitable_faulty _ _

structure ScansLimitable (fuel : Nat) : Prop where
  value : ∀ characters, (scanValue fuel characters).1.Limitable
  items : ∀ characters, ∀ item ∈ (scanItems fuel characters).1, item.Limitable
  moreItems : ∀ characters, ∀ item ∈ (scanMoreItems fuel characters).1, item.Limitable
  members : ∀ characters, ∀ member ∈ (scanMembers fuel characters).1, member.2.Limitable
  moreMembers :
    ∀ characters, ∀ member ∈ (scanMoreMembers fuel characters).1, member.2.Limitable

theorem forall_mem_before {Item : Type} {test : Item → Prop} {item : Item}
    {rest : Option (List Char)} {scanRest : List Char → ScannedAll Item} (here : test item)
    (later : ∀ characters, ∀ item ∈ (scanRest characters).1, test item) :
    ∀ kept ∈ (before item rest scanRest).1, test kept := by
  cases rest with
  | none => simpa [before] using here
  | some characters =>
      simpa [before] using ⟨here, later characters⟩

theorem scansLimitable (fuel : Nat) : ScansLimitable fuel := by
  induction fuel with
  | zero =>
      exact ⟨fun _ => limitable_faulty _ _, fun _ => List.forall_mem_nil _,
        fun _ => List.forall_mem_nil _, fun _ => List.forall_mem_nil _,
        fun _ => List.forall_mem_nil _⟩
  | succ fuel induction =>
      constructor
      · intro characters
        rw [scanValue]
        split
        · exact limitable_faulty _ _
        · exact limitable_scanWord (fun _ => .null) _ _
        · exact limitable_scanWord (fun _ => .boolean _) _ _
        · exact limitable_scanWord (fun _ => .boolean _) _ _
        · exact limitable_scanNumber _ _
        · split
          · exact fun _ => .text _
          · exact limitable_faulty _ _
          · exact limitable_faulty _ _
        · split
          · exact limitable_sequence (by simp) _ _
          · exact limitable_sequence (by simp) _ _
          · exact limitable_sequence (induction.items _) _ _
        · split
          · exact limitable_mapping (by simp) _
          · exact limitable_mapping (by simp) _
          · exact limitable_mapping (induction.members _) _
        · split
          · exact limitable_scanNumber _ _
          · exact limitable_faulty _ _
      · intro characters
        rw [scanItems]
        exact forall_mem_before (induction.value characters) induction.moreItems
      · intro characters
        rw [scanMoreItems]
        split
        · simp [cutAll]
        · simp
        · split
          · simp [cutAll]
          · simp [cutAll]
          · exact induction.items _
        · simp [cutAll]
      · intro characters
        unfold scanMembers
        split
        · split
          · simp [cutAll]
          · refine forall_mem_before ?_ induction.moreMembers
            simp only
            split
            · exact limitable_faulty _ _
            · exact induction.value _
            · exact limitable_faulty _ _
        · exact List.forall_mem_nil _
      · intro characters
        rw [scanMoreMembers]
        split
        · simp [cutAll]
        · simp
        · split
          · simp [cutAll]
          · simp [cutAll]
          · exact induction.members _
        · simp [cutAll]

theorem exists_bounded_of_read {Value : Type} {reader : Document → Except Problem Value}
    {text : String} {value : Value} (reads : read reader text = .ok value) :
    ∃ document : Document, document.Bounded depthLimit ∧ reader document = .ok value := by
  let characters := text.toList
  have limitable := (scansLimitable (fuelFor characters)).value characters
  refine ⟨_, limitable depthLimit, ?_⟩
  simp only [read, bind_eq_ok] at reads
  obtain ⟨found, readsFound, kept⟩ := reads
  split at kept
  · simp at kept
  · exact readsFound.trans kept

end JsonText

end Sociogram
