import Sociogram.Proofs.Json.Scanned
import Sociogram.Proofs.Json.TextOf
import Sociogram.Proofs.Load.Refused

/-!
Identifiers that are written as numbers. A number of 64 bits with a sign names the node that its
decimal text names, wherever an identifier stands; a greater number names no node.
-/

namespace Sociogram

theorem Json.compact_integer (number : Int) : (integer number).compact = toString number := by
  rw [compact, chars, integerChars]
  cases number with
  | ofNat natural => rfl
  | negSucc natural =>
      rw [if_pos (Int.negSucc_lt_zero _), String.ofList_cons]
      rfl

namespace NodeId

def IsNumber (number : Int) : Prop := -(2 ^ 63 : Int) ≤ number ∧ number < 2 ^ 63

theorem isNumber_iff {number : Int} :
    IsNumber number ↔ Int64.minValue.toInt ≤ number ∧ number ≤ Int64.maxValue.toInt := by
  have least : Int64.minValue.toInt = -(2 ^ 63 : Int) := by decide
  have greatest : Int64.maxValue.toInt = (2 ^ 63 : Int) - 1 := by decide
  rw [IsNumber, least, greatest, Int.le_sub_one_iff]

instance (number : Int) : Decidable (IsNumber number) :=
  inferInstanceAs (Decidable (_ ∧ _))

theorem ofDocument_integer (number : Int) :
    ofDocument (.integer number) =
      if IsNumber number then .ok (.ofInt number) else .error (.noAlternative "RawNodeId") := by
  simp only [ofDocument, Document.value, ok_bind, pure_eq_ok, isNumber_iff]

theorem ofDocument_text (value : String) : ofDocument (.text value) = .ok ⟨value⟩ := rfl

inductive Renumbered (number : Int) : Place → Document → Document → Prop
  | identifier : Renumbered number .identifier (.text (toString number)) (.integer number)

section

variable {number : Int} {place : Place} {first second : Document}

theorem Renumbered.alike (isNumber : IsNumber number)
    (renumbered : Renumbered number place first second) : place.Alike id first second := by
  cases renumbered
  refine ⟨rfl, fun reads limit _ => ?_⟩
  cases reads
  rw [sameOutcome_id_iff, Document.nestedWithin, Document.nestedWithin, ofDocument_text,
    ofDocument_integer, if_pos isNumber, ofInt]
  all_goals simp

theorem Renumbered.refused (tooLong : ¬IsNumber number)
    (renumbered : Renumbered number place first second) : place.Refused second := by
  cases renumbered
  refine ⟨nofun, fun reads limit value => ?_⟩
  cases reads
  rw [Document.nestedWithin, ofDocument_integer, if_neg tooLong]
  all_goals simp

end

theorem ofText_number {number : Int} (isRead : JsonText.IsReadInteger number) :
    ofText .json (toString number) =
      if IsNumber number then .ok (.ofInt number)
      else .error (.json (.noAlternative "RawNodeId")) := by
  have isText : JsonText.IsTextOf (.integer number) (toString number) := by
    rw [← Json.compact_integer]
    refine Json.isTextOf_compact ?_ (by simp [Json.Throughout, Json.parts, Json.floatIsReadBack])
    simpa [Json.Throughout, Json.parts, Json.integerIsRead] using isRead
  rw [ofText, Format.read_of_isTextOf isText, Document.nestedWithin, ofDocument_integer]
  · split <;> rfl
  all_goals simp

end NodeId

/-- A number in place of an identifier names the node that its decimal text names if it has 64
bits with a sign: the outcome of reading a network stays the same, the fault included if there
is one, however often the text is exchanged for the number or the number for the text. A greater
number is no identifier, and a network is refused wherever it stands for one. -/
theorem NodeId.numbers_of_64_bits_name_nodes (number : Int) (low : -(2 ^ 63 : Int) ≤ number)
    (high : number < 2 ^ 64) :
    (ofText .json (toString number) =
      if number < 2 ^ 63 then .ok (.ofInt number)
      else .error (.json (.noAlternative "RawNodeId"))) ∧
    ∀ (document altered : Document) (text other : String),
      JsonText.IsTextOf document text → JsonText.IsTextOf altered other →
      (number < 2 ^ 63 →
        Relation.EqvGen (Document.Altered (Renumbered number) .network) document altered →
          Network.ofText .json text = Network.ofText .json other) ∧
      (2 ^ 63 ≤ number → Document.Altered (Renumbered number) .network document altered →
        ∀ network, Network.ofText .json other ≠ .ok network) := by
  refine ⟨?_, fun document altered text other isText isOther => ⟨fun fits steps => ?_, ?_⟩⟩
  · rw [ofText_number ⟨low, high⟩]
    simp only [IsNumber, low, true_and]
  · have same := Place.Reads.network.sameOutcome (Renumbered.alike ⟨low, fits⟩) steps
      (show Place.network.room ≤ JsonText.depthLimit by decide)
    rw [Network.ofText, Network.ofText, Format.read_of_isTextOf isText,
      Format.read_of_isTextOf isOther, sameOutcome_id_iff.mp same]
  · intro tooLong step network reads
    have isNoNumber : ¬IsNumber number := fun isNumber => absurd isNumber.2 (by omega)
    rw [Network.ofText, Format.read_json_eq_ok, isOther.read] at reads
    exact (step.refused (Renumbered.refused isNoNumber)).unread .network _ _ reads

namespace Json

def acquaintance (id source : Json) : Json :=
  object [
    ("nodes", array [object [("id", id), ("type", text "person")]]),
    ("edges", array [object [("from", source), ("to", text "a"), ("type", text "knows")]])]

def quotedEnd (number : Int) : Json :=
  acquaintance (text (toString number)) (text (toString number))

def bareEnd (number : Int) : Json := acquaintance (text (toString number)) (integer number)

end Json

theorem NodeId.altered_end (number : Int) :
    Document.Altered (Renumbered number) .network (Json.quotedEnd number).asWritten
      (Json.bareEnd number).asWritten := by
  refine .member (.ok "edges") [_] [] (.item _ [] [] ?_)
  exact .member (.ok "from") [] [_, _] (.here .identifier)

theorem NodeId.numbers_of_64_bits_name_nodes_ends :
    let least : Int := -(2 ^ 63)
    let next : Int := 2 ^ 63
    (-(2 ^ 63 : Int) ≤ least ∧ least < 2 ^ 63 ∧
      JsonText.IsTextOf (Json.quotedEnd least).asWritten (Json.quotedEnd least).compact ∧
      JsonText.IsTextOf (Json.bareEnd least).asWritten (Json.bareEnd least).compact ∧
      ofText .json (toString least) = .ok (.ofInt least) ∧
      (Network.ofText .json (Json.quotedEnd least).compact).isOk = true ∧
      Network.ofText .json (Json.quotedEnd least).compact =
        Network.ofText .json (Json.bareEnd least).compact) ∧
    2 ^ 63 ≤ next ∧ next < 2 ^ 64 ∧
      JsonText.IsTextOf (Json.quotedEnd next).asWritten (Json.quotedEnd next).compact ∧
      JsonText.IsTextOf (Json.bareEnd next).asWritten (Json.bareEnd next).compact ∧
      (Network.ofText .json (Json.quotedEnd next).compact).isOk = true ∧
      ∀ network, Network.ofText .json (Json.bareEnd next).compact ≠ .ok network := by
  intro least next
  have leastQuoted : JsonText.IsTextOf (Json.quotedEnd least).asWritten
      (Json.quotedEnd least).compact := Json.isTextOf_compact (by decide) (by decide)
  have leastBare : JsonText.IsTextOf (Json.bareEnd least).asWritten
      (Json.bareEnd least).compact := Json.isTextOf_compact (by decide) (by decide)
  have nextQuoted : JsonText.IsTextOf (Json.quotedEnd next).asWritten
      (Json.quotedEnd next).compact := Json.isTextOf_compact (by decide) (by decide)
  have nextBare : JsonText.IsTextOf (Json.bareEnd next).asWritten
      (Json.bareEnd next).compact := Json.isTextOf_compact (by decide) (by decide)
  have ofLeast := numbers_of_64_bits_name_nodes least (by decide) (by decide)
  have ofNext := numbers_of_64_bits_name_nodes next (by decide) (by decide)
  exact ⟨⟨by decide, by decide, leastQuoted, leastBare, ofLeast.1, by decide +kernel,
      (ofLeast.2 _ _ _ _ leastQuoted leastBare).1 (by decide) (.rel _ _ (altered_end least))⟩,
    by decide, by decide, nextQuoted, nextBare, by decide +kernel,
    (ofNext.2 _ _ _ _ nextQuoted nextBare).2 (by decide) (altered_end next)⟩

/-- The number after the greatest that names a node is refused as an identifier, while its
decimal text names a node. -/
theorem NodeId.number_of_more_bits_names_no_node :
    (-(2 ^ 63 : Int) ≤ 2 ^ 63 ∧ (2 ^ 63 : Int) < 2 ^ 64 ∧
      NodeId.ofInt (2 ^ 63) = ⟨"9223372036854775808"⟩) ∧
    (Network.ofText .json
      "\x7b\"nodes\":[\x7b\"id\":\"9223372036854775808\",\"type\":\"person\"\x7d]\x7d").map
        (·.nodes.map (·.id)) = .ok [.ofInt (2 ^ 63)] ∧
    (Network.ofText .json
      "\x7b\"nodes\":[\x7b\"id\":9223372036854775808,\"type\":\"person\"\x7d]\x7d").map
        (·.nodes.map (·.id)) = .error (.json (.noAlternative "RawNodeId")) := by
  decide +kernel

end Sociogram
