import Sociogram.Load
import Sociogram.Proofs.Json.Written

/-!
Texts of documents: texts whose scan does not end at a fault, with nothing but blanks after the
value. All that is read from such a text is read from its document.
-/

namespace Sociogram

namespace JsonText

/-- The text is JSON and spells the document. What faults the document has do not end the text:
they are numbers out of range and escapes that stand for no character. -/
def IsTextOf (document : Document) (text : String) : Prop :=
  ∃ rest, scanValue (fuelFor text.toList) text.toList = (document, some rest) ∧
    skipBlanks rest = []

theorem IsTextOf.read {Value : Type} {document : Document} {text : String}
    (isText : IsTextOf document text) (reader : Document → Except Problem Value) :
    read reader text = reader (document.nestedWithin depthLimit) := by
  obtain ⟨rest, scanned, blank⟩ := isText
  simp only [JsonText.read, scanned, Option.map_some, blank]
  cases reader (document.nestedWithin depthLimit) <;> rfl

theorem isTextOf_chars {layout : Json.Layout} (onlyBlanks : layout.OnlyBlanks) {value : Json}
    (integers : value.Throughout Json.integerIsRead) :
    IsTextOf value.reread.asWritten (String.ofList (value.chars layout 0)) := by
  have scanned := scansBack onlyBlanks integers 0 (fuelFor (value.chars layout 0)) []
    (Nat.le_add_right _ 2) (by simp [EndsNumber])
  rw [List.append_nil] at scanned
  exact ⟨[], by rw [String.toList_ofList, scanned], rfl⟩

end JsonText

namespace Json

instance : DecidablePred integerIsRead
  | .integer number => inferInstanceAs (Decidable (_ ≤ number ∧ number < _))
  | .null | .boolean _ | .float _ | .text _ | .array _ | .object _ => .isTrue trivial

theorem isTextOf_compact {value : Json} (integers : value.Throughout integerIsRead)
    (readBack : value.Throughout floatIsReadBack) :
    JsonText.IsTextOf value.asWritten value.compact :=
  reread_asWritten readBack ▸ JsonText.isTextOf_chars onlyBlanks_compact integers

end Json

theorem Format.read_of_isTextOf {Value : Type} {document : Document} {text : String}
    (isText : JsonText.IsTextOf document text) (reader : Document → Except Problem Value) :
    json.read reader text =
      (reader (document.nestedWithin JsonText.depthLimit)).mapError .json := by
  rw [Format.read, isText.read]

end Sociogram
