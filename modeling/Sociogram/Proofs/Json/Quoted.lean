import Sociogram.Json.Quoted
import Sociogram.Json.Written

/-!
Written texts are scanned back: each character, escaped or as it is, is gathered as
itself, up to the closing quote.
-/

namespace Sociogram.JsonText

theorem scanQuoted_unit {first second third fourth : Char} {unit : Nat}
    (digits : fourHexDigits? first second third fourth = some unit)
    (small : unit < 0xD800) (gathered : Gathered) (rest : List Char) :
    scanQuoted gathered ('\\' :: 'u' :: first :: second :: third :: fourth :: rest) =
      scanQuoted (gathered.push (Char.ofNat unit)) rest := by
  have notTrail : isTrailSurrogate unit = false := by
    simp only [isTrailSurrogate, Bool.and_eq_false_iff, decide_eq_false_iff_not]
    omega
  have notLead : isLeadSurrogate unit = false := by
    simp only [isLeadSurrogate, Bool.and_eq_false_iff, decide_eq_false_iff_not]
    omega
  rw [scanQuoted]
  simp [digits, notTrail, notLead]

theorem fourHexDigits?_control :
    ∀ unit < 0x20,
      fourHexDigits? '0' '0' (Nat.digitChar (unit / 16)) (Nat.digitChar (unit % 16)) =
        some unit := by
  decide +kernel

theorem scanQuoted_escapeChar (character : Char) (gathered : Gathered) (rest : List Char) :
    scanQuoted gathered (Json.escapeChar character ++ rest) =
      scanQuoted (gathered.push character) rest := by
  unfold Json.escapeChar
  split
  · rfl
  · rfl
  · rfl
  · rfl
  · rfl
  · rfl
  · rfl
  · next notQuote notBackslash _ _ _ _ _ =>
      split
      · next control =>
          have scanned := scanQuoted_unit (fourHexDigits?_control character.toNat control)
            (Nat.lt_trans control (by decide)) gathered rest
          rwa [Char.ofNat_toNat] at scanned
      · next plain =>
          rw [List.singleton_append, scanQuoted, if_neg plain]
          · exact notQuote
          · exact notBackslash

theorem scanQuoted_flatMap (characters gathered rest : List Char) :
    scanQuoted (.ok gathered) (characters.flatMap Json.escapeChar ++ '\"' :: rest) =
      .complete (.ok (String.ofList (gathered.reverse ++ characters))) rest := by
  induction characters generalizing gathered with
  | nil => simp [scanQuoted, Gathered.close, Except.map]
  | cons character characters induction =>
      rw [List.flatMap_cons, List.append_assoc, scanQuoted_escapeChar]
      simpa [Gathered.push, Except.map] using induction (character :: gathered)

theorem scanQuoted_quotedChars (text : String) (rest : List Char) :
    ∃ quoted, Json.quotedChars text ++ rest = '\"' :: quoted ∧
      scanQuoted (.ok []) quoted = .complete (.ok text) rest := by
  refine ⟨text.toList.flatMap Json.escapeChar ++ '\"' :: rest, by simp [Json.quotedChars], ?_⟩
  rw [scanQuoted_flatMap, List.reverse_nil, List.nil_append, String.ofList_toList]

end Sociogram.JsonText
