import Sociogram.Proofs.Document.Value
import Sociogram.Proofs.Json.Quoted
import Sociogram.Proofs.Json.Reread

/-!
Written values are scanned back. Whatever blanks a layout puts between the parts of a value,
scanning its characters gives the document of the value with every number as its text is read.
-/

namespace Sociogram

namespace Json

/-! ## The document that is written -/

mutual

/-- The document that the text of a value spells. -/
def asWritten : Json → Document
  | null => .null
  | boolean value => .boolean value
  | integer value => .integer value
  | float value => if value.isFinite then .float value else .null
  | text value => .text value
  | array items => .sequence .written (itemsAsWritten items) .closed
  | object members => .mapping (membersAsWritten members) .closed
termination_by structural value => value

def itemsAsWritten : List Json → List Document
  | [] => []
  | item :: rest => item.asWritten :: itemsAsWritten rest
termination_by structural items => items

def membersAsWritten : List (String × Json) → List (Except Problem String × Document)
  | [] => []
  | (key, value) :: rest => (.ok key, value.asWritten) :: membersAsWritten rest
termination_by structural members => members

end

theorem itemsAsWritten_eq_map (items : List Json) :
    itemsAsWritten items = items.map asWritten := by
  induction items with
  | nil => rfl
  | cons item rest induction => rw [itemsAsWritten, induction, List.map_cons]

theorem membersAsWritten_eq_map (members : List (String × Json)) :
    membersAsWritten members = members.map fun (key, value) => (.ok key, value.asWritten) := by
  induction members with
  | nil => rfl
  | cons member rest induction => rw [membersAsWritten, induction, List.map_cons]

theorem reread_asWritten {value : Json} (readBack : value.Throughout floatIsReadBack) :
    value.reread.asWritten = value.asWritten := by
  induction value using inductionOn with
  | null | boolean | integer | text => rw [reread] <;> simp
  | float value =>
      rw [reread]
      split
      · next finite =>
          have same : value.reread = value := readBack.here finite
          rw [same]
      · next infinite => rw [asWritten, asWritten, if_neg infinite]
  | array items induction =>
      have each := (throughout_array.mp readBack).2
      rw [reread, rereadItems_eq_map, asWritten, itemsAsWritten_eq_map, List.map_map, asWritten,
        itemsAsWritten_eq_map]
      congr 1
      exact List.map_congr_left fun item member => induction item member (each item member)
  | object members induction =>
      have each := (throughout_object.mp readBack).2
      rw [reread, rereadMembers_eq_map, asWritten, membersAsWritten_eq_map, List.map_map,
        asWritten, membersAsWritten_eq_map]
      congr 1
      refine List.map_congr_left fun member inside => ?_
      exact Prod.ext rfl (induction member inside (each member inside))

theorem nestedWithin_asWritten {value : Json} {limit : Nat} (shallow : value.depth ≤ limit) :
    value.asWritten.nestedWithin limit = value.asWritten := by
  induction value using inductionOn generalizing limit with
  | null | boolean | integer | text => simp [asWritten, Document.nestedWithin]
  | float value =>
      rw [asWritten]
      split <;> simp [Document.nestedWithin]
  | array items induction =>
      cases limit with
      | zero => simp [depth] at shallow
      | succ below =>
          have each := depth_array_le.mp shallow
          rw [asWritten, itemsAsWritten_eq_map, Document.nestedWithin,
            Document.itemsNestedWithin_eq_map, List.map_map]
          congr 1
          exact List.map_congr_left fun item member => induction item member (each item member)
  | object members induction =>
      cases limit with
      | zero => simp [depth] at shallow
      | succ below =>
          have each := depth_object_le.mp shallow
          rw [asWritten, membersAsWritten_eq_map, Document.nestedWithin,
            Document.membersNestedWithin_eq_map, List.map_map]
          congr 1
          refine List.map_congr_left fun member inside => ?_
          exact Prod.ext rfl (induction member inside (each member inside))

/-! ## Blanks and first characters -/

structure Layout.OnlyBlanks (layout : Layout) : Prop where
  line : ∀ depth, ∀ character ∈ layout.line depth, JsonText.isBlank character = true
  afterColon : ∀ character ∈ layout.afterColon, JsonText.isBlank character = true

theorem onlyBlanks_compact : Layout.compact.OnlyBlanks := ⟨by simp [Layout.compact],
  by simp [Layout.compact]⟩

theorem onlyBlanks_pretty : Layout.pretty.OnlyBlanks where
  line := by
    intro depth character member
    rcases List.mem_cons.mp member with newline | blank
    · rw [newline]
      decide
    · rw [List.eq_of_mem_replicate blank]
      decide
  afterColon := by simp [Layout.pretty, JsonText.isBlank]

structure StartsValue (first : Char) : Prop where
  notBlank : JsonText.isBlank first = false
  notBracket : first ≠ ']'
  notBrace : first ≠ '\x7d'

theorem startsValue_of_isDigit {first : Char} (digit : first.isDigit = true) :
    StartsValue first := by
  have different : ∀ other : Char, other.isDigit = false → first ≠ other := by
    rintro other notDigit rfl
    simp [digit] at notDigit
  exact ⟨JsonText.isBlank_of_isDigit digit, different _ (by decide), different _ (by decide)⟩

theorem exists_start_of_digits {unsigned : List Char}
    (startsWithDigit : ∃ first ∈ unsigned.head?, first.isDigit = true) (negative : Bool) :
    ∃ first later, (if negative then ['-'] else []) ++ unsigned = first :: later ∧
      StartsValue first := by
  obtain ⟨first, starts, digit⟩ := startsWithDigit
  cases negative with
  | true => exact ⟨'-', unsigned, rfl, by constructor <;> decide⟩
  | false =>
      obtain ⟨later, rfl⟩ := List.head?_eq_some_iff.mp starts
      exact ⟨first, later, rfl, startsValue_of_isDigit digit⟩

theorem chars_start (layout : Layout) (level : Nat) (value : Json) :
    ∃ first later, value.chars layout level = first :: later ∧ StartsValue first := by
  cases value with
  | null => exact ⟨_, _, rfl, by constructor <;> decide⟩
  | boolean value => cases value <;> exact ⟨_, _, rfl, by constructor <;> decide⟩
  | integer value =>
      have isWhole := JsonText.isWhole_toDigits value.natAbs
      have startsWithDigit := JsonText.startsWithDigit_append isWhole.nonempty isWhole.allDigits []
      rw [chars, JsonText.integerChars_eq]
      exact exists_start_of_digits (by simpa using startsWithDigit) _
  | float value =>
      rw [chars, floatChars]
      split
      · next finite =>
          obtain ⟨_, _, unsigned, characters, spells⟩ := JsonText.spells_float finite
          rw [characters]
          exact exists_start_of_digits spells.startsWithDigit _
      · exact ⟨_, _, rfl, by constructor <;> decide⟩
  | text value => exact ⟨_, _, rfl, by constructor <;> decide⟩
  | array items => cases items <;> exact ⟨_, _, rfl, by constructor <;> decide⟩
  | object members => cases members <;> exact ⟨_, _, rfl, by constructor <;> decide⟩

end Json

/-! ## Scanning -/

namespace JsonText

theorem skipBlanks_append {blanks : List Char}
    (blank : ∀ character ∈ blanks, isBlank character = true) (rest : List Char) :
    skipBlanks (blanks ++ rest) = skipBlanks rest :=
  List.dropWhile_append_of_pos blank

theorem scanWord_append (document : Document) (word rest : List Char) :
    scanWord document word (word ++ rest) = (document, some rest) := by
  induction word with
  | nil => cases rest <;> rfl
  | cons character word induction => rw [List.cons_append, scanWord, if_pos rfl, induction]

theorem endsNumber_cons {first : Char} (later : List Char)
    (notNumber : first.isDigit = false ∧ first ≠ '.' ∧ first ≠ 'e' ∧ first ≠ 'E') :
    EndsNumber (first :: later) := by
  rintro character ⟨⟩
  exact notNumber

theorem endsNumber_append {blanks rest : List Char}
    (blank : ∀ character ∈ blanks, isBlank character = true) (ends : EndsNumber rest) :
    EndsNumber (blanks ++ rest) := by
  cases blanks with
  | nil => exact ends
  | cons first later =>
      refine endsNumber_cons _ ?_
      have isBlank := blank first List.mem_cons_self
      simp only [JsonText.isBlank, Bool.or_eq_true, beq_iff_eq] at isBlank
      rcases isBlank with ((equal | equal) | equal) | equal <;> rw [equal] <;> decide

/-! ## Openings and commas -/

section

variable {blanks : List Char} (blank : ∀ character ∈ blanks, isBlank character = true)
  {first : Char} (starts : Json.StartsValue first) (fuel : Nat) (later : List Char)

include blank

theorem scanValue_append : scanValue fuel (blanks ++ later) = scanValue fuel later := by
  cases fuel with
  | zero => rfl
  | succ fuel => rw [scanValue, scanValue, skipBlanks_append blank]

include starts in
theorem scanValue_opening :
    scanValue (fuel + 1) ('[' :: (blanks ++ first :: later)) =
      (.sequence .written (scanItems fuel (first :: later)).1 (scanItems fuel (first :: later)).2.1,
        (scanItems fuel (first :: later)).2.2) := by
  rw [scanValue, skipBlanks_cons (by decide)]
  simp only [skipBlanks_append blank, skipBlanks_cons starts.notBlank]
  split
  · simp_all
  · next equal => exact absurd (List.head_eq_of_cons_eq equal) starts.notBracket
  · rfl

include starts in
theorem scanMoreItems_comma :
    scanMoreItems (fuel + 1) (',' :: (blanks ++ first :: later)) =
      scanItems fuel (first :: later) := by
  rw [scanMoreItems, skipBlanks_cons (by decide)]
  simp only [skipBlanks_append blank, skipBlanks_cons starts.notBlank]
  split
  · simp_all
  · next equal => exact absurd (List.head_eq_of_cons_eq equal) starts.notBracket
  · rfl

theorem scanValue_brace :
    scanValue (fuel + 1) ('\x7b' :: (blanks ++ '\"' :: later)) =
      (.mapping (scanMembers fuel ('\"' :: later)).1 (scanMembers fuel ('\"' :: later)).2.1,
        (scanMembers fuel ('\"' :: later)).2.2) := by
  rw [scanValue, skipBlanks_cons (by decide)]
  simp only [skipBlanks_append blank, skipBlanks_cons (show isBlank '\"' = false by decide)]
  rfl

theorem scanMoreMembers_comma :
    scanMoreMembers (fuel + 1) (',' :: (blanks ++ '\"' :: later)) =
      scanMembers fuel ('\"' :: later) := by
  rw [scanMoreMembers, skipBlanks_cons (by decide)]
  simp only [skipBlanks_append blank, skipBlanks_cons (show isBlank '\"' = false by decide)]
  rfl

end

/-! ## Items and members -/

theorem fuel_ne_zero {layout : Json.Layout} {level : Nat} {value : Json} {fuel : Nat}
    (enough : 2 * (value.chars layout level).length ≤ fuel) : fuel ≠ 0 := by
  obtain ⟨first, later, starts, _⟩ := value.chars_start layout level
  rw [starts, List.length_cons] at enough
  omega

/-- Wherever the value is written, it is scanned back. -/
def ScansBack (layout : Json.Layout) (value : Json) : Prop :=
  ∀ level fuel rest, 2 * (value.chars layout level).length ≤ fuel → EndsNumber rest →
    scanValue fuel (value.chars layout level ++ rest) = (value.reread.asWritten, some rest)

section

variable {layout : Json.Layout} (onlyBlanks : layout.OnlyBlanks)

theorem scanItems_cons {item : Json} (scans : ScansBack layout item) {level fuel : Nat}
    {after rest : List Char} {documents : List Document}
    (enough : 2 * (item.chars layout level).length ≤ fuel) (ends : EndsNumber after)
    (more : scanMoreItems fuel after = (documents, .closed, some rest)) :
    scanItems (fuel + 1) (item.chars layout level ++ after) =
      (item.reread.asWritten :: documents, .closed, some rest) := by
  rw [scanItems, scans level fuel after enough ends]
  simp only [before, more]

include onlyBlanks

theorem scanMembers_cons (key : String) {value : Json} (scans : ScansBack layout value)
    {level fuel : Nat} {after rest : List Char} {documents : List Member}
    (enough : 2 * (value.chars layout level).length ≤ fuel) (ends : EndsNumber after)
    (more : scanMoreMembers fuel after = (documents, .closed, some rest)) :
    scanMembers (fuel + 1)
        (Json.quotedChars key ++
          ':' :: (layout.afterColon ++ (value.chars layout level ++ after))) =
      ((.ok key, value.reread.asWritten) :: documents, .closed, some rest) := by
  obtain ⟨quoted, equal, scanned⟩ := scanQuoted_quotedChars key
    (':' :: (layout.afterColon ++ (value.chars layout level ++ after)))
  rw [equal, scanMembers]
  simp only [scanned, skipBlanks_cons (show isBlank ':' = false by decide),
    scanValue_append onlyBlanks.afterColon, scans level fuel after enough ends, before, more]
  rfl

theorem endsNumber_moreItems (level : Nat) (items : List Json) (rest : List Char) :
    EndsNumber (Json.moreItems layout level items ++ rest) := by
  cases items with
  | nil =>
      rw [Json.moreItems, List.append_assoc]
      exact endsNumber_append (onlyBlanks.line level) (endsNumber_cons rest (by decide))
  | cons item items => exact endsNumber_cons _ (by decide)

theorem endsNumber_moreMembers (level : Nat) (members : List (String × Json))
    (rest : List Char) : EndsNumber (Json.moreMembers layout level members ++ rest) := by
  cases members with
  | nil =>
      rw [Json.moreMembers, List.append_assoc]
      exact endsNumber_append (onlyBlanks.line level) (endsNumber_cons rest (by decide))
  | cons member members => exact endsNumber_cons _ (by decide)

theorem scanMoreItems_moreItems {items : List Json}
    (each : ∀ item ∈ items, ScansBack layout item) (level fuel : Nat) (rest : List Char)
    (enough : 2 * (Json.moreItems layout level items).length ≤ fuel) :
    scanMoreItems fuel (Json.moreItems layout level items ++ rest) =
      (items.map fun item => item.reread.asWritten, .closed, some rest) := by
  induction items generalizing fuel with
  | nil =>
      simp only [Json.moreItems, List.length_append, List.length_singleton] at enough
      obtain ⟨fuel, rfl⟩ := Nat.exists_eq_succ_of_ne_zero (show fuel ≠ 0 by omega)
      rw [scanMoreItems, Json.moreItems, List.append_assoc,
        skipBlanks_append (onlyBlanks.line level), List.singleton_append,
        skipBlanks_cons (by decide)]
      rfl
  | cons item items induction =>
      simp only [Json.moreItems, List.length_append, List.length_cons] at enough
      obtain ⟨fuel, rfl⟩ := Nat.exists_eq_add_of_le' (show 2 ≤ fuel by omega)
      have scanned := scanItems_cons (each item List.mem_cons_self)
        (show 2 * (item.chars layout (level + 1)).length ≤ fuel by omega)
        (endsNumber_moreItems onlyBlanks level items rest)
        (induction (fun item member => each item (List.mem_cons_of_mem _ member)) fuel (by omega))
      obtain ⟨first, later, starts, startsValue⟩ := item.chars_start layout (level + 1)
      simp only [Json.moreItems, starts, List.cons_append, List.append_assoc] at scanned ⊢
      rw [scanMoreItems_comma (onlyBlanks.line (level + 1)) startsValue, scanned, List.map_cons]

theorem scanMoreMembers_moreMembers {members : List (String × Json)}
    (each : ∀ member ∈ members, ScansBack layout member.2) (level fuel : Nat) (rest : List Char)
    (enough : 2 * (Json.moreMembers layout level members).length ≤ fuel) :
    scanMoreMembers fuel (Json.moreMembers layout level members ++ rest) =
      (members.map fun (key, value) => (.ok key, value.reread.asWritten), .closed, some rest) := by
  induction members generalizing fuel with
  | nil =>
      simp only [Json.moreMembers, List.length_append, List.length_singleton] at enough
      obtain ⟨fuel, rfl⟩ := Nat.exists_eq_succ_of_ne_zero (show fuel ≠ 0 by omega)
      rw [scanMoreMembers, Json.moreMembers, List.append_assoc,
        skipBlanks_append (onlyBlanks.line level), List.singleton_append,
        skipBlanks_cons (by decide)]
      rfl
  | cons member members induction =>
      obtain ⟨key, value⟩ := member
      simp only [Json.moreMembers, List.length_append, List.length_cons] at enough
      obtain ⟨fuel, rfl⟩ := Nat.exists_eq_add_of_le' (show 2 ≤ fuel by omega)
      have scanned := scanMembers_cons onlyBlanks key (each (key, value) List.mem_cons_self)
        (show 2 * (value.chars layout (level + 1)).length ≤ fuel by omega)
        (endsNumber_moreMembers onlyBlanks level members rest)
        (induction (fun member inRest => each member (List.mem_cons_of_mem _ inRest)) fuel
          (by omega))
      obtain ⟨quoted, equal, _⟩ := scanQuoted_quotedChars key
        (':' :: (layout.afterColon ++
          (value.chars layout (level + 1) ++ (Json.moreMembers layout level members ++ rest))))
      rw [equal] at scanned
      simp only [Json.moreMembers, List.cons_append, List.append_assoc, equal]
      rw [scanMoreMembers_comma (onlyBlanks.line (level + 1)), scanned, List.map_cons]

/-- The characters of a value are scanned back as the document that they spell. The fuel
that a value needs is bounded by its characters, whatever comes after it. -/
theorem scansBack {value : Json} (integers : value.Throughout Json.integerIsRead) :
    ScansBack layout value := by
  induction value using Json.inductionOn with
  | null =>
      intro level fuel rest enough _
      obtain ⟨fuel, rfl⟩ := Nat.exists_eq_succ_of_ne_zero (fuel_ne_zero enough)
      exact scanWord_append .null ['u', 'l', 'l'] rest
  | boolean value =>
      intro level fuel rest enough _
      obtain ⟨fuel, rfl⟩ := Nat.exists_eq_succ_of_ne_zero (fuel_ne_zero enough)
      cases value with
      | true => exact scanWord_append (.boolean true) ['r', 'u', 'e'] rest
      | false => exact scanWord_append (.boolean false) ['a', 'l', 's', 'e'] rest
  | integer value =>
      intro level fuel rest enough ends
      obtain ⟨fuel, rfl⟩ := Nat.exists_eq_succ_of_ne_zero (fuel_ne_zero enough)
      rw [Json.chars, integerChars_eq]
      exact scanValue_number (spells_integer integers.here) fuel ends
  | float value =>
      intro level fuel rest enough ends
      obtain ⟨fuel, rfl⟩ := Nat.exists_eq_succ_of_ne_zero (fuel_ne_zero enough)
      rw [Json.chars, Json.floatChars, Json.reread]
      split
      · next finite =>
          obtain ⟨rereadFinite, _, unsigned, characters, spells⟩ := spells_float finite
          rw [characters, Json.asWritten, if_pos rereadFinite]
          exact scanValue_number spells fuel ends
      · exact scanWord_append .null ['u', 'l', 'l'] rest
  | text value =>
      intro level fuel rest enough _
      obtain ⟨fuel, rfl⟩ := Nat.exists_eq_succ_of_ne_zero (fuel_ne_zero enough)
      obtain ⟨quoted, equal, scanned⟩ := scanQuoted_quotedChars value rest
      rw [Json.chars, equal, scanValue, skipBlanks_cons (by decide)]
      simp only [scanned]
      rfl
  | array items induction =>
      intro level fuel rest enough _
      obtain ⟨fuel, rfl⟩ := Nat.exists_eq_succ_of_ne_zero (fuel_ne_zero enough)
      have each := (Json.throughout_array.mp integers).2
      rw [Json.reread, Json.rereadItems_eq_map, Json.asWritten, Json.itemsAsWritten_eq_map,
        List.map_map]
      cases items with
      | nil => rfl
      | cons item items =>
          simp only [Json.chars, List.length_append, List.length_cons] at enough
          obtain ⟨fuel, rfl⟩ := Nat.exists_eq_succ_of_ne_zero (show fuel ≠ 0 by omega)
          have scanned := scanItems_cons
            (induction item List.mem_cons_self (each item List.mem_cons_self))
            (show 2 * (item.chars layout (level + 1)).length ≤ fuel by omega)
            (endsNumber_moreItems onlyBlanks level items rest)
            (scanMoreItems_moreItems onlyBlanks
              (fun item member => induction item (List.mem_cons_of_mem _ member)
                (each item (List.mem_cons_of_mem _ member))) level fuel rest (by omega))
          obtain ⟨first, later, starts, startsValue⟩ := item.chars_start layout (level + 1)
          simp only [Json.chars, starts, List.cons_append, List.append_assoc] at scanned ⊢
          rw [scanValue_opening (onlyBlanks.line (level + 1)) startsValue, scanned, List.map_cons]
          rfl
  | object members induction =>
      intro level fuel rest enough _
      obtain ⟨fuel, rfl⟩ := Nat.exists_eq_succ_of_ne_zero (fuel_ne_zero enough)
      have each := (Json.throughout_object.mp integers).2
      rw [Json.reread, Json.rereadMembers_eq_map, Json.asWritten, Json.membersAsWritten_eq_map,
        List.map_map]
      cases members with
      | nil => rfl
      | cons member members =>
          obtain ⟨key, value⟩ := member
          simp only [Json.chars, List.length_append, List.length_cons] at enough
          obtain ⟨fuel, rfl⟩ := Nat.exists_eq_succ_of_ne_zero (show fuel ≠ 0 by omega)
          have scanned := scanMembers_cons onlyBlanks key
            (induction (key, value) List.mem_cons_self (each (key, value) List.mem_cons_self))
            (show 2 * (value.chars layout (level + 1)).length ≤ fuel by omega)
            (endsNumber_moreMembers onlyBlanks level members rest)
            (scanMoreMembers_moreMembers onlyBlanks
              (fun member inRest => induction member (List.mem_cons_of_mem _ inRest)
                (each member (List.mem_cons_of_mem _ inRest))) level fuel rest (by omega))
          obtain ⟨quoted, equal, _⟩ := scanQuoted_quotedChars key
            (':' :: (layout.afterColon ++
              (value.chars layout (level + 1) ++ (Json.moreMembers layout level members ++ rest))))
          rw [equal] at scanned
          simp only [Json.chars, List.cons_append, List.append_assoc, equal]
          rw [scanValue_brace (onlyBlanks.line (level + 1)), scanned, List.map_cons]
          rfl

theorem read_chars {Result : Type} {value : Json}
    (integers : value.Throughout Json.integerIsRead) (shallow : value.depth ≤ depthLimit)
    (reader : Document → Except Problem Result) :
    read reader (String.ofList (value.chars layout 0)) = reader value.reread.asWritten := by
  have scanned := scansBack onlyBlanks integers 0 (fuelFor (value.chars layout 0)) []
    (Nat.le_add_right _ 2) (by simp [EndsNumber])
  rw [List.append_nil] at scanned
  simp only [read, String.toList_ofList, scanned,
    Json.nestedWithin_asWritten (Json.depth_reread_le.mpr shallow), Option.map_some, skipBlanks,
    List.dropWhile_nil]
  cases reader value.reread.asWritten <;> rfl

end

end JsonText

namespace Json

def texts (value : Json) : List String := [value.compact, value.pretty]

theorem read_of_mem_texts {Result : Type} {value : Json}
    (integers : value.Throughout integerIsRead) (shallow : value.depth ≤ JsonText.depthLimit)
    {text : String} (written : text ∈ value.texts)
    (reader : Document → Except Problem Result) :
    JsonText.read reader text = reader value.reread.asWritten := by
  simp only [texts, List.mem_cons, List.not_mem_nil, or_false] at written
  rcases written with compact | pretty
  · rw [compact]
    exact JsonText.read_chars onlyBlanks_compact integers shallow reader
  · rw [pretty]
    exact JsonText.read_chars onlyBlanks_pretty integers shallow reader

end Json

end Sociogram
