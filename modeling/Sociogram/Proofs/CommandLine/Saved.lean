import Sociogram.CommandLine
import Sociogram.Proofs.Filter.Induced
import Sociogram.Proofs.Network.Buried
import Sociogram.Proofs.Rule.ReadBack

/-!
Runs one after the other. What a filter prints is saved, and a second run takes it up: it answers
as it would for the network that the filter left in memory, but for the numbers that are not read
back. How YAML files are loaded does not matter.
-/

namespace Sociogram

/-! ## Parts of written networks -/

theorem Json.Within.subset {test : Json → Prop} {limit : Nat} {items others : List Json}
    (within : (array others).Within test limit) (here : test (array items))
    (subset : items ⊆ others) : (array items).Within test limit := by
  obtain ⟨below, rfl, each⟩ := within.items
  exact within_array here fun item member => each item (subset member)

theorem Network.PartOf.within {test : Json → Prop} (only : Json.OnlyNumbersFail test)
    {limit : Nat} {part whole : Network} (partOf : part.PartOf whole)
    (within : whole.toJson.Within test limit) : part.toJson.Within test limit := by
  obtain ⟨below, rfl, each⟩ := within.members
  have nodes := each ("nodes", .array (whole.nodes.map Node.toJson)) (by simp)
  have edges := each ("edges", .array (whole.edges.map Edge.toJson)) (by simp)
  refine Json.within_object (only.object _) fun member inside => ?_
  simp only [partOf.ego, List.mem_append, List.mem_cons, List.not_mem_nil, or_false] at inside
  rcases inside with (rfl | rfl) | ego
  · exact nodes.subset (only.array _) (List.map_subset _ partOf.nodes.subset)
  · exact edges.subset (only.array _) (List.map_subset _ partOf.edges.subset)
  · exact each member (List.mem_append_right _ ego)

/-! ## Files of texts -/

namespace Files

theorem text_of_toUTF8 {files : Files} {path text : String}
    (stands : files path = .bytes text.toUTF8) : files.text path = .ok text := by
  have valid : text.toUTF8.IsValidUTF8 := text.isValidUTF8
  rw [Files.text, stands]
  simp only [String.fromUTF8?, dif_pos valid]
  rfl

def ofTexts (texts : List (String × String)) : Files := fun path =>
  match texts.lookup path with
  | some text => .bytes text.toUTF8
  | none => .fault .missing

theorem text_ofTexts {texts : List (String × String)} {path text : String}
    (stands : texts.lookup path = some text) : (ofTexts texts).text path = .ok text :=
  text_of_toUTF8 (by rw [ofTexts, stands])

def saved (files : Files) (path text : String) : Files := fun other =>
  if other = path then .bytes text.toUTF8 else files other

theorem saved_same (files : Files) (path text : String) :
    files.saved path text path = .bytes text.toUTF8 :=
  if_pos rfl

theorem text_saved_other (files : Files) {path other : String} (different : other ≠ path)
    (text : String) : (files.saved path text).text other = files.text other := by
  rw [Files.text, saved, if_neg different, Files.text]

end Files

section

variable {yaml : YamlLoader} {files : Files} {path text : String}

theorem Network.ofFileWith_of_json (isJson : Format.ofPath path = .json)
    (stands : files.text path = .ok text) : ofFileWith yaml files path = ofText .json text := by
  rw [ofFileWith, stands]
  simp only [ok_bind, isJson]

theorem RuleSet.ofFileWith_of_json (isJson : Format.ofPath path = .json)
    (stands : files.text path = .ok text) : ofFileWith yaml files path = ofText .json text := by
  rw [ofFileWith, stands]
  simp only [ok_bind, isJson]

theorem RuleSet.ofFileWith_saved_other {other : String} (different : other ≠ path) :
    ofFileWith yaml (files.saved path text) other = ofFileWith yaml files other := by
  rw [ofFileWith, files.text_saved_other different, ofFileWith]

theorem Network.within_of_ofFileWith {network : Network} (isJson : Format.ofPath path = .json)
    (loads : ofFileWith yaml files path = .ok network) :
    network.toJson.Within Json.floatIsFinite 127 := by
  obtain ⟨text, _, reads⟩ := bind_eq_ok.mp loads
  simp only [isJson] at reads
  exact within_of_ofText reads

end

namespace CommandLine

/-! ## Runs -/

variable {yaml : YamlLoader} {files later : Files} {first second : List String}
  {command : Command} {network : Network} {ruleSet further : RuleSet}

theorem loadFiles_eq_ok : loadFiles yaml files command = .ok (network, ruleSet) ↔
    Network.ofFileWith yaml files command.network = .ok network ∧
      RuleSet.ofFileWith yaml files command.rules = .ok ruleSet := by
  rw [loadFiles]
  cases Network.ofFileWith yaml files command.network <;>
    cases RuleSet.ofFileWith yaml files command.rules <;>
      simp [Except.mapError, bind, Except.bind, pure, Except.pure]

theorem runWith_of_loads (asks : request first = .run command)
    (loads : Network.ofFileWith yaml files command.network = .ok network)
    (loadsRules : RuleSet.ofFileWith yaml files command.rules = .ok ruleSet) :
    runWith yaml files first = ⟨0, command.task.answer network ruleSet ++ "\n", ""⟩ := by
  rw [runWith, asks]
  simp only [Command.run, loadFiles_eq_ok.mpr ⟨loads, loadsRules⟩]

theorem code_runWith_of_fails (asks : request first = .run command)
    (fails : ∀ network, Network.ofFileWith yaml files command.network ≠ .ok network) :
    (runWith yaml files first).code = 1 := by
  rw [runWith, asks]
  cases loads : loadFiles yaml files command with
  | error message => simp only [Command.run, loads]
  | ok both => exact absurd (loadFiles_eq_ok.mp loads).1 (fails both.1)

def strategy : Bool → Strategy
  | false => .standard
  | true => .singlePass

theorem answer_filter (singlePass : Bool) (network : Network) (ruleSet : RuleSet) :
    (Task.filter singlePass).answer network ruleSet =
      (ruleSet.filtered (strategy singlePass) network).toJson.pretty := by
  cases singlePass <;> rfl

theorem runWith_filter {singlePass : Bool} {networkPath rulesPath : String}
    (filters : request first = .run ⟨.filter singlePass, networkPath, rulesPath⟩)
    (loads : Network.ofFileWith yaml files networkPath = .ok network)
    (loadsRules : RuleSet.ofFileWith yaml files rulesPath = .ok ruleSet) :
    runWith yaml files first =
      ⟨0, (ruleSet.filtered (strategy singlePass) network).toJson.pretty ++ "\n", ""⟩ := by
  rw [runWith_of_loads filters loads loadsRules, answer_filter]

/-! ## Runs on saved networks -/

theorem ofFileWith_saved {path : String} (isJson : Format.ofPath path = .json)
    (saved : files path = .bytes (network.toJson.pretty ++ "\n").toUTF8) (result : Network) :
    Network.ofFileWith yaml files path = .ok result ↔
      network.toJson.depth ≤ 127 ∧ result = network.reread := by
  rw [Network.ofFileWith_of_json isJson (Files.text_of_toUTF8 saved), network.ofText_pretty_line]

theorem runWith_on_saved (asks : request second = .run command)
    (isJson : Format.ofPath command.network = .json)
    (saved : later command.network = .bytes (network.toJson.pretty ++ "\n").toUTF8)
    (loads : RuleSet.ofFileWith yaml later command.rules = .ok further)
    (shallow : network.toJson.depth ≤ 127) :
    runWith yaml later second =
      ⟨0, command.task.answer network.reread further ++ "\n", ""⟩ :=
  runWith_of_loads asks ((ofFileWith_saved isJson saved _).mpr ⟨shallow, rfl⟩) loads

theorem code_runWith_on_saved_of_deep (asks : request second = .run command)
    (isJson : Format.ofPath command.network = .json)
    (saved : later command.network = .bytes (network.toJson.pretty ++ "\n").toUTF8)
    (deep : ¬ network.toJson.depth ≤ 127) : (runWith yaml later second).code = 1 :=
  code_runWith_of_fails asks fun _ loads => deep ((ofFileWith_saved isJson saved _).mp loads).1

/-! ## Files with numbers that are read back and others -/

def peopleWith (attributeName : Option String) : RuleSet where
  join := .and
  entries := [⟨.alter ⟨"person", attributeName, some .exists, .null⟩, none⟩]

theorem ofText_peopleWith (attributeName : Option String) :
    RuleSet.ofText .json (peopleWith attributeName).toJson.compact =
      .ok (peopleWith attributeName) := by
  have «exists» : Operator.exists.InReadForm := ⟨_, Operator.ofTag_tag_of_mem_known _ (by decide)⟩
  have inReadForm : ∀ entry ∈ (peopleWith attributeName).entries, entry.InReadForm :=
    List.forall_mem_singleton.mpr ⟨⟨by simp [Rule.operators, «exists»], by simp⟩, by simp⟩
  have shallow : (peopleWith attributeName).toJson.depth ≤ 127 := by
    cases attributeName <;> exact Nat.le_of_ble_eq_true rfl
  have readBack : (peopleWith attributeName).toJson.Throughout Json.floatIsReadBack := by
    have only := Json.onlyNumbersFail_floatIsReadBack
    simp only [RuleSet.throughout_toJson only, RuleEntry.throughout_toJson only]
    refine List.forall_mem_singleton.mpr ⟨?_, by simp⟩
    obtain ⟨members, written, each⟩ := AlterRule.exists_members only.throughout_text
      only.throughout_null ⟨"person", attributeName, some .exists, .null⟩
    rw [Rule.optionsToJson, written, Json.throughout_object]
    exact ⟨trivial, each.mpr only.throughout_null⟩
  have counts : ∀ entry ∈ (peopleWith attributeName).entries, entry.HasFiniteCount := by
    simp [peopleWith, RuleEntry.HasFiniteCount]
  have same : (peopleWith attributeName).withoutNonFinite = peopleWith attributeName := by
    simp [peopleWith, RuleSet.withoutNonFinite, RuleEntry.withoutNonFinite,
      Rule.withoutNonFinite, AlterRule.withoutNonFinite, AttributeValue.withoutNonFinite]
  exact (RuleSet.ofText_of_mem_texts inReadForm shallow readBack (by simp [Json.texts]) _).mpr
    ⟨counts, same.symm⟩

def ages : String := "nodes:\n- id: a\n  type: person\n  attributes:\n    age: .nan\n"

def lists : List Char :=
  "nodes:\n- id: a\n  type: person\n  attributes:\n    x:\n      ".toList ++
    (List.replicate 124 ['-', ' ']).flatten ++ ['1', '\n']

def weights : String :=
  "\x7b\"nodes\":[\x7b\"id\":\"a\",\"type\":\"person\",\"attributes\":\x7b\"x\":5e32\x7d\x7d]\x7d"

def weighed : String :=
  "\x7b\"rules\":[\x7b\"type\":\"alter\",\"options\":\x7b\"type\":\"person\"," ++
    "\"attribute\":\"x\",\"operator\":\"EXACTLY\",\"value\":5e32\x7d\x7d],\"join\":\"AND\"\x7d"

def samples : Files :=
  .ofTexts [("ages.yaml", ages), ("lists.yaml", .ofList lists), ("weights.json", weights),
    ("weighed.json", weighed), ("measured.json", Network.measured.toJson.compact),
    ("people.json", (peopleWith none).toJson.compact),
    ("aged.json", (peopleWith (some "age")).toJson.compact),
    ("read.json", (peopleWith (some "readings")).toJson.compact)]

section

variable {yaml : YamlLoader}

theorem ofFileWith_of_peopleWith {path : String} {attributeName : Option String}
    (stands : files.text path = .ok (peopleWith attributeName).toJson.compact)
    (isJson : Format.ofPath path = .json) :
    RuleSet.ofFileWith yaml files path = .ok (peopleWith attributeName) := by
  rw [RuleSet.ofFileWith_of_json isJson stands, ofText_peopleWith]

theorem ofFileWith_people :
    RuleSet.ofFileWith yaml samples "people.json" = .ok (peopleWith none) :=
  ofFileWith_of_peopleWith (Files.text_ofTexts (by simp [List.lookup_cons])) (by decide +kernel)

theorem ofFileWith_aged :
    RuleSet.ofFileWith yaml samples "aged.json" = .ok (peopleWith (some "age")) :=
  ofFileWith_of_peopleWith (Files.text_ofTexts (by simp [List.lookup_cons])) (by decide +kernel)

theorem ofFileWith_read :
    RuleSet.ofFileWith yaml samples "read.json" = .ok (peopleWith (some "readings")) :=
  ofFileWith_of_peopleWith (Files.text_ofTexts (by simp [List.lookup_cons])) (by decide +kernel)

theorem ofFileWith_measured :
    Network.ofFileWith yaml samples "measured.json" = .ok .measuredAgain := by
  have stands : samples.text "measured.json" = .ok Network.measured.toJson.compact :=
    Files.text_ofTexts (by simp [List.lookup_cons])
  have shallow : Network.measured.toJson.depth ≤ 127 := by decide
  have readBack : Network.measured.toJson.Throughout Json.floatIsReadBack := by decide +kernel
  rw [Network.ofFileWith_of_json (by decide +kernel) stands,
    Network.ofText_of_mem_texts shallow (List.mem_cons_self ..),
    Network.reread_eq_withoutNonFinite readBack, Network.measured_withoutNonFinite]

end

theorem exists_ofFile_yaml {path text : String} {test : Network → Bool}
    (stands : files.text path = .ok text) (isYaml : Format.ofPath path = .yaml)
    (passes : (Yaml.read? Network.form.read text).any test = true) :
    ∃ network, Network.ofFile files path = .ok network ∧ test network = true := by
  simp only [Network.ofFile, Network.ofFileWith, stands, ok_bind, isYaml, YamlLoader.scanning]
  cases reads : Yaml.read? Network.form.read text with
  | none => simp [reads] at passes
  | some network => exact ⟨network, rfl, by simpa [reads] using passes⟩

theorem exists_lists : ∃ network, Network.ofFile samples "lists.yaml" = .ok network ∧
    127 < ((peopleWith none).filtered (strategy false) network).toJson.depth := by
  have stands : samples.text "lists.yaml" = .ok (.ofList lists) :=
    Files.text_ofTexts (by simp [List.lookup_cons])
  have passes : ((Yaml.read? Network.form.read (.ofList lists)).any fun network =>
      127 < ((peopleWith none).filtered (strategy false) network).toJson.depth) = true := by
    rw [Yaml.read?, Yaml.tokenize?, String.toList_ofList]
    decide +kernel
  simpa using exists_ofFile_yaml stands (by decide +kernel) passes

/-- A network of which the people are asked something: in memory the answer is yes, but no when
they have been written and read again. -/
def LosesAnswer (network : Network) (further : RuleSet) : Prop :=
  let left := (peopleWith none).filtered (strategy false) network
  left.toJson.depth ≤ 127 ∧ Task.query.answer left further = "true" ∧
    Task.query.answer left.reread further = "false"

instance (network : Network) (further : RuleSet) : Decidable (LosesAnswer network further) :=
  inferInstanceAs (Decidable (_ ∧ _ ∧ _))

theorem exists_ages : ∃ network, Network.ofFile samples "ages.yaml" = .ok network ∧
    LosesAnswer network (peopleWith (some "age")) := by
  have stands : samples.text "ages.yaml" = .ok ages :=
    Files.text_ofTexts (by simp)
  have passes : ((Yaml.read? Network.form.read ages).any fun network =>
      decide (LosesAnswer network (peopleWith (some "age")))) = true := by
    decide +kernel
  simpa using exists_ofFile_yaml stands (by decide +kernel) passes

theorem exists_weights : ∃ network further,
    Network.ofFile samples "weights.json" = .ok network ∧
      RuleSet.ofFile samples "weighed.json" = .ok further ∧ LosesAnswer network further := by
  have stands : samples.text "weights.json" = .ok weights :=
    Files.text_ofTexts (by simp [List.lookup_cons])
  have standsFurther : samples.text "weighed.json" = .ok weighed :=
    Files.text_ofTexts (by simp [List.lookup_cons])
  have passes : ((Network.ofText .json weights).toOption.any fun network =>
      (RuleSet.ofText .json weighed).toOption.any fun further =>
        decide (LosesAnswer network further)) = true := by
    decide +kernel
  rw [Network.ofFile, RuleSet.ofFile, Network.ofFileWith_of_json (by decide +kernel) stands,
    RuleSet.ofFileWith_of_json (by decide +kernel) standsFurther]
  cases reads : Network.ofText .json weights with
  | error fault => simp [reads, Except.toOption] at passes
  | ok network =>
      cases readsFurther : RuleSet.ofText .json weighed with
      | error fault => simp [reads, readsFurther, Except.toOption] at passes
      | ok further =>
          exact ⟨network, further, rfl, rfl,
            by simpa [reads, readsFurther, Except.toOption] using passes⟩

/-! ## Filters and tasks -/

/-- A filter and then any task, with what the filter printed saved as a JSON file in between. The
filter always succeeds, and the task succeeds if and only if what was printed is nested at most
127 levels deep. The task then answers as for the network that the filter left in memory, with
every value as its text is read. So it answers exactly as in memory when all numbers are finite
and are read back; and all of them are finite whenever the first network came from a JSON file. -/
theorem saved_filter_answers_as_in_memory {singlePass : Bool} {task : Task}
    {networkPath rulesPath savedPath furtherPath : String}
    (filters : request first = .run ⟨.filter singlePass, networkPath, rulesPath⟩)
    (continues : request second = .run ⟨task, savedPath, furtherPath⟩)
    (loads : Network.ofFileWith yaml files networkPath = .ok network)
    (loadsRules : RuleSet.ofFileWith yaml files rulesPath = .ok ruleSet)
    (isJson : Format.ofPath savedPath = .json)
    (saved : later savedPath = .bytes (runWith yaml files first).output.toUTF8)
    (loadsFurther : RuleSet.ofFileWith yaml later furtherPath = .ok further) :
    let left := ruleSet.filtered (strategy singlePass) network
    runWith yaml files first = ⟨0, left.toJson.pretty ++ "\n", ""⟩ ∧
    (runWith yaml later second).code = (if left.toJson.depth ≤ 127 then 0 else 1) ∧
    (left.toJson.depth ≤ 127 →
      runWith yaml later second = ⟨0, task.answer left.reread further ++ "\n", ""⟩) ∧
    (left.toJson.Throughout Json.floatIsReadBack →
      left.toJson.Within Json.floatIsFinite 127 ∨ Format.ofPath networkPath = .json →
        runWith yaml later second = ⟨0, task.answer left further ++ "\n", ""⟩) := by
  intro left
  have printed : runWith yaml files first = ⟨0, left.toJson.pretty ++ "\n", ""⟩ :=
    runWith_filter filters loads loadsRules
  rw [printed] at saved
  have answers (shallow : left.toJson.depth ≤ 127) :
      runWith yaml later second = ⟨0, task.answer left.reread further ++ "\n", ""⟩ :=
    runWith_on_saved continues isJson saved loadsFurther shallow
  refine ⟨printed, ?_, answers, fun readBack finiteOrJson => ?_⟩
  · split
    · next shallow => rw [answers shallow]
    · next deep => exact code_runWith_on_saved_of_deep continues isJson saved deep
  · have within : left.toJson.Within Json.floatIsFinite 127 := by
      rcases finiteOrJson with finite | fromJson
      · exact finite
      · have within := Network.within_of_ofFileWith fromJson loads
        exact (ruleSet.filtered_partOf _ network).within Json.onlyNumbersFail_floatIsFinite within
    rw [answers within.shallow, Network.reread_eq_withoutNonFinite readBack,
      left.withoutNonFinite_eq_self within.passes]

theorem saved_filter_answers_as_in_memory_measured :
    let first := ["filter", "--fast", "--network", "measured.json", "--rules", "people.json"]
    let second := ["query", "--network", "left.json", "--rules", "read.json"]
    let later := samples.saved "left.json" (run samples first).output
    let left := (peopleWith none).filtered .singlePass .measuredAgain
    (Network.ofFile samples "measured.json" = .ok .measuredAgain ∧
      RuleSet.ofFile samples "people.json" = .ok (peopleWith none) ∧
      RuleSet.ofFile later "read.json" = .ok (peopleWith (some "readings"))) ∧
    left.toJson.Throughout Json.floatIsReadBack ∧
    run samples first = ⟨0, left.toJson.pretty ++ "\n", ""⟩ ∧
    run later second = ⟨0, "true\n", ""⟩ := by
  intro first second later left
  have loadsFurther : RuleSet.ofFile later "read.json" = .ok (peopleWith (some "readings")) :=
    (RuleSet.ofFileWith_saved_other (by decide)).trans ofFileWith_read
  have filters : request first = .run ⟨.filter true, "measured.json", "people.json"⟩ := by
    decide +kernel
  have continues : request second = .run ⟨.query, "left.json", "read.json"⟩ := by decide +kernel
  obtain ⟨printed, _, _, same⟩ :=
    saved_filter_answers_as_in_memory filters continues ofFileWith_measured ofFileWith_people
      (by decide +kernel) (Files.saved_same _ _ _) loadsFurther
  have readBack : left.toJson.Throughout Json.floatIsReadBack := by decide +kernel
  have answer : Task.query.answer ((peopleWith none).filtered (strategy true) .measuredAgain)
      (peopleWith (some "readings")) = "true" := by decide +kernel
  refine ⟨⟨ofFileWith_measured, ofFileWith_people, loadsFurther⟩, readBack, printed, ?_⟩
  refine (same readBack (.inr (by decide +kernel))).trans ?_
  rw [answer]
  rfl

theorem LosesAnswer.answers {networkPath furtherPath : String}
    (loses : LosesAnswer network further)
    (filters : request ["filter", "--network", networkPath, "--rules", "people.json"] =
      .run ⟨.filter false, networkPath, "people.json"⟩)
    (continues : request ["query", "--network", "left.json", "--rules", furtherPath] =
      .run ⟨.query, "left.json", furtherPath⟩)
    (loads : Network.ofFile samples networkPath = .ok network)
    (loadsFurther : RuleSet.ofFile samples furtherPath = .ok further)
    (different : furtherPath ≠ "left.json") :
    let first := run samples ["filter", "--network", networkPath, "--rules", "people.json"]
    let later := samples.saved "left.json" first.output
    first.code = 0 ∧ RuleSet.ofFile later furtherPath = .ok further ∧
      run later ["query", "--network", "left.json", "--rules", furtherPath] =
        ⟨0, "false\n", ""⟩ := by
  intro first later
  obtain ⟨shallow, _, onSaved⟩ := loses
  have printed : first = _ := runWith_filter filters loads ofFileWith_people
  have loadsLater : RuleSet.ofFile later furtherPath = .ok further :=
    (RuleSet.ofFileWith_saved_other different).trans loadsFurther
  have saved : later "left.json" = .bytes first.output.toUTF8 := samples.saved_same _ _
  rw [printed] at saved
  have isJson : Format.ofPath "left.json" = .json := by decide +kernel
  have answers := runWith_on_saved continues isJson saved loadsLater shallow
  rw [onSaved] at answers
  exact ⟨congrArg Report.code printed, loadsLater, answers⟩

/-- What JSON cannot write gets lost, some of what it can write is read as another number, and not
all that can be written can be loaded: a NaN is an age in memory but none in the saved file, a
weight is not the same one in the saved file, and lists that are loaded from YAML are nested too
deeply for JSON. -/
theorem saving_may_change_answers :
    (∃ network, Network.ofFile samples "ages.yaml" = .ok network ∧
      RuleSet.ofFile samples "people.json" = .ok (peopleWith none) ∧
      Task.query.answer ((Filter.ofRuleSet (peopleWith none)).apply network)
        (peopleWith (some "age")) = "true") ∧
    (let first := run samples ["filter", "--network", "ages.yaml", "--rules", "people.json"]
      let later := samples.saved "left.json" first.output
      first.code = 0 ∧ RuleSet.ofFile later "aged.json" = .ok (peopleWith (some "age")) ∧
        run later ["query", "--network", "left.json", "--rules", "aged.json"] =
          ⟨0, "false\n", ""⟩) ∧
    (∃ network further, Network.ofFile samples "weights.json" = .ok network ∧
      Task.query.answer ((Filter.ofRuleSet (peopleWith none)).apply network) further = "true" ∧
      let first := run samples ["filter", "--network", "weights.json", "--rules", "people.json"]
      let later := samples.saved "left.json" first.output
      first.code = 0 ∧ RuleSet.ofFile later "weighed.json" = .ok further ∧
        run later ["query", "--network", "left.json", "--rules", "weighed.json"] =
          ⟨0, "false\n", ""⟩) ∧
    (let first := run samples ["filter", "--network", "lists.yaml", "--rules", "people.json"]
      let later := samples.saved "left.json" first.output
      first.code = 0 ∧ RuleSet.ofFile later "people.json" = .ok (peopleWith none) ∧
        (run later ["query", "--network", "left.json", "--rules", "people.json"]).code = 1) := by
  constructor
  · obtain ⟨network, loads, loses⟩ := exists_ages
    exact ⟨network, loads, ofFileWith_people, loses.2.1⟩
  constructor
  · obtain ⟨network, loads, loses⟩ := exists_ages
    exact loses.answers (by decide +kernel) (by decide +kernel) loads ofFileWith_aged (by decide)
  constructor
  · obtain ⟨network, further, loads, loadsFurther, loses⟩ := exists_weights
    exact ⟨network, further, loads, loses.2.1, loses.answers (by decide +kernel)
      (by decide +kernel) loads loadsFurther (by decide)⟩
  · obtain ⟨network, loads, deep⟩ := exists_lists
    intro first later
    have filters : request ["filter", "--network", "lists.yaml", "--rules", "people.json"] =
        .run ⟨.filter false, "lists.yaml", "people.json"⟩ := by decide +kernel
    have continues : request ["query", "--network", "left.json", "--rules", "people.json"] =
        .run ⟨.query, "left.json", "people.json"⟩ := by decide +kernel
    have printed : first = _ := runWith_filter filters loads ofFileWith_people
    have loadsFurther : RuleSet.ofFile later "people.json" = .ok (peopleWith none) :=
      (RuleSet.ofFileWith_saved_other (by decide)).trans ofFileWith_people
    have saved : later "left.json" = .bytes first.output.toUTF8 := samples.saved_same _ _
    rw [printed] at saved
    exact ⟨congrArg Report.code printed, loadsFurther, code_runWith_on_saved_of_deep continues
      (by decide +kernel) saved (Nat.not_le_of_gt deep)⟩

end CommandLine

end Sociogram
