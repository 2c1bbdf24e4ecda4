import Sociogram.Json.Text
import Sociogram.Rule.Reading
import Sociogram.Yaml.Text

/-!
Loading networks and rule sets from JSON and YAML texts and from files.
-/

namespace Sociogram

/-! ## Formats -/

inductive Format where
  | json
  | yaml
deriving DecidableEq

def lastComponent (path : String) : List Char :=
  (path.toList.reverse.takeWhile (· != '/')).reverse

def extension? (name : List Char) : Option (List Char) :=
  let reversed := name.reverse
  match reversed.dropWhile (· != '.') with
  | [] => none
  | _ :: stem => if stem.isEmpty then none else some (reversed.takeWhile (· != '.')).reverse

/-- Files with the extension `yaml` or `yml` are YAML, all others JSON. -/
def Format.ofPath (path : String) : Format :=
  match extension? (lastComponent path) with
  | some ['y', 'a', 'm', 'l'] => .yaml
  | some ['y', 'm', 'l'] => .yaml
  | _ => .json

example : Format.ofPath "a.json.yaml" = .yaml := by decide +kernel
example : Format.ofPath ".yaml" = .json := by decide +kernel
example : Format.ofPath "net.YAML" = .json := by decide +kernel

/-! ## Errors -/

inductive FileFault where
  | missing
  | directory
  | notUtf8
  | unreadable (reason : String)
deriving DecidableEq

def FileFault.message : FileFault → String
  | missing => "No such file or directory (os error 2)"
  | directory => "Is a directory (os error 21)"
  | notUtf8 => "stream did not contain valid UTF-8"
  | unreadable reason => reason

/-- Why nothing is loaded. Lines and columns of problems are left out, and so is all that there
is to tell of a YAML text. -/
inductive LoadError where
  | json (problem : Problem)
  | yaml
  | file (fault : FileFault)
deriving DecidableEq

def LoadError.message : LoadError → String
  | json problem => "JSON error: " ++ problem.message
  | yaml => "YAML error"
  | file fault => "IO error: " ++ fault.message

/-! ## Texts -/

def Format.read {α : Type} (format : Format) (reader : Document → Except Problem α)
    (text : String) : Except LoadError α :=
  match format with
  | .json => (JsonText.read reader text).mapError .json
  | .yaml =>
      match Yaml.read? reader text with
      | some value => .ok value
      | none => .error .yaml

def Network.ofText (format : Format) (text : String) : Except LoadError Network :=
  format.read Network.form.read text

def RuleSet.ofText (format : Format) (text : String) : Except LoadError RuleSet :=
  format.read RuleSet.form.read text

def RuleEntry.ofText (format : Format) (text : String) : Except LoadError RuleEntry :=
  format.read RuleEntry.form.read text

def AttributeValue.ofText (format : Format) (text : String) :
    Except LoadError AttributeValue :=
  format.read AttributeValue.ofDocument text

def NodeId.ofText (format : Format) (text : String) : Except LoadError NodeId :=
  format.read NodeId.ofDocument text

/-! ## Files -/

inductive FileContent where
  | bytes (content : ByteArray)
  | fault (fault : FileFault)

abbrev Files := String → FileContent

namespace Files

def text (files : Files) (path : String) : Except LoadError String :=
  match files path with
  | .bytes content =>
      match String.fromUTF8? content with
      | some text => .ok text
      | none => .error (.file .notUtf8)
  | .fault fault => .error (.file fault)

end Files

/-! ## YAML loaders -/

/-- A way of loading networks and rule sets from YAML texts. -/
structure YamlLoader where
  network : String → Option Network
  ruleSet : String → Option RuleSet

/-- Load the part of YAML that is scanned here. -/
def YamlLoader.scanning : YamlLoader where
  network := Yaml.read? Network.form.read
  ruleSet := Yaml.read? RuleSet.form.read

def Network.ofFileWith (yaml : YamlLoader) (files : Files) (path : String) :
    Except LoadError Network := do
  let text ← files.text path
  match Format.ofPath path with
  | .json => Network.ofText .json text
  | .yaml => (yaml.network text).elim (.error .yaml) .ok

def RuleSet.ofFileWith (yaml : YamlLoader) (files : Files) (path : String) :
    Except LoadError RuleSet := do
  let text ← files.text path
  match Format.ofPath path with
  | .json => RuleSet.ofText .json text
  | .yaml => (yaml.ruleSet text).elim (.error .yaml) .ok

def Network.ofFile : Files → String → Except LoadError Network := ofFileWith .scanning

def RuleSet.ofFile : Files → String → Except LoadError RuleSet := ofFileWith .scanning

end Sociogram
