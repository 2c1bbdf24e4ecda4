import Sociogram.Filter.Standard
import Sociogram.Filter.SinglePass
import Sociogram.Load
import Sociogram.Query
import Sociogram.Rule.Writing

/-!
The command line: filter a network file with a rule file, or ask whether the
network satisfies the rules.
-/

namespace Sociogram.CommandLine

/-! ## Commands -/

inductive Task where
  | filter (singlePass : Bool)
  | query
deriving DecidableEq

structure Command where
  task : Task
  network : String
  rules : String
deriving DecidableEq

inductive Request where
  | run (command : Command)
  | version
  | help
  | refused
deriving DecidableEq

/-! ## Arguments -/

inductive Argument where
  /-- Two dashes alone: no options come after them. -/
  | separator
  /-- Two dashes and a name, with a value after an equals sign or without one. -/
  | long (name : String) (value : Option String)
  /-- One dash and letters. -/
  | short (letters : List Char)
  | word (text : String)
deriving DecidableEq

def Argument.ofText (text : String) : Argument :=
  match text.toList with
  | ['-', '-'] => .separator
  | '-' :: '-' :: rest =>
      let name := String.ofList (rest.takeWhile (· != '='))
      match rest.dropWhile (· != '=') with
      | [] => .long name none
      | _ :: value => .long name (some (String.ofList value))
  | '-' :: letter :: letters => .short (letter :: letters)
  | _ => .word text

/-- The value of an option and the arguments after it: the one written with it, or
else the next argument, if that is no option. -/
def optionValue? (attached : Option String) (arguments : List String) :
    Option (String × List String) :=
  match attached, arguments with
  | some value, rest => some (value, rest)
  | none, next :: rest =>
      match Argument.ofText next with
      | .word value => some (value, rest)
      | _ => none
  | none, [] => none

def isLogLevel (value : String) : Bool :=
  let digits :=
    match value.toList with
    | '+' :: rest => rest
    | other => other
  let number := Nat.ofDigitChars 10 digits 0
  ["error", "warn", "info", "debug", "trace"].contains value.toLower ||
    (!digits.isEmpty && digits.all Char.isDigit && decide (1 ≤ number ∧ number ≤ 5))

structure Options where
  network : Option String := none
  rules : Option String := none
  singlePass : Bool := false
  hasLogLevel : Bool := false

def Options.request (options : Options) (filters : Bool) : Request :=
  match options.network, options.rules with
  | some network, some rules =>
      .run ⟨if filters then .filter options.singlePass else .query, network, rules⟩
  | _, _ => .refused

/-- Read the arguments after the name of a task. Each option may be given once, and
there are no arguments but options. -/
def taskRequest (filters : Bool) : Nat → Options → List String → Request
  | 0, _, _ => .refused
  | _ + 1, options, [] => options.request filters
  | fuel + 1, options, argument :: arguments =>
      match Argument.ofText argument with
      | .separator => if arguments.isEmpty then options.request filters else .refused
      | .short ('h' :: _) => .help
      | .long "help" none => .help
      | .long "fast" none =>
          if filters && !options.singlePass then
            taskRequest filters fuel { options with singlePass := true } arguments
          else .refused
      | .long name attached =>
          match optionValue? attached arguments with
          | none => .refused
          | some (value, rest) =>
              if name = "network" ∧ options.network = none ∧ value ≠ "" then
                taskRequest filters fuel { options with network := some value } rest
              else if name = "rules" ∧ options.rules = none ∧ value ≠ "" then
                taskRequest filters fuel { options with rules := some value } rest
              else if name = "log-level" ∧ !options.hasLogLevel ∧ isLogLevel value then
                taskRequest filters fuel { options with hasLogLevel := true } rest
              else .refused
      | _ => .refused

/-- What is asked of the help: nothing, or one task, or the help itself. Whatever else
the arguments look like, they are no tasks. -/
def helpRequest (arguments : List String) : Request :=
  match arguments with
  | [] => .help
  | [topic] => if ["filter", "query", "help"].contains topic then .help else .refused
  | _ => .refused

def Request.unless (fault : Bool) (request : Request) : Request :=
  if fault && request != .help then .refused else request

/-- Read the arguments up to the name of a task. A level of the log that is an argument
of its own is looked at when the next option is read, or else at the end; `fault` tells
that the last one is wrong. -/
def requestFrom (hasLogLevel fault : Bool) : Nat → List String → Request
  | 0, _ => .refused
  | _ + 1, [] => .refused
  | fuel + 1, argument :: arguments =>
      match Argument.ofText argument with
      | .word "filter" => (taskRequest true (fuel + 1) {} arguments).unless fault
      | .word "query" => (taskRequest false (fuel + 1) {} arguments).unless fault
      | .word "help" => helpRequest arguments
      | option =>
          if fault then .refused
          else
            match option with
            | .short ('h' :: _) => .help
            | .short ('V' :: _) => .version
            | .long "help" none => .help
            | .long "version" none => .version
            | .long "log-level" attached =>
                match optionValue? attached arguments with
                | none => .refused
                | some (value, rest) =>
                    let wrong := hasLogLevel || !isLogLevel value
                    if wrong && attached.isSome then .refused
                    else requestFrom true wrong fuel rest
            | _ => .refused

def request (arguments : List String) : Request :=
  requestFrom false false (arguments.length + 1) arguments

/-! ## Runs -/

/-- What a run leaves behind: an exit code, the text on the output stream, and the error messages
on the other one. Lines of the log go there too, but they carry the time and are left out, and so
are the texts of help and of refused arguments. -/
structure Report where
  code : Nat
  output : String
  errors : String
deriving DecidableEq

def loadFiles (yaml : YamlLoader) (files : Files) (command : Command) :
    Except String (Network × RuleSet) := do
  let network ← (Network.ofFileWith yaml files command.network).mapError fun error =>
    "cannot load network '" ++ command.network ++ "': " ++ error.message
  let ruleSet ← (RuleSet.ofFileWith yaml files command.rules).mapError fun error =>
    "cannot load rules '" ++ command.rules ++ "': " ++ error.message
  return (network, ruleSet)

def Task.answer (task : Task) (network : Network) (ruleSet : RuleSet) : String :=
  match task with
  | .filter true => ((SinglePassFilter.ofRuleSet ruleSet).apply network).toJson.pretty
  | .filter false => ((Filter.ofRuleSet ruleSet).apply network).toJson.pretty
  | .query => if (Query.ofRuleSet ruleSet).evaluate network then "true" else "false"

def Command.run (yaml : YamlLoader) (files : Files) (command : Command) : Report :=
  match loadFiles yaml files command with
  | .ok (network, ruleSet) => ⟨0, command.task.answer network ruleSet ++ "\n", ""⟩
  | .error message => ⟨1, "", "Error: " ++ message ++ "\n"⟩

def versionText : String := "netquery 0.1.0"

def runWith (yaml : YamlLoader) (files : Files) (arguments : List String) : Report :=
  match request arguments with
  | .run command => command.run yaml files
  | .version => ⟨0, versionText ++ "\n", ""⟩
  | .help => ⟨0, "", ""⟩
  | .refused => ⟨2, "", ""⟩

def run : Files → List String → Report := runWith .scanning

example : request ["filter", "--rules=r", "--network", "n", "--fast"] =
    .run ⟨.filter true, "n", "r"⟩ := by decide +kernel
example : request ["query", "--rules", "r"] = .refused := by decide +kernel
example : request ["help", "filter"] = .help := by decide +kernel
example : request ["help", "-V"] = .refused := by decide +kernel

end Sociogram.CommandLine
