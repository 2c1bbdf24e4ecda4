import Sociogram.CommandLine

/-!
The program: read the files that its arguments name, write the answer, and end with
its exit code.
-/

namespace Sociogram

def readContent (path : String) : IO FileContent := do
  try
    let content ← IO.FS.readBinFile path
    return .bytes content
  catch error =>
    match error with
    | .noFileOrDirectory .. => return .fault .missing
    | .inappropriateType .. => return .fault .directory
    | other => return .fault (.unreadable (toString other))

def readFiles (request : CommandLine.Request) : IO Files := do
  match request with
  | .run command =>
      let network ← readContent command.network
      let rules ← readContent command.rules
      return fun path => if path = command.network then network else rules
  | _ => return fun _ => .fault .missing

end Sociogram

def main (arguments : List String) : IO UInt32 := do
  let files ← Sociogram.readFiles (Sociogram.CommandLine.request arguments)
  let report := Sociogram.CommandLine.run files arguments
  IO.print report.output
  IO.eprint report.errors
  return report.code.toUInt32
