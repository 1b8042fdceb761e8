import Docmark.CommandLine.Run

/-!
The program: reaches files, the environment and the text that comes in.
-/

namespace Docmark.CommandLine

/-- The reason why a file cannot be reached. -/
def reasonOf (path : Text) : IO.Error → FileError
  | .inappropriateType .. => .isDirectory path
  | .permissionDenied .. => .denied path
  | .invalidArgument .. => .tooLong path
  | _ => .missing path

def attempt (path : Text) (act : IO α) : IO (Except FileError α) := do
  if path.contains '\x00' then return .error .zeroInName
  match ← act.toBaseIO with
  | .ok a => return .ok a
  | .error e => return .error (reasonOf path e)

def systemFiles : Files IO where
  read path := attempt path do
    return (← IO.FS.readBinFile (String.ofList path)).toList
  write path content := attempt path do
    IO.FS.writeBinFile (String.ofList path) ⟨content.toArray⟩
  append path content := attempt path do
    let handle ← IO.FS.Handle.mk (String.ofList path) .append
    handle.write ⟨content.toArray⟩

/-- Input that is no text counts as empty. -/
def systemInput : IO Text := do
  let bytes ← (← IO.getStdin).readBinToEnd
  return (ofUtf8? bytes.toList).getD []

def systemEnvironment : IO Environment :=
  variableNames.filterMapM fun name => do
    return (← IO.getEnv (String.ofList name)).map fun value => (name, value.toList)

end Docmark.CommandLine

open Docmark Docmark.CommandLine in
def main (arguments : List String) : IO UInt32 := do
  let result ← run ⟨systemFiles, systemInput⟩ (← systemEnvironment) (arguments.map String.toList)
  match result with
  | .ok report =>
    IO.print (String.ofList report.stdout)
    IO.eprint (String.ofList report.stderr)
    return report.exit.toUInt32
  | .error e =>
    IO.eprintln (String.ofList e.message)
    return 1
