/-
Provision.Main — the command line program.

The files that a command names and the variables that set images are read
first; what is done with them is decided by `Cli.run`.
-/
import Provision.Cli.Run

namespace Provision.Cli

/-- The files that a command reads. -/
def Command.paths : Command → List String
  | .arguments node network => node :: network.toList
  | .genesis _ network => [network]
  | .staticNodes node | .image node => [node]
  | .signers _ => []

/-- The files that a command line names. -/
def paths (words : List String) : List String :=
  match request? words with
  | some (.run command) => command.paths
  | _ => []

/-- What the system says about a file that could not be read. -/
def ReadFault.ofError : IO.Error → ReadFault
  | .noFileOrDirectory .. | .noSuchThing .. => .missing
  | .inappropriateType .. => .directory
  | e => .other (toString e)

/-- Reads a file of the system. -/
def readSystemFile (path : String) : IO (Except ReadFault ByteArray) := do
  try
    return .ok (← IO.FS.readBinFile path)
  catch e =>
    return .error (ReadFault.ofError e)

/-- The part of the system that a command line may look at. -/
def systemWorld (words : List String) : IO World := do
  let files ← (paths words).mapM fun path => do
    return (path, ← readSystemFile path)
  let settings ← Client.all.mapM fun client => do
    return (client.imageVariable, (← IO.getEnv client.imageVariable).map String.toUTF8)
  return {
    file := fun path => (files.lookup path).getD (.error .missing)
    setting? := fun name => (settings.lookup name).join }

/-- Tells a chain of causes. -/
def reportText (causes : Causes) : String :=
  match causes with
  | [] => ""
  | [cause] => "Error: " ++ cause
  | cause :: more => "Error: " ++ cause ++ "\n\nCaused by:\n" ++
      String.intercalate "\n" (more.map ("    " ++ ·))

end Provision.Cli

/-- Runs the program on the words of its command line. -/
def main (words : List String) : IO UInt32 := do
  let outcome := Provision.Cli.run (← Provision.Cli.systemWorld words) words
  IO.print outcome.output
  match outcome with
  | .failed causes => IO.eprintln (Provision.Cli.reportText causes)
  | _ => pure ()
  return outcome.exitCode
