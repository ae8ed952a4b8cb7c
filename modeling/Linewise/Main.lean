import Linewise.Command.Run

/-!
# The program

Reads the files that the command line may need, carries it out, and prints the
answer. A failure is told on the error stream.
-/

open Linewise.Command

/-- The variables of the environment, as the system lists them for this process. -/
def readEnvironment : IO Linewise.Environment.Variables := do
  try
    let bytes ← IO.FS.readBinFile "/proc/self/environ"
    let entries := ((String.fromUTF8? bytes).getD "").toList.splitOn '\x00'
    return entries.filterMap fun entry =>
      match entry.dropWhile (· != '=') with
      | '=' :: value => some (String.ofList (entry.takeWhile (· != '=')), String.ofList value)
      | _ => none
  catch _ => return []

/-- The bytes of a file, if it can be read. -/
def fileBytes? (path : String) : IO (Option ByteArray) := do
  try return some (← IO.FS.readBinFile path)
  catch _ => return none

/-- The files at those of the given places where one can be read. -/
def loadFiles (locations : List Location) : IO Files :=
  locations.filterMapM fun location => do
    return (← fileBytes? location.toPath).map (location, ·)

/-- Runs the command line. -/
def main (arguments : List String) : IO UInt32 := do
  let environment ← readEnvironment
  let request := readRequest arguments environment
  let files ← match request with
    | .error _ => pure []
    | .ok request => loadFiles request.locations
  match request >>= Request.run files environment with
  | .ok output =>
    IO.print output.stdout
    return output.exitCode.toUInt32
  | .error failure =>
    IO.eprintln ("linediff: " ++ failure.message)
    return 2
