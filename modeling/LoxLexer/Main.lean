import LoxLexer.Command.Run

/-!
# The program

The outer layer: it looks at the files that a command line concerns, makes the run, and carries
out what the run changed and printed.
-/

namespace LoxLexer
namespace Command

/-- The paths that a command line concerns. -/
def concernedPaths (words : List Text) : List Path :=
  match Arguments.read words with
  | .error _ => []
  | .ok arguments =>
    let input := Path.ofText arguments.input
    [input, configPath arguments.configPath? input.parent] ++ arguments.outputPath?.toList

/-- The locations that names lead past from a location. -/
def wayPoints (here : Location) : List Text → List Location
  | [] => [here]
  | name :: names =>
    here :: wayPoints (if name = "..".toList then here.dropLast else here ++ [name]) names

/-- The locations that a path leads past. -/
def pathWayPoints (workingDirectory : Location) (path : Path) : List Location :=
  wayPoints (if path.root = .relative then workingDirectory else []) path.names

/-- The name of a location in the file system. -/
def systemName (location : Location) : String :=
  String.ofList ('/' :: Text.join ['/'] location)

/-- What stands at a location in the file system. -/
def entryAt (location : Location) : IO (Option Entry) := do
  if location = ["dev".toList, "null".toList] then return some .nullDevice
  try
    return some (.file (← IO.FS.readBinFile (systemName location)).toList)
  catch
    | .inappropriateType _ 21 _ => return some .directory
    | _ => return none

/-- The part of the file system at some locations. -/
def observe (workingDirectory : Location) (locations : List Location) : IO FileTree := do
  let mut entries := []
  for location in locations do
    if let some entry ← entryAt location then entries := entries ++ [(location, entry)]
  return ⟨entries, workingDirectory⟩

/-- Makes a run on the file system. -/
def runInSystem (words : List Text) : IO UInt32 := do
  let here := (Path.ofText (toString (← IO.currentDir)).toList).names
  let before ← observe here
    (wayPoints [] here ++ (concernedPaths words).flatMap (pathWayPoints here))
  let outcome := run before words
  for (location, content) in before.changes outcome.tree do
    IO.FS.writeBinFile (systemName location) ⟨content.toArray⟩
  IO.print (String.ofList outcome.stdout)
  IO.eprint (String.ofList outcome.stderr)
  match outcome.ending, outcome.exitCode? with
  | .breakdown cause, _ =>
    IO.eprintln (String.ofList cause.message)
    return 1
  | _, code => return (code.getD 1).toUInt32

end Command
end LoxLexer

/-- The program. -/
def main (arguments : List String) : IO UInt32 :=
  LoxLexer.Command.runInSystem (arguments.map String.toList)
