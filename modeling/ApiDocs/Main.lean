import ApiDocs.Json.Reader
import ApiDocs.Project
import ApiDocs.SyntaxTree.Json

/-!
# The program

The paths of the project's files and directories are read from standard input, one a line.  The syntax tree
of a source file stands beside it in a file with `.tree` behind its name.  What a run writes is written to
the same places.
-/

namespace ApiDocs

/-- What stands at a path: the bytes of a file, or nothing if it cannot be read, as a directory cannot. -/
def contentAt (path : Path) : IO (Option ByteArray) := do
  try
    return some (← IO.FS.readBinFile path)
  catch _ =>
    return none

/-- The file system with what stands at a path. -/
def FileSystem.withContent (system : FileSystem) (path : Path) : Option ByteArray → FileSystem
  | some content => (system.writeBelow path content).1
  | none => (system.makeDirectories path).1

/-- The source of a tree file and the tree. -/
def treeOf? (system : FileSystem) (path : Path) : Option (String × SyntaxNode) := do
  let source ← (system.readText path).toOption
  let tree ← (system.readText (path ++ ".tree")).toOption
  return (source, ← SyntaxNode.ofJson? source (← Json.read? tree))

def absolutePath (location : Location) : Path :=
  "/" ++ String.intercalate "/" location

/-- Write what a run has written. -/
def Outcome.save (outcome : Outcome) : IO Unit := do
  for location in outcome.written do
    match outcome.system.lookup? location with
    | some (.file content) =>
        IO.FS.createDirAll (absolutePath location.dropLast)
        IO.FS.writeBinFile (absolutePath location) content
    | _ => pure ()

/-- Say how a run has ended. -/
def Outcome.report (outcome : Outcome) : IO UInt32 := do
  IO.print outcome.printed
  match outcome.failure with
  | none => return 0
  | some (.usage .helpWanted) =>
      IO.println UsageError.helpWanted.message
      return 0
  | some (.usage .versionWanted) =>
      IO.println UsageError.versionWanted.message
      return 0
  | some (.usage reason) =>
      IO.eprintln reason.message
      return 2
  | some reason =>
      IO.eprintln reason.message
      return 1

/-- Run the program on the project whose paths are given. -/
def runProgram (paths arguments : List String) : IO UInt32 := do
  let workingDirectory := ((← IO.getEnv "PWD").getD "/").splitOn "/" |>.filter (· ≠ "")
  let time := (← IO.getEnv "GENERATED_AT").getD "1970-01-01T00:00:00Z"
  let mut system : FileSystem := ⟨.empty, workingDirectory⟩
  system := (system.makeDirectories (absolutePath workingDirectory)).1
  for path in paths do
    system := system.withContent path (← contentAt path)
  let trees := paths.filterMap (treeOf? system)
  let surroundings : Surroundings :=
    { syntaxOf := fun source => (trees.lookup source).getD ⟨"program", "", true, false, "", []⟩
      clock := fun _ => time }
  let outcome := Project.run surroundings system arguments
  outcome.save
  outcome.report

end ApiDocs

def main (arguments : List String) : IO UInt32 := do
  ApiDocs.runProgram (← (← IO.getStdin).lines).toList arguments
