import TextHarvest.Command.Run
import TextHarvest.Command.Usage
import TextHarvest.Run.Format

/-!
# The command line program

The outer layer: it loads a project from the disk into a file tree, lets a command work on the tree,
writes back what the command changed, and prints what it has to say.
-/

namespace TextHarvest.Main

/-- The content of a file on the disk. -/
def readContent (path : String) : IO FileContent := do
  let bytes ← IO.FS.readBinFile path
  match String.fromUTF8? bytes with
  | some s => return .text s
  | none => return .binary bytes.toList

/-- Directories whose content is never part of a project. -/
def isForeign (name : String) : Bool :=
  name == ".git" || name == "node_modules"

/-- Adds what stands at a path of the disk, and everything below it, to a tree. -/
partial def loadAt (path : String) (place : Place) (t : FileTree) : IO FileTree := do
  let real ← IO.FS.realPath path
  if ← real.isDir then
    let t := t.set place .directory
    if isForeign (place.getLast?.getD "") then return t
    (← real.readDir).foldlM (fun t e =>
      loadAt (Path.join path e.fileName) (place ++ [e.fileName]) t) t
  else
    try
      return t.set place (.file (← readContent path))
    catch _ => return t.set place (.file (.binary []))

/-- The path without links and detours of what stands on the disk at a path. -/
def realPath? (path : String) : IO (Option String) := do
  try
    return some (← IO.FS.realPath path).toString
  catch _ => return none

/-- Adds a directory to a tree, with the entries that the search for a configuration looks for. -/
def loadLandmarks (t : FileTree) (place : Place) : IO FileTree := do
  let dir := "/" ++ "/".intercalate place
  let t := if place.isEmpty then t else t.set place .directory
  [Config.fileName, ".git"].foldlM (fun t name => do
    match ← realPath? (Path.join dir name) with
    | none => return t
    | some path =>
      if ← (← IO.FS.realPath path).isDir then return t.set (place ++ [name]) .directory
      else return t.set (place ++ [name]) (.file (← readContent path))) t

/-- Loads the project around a directory: the landmarks on the way to it, and all that is below the
directory of its configuration. -/
def loadProject (start : String) : IO FileTree := do
  let place := (Path.splitText '/' start).filter (· != "")
  let above := (List.range (place.length + 1)).map fun n => place.take n
  let t ← above.foldlM loadLandmarks FileTree.empty
  let top := match Config.find? t start with
    | some path => (Path.parent? path).getD start
    | none => start
  loadAt top ((Path.splitText '/' top).filter (· != "")) t

/-- Writes the files that differ between two trees. -/
def writeChanges (old new : FileTree) : IO Unit :=
  new.entries.forM fun (place, entry) => do
    if old.entry? place != some entry then
      let path := "/" ++ "/".intercalate place
      match entry with
      | .directory => IO.FS.createDirAll path
      | .file (.text s) => IO.FS.writeFile path s
      | .file (.binary bytes) => IO.FS.writeBinFile path (ByteArray.mk bytes.toArray)

/-- Prints a text on the standard error stream. -/
def complain (s : String) : IO Unit := do
  (← IO.getStderr).putStr s

/-- Carries out a command in the working directory. -/
def runCommand (g : GlobalArguments) (c : Command) : IO UInt32 := do
  let dir := (← IO.currentDir).toString
  -- the command runs on the tree as it was loaded; what it changed is written afterwards
  let tree ← match ← realPath? (Path.join dir (g.root.getD dir)) with
    | some start => loadProject start
    | none => pure FileTree.empty
  let env : Surroundings :=
    { apiKey := ← IO.getEnv "OPENAI_API_KEY"
      now := ← IO.monoMsNow
      format := Run.Format.run
      remark := fun _ => "not a JSON text" }
  let result := (c.run env dir g tree).print g.verbose
  writeChanges tree result.tree
  IO.print result.output
  complain result.warnings
  match result.status with
  | .error message => complain ("Error: " ++ message ++ "\n")
  | _ => pure ()
  return result.status.code.toUInt32

end TextHarvest.Main

open TextHarvest in
/-- Runs the program. -/
def main (args : List String) : IO UInt32 := do
  match Arguments.parse args with
  | .error e =>
    if e.isAnswer then
      IO.print e.message
      return 0
    else
      Main.complain e.message
      return 2
  | .ok { command := none, .. } =>
    IO.print UsageError.helpText
    return 0
  | .ok { global, command := some c } => Main.runCommand global c
