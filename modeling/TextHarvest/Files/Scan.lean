import TextHarvest.Files.Glob
import TextHarvest.Options

/-!
# Source files of a project

Which files of a project are sources: those below the included paths that have an allowed extension
and are not excluded. Hidden directories and installed packages are never entered.
-/

namespace TextHarvest

/-- Whether a text spells another one, upper and lower case letters being the same. -/
def Text.sameLetters (a b : List Char) : Bool :=
  a.map Char.toLower == b.map Char.toLower

namespace Options

/-- Whether the extension of a path is allowed. -/
def allowsFile (o : Options) (path : String) : Bool :=
  (Path.extension? path).any fun ext =>
    o.allowedExtensions.any fun allowed =>
      Text.sameLetters (allowed.toList.dropWhile (· == '.')) ext.toList

/-- The path of the locale file of a language. -/
def localePath (o : Options) (root lang : String) : String :=
  Path.join (Path.join root o.outputPath) (o.localeFileName lang)

end Options

namespace Scan

/-- Whether a name is that of a hidden entry or of installed packages. -/
def isHidden (name : String) : Bool :=
  name == "node_modules" || name.toList.head? == some '.'

/-- The directories and files to look at. -/
def included (t : FileTree) (root : String) (o : Options) : List String :=
  if o.includePaths.isEmpty then [root]
  else
    o.includePaths.flatMap fun inc =>
      let path := Path.join root inc
      if Glob.isPattern inc then Glob.directories t path
      else if t.pathExists path then [path] else []

/-- Remarks on excluded and included paths that cannot be used. -/
def remarks (t : FileTree) (root : String) (o : Options) : List String :=
  let fault? (pattern : String) : Option String :=
    match Glob.parse pattern with
    | .ok _ => none
    | .error e => some e.message
  let excluded := o.excludedPaths.filterMap fun p =>
    if Glob.isPattern p then
      (fault? p).map fun e => "Invalid excluded pattern '" ++ p ++ "': " ++ e
    else none
  -- an inclusion is joined to the root first, so the fault is counted from there
  let included := o.includePaths.filterMap fun inc =>
    let path := Path.join root inc
    if Glob.isPattern inc then
      (fault? path).map fun e => "Invalid glob pattern '" ++ inc ++ "': " ++ e
    else if t.pathExists path then none
    else some ("Include path does not exist: " ++ path)
  excluded ++ included

/-- The paths of the files at or below a path, hidden directories left out. -/
def filesBelow (t : FileTree) (path : String) : List String :=
  match t.place? path with
  | none => []
  | some place =>
    (t.filesBelow place).filterMap fun (names, _) =>
      if names.dropLast.any isHidden then none
      else some (names.foldl Path.join path)

/-- A path as patterns see it. -/
def forPatterns (path : String) : String :=
  String.ofList (path.toList.map fun c => if c == '\\' then '/' else c)

/-- Whether a file is excluded by its path or by a pattern. -/
def isExcludedFile (root : String) (o : Options) (path : String) : Bool :=
  o.excludedPaths.any fun p =>
    if Glob.isPattern p then
      (Glob.parse? p).any fun g => g.isMatch (forPatterns (Path.relativeOrSelf path root))
    else Path.startsWith path (Path.join root p)

/-- The source files of a project, in order. -/
def files (t : FileTree) (root : String) (o : Options) : List String :=
  ((included t root o).flatMap (filesBelow t)).foldl (fun found path =>
    if !isExcludedFile root o path && o.allowsFile path then Path.insertSorted path found
    else found) []

/-- Drops the slashes at the end of a path. -/
def dropSlashes (path : String) : String :=
  String.ofList (path.toList.reverse.dropWhile (· == '/')).reverse

/-- Whether a single file counts as a source, by its path alone. -/
def isSource (root path : String) (o : Options) : Bool :=
  let relative := Path.relativeOrSelf path root
  let matchesGlob (pattern : String) : Bool :=
    (Glob.parse? pattern).any fun g => g.isMatch (forPatterns relative)
  let matchesPlain (p : String) : Bool := Path.startsWith relative (dropSlashes p)
  let hidden := (Path.components relative).any fun
    | .name n => isHidden n
    | _ => false
  !Path.isAbsolute relative && o.allowsFile relative && !hidden &&
    (o.includePaths.isEmpty || o.includePaths.any fun inc =>
      if Glob.isPattern inc then matchesGlob (dropSlashes inc ++ "/**/*") else matchesPlain inc) &&
    !o.excludedPaths.any fun p => if Glob.isPattern p then matchesGlob p else matchesPlain p

end Scan

end TextHarvest
