import TextHarvest.Component.Harvest
import TextHarvest.Path

/-!
# Harvesting files

A file is a component or a script by its extension. Harvesting never fails: a file that cannot be
read as what it is stays as it is, and an issue says so. There is no outcome only where the program
itself stops, at a cut inside a character.
-/

namespace TextHarvest

/-- What became of a file. -/
structure FileOutcome where
  /-- The new text, when it is handed out and differs. -/
  code : Option String := none
  catalog : Catalog := .empty
  findings : List Finding := []
  issues : List Issue := []
  deriving Inhabited

/-- The extensions of components. -/
def componentExtensions : List String := ["vue", "nvue", "uvue"]

/-- Whether a path leads to a component. -/
def isComponentPath (path : String) : Bool :=
  (Path.extension? path).any fun ext =>
    componentExtensions.contains (String.ofList (ext.toList.map Char.toLower))

namespace Harvester

/-- The new text of a source, when code is handed out and the patch changes something. -/
def changedCode (h : Harvester) (code : String) (patch : Patch) : Option String :=
  if h.emitsCode && !patch.isEmpty then
    let changed := patch.apply code
    if changed == code then none else some changed
  else none

/-- The outcome of a harvest. -/
def finish (h : Harvester) (code : String) (harvest : Harvest) (issues : List Issue) :
    FileOutcome where
  code := h.changedCode code harvest.patch
  catalog := harvest.catalog
  findings := harvest.findings
  issues

/-- Harvests the file at a path. -/
def harvestFile (h : Harvester) (code path : String) : FileOutcome :=
  if isComponentPath path then
    match h.harvestComponent code path with
    | .ok out => h.finish code out.harvest out.issues
    | .error e => { issues := [.ofParseError path code e.position? e.message] }
  else
    match h.harvestScript code (.ofName (Path.extension? path)) true with
    | .ok script => h.finish code script.harvest (script.issues path)
    | .error e => { issues := [.ofParseError path code (some e.offset) e.message] }

/-- The outcome of the file at a path, unless the program stops in it. -/
def harvestFile? (h : Harvester) (code path : String) : Option FileOutcome :=
  let stops : Bool :=
    if isComponentPath path then (h.harvestComponent? code path).isNone
    else (h.harvestScript? code (.ofName (Path.extension? path)) true).isNone
  if stops then none else some (h.harvestFile code path)

end Harvester

end TextHarvest
