import TextHarvest.Locale
import TextHarvest.Report.Issues
import TextHarvest.Translator.Locales

/-!
# Summaries of commands

What a command did, and the lines that say so.
-/

namespace TextHarvest

/-- What an extraction did. Paths are relative to the directory of the project. -/
structure ExtractSummary where
  scanned : Nat
  skipped : Nat
  keys : Nat
  changed : List String
  /-- Whether source files were to be changed. -/
  replaced : Bool
  sourcePath : String
  /-- Whether the record of the sources changed, unless it could not be written. -/
  sourceChanged : Option Bool
  fill : Option FillReport
  clean : Option (List Locale.Pruned)

/-- What a command did. -/
inductive Summary where
  | extract (s : ExtractSummary)
  | fill (r : FillReport)
  | clean (pruned : List Locale.Pruned)
  /-- A configuration file was written, unless something was in the way. -/
  | init (path : String) (obstacle : Option String)

namespace Report

/-- A line for a success. -/
def success (s : String) : String :=
  line (successMark ++ " " ++ s)

/-- The lines on filled locale files. -/
def fillLines (r : FillReport) : String :=
  "".intercalate (r.filled.map fun f =>
    line ("Translated " ++ plural f.count "key" ++ " into " ++ f.lang ++ " (" ++ f.path ++ ")")) ++
    if r.upToDate.isEmpty then "" else line ("Up to date: " ++ ", ".intercalate r.upToDate)

/-- The lines on cleaned locale files; those that lost nothing are left out. -/
def cleanLines (pruned : List Locale.Pruned) : String :=
  "".intercalate ((pruned.filter (0 < ·.removed)).map fun p =>
    line ("Removed " ++ plural p.removed "key" ++ " from " ++ p.lang ++ " (" ++ p.path ++ ")"))

/-- The lines on changed source files. -/
def changedLines (changed : List String) : String :=
  line ("Rewrote " ++ plural changed.length "file" ++ ":") ++
    "".intercalate (changed.map fun f => line ("  " ++ f))

/-- The lines on an extraction. -/
def extractLines (s : ExtractSummary) : String :=
  success ("Extracted " ++ plural s.keys "key" ++ " from " ++ plural s.scanned "file") ++
    (if s.replaced && !s.changed.isEmpty then changedLines s.changed else "") ++
    (match s.sourceChanged with
      | some true => line ("Updated " ++ s.sourcePath)
      | some false => line (s.sourcePath ++ " is up to date")
      | none => "") ++
    ((s.fill.map fillLines).getD "") ++ ((s.clean.map cleanLines).getD "")

/-- The lines on what a command did. -/
def summary : Summary → String
  | .extract s => extractLines s
  | .fill r =>
    success ("Translated " ++ plural r.total "key" ++ " into " ++
      plural r.filled.length "locale") ++ fillLines r
  | .clean pruned =>
    success ("Removed " ++ plural (Locale.removedFrom pruned) "key" ++ " from " ++
      plural pruned.length "locale") ++ cleanLines pruned
  | .init path none => success ("Created " ++ path)
  | .init _ (some obstacle) => line (failureMark ++ " " ++ obstacle)

/-- A line on something that the user may want to look at. -/
def warning (s : String) : String :=
  line ("warning: " ++ s)

/-- The warning on files that could not be read; a verbose run has said it before. -/
def skippedWarning (skipped : Nat) (verbose : Bool) : String :=
  if 0 < skipped && !verbose then
    warning (Nat.repr skipped ++ " path(s) could not be read (use -v for details)")
  else ""

end Report

end TextHarvest
