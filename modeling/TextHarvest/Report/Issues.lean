import TextHarvest.Issue
import TextHarvest.Text.Width

/-!
# Reports of issues

The text that shows issues: ordered by the place they point at, each with its severity, message and
rule, the line of the source with a caret below the column, and a note. A count closes the report.
-/

namespace TextHarvest.Report

/-- A mark in front of a success. -/
def successMark : String := "\u2713"

/-- A mark in front of a failure. -/
def failureMark : String := "\u2718"

/-- A number of blanks. -/
def blanks (n : Nat) : String :=
  String.ofList (List.replicate n ' ')

/-- A text moved to the right edge of a field. -/
def alignRight (width : Nat) (s : String) : String :=
  blanks (width - s.length) ++ s

/-- A line of a report. -/
def line (s : String) : String :=
  s ++ "\n"

/-! ## Order -/

/-- Where an issue stands in a report: files before locales, then by name, line and column. -/
structure Rank where
  group : Nat
  name : String
  line : Nat
  col : Nat
  rule : Nat
  deriving DecidableEq, Repr

/-- The place of a rule among issues at one place. -/
def ruleRank : Rule → Nat
  | .parseError => 0
  | .importConflict => 1
  | .translatorFailure => 2
  | .countMismatch => 3
  | .persistenceFailure => 4

/-- The rank of an issue. -/
def rank (i : Issue) : Rank :=
  match i.location with
  | .source file line col _ => ⟨0, file, line, col, ruleRank i.rule⟩
  | .file path => ⟨0, path, 0, 0, ruleRank i.rule⟩
  | .locale lang => ⟨1, lang, 0, 0, ruleRank i.rule⟩

/-- Whether a rank may stand before another one. -/
def Rank.le (a b : Rank) : Bool :=
  if a.group != b.group then a.group < b.group
  else if a.name != b.name then a.name < b.name
  else if a.line != b.line then a.line < b.line
  else if a.col != b.col then a.col < b.col
  else a.rule ≤ b.rule

/-- Issues in the order of a report; those of one rank keep their order. -/
def ordered (issues : List Issue) : List Issue :=
  issues.mergeSort fun a b => (rank a).le (rank b)

/-! ## Text -/

/-- The width of the column of line numbers. -/
def gutter (issues : List Issue) : Nat :=
  let lines := issues.filterMap fun i =>
    match i.location with
    | .source _ line _ _ => some line
    | _ => none
  match lines.max? with
  | some n => (Nat.repr n).length
  | none => 1

/-- The line of a source with a caret below a column. -/
def sourceLines (width line col : Nat) (text : String) : String :=
  let before := text.toList.take (col - 1)
  Report.line (blanks width ++ " |") ++
    Report.line (alignRight width (Nat.repr line) ++ " | " ++ text) ++
    Report.line (blanks width ++ " | " ++ blanks (Text.columns before) ++ "^")

/-- The place that an issue points at. -/
def locationLines (width : Nat) : Location → String
  | .source file ln col text =>
    line ("  --> " ++ file ++ ":" ++ Nat.repr ln ++ ":" ++ Nat.repr col) ++
      match text with
      | some text => sourceLines width ln col text
      | none => ""
  | .file path => line ("  --> " ++ path)
  | .locale lang => line ("  --> locale " ++ lang)

/-- The text of an issue. -/
def issueLines (width : Nat) (i : Issue) : String :=
  line (i.severity.name ++ ": \x22" ++ i.message ++ "\x22  " ++ i.rule.name) ++
    locationLines width i.location ++
    (match i.details with
      | some details => line (blanks width ++ " = note: " ++ details)
      | none => "") ++
    line ""

/-- The number of issues of a severity. -/
def count (severity : Severity) (issues : List Issue) : Nat :=
  (issues.filter fun i => i.severity = severity).length

/-- The word for a number of things. -/
def wordFor (n : Nat) (word : String) : String :=
  if n = 1 then word else word ++ "s"

/-- A number of things. -/
def plural (n : Nat) (word : String) : String :=
  Nat.repr n ++ " " ++ wordFor n word

/-- The count that closes a report. -/
def total (issues : List Issue) : String :=
  let errors := count .error issues
  let warnings := count .warning issues
  line (failureMark ++ " " ++ Nat.repr issues.length ++ " problems (" ++ plural errors "error" ++
    ", " ++ plural warnings "warning" ++ ")") ++ line ""

/-- The text that shows issues; none when there are none. -/
def issues (found : List Issue) : String :=
  if found.isEmpty then ""
  else
    let sorted := ordered found
    "".intercalate (sorted.map (issueLines (gutter sorted))) ++ total sorted

end TextHarvest.Report
