import TextHarvest.Text.Position

/-!
# Issues

A run goes on when one file, one request or one locale file fails. What went wrong is kept as an
issue, with a rule, a severity, a message and a place to point at.
-/

namespace TextHarvest

/-- How bad an issue is. -/
inductive Severity where
  | error
  | warning
  deriving DecidableEq, Repr

def Severity.name : Severity → String
  | .error => "error"
  | .warning => "warning"

/-- The kinds of issues. -/
inductive Rule where
  | parseError
  | importConflict
  | translatorFailure
  | countMismatch
  | persistenceFailure
  deriving DecidableEq, Repr

def Rule.name : Rule → String
  | .parseError => "parse-error"
  | .importConflict => "import-conflict"
  | .translatorFailure => "translator-failure"
  | .countMismatch => "translation-mismatch"
  | .persistenceFailure => "persistence-failure"

/-- What an issue points at. -/
inductive Location where
  | source (file : String) (line col : Nat) (text : Option String)
  | file (path : String)
  | locale (lang : String)
  deriving DecidableEq, Repr

/-- Something that went wrong and did not stop the run. -/
inductive Issue where
  /-- A source could not be parsed. The line is zero when the place is not known. -/
  | parse (file : String) (line col : Nat) (text : Option String) (error : String)
  /-- A name that should be imported is bound already. -/
  | conflict (file name binding : String)
  /-- A request to a translator failed. -/
  | translator (service lang error : String)
  /-- A translator answered with another number of texts than it was given. -/
  | mismatch (lang : String) (expected actual : Nat)
  /-- A locale file could not be read back or written. -/
  | persistence (path : String) (lang : Option String) (error : String)
  deriving DecidableEq, Repr

namespace Issue

/-- The issue of a source that does not parse, at an offset if one is known. -/
def ofParseError (file source : String) (offset : Option Nat) (error : String) : Issue :=
  match offset with
  | some o =>
    let p := Position.ofOffset source o
    .parse file p.line p.col (some p.text) error
  | none => .parse file 0 0 none error

def rule : Issue → Rule
  | .parse .. => .parseError
  | .conflict .. => .importConflict
  | .translator .. => .translatorFailure
  | .mismatch .. => .countMismatch
  | .persistence .. => .persistenceFailure

def severity : Issue → Severity
  | .parse .. => .error
  | .conflict .. => .warning
  | .translator .. => .warning
  | .mismatch .. => .warning
  | .persistence .. => .error

def location : Issue → Location
  | .parse file line col text _ => if line = 0 then .file file else .source file line col text
  | .conflict file _ _ => .file file
  | .translator _ lang _ => .locale lang
  | .mismatch lang _ _ => .locale lang
  | .persistence path _ _ => .file path

def message : Issue → String
  | .parse _ _ _ _ error => error
  | .conflict _ name _ => "\x60" ++ name ++ "\x60 is already bound, import not added"
  | .translator service _ _ => service ++ " translator failed"
  | .mismatch _ expected actual =>
    "expected " ++ Nat.repr expected ++ " translations, received " ++ Nat.repr actual
  | .persistence _ (some lang) _ => "failed to persist locale '" ++ lang ++ "'"
  | .persistence _ none _ => "failed to persist file"

/-- A further remark on the issue. -/
def details : Issue → Option String
  | .parse .. => some "file left unchanged"
  | .conflict _ _ binding => some binding
  | .translator _ _ error => some error
  | .mismatch .. => none
  | .persistence _ _ error => some error

end Issue

end TextHarvest
