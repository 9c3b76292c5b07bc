import TextHarvest.Files.Scan
import TextHarvest.Json.Reader
import TextHarvest.Json.Writer
import TextHarvest.Options.Encoding
import TextHarvest.Pattern.Reader
import TextHarvest.Text.Quoted

/-!
# Configuration files

Options are kept in a file that is looked for from a directory upwards, as far as the top of the
repository. Paths in the options are relative to the directory of the file.
-/

namespace TextHarvest

/-- Why options cannot be used. -/
inductive ConfigError where
  | emptyTranslateKey
  | keyLength (length : Nat)
  | fileName (name : String)
  | excludedPath (pattern : String)
  | langPattern (lang pattern : String)
  | formatCommand
  | unreadable (path : String)
  | notOptions (path : String)
  deriving DecidableEq, Repr

namespace Config

/-- The name of the configuration file. -/
def fileName : String := ".i18nrc.json"

/-- The characters of a text as they are shown in a quoted path. -/
def shownChar (c : Char) : List Char :=
  if c == '\x22' then ['\\', '\x22']
  else if c == '\\' then ['\\', '\\']
  else if c == '\n' then ['\\', 'n']
  else if c == '\r' then ['\\', 'r']
  else if c == '\t' then ['\\', 't']
  else [c]

/-- A path in quotes. -/
def shownPath (path : String) : String :=
  "\x22" ++ String.ofList (path.toList.flatMap shownChar) ++ "\x22"

end Config

def ConfigError.message : ConfigError → String
  | .emptyTranslateKey => "'translateKey' must not be empty"
  | .keyLength n => "'keyLength' must be between 4 and 16, got " ++ Nat.repr n
  | .fileName name => "'langFileName' must contain \x7blang\x7d: \x22" ++ name ++ "\x22"
  | .excludedPath p => "Invalid glob pattern in 'excludedPath': \x22" ++ p ++ "\x22"
  | .langPattern lang p => "Invalid regex in 'langPatterns' for '" ++ lang ++ "': \x22" ++ p ++ "\x22"
  | .formatCommand => "'formatCommand' must name a program"
  | .unreadable path => "Failed to read config file: " ++ Config.shownPath path
  | .notOptions path => "Failed to parse config file: " ++ Config.shownPath path

namespace Options

/-- The first thing that is wrong with options. -/
def fault? (o : Options) : Option ConfigError :=
  if Text.isBlank o.translateKey then some .emptyTranslateKey
  else if o.keyLength < 4 || 16 < o.keyLength then some (.keyLength o.keyLength)
  else if !Text.occursIn langPlaceholder o.langFileName.toList then some (.fileName o.langFileName)
  else
    match o.excludedPaths.find? fun p => Glob.isPattern p && (Glob.parse? p).isNone with
    | some p => some (.excludedPath p)
    | none =>
      match o.langPatterns.find? fun p => (Pattern.parse? p.2).isNone with
      | some p => some (.langPattern p.1 p.2)
      | none => if o.formatCommand == some [] then some .formatCommand else none

end Options

/-- Options with the directory that their paths are relative to. -/
structure Config where
  options : Options
  root : String
  fromFile : Bool

namespace Config

/-- The configuration file of a directory or of one above it, up to the top of the repository. -/
def findFrom (t : FileTree) : Nat → String → Option String
  | 0, _ => none
  | fuel + 1, dir =>
    let path := Path.join dir fileName
    if t.pathExists path then some path
    else if t.pathExists (Path.join dir ".git") then none
    else (Path.parent? dir).bind (findFrom t fuel)

/-- The configuration file for a directory. -/
def find? (t : FileTree) (dir : String) : Option String :=
  findFrom t (dir.length + 1) dir

/-- The options in a configuration file. -/
def read (t : FileTree) (path : String) : Except ConfigError Options :=
  match t.readText? path with
  | none => .error (.unreadable path)
  | some content =>
    match (Json.parse? content).bind Options.ofJson? with
    | none => .error (.notOptions path)
    | some o =>
      match o.fault? with
      | some e => .error e
      | none => .ok o

/-- The configuration for a directory; the default one when there is no file. -/
def load (t : FileTree) (dir : String) : Except ConfigError Config :=
  match find? t dir with
  | none => .ok ⟨{}, dir, false⟩
  | some path => (read t path).map fun options => ⟨options, (Path.parent? path).getD dir, true⟩

/-- The configuration file that spells out the default options. -/
def defaultText : String :=
  ({} : Options).toJson.indented

end Config

end TextHarvest
