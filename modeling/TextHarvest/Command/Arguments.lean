import TextHarvest.Path

/-!
# Arguments

The words of a command line: options of the whole program, the name of a command, and options of
that command. Words are read from left to right, and the first one that does not fit decides what is
wrong. Two options that exclude each other are noticed only at the end.
-/

namespace TextHarvest

/-- Why a command line is not carried out. -/
inductive UsageError where
  /-- Help was asked for. -/
  | help
  /-- The version was asked for. -/
  | version
  | unknownArgument
  | invalidCommand
  | missingValue
  | conflict
  | surplusValue
  deriving DecidableEq, Repr

/-- Options of the whole program. -/
structure GlobalArguments where
  root : Option String := none
  verbose : Bool := false
  quiet : Bool := false
  noColor : Bool := false
  deriving DecidableEq, Repr

/-- Options that take the place of those in the configuration file. -/
structure LocaleArguments where
  fromLang : Option String := none
  toLangs : List String := []
  outputPath : Option String := none
  deriving DecidableEq, Repr

/-- A command with its options. -/
inductive Command where
  | extract (locale : LocaleArguments) (replaceTexts noTranslate noClean : Bool)
  | translate (locale : LocaleArguments)
  | clean (locale : LocaleArguments)
  | init
  deriving DecidableEq, Repr

/-- What a command line says. -/
structure Arguments where
  global : GlobalArguments := {}
  command : Option Command := none
  deriving DecidableEq, Repr

namespace Arguments

/-! ## Options -/

/-- The options. -/
inductive Switch where
  | root
  | verbose
  | quiet
  | noColor
  | help
  | version
  | fromLang
  | toLangs
  | outputPath
  | replaceTexts
  | noTranslate
  | noClean
  deriving DecidableEq, Repr

namespace Switch

/-- How an option is spelled after two hyphens. -/
def longName : Switch → String
  | root => "root"
  | verbose => "verbose"
  | quiet => "quiet"
  | noColor => "no-color"
  | help => "help"
  | version => "version"
  | fromLang => "from-lang"
  | toLangs => "to"
  | outputPath => "output-path"
  | replaceTexts => "rewrite"
  | noTranslate => "no-translate"
  | noClean => "no-clean"

/-- How an option is spelled after one hyphen. -/
def letter? : Switch → Option Char
  | verbose => some 'v'
  | quiet => some 'q'
  | help => some 'h'
  | version => some 'V'
  | _ => none

/-- Whether an option has a value. -/
def takesValue : Switch → Bool
  | root | fromLang | toLangs | outputPath => true
  | _ => false

end Switch

/-- The names of the commands. -/
inductive CommandName where
  | extract
  | translate
  | clean
  | init
  deriving DecidableEq, Repr

/-- The command that a word names. -/
def commandName? (word : String) : Option CommandName :=
  if word == "extract" then some .extract
  else if word == "translate" || word == "t" then some .translate
  else if word == "clean" || word == "c" then some .clean
  else if word == "init" then some .init
  else none

/-- The options that every command knows. -/
def commonSwitches : List Switch := [.root, .verbose, .quiet, .noColor, .help]

/-- The options that the commands on locale files know. -/
def localeSwitches : List Switch := [.fromLang, .toLangs, .outputPath]

/-- The options that may stand behind the name of a command, or before it. -/
def switchesOf : Option CommandName → List Switch
  | none => commonSwitches ++ [.version]
  | some .extract => commonSwitches ++ localeSwitches ++ [.replaceTexts, .noTranslate, .noClean]
  | some .translate | some .clean => commonSwitches ++ localeSwitches
  | some .init => commonSwitches

/-! ## Reading -/

/-- An option with its value, if it has one. -/
abbrev Setting := Switch × Option String

/-- What has been read: settled options, and one that may still wait for its value. -/
structure Progress where
  settings : List Setting := []
  pending : Option Setting := none
  /-- Whether options have been ruled out for the rest of the words. -/
  closed : Bool := false
  deriving DecidableEq, Repr

namespace Progress

/-- Whether an option waits for its value. -/
def isWaiting (p : Progress) : Bool :=
  match p.pending with
  | some (_, none) => true
  | _ => false

/-- Whether an option is given. -/
def has (p : Progress) (s : Switch) : Bool :=
  p.settings.any (·.1 == s)

/-- Adds an option. Only target languages may be given more than once, and a directory has a
name. -/
def add (p : Progress) (s : Switch) (value : Option String) : Except UsageError Progress :=
  if s = .help then .error .help
  else if s = .version then .error .version
  else if p.has s && s != .toLangs then .error .conflict
  else if s = .root && value = some "" then .error .missingValue
  else .ok { p with settings := p.settings ++ [(s, value)] }

/-- Settles the option that is still open; it must have its value. -/
def settle (p : Progress) : Except UsageError Progress :=
  match p.pending with
  | none => .ok p
  | some (_, none) => .error .missingValue
  | some (s, some value) => { p with pending := none }.add s (some value)

/-- Reads an option, with a value if one is attached to it. -/
def readSwitch (p : Progress) (s : Switch) (attached : Option String) :
    Except UsageError Progress :=
  if s.takesValue then
    match attached with
    | some value => do (← p.settle).add s (some value)
    | none => do return { (← p.settle) with pending := some (s, none) }
  else
    match attached with
    | some _ => .error .surplusValue
    | none => do (← p.settle).add s none

/-- Reads options that are spelled with single letters. -/
def readLetters (known : List Switch) (p : Progress) : List Char → Except UsageError Progress
  | [] => .ok p
  | c :: cs =>
    match known.find? fun s => s.letter? = some c with
    | some s => do readLetters known (← p.readSwitch s none) cs
    | none => .error .unknownArgument

/-- Reads an option that is spelled with its name, cut at the first equals sign. -/
def readName (known : List Switch) (p : Progress) (body : List Char) :
    Except UsageError Progress :=
  let name := String.ofList (body.takeWhile (· != '='))
  let attached := match body.dropWhile (· != '=') with
    | [] => none
    | _ :: value => some (String.ofList value)
  match known.find? fun s => s.longName = name with
  | some s => p.readSwitch s attached
  | none => .error .unknownArgument

/-- Reads a word that is no option: the value of the open option, or a word too many. -/
def readPlain (p : Progress) (word : String) (surplus : UsageError) : Except UsageError Progress :=
  match p.pending with
  | some (s, none) => .ok { p with pending := some (s, some word) }
  | _ => .error surplus

/-- Reads one word. -/
def readWord (known : List Switch) (surplus : UsageError) (p : Progress) (word : String) :
    Except UsageError Progress :=
  if p.closed then .error surplus
  else
    match word.toList with
    | ['-', '-'] => .ok { p with closed := true }
    | ['-'] => p.readPlain word surplus
    | '-' :: '-' :: body => p.readName known body
    | '-' :: letters => p.readLetters known letters
    | _ => p.readPlain word surplus

/-- Settles what is open at the end of the words; loud and quiet exclude each other. -/
def finish (p : Progress) : Except UsageError (List Setting) := do
  let p ← p.settle
  if p.has .verbose && p.has .quiet then .error .conflict else return p.settings

end Progress

/-- Reads the words behind the name of a command. -/
def readCommandWords (name : CommandName) (words : List String) :
    Except UsageError (List Setting) := do
  (← words.foldlM (Progress.readWord (switchesOf (some name)) .unknownArgument) {}).finish

/-- Whether a word names a command, help included. -/
def isCommandWord (word : String) : Bool :=
  word == "help" || (commandName? word).isSome

/-- What asking for help on commands comes to: a command has no commands of its own. -/
def helpOn : List String → UsageError
  | [] => .help
  | [word] => if isCommandWord word then .help else .invalidCommand
  | _ :: _ :: _ => .invalidCommand

/-- What is wrong with a word in the place of a command. A command must not stand behind the mark
that rules out options. -/
def surplusAtTop (p : Progress) (word : String) : UsageError :=
  if p.closed && isCommandWord word then .unknownArgument else .invalidCommand

/-- Reads all words: options up to the name of a command, and then those of the command. Gives the
options before the name and the command with the options behind it. -/
def readWords (p : Progress) :
    List String → Except UsageError (List Setting × Option (CommandName × List Setting))
  | [] => do return (← p.finish, none)
  | word :: words =>
    if !p.closed && !p.isWaiting && word == "help" then .error (helpOn words)
    else
      match if p.closed || p.isWaiting then none else commandName? word with
      | some name => do
        let behind ← readCommandWords name words
        return (← p.finish, some (name, behind))
      | none => do readWords (← p.readWord (switchesOf none) (surplusAtTop p word) word) words

/-! ## Meaning -/

/-- The value of an option; the last one counts. -/
def value? (settings : List Setting) (s : Switch) : Option String :=
  (settings.reverse.find? (·.1 == s)).bind (·.2)

/-- Whether an option is given. -/
def given (settings : List Setting) (s : Switch) : Bool :=
  settings.any (·.1 == s)

/-- The options of the whole program. -/
def globalOf (settings : List Setting) : GlobalArguments :=
  { root := value? settings .root
    verbose := given settings .verbose
    quiet := given settings .quiet
    noColor := given settings .noColor }

/-- The options on locale files. -/
def localeOf (settings : List Setting) : LocaleArguments :=
  { fromLang := value? settings .fromLang
    toLangs := settings.flatMap fun
      | (.toLangs, some value) => Path.splitText ',' value
      | _ => []
    outputPath := value? settings .outputPath }

/-- The command with its options. -/
def commandOf (name : CommandName) (settings : List Setting) : Command :=
  match name with
  | .extract =>
    .extract (localeOf settings) (given settings .replaceTexts) (given settings .noTranslate)
      (given settings .noClean)
  | .translate => .translate (localeOf settings)
  | .clean => .clean (localeOf settings)
  | .init => .init

/-- Reads a command line. Options of the whole program count before and behind the command; of two
values the one behind it wins. -/
def parse (words : List String) : Except UsageError Arguments := do
  let (before, command) ← readWords {} words
  match command with
  | none => return { global := globalOf before }
  | some (name, behind) =>
    return { global := globalOf (before ++ behind), command := some (commandOf name behind) }

end Arguments

end TextHarvest
