import TextHarvest.Command.Arguments
import TextHarvest.Config
import TextHarvest.Report.Summary
import TextHarvest.Run.Extraction

/-!
# Running commands

A command is a function on file trees: it finds the configuration, lets options of the command line
take the place of those in the file, does its work and gives what is to be printed.
-/

namespace TextHarvest

namespace FileTree

/-- The absolute path of what stands at the end of a path, without detours. -/
def canonical? (t : FileTree) (path : String) : Option String :=
  if t.pathExists path then
    (t.place? path).map fun place => "/" ++ "/".intercalate place
  else none

end FileTree

namespace Command

/-- Why a command cannot be carried out. -/
inductive Failure where
  | noRoot (path : String)
  | config (e : ConfigError)
  | run (e : RunError)
  | cannotWrite (path : String)

def Failure.message : Failure → String
  | .noRoot path => "Failed to read project root: " ++ path
  | .config e => e.message
  | .run e => e.message
  | .cannotWrite path => "Failed to write " ++ path

/-- What a command came to. -/
structure Outcome where
  summary : Summary
  issues : List Issue := []

namespace Outcome

/-- The number of errors; a configuration file that could not be written is one. -/
def errors (o : Outcome) : Nat :=
  Report.count .error o.issues +
    match o.summary with
    | .init _ (some _) => 1
    | _ => 0

/-- The number of warnings. -/
def warnings (o : Outcome) : Nat :=
  Report.count .warning o.issues

/-- What is printed. -/
def text (o : Outcome) : String :=
  Report.issues o.issues ++ Report.summary o.summary

/-- The closing warning. -/
def closing (o : Outcome) (verbose : Bool) : String :=
  match o.summary with
  | .extract s => Report.skippedWarning s.skipped verbose
  | _ => ""

end Outcome

/-! ## Configuration -/

/-- The directory that the search for the configuration starts from. -/
def startDirectory (t : FileTree) (workingDirectory : String) (g : GlobalArguments) :
    Except Failure String :=
  let given := g.root.getD workingDirectory
  match t.canonical? (Path.join workingDirectory given) with
  | some path => .ok path
  | none => .error (.noRoot given)

/-- Lets options of the command line take the place of others. -/
def override (l : LocaleArguments) (o : Options) : Options :=
  { o with
    fromLang := l.fromLang.getD o.fromLang
    targetLangs := if l.toLangs.isEmpty then o.targetLangs else l.toLangs
    outputPath := l.outputPath.getD o.outputPath }

/-- The options and the directory of the project. -/
def loadOptions (t : FileTree) (workingDirectory : String) (g : GlobalArguments)
    (l : LocaleArguments) : Except Failure (Options × String) := do
  let start ← startDirectory t workingDirectory g
  let config ← (Config.load t start).mapError .config
  let options := override l config.options
  match options.fault? with
  | some e => .error (.config e)
  | none => return (options, config.root)

/-! ## Summaries -/

/-- Filled locale files with paths relative to a directory. -/
def relativeFill (root : String) (r : FillReport) : FillReport :=
  { r with filled := r.filled.map fun f => { f with path := Path.relativeOrSelf f.path root } }

/-- Cleaned locale files with paths relative to a directory. -/
def relativePruned (root : String) (pruned : List Locale.Pruned) : List Locale.Pruned :=
  pruned.map fun p => { p with path := Path.relativeOrSelf p.path root }

/-- What an extraction came to, with paths relative to the directory of the project. -/
def extractOutcome (o : Options) (root : String) (r : Run.ExtractReport) : Outcome :=
  { summary := .extract
      { scanned := r.scanned
        skipped := r.skipped
        keys := r.keys
        changed := r.changed
        replaced := o.replaceTexts
        sourcePath := Path.relativeOrSelf r.sourcePath root
        sourceChanged := r.source.map (·.hasDiff)
        fill := r.post.fill.map (relativeFill root)
        clean := r.post.clean.map fun c => relativePruned root c.pruned }
    issues := r.issues ++ r.post.issues }

/-! ## Commands -/

/-- The end of a run: the tree it leaves, remarks on the way, and what it came to. -/
structure Ending where
  tree : FileTree
  remarks : List String := []
  result : Except Failure Outcome

/-- Extracts the texts of a project. -/
def runExtract (env : Surroundings) (verbose : Bool) (o : Options) (root : String) (t : FileTree) :
    Ending :=
  let remarks := if verbose then Scan.remarks t root o else []
  match Run.extract env o root t with
  | (tree, .ok r) => { tree, remarks, result := .ok (extractOutcome o root r) }
  | (tree, .error e) => { tree, remarks, result := .error (.run e) }

/-- Fills the locale files of a project. -/
def runTranslate (env : Surroundings) (o : Options) (root : String) (t : FileTree) : Ending :=
  match Run.translate env o root t with
  | (tree, .ok r) =>
    { tree, result := .ok { summary := .fill (relativeFill root r), issues := r.issues } }
  | (tree, .error e) => { tree, result := .error (.run e) }

/-- Cleans the locale files of a project. -/
def runClean (env : Surroundings) (o : Options) (root : String) (t : FileTree) : Ending :=
  let (tree, r) := Locale.clean env.remark t root o
  { tree, result := .ok { summary := .clean (relativePruned root r.pruned), issues := r.issues } }

/-- Writes a configuration file with the default options, unless there is one. -/
def runInit (start : String) (t : FileTree) : Ending :=
  let path := Path.join start Config.fileName
  if t.pathExists path then
    { tree := t
      result := .ok { summary := .init Config.fileName (some (Config.fileName ++ " already exists")) } }
  else
    match t.write? path (.text (Config.defaultText ++ "\n")) with
    | some tree => { tree, result := .ok { summary := .init Config.fileName none } }
    | none => { tree := t, result := .error (.cannotWrite path) }

/-- Carries out a command in a working directory. -/
def run (env : Surroundings) (workingDirectory : String) (g : GlobalArguments) (c : Command)
    (t : FileTree) : Ending :=
  let withOptions (l : LocaleArguments) (work : Options → String → Ending) : Ending :=
    match loadOptions t workingDirectory g l with
    | .ok (o, root) => work o root
    | .error e => { tree := t, result := .error e }
  match c with
  | .extract locale replaceTexts noTranslate noClean =>
    withOptions locale fun o root =>
      -- a switch of the command line can only turn rewriting on, and the other steps off
      let o := { o with
        replaceTexts := o.replaceTexts || replaceTexts
        autoTranslate := o.autoTranslate && !noTranslate
        cleanTranslate := o.cleanTranslate && !noClean }
      runExtract env g.verbose o root t
  | .translate locale => withOptions locale fun o root => runTranslate env o root t
  | .clean locale => withOptions locale fun o root => runClean env o root t
  | .init =>
    match startDirectory t workingDirectory g with
    | .ok start => runInit start t
    | .error e => { tree := t, result := .error e }

/-! ## Printing -/

/-- How a command ends. -/
inductive Status where
  | success
  /-- The command was carried out and reported errors. -/
  | failure
  /-- The command could not be carried out. -/
  | error (message : String)
  deriving DecidableEq, Repr

/-- The code that stands for a status. -/
def Status.code : Status → Nat
  | .success => 0
  | .failure => 1
  | .error _ => 2

/-- What a command leaves behind and prints. -/
structure Printout where
  tree : FileTree
  status : Status
  output : String
  warnings : String

/-- The text and the status of a command that has ended. -/
def Ending.print (e : Ending) (verbose : Bool) : Printout :=
  let remarks := "".intercalate (e.remarks.map Report.warning)
  match e.result with
  | .ok o =>
    { tree := e.tree
      status := if 0 < o.errors then .failure else .success
      output := o.text
      warnings := remarks ++ o.closing verbose }
  | .error f => { tree := e.tree, status := .error f.message, output := "", warnings := remarks }

end Command

end TextHarvest
