import TextHarvest.Run.Debounce
import TextHarvest.Run.Extraction

/-!
# Sessions

A session accompanies a build: it is given one module at a time, hands back its new code and gathers
the texts. While watching, the record of the sources is written some time after the last module.
-/

namespace TextHarvest.Run

/-- How a session is used. -/
inductive SessionMode where
  | build
  | watch
  deriving DecidableEq, Repr

/-- A running session. -/
structure Session where
  options : Options
  root : String
  harvester : Harvester
  collector : Collector := .empty
  /-- The writing that waits; a session that does not watch has none. -/
  debouncer : Option (Debouncer Unit) := none

/-- What the end of a session came to. -/
structure SessionReport where
  source : Option Locale.Written := none
  post : PostReport := {}

namespace Session

/-- The path of the record of the sources. -/
def sourcePath (s : Session) : String :=
  s.options.localePath s.root s.options.fromLang

/-- Starts a session. -/
def start (o : Options) (root : String) (mode : SessionMode) (t : FileTree) :
    Except Classifier.BadPattern Session :=
  (Harvester.ofOptions o).map fun h =>
    let known := Locale.readOrEmpty t (o.localePath root o.fromLang)
    { options := o
      root
      harvester := (h.withKnown known).withCode true
      debouncer :=
        if mode = .watch && o.outputInSession then some { delay := o.outputDelay } else none }

/-- Whether a path leads into the directory of the locale files. -/
def isOutput (s : Session) (path : String) : Bool :=
  let output := Path.join s.root s.options.outputPath
  Path.startsWith path output || Path.startsWith (Path.join s.root path) output

/-- Takes in a module: its new code, when it changes. -/
def transform (s : Session) (code path : String) : Session × Option String :=
  if s.options.enabled && Scan.isSource s.root path s.options && !s.isOutput path then
    let out := s.harvester.harvestFile code (Path.relativeOrSelf path s.root)
    ({ s with
      collector := s.collector.merge out.catalog
      debouncer := s.debouncer.map (·.call ()) }, out.code)
  else (s, none)

/-- Takes in a module, unless the program stops in it. -/
def transform? (s : Session) (code path : String) : Option (Session × Option String) :=
  if s.options.enabled && Scan.isSource s.root path s.options && !s.isOutput path &&
      (s.harvester.harvestFile? code (Path.relativeOrSelf path s.root)).isNone then none
  else some (s.transform code path)

/-- Adds the texts gathered so far to the record of the sources. -/
def writeGathered (s : Session) (t : FileTree) :
    FileTree × Except Locale.StoreError (Option Locale.Written) :=
  if s.collector.gathered.isEmpty then (t, .ok none)
  else
    match Locale.writeSource t s.sourcePath s.collector.gathered true with
    | (t, .ok w) => (t, .ok (some w))
    | (t, .error e) => (t, .error e)

/-- Lets time pass, in which a writing that waits may take place. -/
def sleep (s : Session) (span : Nat) (t : FileTree) : Session × FileTree :=
  match s.debouncer with
  | none => (s, t)
  | some d =>
    match d.sleep span with
    | (d, some ()) => ({ s with debouncer := some d }, (s.writeGathered t).1)
    | (d, none) => ({ s with debouncer := some d }, t)

/-- Writes now instead of later. -/
def flush (s : Session) (t : FileTree) :
    Session × FileTree × Except Locale.StoreError (Option Locale.Written) :=
  let (t, result) := s.writeGathered t
  ({ s with debouncer := s.debouncer.map (·.cancel) }, t, result)

/-- Ends a build: writes, then fills and cleans the other locale files. -/
def finish (s : Session) (env : Surroundings) (t : FileTree) :
    Session × FileTree × Except RunError SessionReport :=
  match s.flush t with
  | (s, t, .error e) => (s, t, .error (.store e))
  | (s, t, .ok none) => (s, t, .ok {})
  | (s, t, .ok (some w)) =>
    match fillAndClean env s.options s.root w.data t with
    | (t, .ok post) => (s, t, .ok { source := some w, post })
    | (t, .error e) => (s, t, .error e)

end Session

end TextHarvest.Run
