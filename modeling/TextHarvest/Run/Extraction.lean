import TextHarvest.Collector
import TextHarvest.FileOutcome
import TextHarvest.Run.Surroundings
import TextHarvest.Translator.Locales

/-!
# Runs over a project

A run harvests every source file, writes the changed ones, brings the locale file of the sources up
to date, and then fills and cleans the other locale files.
-/

namespace TextHarvest.Run

/-- What followed after the locale file of the sources was written. -/
structure PostReport where
  fill : Option FillReport := none
  clean : Option Locale.CleanReport := none
  deriving Inhabited

namespace PostReport

/-- All issues. -/
def issues (r : PostReport) : List Issue :=
  (r.fill.map (·.issues)).getD [] ++ (r.clean.map (·.issues)).getD []

end PostReport

/-- What an extraction came to. -/
structure ExtractReport where
  scanned : Nat := 0
  /-- Files that are no text. -/
  skipped : Nat := 0
  changed : List String := []
  keys : Nat := 0
  /-- Texts that were left alone because they have substitutions. -/
  dynamic : Nat := 0
  sourcePath : String := ""
  /-- The new record of the sources, unless it could not be written. -/
  source : Option Locale.Written := none
  post : PostReport := {}
  issues : List Issue := []
  deriving Inhabited

/-! ## After the record of the sources -/

/-- The translator that the options ask for. -/
def orchestra (env : Surroundings) (o : Options) : Except ServiceError Orchestra :=
  (o.service.translator env.apiKey env.now env.send).map fun translator =>
    { translator, localeInterval := o.translateInterval }

/-- Fills the other locale files from the texts of the sources. -/
def fill (env : Surroundings) (o : Options) (root : String) (source : Catalog) (t : FileTree) :
    FileTree × Except RunError FillReport :=
  match orchestra env o with
  | .error e => (t, .error (.service e))
  | .ok orchestra =>
    let s := orchestra.fill {} t o root source
    (s.tree, .ok s.report)

/-- Cleans the other locale files, if the options ask for it. -/
def cleanIf (env : Surroundings) (o : Options) (root : String) (fill : Option FillReport)
    (t : FileTree) : FileTree × PostReport :=
  if o.cleanTranslate then
    let (t, report) := Locale.clean env.remark t root o
    (t, { fill, clean := some report })
  else (t, { fill })

/-- Fills and then cleans the other locale files, as far as the options ask for it. -/
def fillAndClean (env : Surroundings) (o : Options) (root : String) (source : Catalog)
    (t : FileTree) : FileTree × Except RunError PostReport :=
  if o.autoTranslate && !source.isEmpty then
    match fill env o root source t with
    | (t, .error e) => (t, .error e)
    | (t, .ok report) => let (t, post) := cleanIf env o root (some report) t; (t, .ok post)
  else let (t, post) := cleanIf env o root none t; (t, .ok post)

/-- Fills the other locale files from the record of the sources. -/
def translate (env : Surroundings) (o : Options) (root : String) (t : FileTree) :
    FileTree × Except RunError FillReport :=
  let path := o.localePath root o.fromLang
  if t.pathExists path then fill env o root (Locale.readOrEmpty t path) t
  else (t, .error (.noSource path))

/-! ## Extraction -/

/-- The state of a run over source files. -/
structure Progress where
  tree : FileTree
  collector : Collector := .empty
  report : ExtractReport := {}

/-- Writes a changed source file and has it formatted. -/
def writeSourceFile (env : Surroundings) (o : Options) (path code : String) (t : FileTree) :
    Except DiskFault FileTree :=
  match env.refuses path, t.write? path (.text code) with
  | some fault, _ => .error fault
  | none, none => .error (t.writeFault path)
  | none, some t =>
    match o.formatCommand.bind fun command => env.format command path code with
    | some formatted => .ok ((t.write? path (.text formatted)).getD t)
    | none => .ok t

/-- Harvests one source file. -/
def harvestSource (env : Surroundings) (h : Harvester) (root : String) (p : Progress)
    (path : String) : Progress :=
  -- issues and the report name the source by its path below the root
  let relative := Path.relativeOrSelf path root
  match p.tree.readText? path with
  | none => { p with report := { p.report with skipped := p.report.skipped + 1 } }
  | some code =>
    if Text.isBlank code then p
    else
      let out := h.harvestFile code relative
      let report := { p.report with
        dynamic := p.report.dynamic + (out.findings.filter (·.dynamic)).length
        issues := p.report.issues ++ out.issues }
      -- the texts are gathered before the source is written, and also when that fails
      let collector := p.collector.merge out.catalog
      match out.code with
      | none => { p with collector, report }
      | some changed =>
        match writeSourceFile env h.options path changed p.tree with
        | .ok tree =>
          { tree, collector, report := { report with changed := report.changed ++ [relative] } }
        | .error fault =>
          { p with
            collector
            report := { report with
              issues := report.issues ++ [.persistence relative none fault.text] } }

/-- Brings the record of the sources up to date. -/
def writeRecord (o : Options) (found : Catalog) (p : Progress) : Progress :=
  match Locale.writeSource p.tree p.report.sourcePath found o.replaceTexts with
  | (tree, .ok written) => { p with tree, report := { p.report with source := some written } }
  | (tree, .error e) =>
    { p with
      tree
      report := { p.report with
        issues := p.report.issues ++
          [.persistence p.report.sourcePath (some o.fromLang) e.report] } }

/-- Runs over all source files of a project. -/
def extract (env : Surroundings) (o : Options) (root : String) (t : FileTree) :
    FileTree × Except RunError ExtractReport :=
  let sourcePath := o.localePath root o.fromLang
  match Harvester.ofOptions o with
  | .error bad => (t, .error (.pattern bad))
  | .ok h =>
    -- the record tells which keys have a text, before anything is harvested
    let h := h.withKnown (Locale.readOrEmpty t sourcePath)
    let paths := Scan.files t root o
    let start : Progress := { tree := t, report := { scanned := paths.length, sourcePath } }
    let p := paths.foldl (harvestSource env h root) start
    let found := p.collector.flush.1
    let p := writeRecord o found { p with report := { p.report with keys := found.size } }
    -- without a new record, the other languages are filled from what was gathered
    let source := (p.report.source.map (·.data)).getD found
    match fillAndClean env o root source p.tree with
    | (t, .ok post) => (t, .ok { p.report with post })
    | (t, .error e) => (t, .error e)

/-! ## Where the program stops -/

/-- Whether the program stops in the source at a path. -/
def stopsInSource (h : Harvester) (root : String) (t : FileTree) (path : String) : Bool :=
  match t.readText? path with
  | none => false
  | some code =>
    !Text.isBlank code && (h.harvestFile? code (Path.relativeOrSelf path root)).isNone

/-- A run over all source files of a project, unless the program stops in one of them. -/
def extract? (env : Surroundings) (o : Options) (root : String) (t : FileTree) :
    Option (FileTree × Except RunError ExtractReport) :=
  match Harvester.ofOptions o with
  | .error bad => some (t, .error (.pattern bad))
  | .ok h =>
    let h := h.withKnown (Locale.readOrEmpty t (o.localePath root o.fromLang))
    if (Scan.files t root o).any (stopsInSource h root t) then none else some (extract env o root t)

end TextHarvest.Run
