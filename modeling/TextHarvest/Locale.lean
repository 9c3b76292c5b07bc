import TextHarvest.Catalog
import TextHarvest.Files.Scan
import TextHarvest.Issue
import TextHarvest.Json.Reader
import TextHarvest.Json.Writer

/-!
# Locale files

The texts of a language are kept in a file that holds one object, from keys to texts, written with
an indentation of two and a line feed at the end.
-/

namespace TextHarvest

namespace Locale

/-- Why a locale file cannot be read. -/
inductive ReadError where
  | unreadable (path : String) (fault : DiskFault)
  | notJson (path content : String)
  | notObject (path : String)
  | noSource (path : String)
  deriving DecidableEq, Repr

/-- Why a locale file cannot be written. -/
inductive StoreError where
  | noDirectory (path : String) (fault : DiskFault)
  | unwritable (path : String) (fault : DiskFault)
  deriving DecidableEq, Repr

/-- What could not be done. -/
def ReadError.message : ReadError → String
  | .unreadable path _ => "Failed to read file: " ++ path
  | .notJson path _ => "Failed to parse JSON: " ++ path
  | .notObject path => "Root of JSON file must be an object: " ++ path
  | .noSource path => "Source locale not found: " ++ path

/-- What could not be done, and why. A text that is not JSON is remarked upon by its reader. -/
def ReadError.report (remark : String → String) (e : ReadError) : String :=
  match e with
  | .unreadable _ fault => e.message ++ ": " ++ fault.text
  | .notJson _ content => e.message ++ ": " ++ remark content
  | _ => e.message

/-- What could not be done. -/
def StoreError.message : StoreError → String
  | .noDirectory path _ => "Failed to create directory: " ++ path
  | .unwritable path _ => "Failed to write file: " ++ path

def StoreError.fault : StoreError → DiskFault
  | .noDirectory _ fault => fault
  | .unwritable _ fault => fault

/-- What could not be done, and why. -/
def StoreError.report (e : StoreError) : String :=
  e.message ++ ": " ++ e.fault.text

/-! ## Reading -/

/-- The texts of an object; values that are not texts are left out. -/
def ofFields (fields : List (String × Json)) : Catalog :=
  .ofList ((Json.settle fields).filterMap fun f => f.2.str?.map (f.1, ·))

/-- The catalog that the content of a locale file spells. -/
def decode (path content : String) : Except ReadError Catalog :=
  if Text.isBlank content then .ok .empty
  else
    match Json.parse? content with
    | none => .error (.notJson path content)
    | some (.obj fields) => .ok (ofFields fields)
    | some _ => .error (.notObject path)

/-- Reads a locale file. -/
def read (t : FileTree) (path : String) : Except ReadError Catalog :=
  match t.readText? path with
  | none => .error (.unreadable path (t.readFault path))
  | some content => decode path content

/-- Reads a locale file; one that is missing or broken counts as empty. -/
def readOrEmpty (t : FileTree) (path : String) : Catalog :=
  match read t path with
  | .ok c => c
  | .error _ => .empty

/-! ## Writing -/

/-- The content of the locale file of a catalog. -/
def encode (c : Catalog) : String :=
  (Json.obj (c.entries.map fun e => (e.1, .str e.2))).indented ++ "\n"

/-- Writes a locale file to a disk and makes its directory. What was made of the directory stays when
the file cannot be written. -/
def writeOn (disk : Disk) (t : FileTree) (path : String) (c : Catalog) :
    FileTree × Option StoreError :=
  let parent := (Path.parent? path).getD ""
  match disk.createDirs t parent with
  | (t, some fault) => (t, some (.noDirectory parent fault))
  | (t, none) =>
    match disk.write t path (.text (encode c)) with
    | (t, some fault) => (t, some (.unwritable path fault))
    | (t, none) => (t, none)

/-- Writes a locale file where nothing but the tree is in the way. -/
def write (t : FileTree) (path : String) (c : Catalog) : FileTree × Option StoreError :=
  writeOn .willing t path c

/-! ## The language of the sources -/

/-- The entries of a catalog whose keys are in another one. -/
def prune (source target : Catalog) : Catalog :=
  target.filter fun key _ => source.contains key

/-- What became of the locale file of the sources: whether it differs from before, and its texts. -/
structure Written where
  hasDiff : Bool
  data : Catalog

/-- What the record of the sources becomes. It only grows when `additive`; otherwise keys that were
not found again are dropped. -/
def updated (old found : Catalog) (additive : Bool) : Catalog :=
  (if additive then old else prune found old).merge found

/-- Brings the locale file of the sources up to date. It is written when its texts change or when it
is not there. -/
def writeSource (t : FileTree) (path : String) (found : Catalog) (additive : Bool) :
    FileTree × Except StoreError Written :=
  let old := readOrEmpty t path
  let data := updated old found additive
  let hasDiff := !data.sameTexts old
  if hasDiff || !t.pathExists path then
    match write t path data with
    | (t, none) => (t, .ok ⟨hasDiff, data⟩)
    | (t, some e) => (t, .error e)
  else (t, .ok ⟨hasDiff, data⟩)

/-! ## Dropping keys that are gone -/

/-- A locale file from which keys were dropped. -/
structure Pruned where
  lang : String
  path : String
  removed : Nat
  deriving DecidableEq, Repr

/-- The number of keys dropped from some files. -/
def removedFrom (pruned : List Pruned) : Nat :=
  pruned.foldl (fun n p => n + p.removed) 0

/-- What a cleaning came to. -/
structure CleanReport where
  pruned : List Pruned := []
  issues : List Issue := []
  deriving Inhabited

namespace CleanReport

/-- The number of keys dropped from all files. -/
def removed (r : CleanReport) : Nat :=
  removedFrom r.pruned

end CleanReport

/-- Cleans the locale file of one language on a disk. -/
def cleanOneOn (disk : Disk) (o : Options) (root : String) (source : Catalog)
    (state : FileTree × CleanReport) (lang : String) : FileTree × CleanReport :=
  let (t, report) := state
  let path := o.localePath root lang
  if t.pathExists path then
    let target := readOrEmpty t path
    let kept := prune source target
    let removed := target.size - kept.size
    -- a file with nothing to prune is not written again
    if removed = 0 then (t, report)
    else
      match writeOn disk t path kept with
      | (t, none) => (t, { report with pruned := report.pruned ++ [⟨lang, path, removed⟩] })
      | (t, some e) =>
        (t, { report with issues := report.issues ++ [.persistence path (some lang) e.report] })
  else (t, report)

/-- Drops the keys that are not in the record of the sources from the other locale files on a disk.
Without a record nothing is dropped. -/
def cleanOn (disk : Disk) (remark : String → String) (t : FileTree) (root : String) (o : Options) :
    FileTree × CleanReport :=
  let path := o.localePath root o.fromLang
  let source := if t.pathExists path then read t path else .error (.noSource path)
  match source with
  | .error e => (t, { issues := [.persistence path (some o.fromLang) (e.report remark)] })
  | .ok source => o.targetLangs.foldl (cleanOneOn disk o root source) (t, {})

/-- Cleans the locale file of one language. -/
def cleanOne (o : Options) (root : String) (source : Catalog) (state : FileTree × CleanReport)
    (lang : String) : FileTree × CleanReport :=
  cleanOneOn .willing o root source state lang

/-- Drops the keys that are not in the record of the sources from the other locale files. -/
def clean (remark : String → String) (t : FileTree) (root : String) (o : Options) :
    FileTree × CleanReport :=
  cleanOn .willing remark t root o

end Locale

end TextHarvest
