import TextHarvest.Locale
import TextHarvest.Translator.Basic

/-!
# Filling locale files

The texts that a locale file lacks are translated and filed under their keys. Texts that are there
are never replaced. A request that fails leaves its texts empty.
-/

namespace TextHarvest

/-- A request that failed, as an error handler is told of it. -/
structure FailedRequest where
  service : String
  lang : String
  error : String
  deriving DecidableEq, Repr

def FailedRequest.issue (r : FailedRequest) : Issue :=
  .translator r.service r.lang r.error

/-- A translator at work: what is done to each answer, and the pause between two languages. -/
structure Orchestra where
  translator : Translator
  /-- Changes a translated text of a language. -/
  post : String → String → String := fun text _ => text
  localeInterval : Nat := 0

/-- A locale file that got new texts. -/
structure Filled where
  lang : String
  path : String
  count : Nat
  deriving DecidableEq, Repr

/-- What the filling of locale files came to. -/
structure FillReport where
  filled : List Filled := []
  upToDate : List String := []
  issues : List Issue := []
  deriving Inhabited

namespace FillReport

/-- The number of texts filed. -/
def total (r : FillReport) : Nat :=
  r.filled.foldl (fun n f => n + f.count) 0

end FillReport

namespace Orchestra

/-- What the answer to a batch comes to. -/
structure Settled where
  texts : List String
  issues : List Issue := []
  /-- The failures that the error handler is told of. -/
  handled : List FailedRequest := []

/-- The answer to a batch, cut and aligned with its texts. A failure leaves them empty. -/
def settle (o : Orchestra) (lang : String) (batch : Batch) : Except String String → Settled
  | .ok answer =>
    let texts := Batch.unpack answer (o.post · lang)
    { texts := Batch.align texts batch.count
      issues :=
        if texts.length = batch.count then [] else [.mismatch lang batch.count texts.length] }
  | .error e =>
    let failed : FailedRequest := ⟨o.translator.name, lang, e⟩
    { texts := List.replicate batch.count "", issues := [failed.issue], handled := [failed] }

/-- What translating some texts came to. -/
structure Translation where
  dispatch : Dispatch
  texts : List String
  issues : List Issue
  handled : List FailedRequest

/-- Translates texts, one result for each. -/
def translate (o : Orchestra) (d : Dispatch) (texts : List String) (fromLang toLang : String) :
    Translation :=
  let batches := Batch.pack texts o.translator.maxBatch
  let (d, answers) := d.sendAll o.translator (batches.map fun b => ⟨b.text, fromLang, toLang⟩)
  let results := (batches.zip answers).map fun (b, a) => o.settle toLang b a
  { dispatch := d
    texts := results.flatMap (·.texts)
    issues := results.flatMap (·.issues)
    handled := results.flatMap (·.handled) }

/-- The entries of the sources that a locale lacks or has empty. -/
def missing (source target : Catalog) : List (String × String) :=
  source.entries.filter fun e => (target.get? e.1).all (· == "")

/-- The state of a run over languages. -/
structure State where
  dispatch : Dispatch
  tree : FileTree
  report : FillReport := {}
  /-- The failures that the error handler was told of. -/
  handled : List FailedRequest := []
  /-- Whether a language before this one had something to translate. -/
  busy : Bool := false

/-- Fills the locale file of one language. -/
def fillOne (o : Orchestra) (options : Options) (root : String) (source : Catalog) (s : State)
    (lang : String) : State :=
  let path := options.localePath root lang
  let target := Locale.readOrEmpty s.tree path
  let entries := missing source target
  if entries.isEmpty then
    { s with report := { s.report with upToDate := s.report.upToDate ++ [lang] } }
  else
    -- only a language that was sent to the service makes the next one wait
    let d := if s.busy then s.dispatch.wait o.localeInterval else s.dispatch
    let got := o.translate d (entries.map (·.2)) options.fromLang lang
    let report := { s.report with issues := s.report.issues ++ got.issues }
    let handled := s.handled ++ got.handled
    let target := target.insertAll ((entries.map (·.1)).zip got.texts)
    match Locale.write s.tree path target with
    | (tree, none) =>
      { dispatch := got.dispatch, tree, handled, busy := true
        report := { report with filled := report.filled ++ [⟨lang, path, entries.length⟩] } }
    -- the directory may have been made all the same
    | (tree, some e) =>
      { dispatch := got.dispatch, tree, handled, busy := true
        report := { report with
          issues := report.issues ++ [.persistence path (some lang) e.report] } }

/-- Fills the locale files of all languages, one after the other. -/
def fill (o : Orchestra) (d : Dispatch) (t : FileTree) (options : Options) (root : String)
    (source : Catalog) : State :=
  options.targetLangs.foldl (o.fillOne options root source) { dispatch := d, tree := t }

end Orchestra

end TextHarvest
