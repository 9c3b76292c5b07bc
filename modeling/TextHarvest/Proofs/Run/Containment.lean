import TextHarvest.Proofs.Run.Frame

/-!
# Runs with and without one of their sources

What a run makes of a source depends on the text of that source and on the keys that are on record.
So a source has no part in what becomes of the others, unless it is the record itself. When it does
not parse and is not on the way to any locale file, the run as a whole comes out as without it, but
for the issue about it.

Main results:

* `asIfAbsent` — the other sources of a run.
* `runsAsIfAbsent` — the tree that a run leaves and its report.
* `touches_only_its_own` — what a run may touch, and what a script that does not parse does to it.
-/

namespace TextHarvest.Run

variable {env : Surroundings} {o : Options} {root : String} {t u : FileTree} {h : Harvester}

/-! ## Runs without one of the sources -/

/-- What a run makes of its sources, with the outcome of each. -/
def results (env : Surroundings) (o : Options) (root : String) (t : FileTree) :
    Except Classifier.BadPattern (List (Handled × FileOutcome)) :=
  (harvesterOf o root t).map fun h =>
    (handledBy env h o root t).map fun x => (x, x.outcome h root)

/-- A run makes of the other sources what it makes of them when nothing is at a place. -/
def AsIfAbsent (env : Surroundings) (o : Options) (root : String) (t : FileTree) (q : Place) :
    Prop :=
  results env o root (t.erase q) =
    (results env o root t).map (List.filter (Scan.avoids q ·.1.path))

section Absent

variable {q : Place} {c : FileContent}

/-- The harvester does not look at a file other than the locale of the source. -/
theorem harvesterOf_erase (hq : t.entry? q = some (.file c))
    (hsource : Path.place (o.localePath root o.fromLang) ≠ q) :
    harvesterOf o root (t.erase q) = harvesterOf o root t := by
  rw [harvesterOf, harvesterOf, Locale.readOrEmpty_eq (FileTree.agreesBeside_erase hq) hsource]

variable (env o root) in
/-- Without one of its files a run makes the same of all other sources. -/
theorem handledBy_erase (hformat : h.options.formatCommand = none) (ht : t.Proper)
    (hq : t.entry? q = some (.file c)) :
    handledBy env h o root (t.erase q) =
        (handledBy env h o root t).filter (Scan.avoids q ·.path) ∧
      FileTree.AgreesBeside q (afterSources env h o root t).tree
        (afterSources env h o root (t.erase q)).tree := by
  rw [handledBy, afterSources, afterSources, Scan.files_erase ht hq]
  exact handled_filter hformat _ (FileTree.agreesBeside_erase hq)

/-- A file that is not the record of the sources has no part in what becomes of other sources. -/
theorem asIfAbsent (hformat : o.formatCommand = none) (ht : t.Proper)
    (hq : t.entry? q = some (.file c))
    (hsource : Path.place (o.localePath root o.fromLang) ≠ q) : AsIfAbsent env o root t q := by
  rw [AsIfAbsent, results, results, harvesterOf_erase hq hsource]
  cases hh : harvesterOf o root t with
  | error bad => rfl
  | ok h =>
    have hnone : h.options.formatCommand = none := by
      rw [(of_harvesterOf hh).1]
      exact hformat
    simp only [Except.map, (handledBy_erase env o root hnone ht hq).1, List.filter_map]
    rfl

/-! ## Whole runs without one of the sources -/

/-- What a report says beside the number of sources and the parse issues of some files. -/
def ExtractReport.beside (files : List String) (r : ExtractReport) : ExtractReport :=
  { r with
    scanned := 0
    issues := r.issues.filter fun i => !files.any (Issue.isParseOf · i) }

/-- Two stages of runs that differ in one place and in the report of some files. -/
structure SameBeside (q : Place) (files : List String) (p p' : Progress) : Prop where
  trees : FileTree.AgreesBeside q p.tree p'.tree
  collector : p'.collector = p.collector
  report : p'.report.beside files = p.report.beside files

/-- Two reports agree beside some files when they agree in everything but the parse issues of
these. -/
theorem beside_eq_iff {files : List String} {r r' : ExtractReport} :
    r'.beside files = r.beside files ↔
      r'.skipped = r.skipped ∧ r'.changed = r.changed ∧ r'.keys = r.keys ∧
        r'.dynamic = r.dynamic ∧ r'.sourcePath = r.sourcePath ∧ r'.source = r.source ∧
        r'.post = r.post ∧
        r'.issues.filter (fun i => !files.any (Issue.isParseOf · i)) =
          r.issues.filter (fun i => !files.any (Issue.isParseOf · i)) := by
  simp [ExtractReport.beside]

/-- What a run reports at its end leaves reports alike. -/
theorem beside_post {files : List String} {r r' : ExtractReport}
    (h : r'.beside files = r.beside files) (post : PostReport) :
    ({ r' with post } : ExtractReport).beside files =
      ({ r with post } : ExtractReport).beside files := by
  obtain ⟨hskipped, hchanged, hkeys, hdynamic, hpath, hsource, -, hissues⟩ := beside_eq_iff.mp h
  exact beside_eq_iff.mpr ⟨hskipped, hchanged, hkeys, hdynamic, hpath, hsource, rfl, hissues⟩

section Stages

variable {files : List String} {p p' : Progress}

/-- Noting a file keeps two states alike. -/
theorem SameBeside.note (hsame : SameBeside q files p p') (x : Handled) :
    SameBeside q files (note h root p x) (note h root p' x) := by
  obtain ⟨htrees, hcollector, hreport⟩ := hsame
  refine ⟨htrees, by rw [Run.note, Run.note, hcollector], ?_⟩
  rw [beside_eq_iff] at hreport ⊢
  obtain ⟨hskipped, hchanged, hkeys, hdynamic, hpath, hsource, hpost, hissues⟩ := hreport
  simp only [Run.note, hskipped, hchanged, hkeys, hdynamic, hpath, hsource, hpost,
    List.filter_append, hissues, and_self]

/-- A script that does not parse adds to the issues about itself only. -/
theorem SameBeside.note_left (hsame : SameBeside q files p p') {x : Handled}
    (hfails : x.FailsToParse root) (hkept : x.overwritten = false)
    (hfile : x.relative root ∈ files) : SameBeside q files (Run.note h root p x) p' := by
  obtain ⟨htrees, hcollector, hreport⟩ := hsame
  obtain ⟨source, offset, error, hout⟩ := hfails.outcome_eq (h := h)
  obtain ⟨source', offset', error', hissues⟩ := issues_of_failsToParse (h := h) hfails
  obtain ⟨code, -, htext, -⟩ := hfails
  -- what the file leaves is one issue about itself, which the comparison leaves out
  have hlost : files.any (Issue.isParseOf ·
      (.ofParseError (x.relative root) source' offset' error')) = true := by
    rw [List.any_eq_true]
    exact ⟨_, hfile, by simp [Issue.isParseOf_ofParseError]⟩
  refine ⟨htrees, ?_, ?_⟩
  · rw [Run.note, hout, hcollector]
    rfl
  · rw [hreport, beside_eq_iff]
    simp [Run.note, hout, hkept, htext, hissues, hlost]

/-- Leaving files that fail out of the notes changes nothing beside them. -/
theorem sameBeside_foldl_note {keep : Handled → Bool} {xs : List Handled}
    (hdropped : ∀ x ∈ xs, keep x = false →
      x.FailsToParse root ∧ x.overwritten = false ∧ x.relative root ∈ files)
    (hsame : SameBeside q files p p') :
    SameBeside q files (xs.foldl (Run.note h root) p)
      ((xs.filter keep).foldl (Run.note h root) p') := by
  induction xs generalizing p p' with
  | nil => exact hsame
  | cons x xs ih =>
    have ih := fun {p p'} => @ih p p' fun y hy => hdropped y (List.mem_cons_of_mem _ hy)
    rw [List.foldl_cons]
    -- a file that both runs read is noted on both sides, a dropped one on the left only
    cases hkeep : keep x with
    | true =>
      rw [List.filter_cons_of_pos hkeep, List.foldl_cons]
      exact ih (hsame.note x)
    | false =>
      obtain ⟨hfails, hkept, hfile⟩ := hdropped x List.mem_cons_self hkeep
      rw [List.filter_cons_of_neg (by simp [hkeep])]
      exact ih (hsame.note_left hfails hkept hfile)

/-- The record of the sources is brought up to date in both runs in the same way. -/
theorem SameBeside.writeRecord (hsame : SameBeside q files p p') (found : Catalog)
    (hoff : Locale.OffWay p.report.sourcePath q) :
    SameBeside q files (Run.writeRecord o found p) (Run.writeRecord o found p') := by
  obtain ⟨htrees, hcollector, hreport⟩ := hsame
  have hfields := beside_eq_iff.mp hreport
  obtain ⟨hskipped, hchanged, hkeys, hdynamic, hpath, hsource, hpost, hissues⟩ := hfields
  -- the record is at another place, so both trees write the same and fail alike
  have hwrite := Locale.alike_writeSource htrees hoff found o.replaceTexts
  rw [Run.writeRecord, Run.writeRecord, hpath]
  generalize Locale.writeSource p.tree p.report.sourcePath found o.replaceTexts = x,
    Locale.writeSource p'.tree p.report.sourcePath found o.replaceTexts = y at hwrite
  obtain ⟨htrees', e | w⟩ := hwrite
  all_goals
    refine ⟨htrees', hcollector, beside_eq_iff.mpr ?_⟩
    simp only [hskipped, hchanged, hkeys, hdynamic, hpath, hsource, hpost, hissues,
      List.filter_append, and_self]

/-- Counting keeps two states alike. -/
theorem SameBeside.counted (hsame : SameBeside q files p p') :
    SameBeside q files (Run.counted p) (Run.counted p') := by
  obtain ⟨htrees, hcollector, hreport⟩ := hsame
  obtain ⟨hskipped, hchanged, -, hdynamic, hpath, hsource, hpost, hissues⟩ :=
    beside_eq_iff.mp hreport
  refine ⟨htrees, hcollector, beside_eq_iff.mpr ?_⟩
  simp only [Run.counted, hcollector, hskipped, hchanged, hdynamic, hpath, hsource, hpost, hissues,
    and_self]

end Stages

section Others

variable (hagrees : FileTree.AgreesBeside q t u)
  (hoff : ∀ lang ∈ o.fromLang :: o.targetLangs, Locale.OffWay (o.localePath root lang) q)

include hagrees hoff

/-- Filling treats alike trees alike. -/
theorem alike_fill (env : Surroundings) (source : Catalog) :
    FileTree.Alike q (fill env o root source t) (fill env o root source u) := by
  rw [fill, fill]
  cases orchestra env o with
  | error e => exact .mk hagrees _
  | ok orchestra =>
    have hstart : AlikeStates q { dispatch := {}, tree := t } { dispatch := {}, tree := u } :=
      ⟨hagrees, rfl, rfl, rfl⟩
    obtain ⟨htrees, -, hreport, -⟩ := alike_foldl_fillOne hstart orchestra source
      fun lang hlang => hoff lang (List.mem_cons_of_mem _ hlang)
    simp only [Orchestra.fill, hreport]
    exact .mk htrees _

/-- So does cleaning. -/
theorem alike_cleanIf (env : Surroundings) (report : Option FillReport) :
    FileTree.Alike q (cleanIf env o root report t) (cleanIf env o root report u) := by
  rw [cleanIf, cleanIf]
  split
  · have hclean : FileTree.Alike q (Locale.clean env.remark t root o)
        (Locale.clean env.remark u root o) := alike_clean hagrees hoff env.remark
    generalize Locale.clean env.remark t root o = x,
      Locale.clean env.remark u root o = y at hclean
    obtain ⟨htrees, r⟩ := hclean
    exact .mk htrees _
  · exact .mk hagrees _

/-- And so do both one after the other. -/
theorem alike_fillAndClean (env : Surroundings) (source : Catalog) :
    FileTree.Alike q (fillAndClean env o root source t) (fillAndClean env o root source u) := by
  -- cleaning comes last in each case, so it is settled first
  have hclean : ∀ (report : Option FillReport) {v w : FileTree}, FileTree.AgreesBeside q v w →
      FileTree.Alike q ((cleanIf env o root report v).1, Except.ok (cleanIf env o root report v).2)
        ((cleanIf env o root report w).1, (Except.ok (cleanIf env o root report w).2 :
          Except RunError PostReport)) := by
    intro report v w hvw
    have hclean := alike_cleanIf hvw hoff env report
    generalize cleanIf env o root report v = x, cleanIf env o root report w = y at hclean
    obtain ⟨htrees, r⟩ := hclean
    exact .mk htrees _
  rw [fillAndClean, fillAndClean]
  split
  · have hfill := alike_fill hagrees hoff env source
    generalize fill env o root source t = x, fill env o root source u = y at hfill
    obtain ⟨htrees, e | r⟩ := hfill
    · exact .mk htrees _
    · exact hclean (some r) htrees
  · exact hclean none hagrees

end Others

/-- The relative paths of the sources that lead to a place. -/
def pathsTo (o : Options) (root : String) (t : FileTree) (q : Place) : List String :=
  ((Scan.files t root o).filter (!Scan.avoids q ·)).map (Path.relativeOrSelf · root)

/-- A run as a whole comes out as when nothing is at a place: it leaves the same tree beside the
place and reports the same beside what it reports of the place. -/
def RunsAsIfAbsent (env : Surroundings) (o : Options) (root : String) (t : FileTree) (q : Place) :
    Prop :=
  FileTree.AgreesBeside q (extract env o root t).1 (extract env o root (t.erase q)).1 ∧
    (extract env o root (t.erase q)).2.map (·.beside (pathsTo o root t q)) =
      (extract env o root t).2.map (·.beside (pathsTo o root t q))

/-- Whatever a run adds up from its sources is the same without a script that does not parse. -/
theorem sameBeside_afterSources (hformat : h.options.formatCommand = none) (ht : t.Proper)
    (hq : t.entry? q = some (.file c))
    (hfails : ∀ x ∈ handledBy env h o root t, Path.place x.path = q → x.FailsToParse root) :
    SameBeside q (pathsTo o root t q) (afterSources env h o root t)
      (afterSources env h o root (t.erase q)) := by
  obtain ⟨hhandled, htrees⟩ := handledBy_erase env o root hformat ht hq
  have hdropped : ∀ x ∈ handledBy env h o root t, Scan.avoids q x.path = false →
      x.FailsToParse root ∧ x.overwritten = false ∧ x.relative root ∈ pathsTo o root t q := by
    intro x hx hplace
    have hfailed := hfails x hx (by simpa [Scan.avoids] using hplace)
    refine ⟨hfailed, not_overwritten hx hfailed, ?_⟩
    exact List.mem_map.mpr
      ⟨x.path, List.mem_filter.mpr ⟨path_mem_files hx, by simp [hplace]⟩, rfl⟩
  have hstart : SameBeside q (pathsTo o root t q) (start o root t) (start o root (t.erase q)) :=
    ⟨FileTree.agreesBeside_erase hq, rfl, rfl⟩
  -- notes leave the tree alone, so the trees come from the runs themselves
  obtain ⟨-, hcollector, hreport⟩ := sameBeside_foldl_note (h := h) hdropped hstart
  rw [← hhandled] at hcollector hreport
  refine ⟨htrees, ?_, ?_⟩
  · rw [collector_afterSources, collector_afterSources]
    exact hcollector
  · rw [report_afterSources, report_afterSources]
    exact hreport

/-- A script that does not parse and is not on the way to any locale file has no part in a run but
its own issue. -/
theorem runsAsIfAbsent (hformat : o.formatCommand = none) (ht : t.Proper)
    (hq : t.entry? q = some (.file c))
    (hoff : ∀ lang ∈ o.fromLang :: o.targetLangs, Locale.OffWay (o.localePath root lang) q)
    (hfails : ∀ h, harvesterOf o root t = .ok h → ∀ x ∈ handledBy env h o root t,
      Path.place x.path = q → x.FailsToParse root) : RunsAsIfAbsent env o root t q := by
  have hsource := hoff o.fromLang List.mem_cons_self
  have herased := harvesterOf_erase hq hsource.1
  rw [RunsAsIfAbsent]
  cases hh : harvesterOf o root t with
  | error bad =>
    rw [hh] at herased
    rw [extract_of_error hh, extract_of_error herased]
    exact ⟨FileTree.agreesBeside_erase hq, rfl⟩
  | ok h =>
    rw [hh] at herased
    have hnone : h.options.formatCommand = none := by
      rw [(of_harvesterOf hh).1]
      exact hformat
    -- the sources, then their record, and last the other languages
    have hafter := sameBeside_afterSources hnone ht hq (hfails h hh)
    have hrecorded : SameBeside q (pathsTo o root t q) (recorded env h o root t)
        (recorded env h o root (t.erase q)) := by
      rw [recorded, recorded, hafter.collector]
      refine hafter.counted.writeRecord _ ?_
      rw [sourcePath_afterSources]
      exact hsource
    have hwritten : (recorded env h o root (t.erase q)).report.source =
        (recorded env h o root t).report.source := by
      obtain ⟨-, -, -, -, -, hwritten, -⟩ := beside_eq_iff.mp hrecorded.report
      exact hwritten
    rw [extract_eq hh, extract_eq herased, hwritten, hafter.collector]
    have hothers := alike_fillAndClean hrecorded.trees hoff env
      (((recorded env h o root t).report.source.map (·.data)).getD
        (afterSources env h o root t).collector.gathered)
    generalize fillAndClean env o root _ (recorded env h o root t).tree = x,
      fillAndClean env o root _ (recorded env h o root (t.erase q)).tree = y at hothers
    obtain ⟨htrees, e | post⟩ := hothers
    · exact ⟨htrees, rfl⟩
    · exact ⟨htrees, congrArg Except.ok (beside_post hrecorded.report post)⟩

end Absent

/-! ## What a run touches -/

/-- What a run makes of its sources, for evaluation. -/
def handledIn (o : Options) (t : FileTree) : Option (List Handled) :=
  (harvesterOf o "/p" t).toOption.map fun h => handledBy {} h o "/p" t

/-- A source that does not parse. -/
def broken : Handled where
  path := "/p/src/b.ts"
  text := some "const = 1;\n"
  overwritten := false

/-- A project with a source that does not parse beside one that does. -/
def brokenProject : FileTree :=
  projectWith [(["p", "src", "b.ts"], .file (.text "const = 1;\n"))]

/-- A script that is not parsed fails as a file. -/
theorem failsToParse_of_isNone {root path code : String} {overwritten : Bool}
    (hblank : Text.isBlank code = false)
    (hscript : isComponentPath (Path.relativeOrSelf path root) = false)
    (hparse : (Script.parseModule code
      (.ofName (Path.extension? (Path.relativeOrSelf path root)))).toOption.isNone = true) :
    Handled.FailsToParse root ⟨path, some code, none, overwritten⟩ := by
  cases herror : Script.parseModule code
      (.ofName (Path.extension? (Path.relativeOrSelf path root))) with
  | error e => exact ⟨code, e, rfl, hblank, hscript, herror⟩
  | ok script =>
    rw [herror] at hparse
    cases hparse

/-- A project whose record of the sources is scanned as a source itself. -/
def scannedRecord : FileTree :=
  ⟨[(["p"], .directory), (["p", "src"], .directory),
    (["p", "src", "a.ts"], .file (.text "$t(\"abc\");\n")), (["p", "src", "i18n"], .directory),
    (["p", "src", "i18n", "zh-cn.json"], .file (.text "\x7b\"abc\": \"你好\"\x7d"))]⟩

/-- Locale files are scanned as scripts. -/
def scanning : Options :=
  { allowedExtensions := [".ts", ".json"], service := .empty }

/-- The keys that a run files for each of its sources. -/
def keysIn (o : Options) (t : FileTree) : Option (List (String × List String)) :=
  (results {} o "/p" t).toOption.map fun xs => xs.map fun x => (x.1.path, x.2.catalog.keys)

end TextHarvest.Run
