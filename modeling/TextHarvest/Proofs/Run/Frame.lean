import TextHarvest.Proofs.Run.Handled

/-!
# What a run touches

A run changes the sources that it reports as changed and the locale files, and no other file. Its
report is added up from what it makes of its sources. A script that does not parse is left alone:
it adds nothing and is reported once.

Main results:

* `report_extract` — what a run reports of its sources.
* `sameFiles_extract` — the files that a run leaves alone.
* `rewritten_eq_nil` — nothing is rewritten unless the options ask for it.
* `not_mem_rewritten` and `countP_isParseOf` — scripts that do not parse.
-/

namespace TextHarvest.Run

variable {env : Surroundings} {o : Options} {root : String} {t u : FileTree} {h : Harvester}

/-! ## The sources of a run -/

/-- The harvester of a run has its options. -/
theorem of_harvesterOf (hh : harvesterOf o root t = .ok h) :
    h.options = o ∧ h.emitsCode = o.replaceTexts := by
  rw [harvesterOf, Harvester.ofOptions] at hh
  cases hpatterns : Classifier.withPatterns o.langPatterns with
  | error bad => simp [hpatterns, Except.map] at hh
  | ok classifier =>
    simp only [hpatterns, Except.map, Except.ok.injEq] at hh
    rw [← hh]
    exact ⟨rfl, rfl⟩

/-- What a run makes of its sources. -/
def handledBy (env : Surroundings) (h : Harvester) (o : Options) (root : String) (t : FileTree) :
    List Handled :=
  handled env h root (start o root t) (Scan.files t root o)

/-- What is gathered from the sources is gathered file by file. -/
theorem collector_afterSources : (afterSources env h o root t).collector =
    ((handledBy env h o root t).foldl (note h root) (start o root t)).collector := by
  rw [afterSources, foldl_harvestSource]
  rfl

/-- So is the report. -/
theorem report_afterSources : (afterSources env h o root t).report =
    ((handledBy env h o root t).foldl (note h root) (start o root t)).report := by
  rw [afterSources, foldl_harvestSource]
  rfl

/-- The files that are handled are those of the scan, in order. -/
theorem map_path_handledBy : (handledBy env h o root t).map (·.path) = Scan.files t root o :=
  map_path_handled _ _

/-- A file that is handled is one of the scan. -/
theorem path_mem_files {x : Handled} (hx : x ∈ handledBy env h o root t) :
    x.path ∈ Scan.files t root o := by
  rw [← map_path_handledBy]
  exact List.mem_map_of_mem hx

/-- A source is known by its relative path. -/
theorem eq_of_relative_eq {x y : Handled} (hx : x ∈ handledBy env h o root t)
    (hy : y ∈ handledBy env h o root t) (heq : x.relative root = y.relative root) : x = y := by
  have hpaths := Scan.eq_of_relativeOrSelf_eq (path_mem_files hx) (path_mem_files hy) heq
  have hnodup : ((handledBy env h o root t).map (·.path)).Nodup := by
    rw [map_path_handledBy]
    exact Scan.nodup_files t root o
  exact List.inj_on_of_nodup_map hnodup hx hy hpaths

/-- The texts of some sources in one catalog. -/
def gathered (h : Harvester) (root : String) (xs : List Handled) : Catalog :=
  xs.foldl (fun c x => c.merge (x.outcome h root).catalog) .empty

/-- Each file adds its catalog. -/
theorem gathered_foldl_note (xs : List Handled) (p : Progress) :
    (xs.foldl (note h root) p).collector.gathered =
      xs.foldl (fun c x => c.merge (x.outcome h root).catalog) p.collector.gathered := by
  induction xs generalizing p with
  | nil => rfl
  | cons x xs ih => exact ih (note h root p x)

/-- Each file that was overwritten is named. -/
theorem changed_foldl_note (xs : List Handled) (p : Progress) :
    (xs.foldl (note h root) p).report.changed =
      p.report.changed ++ (xs.filter (·.overwritten)).map (·.relative root) := by
  induction xs generalizing p with
  | nil => simp
  | cons x xs ih =>
    rw [List.foldl_cons, ih, note]
    by_cases hx : x.overwritten = true
    · simp [hx]
    · simp [hx]

/-- Each file adds its issues. -/
theorem issues_foldl_note (xs : List Handled) (p : Progress) :
    (xs.foldl (note h root) p).report.issues =
      p.report.issues ++ xs.flatMap (·.issues h root) := by
  induction xs generalizing p with
  | nil => simp
  | cons x xs ih =>
    rw [List.foldl_cons, ih, note, List.flatMap_cons, List.append_assoc]

/-! ## The report of a run -/

/-- The record of the sources adds to a report whether it was written, and an issue if not. -/
theorem report_writeRecord (found : Catalog) (p : Progress) :
    ∃ source late, (writeRecord o found p).report =
        { p.report with source, issues := p.report.issues ++ late } ∧
      ∀ i ∈ late, ∀ file, Issue.isParseOf file i = false := by
  rw [writeRecord]
  generalize Locale.writeSource p.tree p.report.sourcePath found o.replaceTexts = result
  obtain ⟨tree, e | w⟩ := result
  · refine ⟨p.report.source, _, rfl, ?_⟩
    intro i hi file
    rw [List.mem_singleton.mp hi]
    rfl
  · refine ⟨some w, [], by simp, ?_⟩
    intro i hi
    cases hi

/-- The paths of the sources that a run overwrites. -/
def rewritten (env : Surroundings) (o : Options) (root : String) (t : FileTree) : List String :=
  match harvesterOf o root t with
  | .ok h => ((handledBy env h o root t).filter (·.overwritten)).map (·.relative root)
  | .error _ => []

/-- The files that are rewritten are those overwritten by a harvester that hands out code. -/
theorem rewritten_eq (hh : harvesterOf o root t = .ok h) : rewritten env o root t =
    ((handledBy env h o root t).filter (·.overwritten)).map (·.relative root) := by
  rw [rewritten, hh]

/-- With a bad pattern nothing is done. -/
theorem extract_of_error {bad : Classifier.BadPattern} (hh : harvesterOf o root t = .error bad) :
    extract env o root t = (t, .error (.pattern bad)) := by
  cases hbase : Harvester.ofOptions o with
  | error bad' =>
    rw [harvesterOf, hbase, Except.map, Except.error.injEq] at hh
    rw [extract, hbase, hh]
  | ok base => simp [harvesterOf, hbase, Except.map] at hh

/-- What a run that comes to an end reports of its sources. -/
theorem report_extract (hh : harvesterOf o root t = .ok h) {r : ExtractReport}
    (hrun : extract env o root t = (u, .ok r)) :
    r.changed = rewritten env o root t ∧
      r.keys = (gathered h root (handledBy env h o root t)).size ∧
      ∃ late, r.issues = (handledBy env h o root t).flatMap (·.issues h root) ++ late ∧
        ∀ i ∈ late, ∀ file, Issue.isParseOf file i = false := by
  obtain ⟨-, post, rfl⟩ := extract_eq_ok hh hrun
  obtain ⟨source, late, hreport, hlate⟩ := report_writeRecord (o := o)
    (afterSources env h o root t).collector.gathered (counted (afterSources env h o root t))
  rw [← recorded] at hreport
  rw [hreport, rewritten_eq hh]
  dsimp only [counted]
  -- what the report says of the sources is what each of them adds, in order
  rw [report_afterSources, collector_afterSources, changed_foldl_note, gathered_foldl_note,
    issues_foldl_note]
  exact ⟨rfl, rfl, late, rfl, hlate⟩

/-! ## Files that a run leaves alone -/

/-- Filling and cleaning leaves everything but locale files alone. -/
theorem sameFiles_fillAndClean (source : Catalog) :
    FileTree.SameFiles (OffLocales o root o.targetLangs) t
      (fillAndClean env o root source t).1 := by
  -- cleaning keeps the files off the locales, after a filling or without one
  have hclean (fill : Option FillReport) (v : FileTree) :
      FileTree.SameFiles (OffLocales o root o.targetLangs) v (cleanIf env o root fill v).1 := by
    rw [cleanIf]
    split
    · have hcleaned : FileTree.SameFiles (OffLocales o root o.targetLangs) v
          (Locale.clean env.remark v root o).1 := sameFiles_clean env.remark v
      generalize Locale.clean env.remark v root o = result at hcleaned ⊢
      exact hcleaned
    · exact .refl _ _
  rw [fillAndClean]
  split
  · have hfill : FileTree.SameFiles (OffLocales o root o.targetLangs) t
        (fill env o root source t).1 := by
      rw [fill]
      split
      · exact .refl _ _
      · exact sameFiles_foldl_fillOne _ _ _ _
    generalize fill env o root source t = result at hfill ⊢
    obtain ⟨v, e | report⟩ := result
    · exact hfill
    · exact hfill.trans (hclean _ v)
  · exact hclean _ t

/-- The record is written to the tree. -/
theorem tree_writeRecord (found : Catalog) (p : Progress) : (writeRecord o found p).tree =
    (Locale.writeSource p.tree p.report.sourcePath found o.replaceTexts).1 := by
  rw [writeRecord]
  generalize Locale.writeSource p.tree p.report.sourcePath found o.replaceTexts = result
  obtain ⟨tree, e | w⟩ := result <;> rfl

/-- The record stands where the options say. -/
theorem sourcePath_afterSources :
    (counted (afterSources env h o root t)).report.sourcePath = o.localePath root o.fromLang := by
  have hpath := (adds_sources env h o root t).sourcePath
  dsimp only [start] at hpath
  dsimp only [counted]
  exact hpath

/-- The tree with the record in it. -/
theorem tree_recorded : (recorded env h o root t).tree =
    (Locale.writeSource (afterSources env h o root t).tree (o.localePath root o.fromLang)
      (afterSources env h o root t).collector.gathered o.replaceTexts).1 := by
  rw [recorded, tree_writeRecord, sourcePath_afterSources]
  rfl

/-- The tree that a run leaves. -/
theorem tree_extract (env : Surroundings) (hh : harvesterOf o root t = .ok h) : ∃ source,
    (extract env o root t).1 =
      (fillAndClean env o root source (recorded env h o root t).tree).1 := by
  refine ⟨((recorded env h o root t).report.source.map (·.data)).getD
    (afterSources env h o root t).collector.gathered, ?_⟩
  rw [extract_eq hh]
  generalize fillAndClean env o root _ (recorded env h o root t).tree = result
  obtain ⟨v, e | post⟩ := result <;> rfl

/-- A place that is neither that of a locale file nor that of a source that a run overwrites. -/
def Untouched (env : Surroundings) (o : Options) (root : String) (t : FileTree) (place : Place) :
    Prop :=
  OffLocales o root (o.fromLang :: o.targetLangs) place ∧
    ∀ path ∈ Scan.files t root o, Path.relativeOrSelf path root ∈ rewritten env o root t →
      Path.place path ≠ place

/-- A run leaves all files alone but the locale files and the sources that it overwrites. -/
theorem sameFiles_extract (hformat : o.formatCommand = none) :
    FileTree.SameFiles (Untouched env o root t) t (extract env o root t).1 := by
  cases hh : harvesterOf o root t with
  | error bad =>
    rw [extract_of_error hh]
    exact .refl _ _
  | ok h =>
    have hoptions := (of_harvesterOf hh).1
    obtain ⟨source, htree⟩ := tree_extract env hh
    -- the sources, their record, and the other languages, one after the other
    have hsources : FileTree.SameFiles (Untouched env o root t) t
        (afterSources env h o root t).tree := by
      refine (sameFiles_foldl_harvestSource env root (by rw [hoptions]; exact hformat)
        (Scan.files t root o) (start o root t)).mono ?_
      intro place hplace x hx hwritten
      refine hplace.2 x.path (path_mem_files hx) ?_
      rw [rewritten_eq hh]
      exact List.mem_map.mpr ⟨x, List.mem_filter.mpr ⟨hx, hwritten⟩, rfl⟩
    have hrecord : FileTree.SameFiles (Untouched env o root t) (afterSources env h o root t).tree
        (recorded env h o root t).tree := by
      rw [tree_recorded]
      exact (Locale.sameFiles_writeSource _ _ _ _).mono fun place hplace =>
        hplace.1 o.fromLang List.mem_cons_self
    have hothers : FileTree.SameFiles (OffLocales o root o.targetLangs)
        (recorded env h o root t).tree
        (fillAndClean env o root source (recorded env h o root t).tree).1 :=
      sameFiles_fillAndClean source
    rw [htree]
    exact (hsources.trans hrecord).trans (hothers.mono fun place hplace lang hlang =>
      hplace.1 lang (List.mem_cons_of_mem _ hlang))

/-- Nothing is rewritten unless the options ask for it. -/
theorem rewritten_eq_nil (hoff : o.replaceTexts = false) : rewritten env o root t = [] := by
  cases hh : harvesterOf o root t with
  | error bad => rw [rewritten, hh]
  | ok h =>
    have hemits : h.emitsCode = false := (of_harvesterOf hh).2.trans hoff
    rw [rewritten_eq hh, List.map_eq_nil_iff, List.filter_eq_nil_iff]
    intro x hx hwritten
    obtain ⟨c, hc⟩ := exists_code_of_overwritten hx hwritten
    rw [emitsCode_of_outcomeOf hc] at hemits
    cases hemits

/-! ## Scripts that do not parse -/

section Failing

variable {x : Handled}

/-- A script that does not parse has one issue. -/
theorem issues_of_failsToParse (hfails : x.FailsToParse root) : ∃ source offset error,
    x.issues h root = [.ofParseError (x.relative root) source offset error] := by
  obtain ⟨source, offset, error, hout⟩ := hfails.outcome_eq (h := h)
  refine ⟨source, offset, error, ?_⟩
  rw [Handled.issues, hout]
  rfl

/-- And it is not overwritten. -/
theorem not_overwritten (hx : x ∈ handledBy env h o root t) (hfails : x.FailsToParse root) :
    x.overwritten = false := by
  rw [Bool.eq_false_iff]
  intro hwritten
  obtain ⟨source, offset, error, hout⟩ := hfails.outcome_eq (h := h)
  obtain ⟨c, hc⟩ := exists_code_of_overwritten hx hwritten
  rw [hout] at hc
  cases hc

/-- A script that does not parse is not rewritten. -/
theorem not_mem_rewritten (hh : harvesterOf o root t = .ok h)
    (hx : x ∈ handledBy env h o root t) (hfails : x.FailsToParse root) :
    x.relative root ∉ rewritten env o root t := by
  rw [rewritten_eq hh]
  intro hmem
  obtain ⟨y, hy, heq⟩ := List.mem_map.mp hmem
  obtain ⟨hy, hwritten⟩ := List.mem_filter.mp hy
  obtain rfl := eq_of_relative_eq hy hx heq
  rw [not_overwritten hy hfails] at hwritten
  cases hwritten

/-- The texts that are gathered are those of the sources that parse. -/
theorem gathered_filter {keep : Handled → Bool} {xs : List Handled}
    (hdropped : ∀ y ∈ xs, keep y = false → y.FailsToParse root) :
    gathered h root (xs.filter keep) = gathered h root xs := by
  rw [gathered, gathered]
  generalize Catalog.empty = c
  induction xs generalizing c with
  | nil => rfl
  | cons y ys ih =>
    have ih := ih fun z hz => hdropped z (List.mem_cons_of_mem _ hz)
    cases hkeep : keep y with
    | true =>
      rw [List.filter_cons_of_pos hkeep, List.foldl_cons, List.foldl_cons]
      exact ih _
    | false =>
      -- a source that fails to parse has no texts
      have hnothing : c.merge (y.outcome h root).catalog = c := by
        obtain ⟨source, offset, error, hout⟩ :=
          (hdropped y List.mem_cons_self hkeep).outcome_eq (h := h)
        rw [hout]
        rfl
      rw [List.filter_cons_of_neg (by simp [hkeep]), List.foldl_cons, hnothing]
      exact ih _

/-- Parse issues of a source are reported for that source only. -/
theorem isParseOf_eq_false {y : Handled} {file : String} (hne : y.relative root ≠ file)
    {i : Issue} (hi : i ∈ y.issues h root) : i.isParseOf file = false := by
  rw [Bool.eq_false_iff]
  intro hparse
  rw [Handled.issues] at hi
  rcases List.mem_append.mp hi with hi | hi
  · exact hne (namesOnly_outcomeOf h _ _ i hi file hparse).symm
  · split at hi
    · rw [List.mem_singleton.mp hi] at hparse
      cases hparse
    · cases hi

/-- A script that does not parse is reported once. -/
theorem countP_isParseOf (hx : x ∈ handledBy env h o root t) (hfails : x.FailsToParse root) :
    ((handledBy env h o root t).flatMap (·.issues h root)).countP
      (Issue.isParseOf (x.relative root)) = 1 := by
  have hnodup : (handledBy env h o root t).Nodup :=
    List.Nodup.of_map (·.path) (map_path_handledBy ▸ Scan.nodup_files t root o)
  have hknown : ∀ y ∈ handledBy env h o root t, y ≠ x → y.relative root ≠ x.relative root :=
    fun y hy hne heq => hne (eq_of_relative_eq hy hx heq)
  generalize handledBy env h o root t = xs at hx hnodup hknown
  obtain ⟨front, back, rfl⟩ := List.append_of_mem hx
  -- no other source is reported under the path of this one
  have hnone : ∀ ys : List Handled, (∀ y ∈ ys, y ∈ front ++ x :: back ∧ y ≠ x) →
      (ys.flatMap (·.issues h root)).countP (Issue.isParseOf (x.relative root)) = 0 := by
    intro ys hys
    rw [List.countP_eq_zero]
    intro i hi
    obtain ⟨y, hy, hi⟩ := List.mem_flatMap.mp hi
    rw [isParseOf_eq_false (hknown y (hys y hy).1 (hys y hy).2) hi]
    simp
  have hapart := List.nodup_middle.mp hnodup
  rw [List.nodup_cons, List.mem_append, not_or] at hapart
  have hfront := hnone front fun y hy => ⟨List.mem_append_left _ hy, by
    rintro rfl
    exact hapart.1.1 hy⟩
  have hback := hnone back fun y hy => ⟨List.mem_append_right _ (List.mem_cons_of_mem _ hy), by
    rintro rfl
    exact hapart.1.2 hy⟩
  obtain ⟨source, offset, error, hissues⟩ := issues_of_failsToParse (h := h) hfails
  rw [List.flatMap_append, List.flatMap_cons, List.countP_append, List.countP_append, hfront,
    hback, hissues]
  simp [Issue.isParseOf_ofParseError]

end Failing

end TextHarvest.Run
