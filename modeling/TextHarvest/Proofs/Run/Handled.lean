import TextHarvest.Proofs.FileOutcome
import TextHarvest.Proofs.Files.Disk
import TextHarvest.Proofs.Files.Scan
import TextHarvest.Proofs.Locale.Frame
import TextHarvest.Proofs.Run.Persistence

/-!
# What a run makes of each of its sources

A run goes over the sources one by one. What it makes of a source is decided by the text that it
reads there: the texts and issues that are gathered, and a new text, which is written back or not.
All that the run reports about its sources is added up from that, and it changes no file but those
that it overwrites.

Main results:

* `harvestSource_eq` — one source adds what was made of it and changes at most its own file.
* `foldl_harvestSource` — a run over sources adds up what was made of each.
* `sameFiles_foldl_harvestSource` — it changes the overwritten files only.
-/

namespace TextHarvest

/-! ## Issues of files -/

namespace Issue

/-- Whether an issue says that a file does not parse. -/
def isParseOf (file : String) : Issue → Bool
  | .parse f _ _ _ _ => f == file
  | _ => false

theorem isParseOf_ofParseError (file source : String) (offset : Option Nat) (error name : String) :
    (ofParseError file source offset error).isParseOf name = (file == name) := by
  cases offset <;> rfl

end Issue

/-- The issues that say of a file that it does not parse say it of one file only. -/
def NamesOnly (file : String) (issues : List Issue) : Prop :=
  ∀ i ∈ issues, ∀ name, i.isParseOf name = true → name = file

theorem NamesOnly.append {file : String} {is js : List Issue} (h : NamesOnly file is)
    (h' : NamesOnly file js) : NamesOnly file (is ++ js) :=
  fun i hi => (List.mem_append.mp hi).elim (h i) (h' i)

theorem namesOnly_ofParseError (file source : String) (offset : Option Nat) (error : String) :
    NamesOnly file [.ofParseError file source offset error] := by
  intro i hi name hname
  rw [List.mem_singleton.mp hi, Issue.isParseOf_ofParseError, beq_iff_eq] at hname
  exact hname.symm

/-- The issues of a script name its file. -/
theorem namesOnly_script (s : ScriptHarvest) (file : String) : NamesOnly file (s.issues file) := by
  intro i hi name hname
  rw [ScriptHarvest.issues] at hi
  split at hi
  · rw [List.mem_singleton.mp hi] at hname
    cases hname
  · cases hi

/-- So do those of the scripts of a component. -/
theorem namesOnly_harvestScripts {h : Harvester} {source file : String}
    {scripts : List Component.Block} {injected : Bool} {out : ComponentHarvest}
    (hout : NamesOnly file out.issues) :
    NamesOnly file (Component.harvestScripts h source file scripts injected out).issues := by
  induction scripts generalizing injected out with
  | nil => exact hout
  | cons block scripts ih =>
    rw [Component.harvestScripts_cons]
    split
    · exact ih (hout.append (namesOnly_script _ _))
    · exact ih (hout.append (namesOnly_ofParseError _ _ _ _))

/-- The issues of a file are about that file. -/
theorem namesOnly_harvestFile (h : Harvester) (code path : String) :
    NamesOnly path (h.harvestFile code path).issues := by
  rw [Harvester.harvestFile]
  split
  · rw [Harvester.harvestComponent]
    cases Component.split code with
    | error e => exact namesOnly_ofParseError _ _ _ _
    | ok blocks =>
      -- before its scripts a component has no issues
      have hstart : NamesOnly path ({} : ComponentHarvest).issues := by
        intro i hi
        cases hi
      cases htemplate : blocks.template with
      | none =>
        simp only [Except.map, htemplate]
        exact namesOnly_harvestScripts hstart
      | some template =>
        simp only [Except.map, htemplate]
        exact namesOnly_harvestScripts hstart
  · cases h.harvestScript code (.ofName (Path.extension? path)) true with
    | error e => exact namesOnly_ofParseError _ _ _ _
    | ok script => exact namesOnly_script _ _

namespace Run

/-! ## One source -/

/-- A source as a run handled it: its path, the text that was read there, if it is one, why it must
not be written to, if so, and whether a new text was written. -/
structure Handled where
  path : String
  text : Option String
  refused : Option DiskFault := none
  overwritten : Bool
  deriving DecidableEq, Repr

/-- What a text comes to; nothing when it is blank. -/
def outcomeOf (h : Harvester) (relative : String) : Option String → FileOutcome
  | none => {}
  | some code => if Text.isBlank code then {} else h.harvestFile code relative

namespace Handled

/-- The path of a source below the root. -/
def relative (root : String) (x : Handled) : String :=
  Path.relativeOrSelf x.path root

/-- What the harvest of a source came to. -/
def outcome (h : Harvester) (root : String) (x : Handled) : FileOutcome :=
  outcomeOf h (x.relative root) x.text

/-- What is reported of a source: the issues of its harvest, and why its new text was not
written. -/
def issues (h : Harvester) (root : String) (x : Handled) : List Issue :=
  (x.outcome h root).issues ++
    match (x.outcome h root).code, x.refused with
    | some _, some fault => [.persistence (x.relative root) none fault.text]
    | _, _ => []

/-- A source that is a script and does not parse. -/
def FailsToParse (root : String) (x : Handled) : Prop :=
  ∃ code e, x.text = some code ∧ Text.isBlank code = false ∧
    isComponentPath (x.relative root) = false ∧
    Script.parseModule code (.ofName (Path.extension? (x.relative root))) = .error e

end Handled

/-- A new text comes from a harvester that hands out code. -/
theorem emitsCode_of_outcomeOf {h : Harvester} {relative : String} {text : Option String}
    {c : String} (hc : (outcomeOf h relative text).code = some c) : h.emitsCode = true := by
  cases text with
  | none => cases hc
  | some code =>
    rw [outcomeOf] at hc
    split at hc
    · cases hc
    · rw [Harvester.code_harvestFile] at hc
      exact (Harvester.changedCode_eq_some hc).1

/-- And those of any file. -/
theorem namesOnly_outcomeOf (h : Harvester) (relative : String) (text : Option String) :
    NamesOnly relative (outcomeOf h relative text).issues := by
  have hnone : NamesOnly relative ({} : FileOutcome).issues := by
    intro i hi
    cases hi
  cases text with
  | none => exact hnone
  | some code =>
    rw [outcomeOf]
    split
    · exact hnone
    · exact namesOnly_harvestFile h code relative

/-- A script that does not parse comes to one issue and nothing else. -/
theorem Handled.FailsToParse.outcome_eq {h : Harvester} {root : String} {x : Handled}
    (hfails : x.FailsToParse root) : ∃ source offset error, x.outcome h root =
      { issues := [.ofParseError (x.relative root) source offset error] } := by
  obtain ⟨code, e, htext, hblank, hscript, hparse⟩ := hfails
  have hharvest : h.harvestScript code (.ofName (Path.extension? (x.relative root))) true =
      .error e := by
    rw [Harvester.harvestScript, hparse]
    rfl
  refine ⟨code, some e.offset, e.message, ?_⟩
  rw [outcome, htext, outcomeOf, Harvester.harvestFile, hharvest, hblank, hscript]
  rfl

/-- The tree after the new text of a source was written, if there is one. -/
def writtenTree? (env : Surroundings) (h : Harvester) (root : String) (t : FileTree)
    (path : String) : Option FileTree :=
  (outcomeOf h (Path.relativeOrSelf path root) (t.readText? path)).code.bind fun changed =>
    (writeSourceFile env h.options path changed t).toOption

/-- What a run makes of the source at a path. -/
def handledAt (env : Surroundings) (h : Harvester) (root : String) (t : FileTree)
    (path : String) : Handled where
  path
  text := t.readText? path
  refused := env.refuses path
  overwritten := (writtenTree? env h root t path).isSome

/-- Adds what was made of a source to a run. -/
def note (h : Harvester) (root : String) (p : Progress) (x : Handled) : Progress where
  tree := p.tree
  collector := p.collector.merge (x.outcome h root).catalog
  report := { p.report with
    skipped := p.report.skipped + if x.text.isNone then 1 else 0
    changed := p.report.changed ++ if x.overwritten then [x.relative root] else []
    dynamic := p.report.dynamic + ((x.outcome h root).findings.filter (·.dynamic)).length
    issues := p.report.issues ++ x.issues h root }

/-- A source that was read can be written, unless it is refused. -/
theorem writeSourceFile_cases (env : Surroundings) (o : Options) {path text : String}
    {t : FileTree} (hread : t.readText? path = some text) (code : String) :
    (∃ fault, env.refuses path = some fault ∧
      writeSourceFile env o path code t = .error fault) ∨
    env.refuses path = none ∧ ∃ u, writeSourceFile env o path code t = .ok u := by
  rw [writeSourceFile.eq_def]
  cases hrefused : env.refuses path with
  | some fault => exact Or.inl ⟨fault, rfl, rfl⟩
  | none =>
    -- what was read as text is a file, and the file can be written again
    have hfile : t.lookup? path = some (.file (.text text)) := by
      rw [FileTree.readText?] at hread
      split at hread
      · rename_i hlookup
        rw [hlookup, Option.some.inj hread]
      · cases hread
    refine Or.inr ⟨rfl, ?_⟩
    rw [FileTree.write?_of_lookup? hfile]
    dsimp only
    split <;> exact ⟨_, rfl⟩

/-- One source adds what was made of it, and its new text is written. -/
theorem harvestSource_eq (env : Surroundings) (h : Harvester) (root : String) (p : Progress)
    (path : String) :
    harvestSource env h root p path =
      { note h root p (handledAt env h root p.tree path) with
        tree := (writtenTree? env h root p.tree path).getD p.tree } := by
  obtain ⟨tree, collector, report⟩ := p
  rw [harvestSource]
  simp only [note, handledAt, Handled.outcome, Handled.issues, Handled.relative, writtenTree?]
  obtain ⟨text, hread⟩ : ∃ text, tree.readText? path = text := ⟨_, rfl⟩
  simp only [hread]
  -- a file that is not read or is blank has nothing to harvest
  cases text with
  | none => simp [outcomeOf, Collector.merge, Catalog.merge, Catalog.empty]
  | some code =>
    by_cases hblank : Text.isBlank code = true
    · simp [outcomeOf, hblank, Collector.merge, Catalog.merge, Catalog.empty]
    · simp only [outcomeOf, hblank, Bool.false_eq_true, if_false]
      generalize h.harvestFile code (Path.relativeOrSelf path root) = out
      cases hcode : out.code with
      | none => simp
      | some changed =>
        rcases writeSourceFile_cases env h.options hread changed with
          ⟨fault, hrefused, hwrite⟩ | ⟨hfree, u, hwrite⟩
        · simp [hwrite, hrefused, Except.toOption]
        · simp [hwrite, hfree, Except.toOption]

/-! ## All sources -/

/-- What a run makes of the sources at some paths, one after the other. -/
def handled (env : Surroundings) (h : Harvester) (root : String) :
    Progress → List String → List Handled
  | _, [] => []
  | p, path :: paths =>
    handledAt env h root p.tree path :: handled env h root (harvestSource env h root p path) paths

section All

variable {env : Surroundings} {h : Harvester} {root : String}

/-- The files are handled in the order they are given in. -/
theorem map_path_handled (paths : List String) (p : Progress) :
    (handled env h root p paths).map (·.path) = paths := by
  induction paths generalizing p with
  | nil => rfl
  | cons path paths ih => rw [handled, List.map_cons, ih, handledAt]

/-- Only a source with a new text is overwritten. -/
theorem exists_code_of_overwritten {paths : List String} {p : Progress} {x : Handled}
    (hx : x ∈ handled env h root p paths) (hwritten : x.overwritten = true) :
    ∃ c, (x.outcome h root).code = some c := by
  induction paths generalizing p with
  | nil => cases hx
  | cons path paths ih =>
    rw [handled] at hx
    rcases List.mem_cons.mp hx with rfl | hx
    · obtain ⟨u, hu⟩ := Option.isSome_iff_exists.mp hwritten
      obtain ⟨changed, hcode, -⟩ := Option.bind_eq_some_iff.mp hu
      exact ⟨changed, hcode⟩
    · exact ih hx

/-- What was made of the sources adds up to the collector and the report; the tree is apart. -/
theorem foldl_harvestSource (paths : List String) (p : Progress) :
    paths.foldl (harvestSource env h root) p =
      { (handled env h root p paths).foldl (note h root) p with
        tree := (paths.foldl (harvestSource env h root) p).tree } := by
  induction paths generalizing p with
  | nil => rfl
  | cons path paths ih =>
    rw [List.foldl_cons, handled, List.foldl_cons]
    -- the trees differ, but a note does not look at them
    have hnote : ∀ (xs : List Handled) (q : Progress) (t : FileTree),
        xs.foldl (note h root) { q with tree := t } =
          { xs.foldl (note h root) q with tree := t } := by
      intro xs
      induction xs with
      | nil => exact fun _ _ => rfl
      | cons x xs ihx => exact fun q t => ihx (note h root q x) t
    conv_lhs => rw [ih]
    generalize handled env h root (harvestSource env h root p path) paths = xs
    rw [harvestSource_eq, hnote]

/-- Without a formatting command a source is written as it is, unless it is refused. -/
theorem toOption_writeSourceFile {o : Options} (hformat : o.formatCommand = none)
    (path code : String) (t : FileTree) : (writeSourceFile env o path code t).toOption =
      if (env.refuses path).isSome then none else t.write? path (.text code) := by
  rw [writeSourceFile.eq_def, hformat]
  cases env.refuses path with
  | some fault => rfl
  | none => cases t.write? path (.text code) <;> rfl

/-- A file is written with some content. -/
theorem write?_of_writtenTree? (hformat : h.options.formatCommand = none) {t u : FileTree}
    {path : String} (hwritten : writtenTree? env h root t path = some u) :
    ∃ c, t.write? path c = some u := by
  obtain ⟨changed, -, hwrite⟩ := Option.bind_eq_some_iff.mp hwritten
  rw [toOption_writeSourceFile hformat] at hwrite
  split at hwrite
  · cases hwrite
  · exact ⟨_, hwrite⟩

variable (env root) in
/-- A run over sources overwrites files and does nothing else to the tree. -/
theorem sameFiles_foldl_harvestSource (hformat : h.options.formatCommand = none)
    (paths : List String) (p : Progress) :
    FileTree.SameFiles
      (fun place => ∀ x ∈ handled env h root p paths, x.overwritten = true →
        Path.place x.path ≠ place)
      p.tree (paths.foldl (harvestSource env h root) p).tree := by
  induction paths generalizing p with
  | nil => exact .refl _ _
  | cons path paths ih =>
    rw [List.foldl_cons, handled]
    -- one source writes at its own place, and only when it is overwritten
    have hone : FileTree.SameFiles
        (fun place => (handledAt env h root p.tree path).overwritten = true →
          Path.place path ≠ place) p.tree (harvestSource env h root p path).tree := by
      rw [harvestSource_eq, handledAt]
      cases hwritten : writtenTree? env h root p.tree path with
      | none => exact .refl _ _
      | some u =>
        obtain ⟨c, hwrite⟩ := write?_of_writtenTree? hformat hwritten
        exact (FileTree.sameFiles_write? hwrite).mono fun place hplace => (hplace rfl).symm
    refine (hone.mono fun place hplace => hplace _ List.mem_cons_self).trans ?_
    exact (ih _).mono fun place hplace x hx => hplace x (List.mem_cons_of_mem _ hx)

/-! ## Without one of the sources -/

variable {q : Place}

variable (env root) in
/-- A source at another place is written in both of two trees that agree, or in none. -/
theorem rel_writtenTree? (hformat : h.options.formatCommand = none) {t u : FileTree}
    (hagrees : FileTree.AgreesBeside q t u) {path : String} (hpath : Path.place path ≠ q) :
    Option.Rel (FileTree.AgreesBeside q) (writtenTree? env h root t path)
      (writtenTree? env h root u path) := by
  rw [writtenTree?, writtenTree?, hagrees.readText? hpath]
  cases (outcomeOf h (Path.relativeOrSelf path root) (t.readText? path)).code with
  | none => exact .none
  | some changed =>
    rw [Option.bind_some, Option.bind_some, toOption_writeSourceFile hformat,
      toOption_writeSourceFile hformat]
    split
    · exact .none
    · exact hagrees.write? hpath _

variable (env root) in
/-- Handling one file treats trees alike that agree beside another. -/
theorem agrees_harvestSource (hformat : h.options.formatCommand = none) {p p' : Progress}
    (hagrees : FileTree.AgreesBeside q p.tree p'.tree) {path : String}
    (hpath : Path.place path ≠ q) :
    handledAt env h root p'.tree path = handledAt env h root p.tree path ∧
      FileTree.AgreesBeside q (harvestSource env h root p path).tree
        (harvestSource env h root p' path).tree := by
  rw [harvestSource_eq, harvestSource_eq, handledAt, handledAt, hagrees.readText? hpath]
  have hwritten := rel_writtenTree? env root hformat hagrees hpath
  generalize writtenTree? env h root p.tree path = made,
    writtenTree? env h root p'.tree path = made' at hwritten
  cases hwritten with
  | none => exact ⟨rfl, hagrees⟩
  | some h' => exact ⟨rfl, h'⟩

/-- A source at the place of the difference leaves it at that. -/
theorem agrees_harvestSource_left (hformat : h.options.formatCommand = none)
    {p p' : Progress} (hagrees : FileTree.AgreesBeside q p.tree p'.tree) {path : String}
    (hpath : Path.place path = q) :
    FileTree.AgreesBeside q (harvestSource env h root p path).tree p'.tree := by
  rw [harvestSource_eq]
  cases hwritten : writtenTree? env h root p.tree path with
  | none => exact hagrees
  | some u =>
    obtain ⟨c, hwrite⟩ := write?_of_writtenTree? hformat hwritten
    exact hagrees.write?_left hpath hwrite

/-- Without the sources at a place a run makes the same of all others. -/
theorem handled_filter (hformat : h.options.formatCommand = none) (paths : List String)
    {p p' : Progress} (hagrees : FileTree.AgreesBeside q p.tree p'.tree) :
    handled env h root p' (paths.filter (Scan.avoids q)) =
        (handled env h root p paths).filter (Scan.avoids q ·.path) ∧
      FileTree.AgreesBeside q (paths.foldl (harvestSource env h root) p).tree
        ((paths.filter (Scan.avoids q)).foldl (harvestSource env h root) p').tree := by
  induction paths generalizing p p' with
  | nil => exact ⟨rfl, hagrees⟩
  | cons path paths ih =>
    rw [List.foldl_cons, handled]
    by_cases hpath : Path.place path = q
    · -- only the run with this source reads it, and all it can change is the place of difference
      have hdropped : ¬Scan.avoids q path = true := by
        simp [Scan.avoids, hpath]
      rw [List.filter_cons_of_neg hdropped,
        List.filter_cons_of_neg (by simpa [handledAt] using hdropped)]
      exact ih (agrees_harvestSource_left hformat hagrees hpath)
    · have hkept : Scan.avoids q path = true := by
        simp [Scan.avoids, hpath]
      obtain ⟨hsame, hafter⟩ := agrees_harvestSource env root hformat hagrees hpath
      obtain ⟨hrest, hend⟩ := ih hafter
      rw [List.filter_cons_of_pos hkept,
        List.filter_cons_of_pos (by simpa [handledAt] using hkept), handled, List.foldl_cons,
        hsame, hrest]
      exact ⟨rfl, hend⟩

end All

end Run

end TextHarvest
