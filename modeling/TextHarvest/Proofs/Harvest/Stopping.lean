import TextHarvest.Proofs.Component.Nodes
import TextHarvest.Proofs.Harvest.Fitting
import TextHarvest.Proofs.Script.Grammar.Module
import TextHarvest.Run.Extraction
import TextHarvest.Run.Session

/-!
# Where the program stops

There is one place in a script at which the program cuts its source without a look at the
characters: where the message of a wrapper element starts that is to be removed. The nodes of a tree
that the grammar reads start between the characters of its text, so the cut has an answer and the
program goes on. Only a byte-order mark, which the grammar drops and the program does not, moves
them. In a component there are the cuts of its tags as well, which stumble over a value without a
name. Without either, what is said of the harvest of a file is said of the program.

Main results:

* `stopsAt_iff` — the wrapper elements at which the program stops.
* `stops_eq_false` — over a tree that stands in its source it does not stop.
* `harvestScript?_eq_some` and `harvestExpr?_eq_some` — so there is an outcome for every script and
  every expression without a byte-order mark.
* `harvestFile?_eq_some` — and for every file that `GoesThrough`.
* `Run.extract?_eq_some` and `Run.Session.transform?_eq_some` — a run over such files, and a session
  that takes one in, go on to their end.
-/

namespace TextHarvest

namespace Harvest

open Script

/-- The program stops at a message that is to be removed and starts inside a character. -/
theorem stopsAt_iff {site : Site} {attributes : List Tree} :
    site.stopsAt attributes = true ↔ site.options.keepDefaultMsg = false ∧
      ∃ message span, Site.lastAttribute "msg" attributes = some (message, span) ∧
        Text.trim message ≠ "" ∧ ¬Chars.Between site.source span.start := by
  rw [Site.stopsAt]
  cases hmessage : Site.lastAttribute "msg" attributes with
  | none => simp
  | some found =>
    obtain ⟨message, span⟩ := found
    -- a cut exists exactly between two characters
    have hcut : Chars.splitAt? site.source span.start = none ↔
        ¬Chars.Between site.source span.start := by
      rw [Option.eq_none_iff_forall_ne_some]
      constructor
      · rintro hnone ⟨front, back, hsource, hsize⟩
        exact hnone (front, back) (Chars.splitAt?_eq_some_iff.mpr ⟨hsource, hsize⟩)
      · rintro hbetween ⟨front, back⟩ hsome
        exact hbetween ⟨front, back, Chars.splitAt?_eq_some_iff.mp hsome⟩
    cases hkeep : site.options.keepDefaultMsg with
    | true => simp [Site.removal?, hkeep]
    | false => simp [Site.removal?, hkeep, hcut]

/-- Where messages are kept, none is cut out. -/
theorem stopsAt_of_keepDefaultMsg {site : Site} (hkeep : site.options.keepDefaultMsg = true)
    (attributes : List Tree) : site.stopsAt attributes = false := by
  rw [Bool.eq_false_iff]
  intro hstops
  rw [(stopsAt_iff.mp hstops).1] at hkeep
  cases hkeep

/-- Attributes that stand in the source start between its characters. -/
theorem stopsAt_of_fits {site : Site} {attributes : List Tree}
    (h : fits site.source attributes) : site.stopsAt attributes = false := by
  rw [Bool.eq_false_iff]
  intro hstops
  obtain ⟨-, message, span, hmessage, -, hinside⟩ := stopsAt_iff.mp hstops
  obtain ⟨value, hmem⟩ := exists_attribute_of_lastAttribute hmessage
  exact hinside (fits_start (fits_of_mem h hmem))

theorem stopsOnEntering_of_fits {site : Site} {children : List Tree}
    (h : fits site.source children) (kind : Kind) : stopsOnEntering site kind children = false := by
  rw [stopsOnEntering.eq_def]
  split
  · rw [stopsAt_of_fits h, Bool.and_false]
  · rfl

mutual

/-- Over a tree that stands in its source the program does not stop. -/
theorem stops_eq_false (site : Site) (role : Role) :
    ∀ t : Tree, fits site.source t → stops site role t = false
  | .node kind span children, h => by
    have hchildren : fits site.source children := fits_children h
    rw [stops, stopsOnEntering_of_fits hchildren,
      stopsAll_eq_false _ children (onGround_visits role kind children) hchildren]
    rfl

theorem stopsAll_eq_false {site : Site} : ∀ (vs : List Visit) (ts : List Tree),
    OnGround site vs → fits site.source ts → stopsAll vs ts = false
  | [], ts, _, _ => by simp [stopsAll]
  | _ :: _, [], _, _ => by simp [stopsAll]
  | none :: vs, t :: ts, hground, h => by
    rw [stopsAll, stopsAll_eq_false vs ts (onGround_cons_none.mp hground) ((fits_cons t ts).mp h).2]
    rfl
  | some (inner, role) :: vs, t :: ts, hground, h => by
    obtain ⟨hinner, hground⟩ := onGround_cons_some.mp hground
    obtain ⟨ht, hts⟩ := (fits_cons t ts).mp h
    -- a child is visited with the source of its parent
    rw [← hinner.source] at ht
    rw [stopsAll, stops_eq_false inner role t ht, stopsAll_eq_false vs ts hground hts]
    rfl

end

end Harvest

namespace Harvester

open Script Harvest

variable {h : Harvester} {code : String}

/-- A script without a byte-order mark has a harvest, or it does not parse. -/
theorem harvestScript?_eq_some (hmark : dropMark code.toList = code.toList)
    (dialect : Script.Dialect) (inject : Bool) :
    h.harvestScript? code dialect inject = some (h.harvestScript code dialect inject) := by
  unfold harvestScript?
  cases hparse : parseModule code dialect with
  | error e =>
    rw [harvestScript, hparse]
    rfl
  | ok t =>
    have hstands := hmark ▸ standsIn_of_parseModule hparse
    dsimp only
    rw [stops_eq_false _ _ t hstands, if_neg Bool.false_ne_true]

/-- So has an expression. -/
theorem harvestExpr?_eq_some (hmark : dropMark code.toList = code.toList) (quote : Quote) :
    h.harvestExpr? code quote = some (h.harvestExpr code quote) := by
  unfold harvestExpr?
  cases hparse : parseExpr code with
  | error e =>
    rw [harvestExpr, hparse]
    rfl
  | ok t =>
    have hstands := hmark ▸ standsIn_of_parseExpr hparse
    dsimp only
    rw [stops_eq_false _ _ t hstands, if_neg Bool.false_ne_true]

end Harvester

/-! ## Components -/

namespace Component

open Harvester

variable {h : Harvester} {source : String}

/-- A text that stands in a source has its characters. -/
theorem Reads.subset {base : Nat} {s : Span} {text : String} (hreads : Reads source base s text) :
    text.toList ⊆ source.toList := by
  obtain ⟨t, -, hslice⟩ := hreads
  obtain ⟨cs, hcs, rfl⟩ := Option.map_eq_some_iff.mp hslice
  obtain ⟨front, back, hsource, -, -⟩ := Chars.slice?_eq_some hcs
  rw [String.toList_ofList, hsource]
  exact fun c hc => List.mem_append_right _ (List.mem_append_left _ hc)

/-- An expression on one line has characters of its own, and blanks for the line breaks. -/
theorem mem_of_mem_onOneLine {expr : String} {c : Char} (hc : c ∈ (onOneLine expr).toList) :
    c ∈ expr.toList ∨ c = ' ' := by
  rw [onOneLine, Text.trim, String.toList_ofList, String.toList_ofList] at hc
  obtain ⟨d, hd, rfl⟩ := List.mem_map.mp (Chars.mem_of_mem_trim hc)
  split
  · exact Or.inr rfl
  · exact Or.inl hd

/-- What an author wrote in a part of a template has characters of the template, and blanks. -/
theorem mem_of_mem_writtenExpr {base : Nat} {node : Node} (hstands : node.Stands source base)
    {code : String} (hcode : writtenExpr? node = some code) {c : Char} (hc : c ∈ code.toList) :
    c ∈ source.toList ∨ c = ' ' := by
  -- only blanks can be new in the expression: a break becomes one
  cases hstands with
  | text => cases hcode
  | interpolation hreads =>
    obtain rfl := Option.some.inj hcode
    exact (mem_of_mem_onOneLine hc).imp_left fun hmem => hreads.subset hmem
  | attr hwhole =>
    rw [writtenExpr?] at hcode
    split at hcode
    · rename_i value _ hvalue _
      split at hcode
      · cases hcode
      · obtain rfl := Option.some.inj hcode
        rw [Text.trim, String.toList_ofList] at hc
        exact Or.inl ((hwhole.value value hvalue).subset (Chars.mem_of_mem_trim hc))
    · cases hcode

/-- In a template the program does not stop, unless a tag cuts a character or an expression has a
byte-order mark. -/
theorem stopsInTemplate_eq_false {template : Block} (hwhole : ¬TemplateStumbles template.content)
    (hmark : '\ufeff' ∉ template.content.toList) : stopsInTemplate h template = false := by
  obtain ⟨ps, hsource, hfit⟩ := exists_pieces template.content.toList
  have hcuts : ¬ps.any Piece.cuts = true :=
    fun hany => hwhole ⟨ps, hsource, hfit, List.any_eq_true.mp hany⟩
  rw [stopsInTemplate, bytes_nodes hsource hfit, if_neg hcuts, Bool.and_eq_false_iff]
  refine Or.inr (List.any_eq_false.mpr ?_)
  intro code hcode
  obtain ⟨node, hnode, hwritten⟩ := List.mem_filterMap.mp hcode
  have hstands := stands_of_mem_nodesAll hfit hsource hnode
  -- without a mark in the template no expression begins with one
  have hdrop : Script.dropMark code.toList = code.toList := by
    apply Script.dropMark_of_not_mem
    intro hmem
    rcases mem_of_mem_writtenExpr hstands hwritten hmem with hin | hblank
    · exact hmark hin
    · cases hblank
  rw [harvestExpr?_eq_some hdrop]
  simp

/-- In a component it does not stop either, when no tag of the file or of its template cuts a
character. -/
theorem stopsInComponent_eq_false (hfile : ¬FileStumbles source)
    (htemplate : ∀ blocks, split source = .ok blocks → ∀ template ∈ blocks.template,
      ¬TemplateStumbles template.content)
    (hmark : '\ufeff' ∉ source.toList) : stopsInComponent h source = false := by
  rw [stopsInComponent, (bytes_split source).2 hfile]
  cases hsplit : split source with
  | error e => rfl
  | ok blocks =>
    -- every block is cut out of the file
    obtain ⟨kept, hlaid, hperm, -⟩ := exists_laidOut hsplit
    have hcontent : ∀ b ∈ blocks.scripts ++ blocks.template.toList,
        '\ufeff' ∉ b.content.toList := by
      intro b hb hmem
      have hregion := List.mem_map_of_mem (f := Block.region) (hperm.mem_iff.mpr hb)
      exact hmark (hlaid.content_subset _ hregion hmem)
    dsimp only
    rw [Bool.or_eq_false_iff]
    constructor
    · rw [List.any_eq_false]
      intro b hb
      rw [harvestScript?_eq_some
        (Script.dropMark_of_not_mem (hcontent b (List.mem_append_left _ hb)))]
      simp
    · cases hsome : blocks.template with
      | none => rfl
      | some template =>
        have hmem : template ∈ blocks.template := hsome
        exact stopsInTemplate_eq_false (htemplate blocks hsplit template hmem)
          (hcontent template (List.mem_append_right _ (Option.mem_toList.mpr hmem)))

end Component

/-! ## Files and runs -/

/-- A file over which the program does not stop: there is no byte-order mark in it, and in a
component no tag cuts a character. -/
structure GoesThrough (code path : String) : Prop where
  unmarked : '\ufeff' ∉ code.toList
  file : isComponentPath path = true → ¬Component.FileStumbles code
  template : isComponentPath path = true → ∀ blocks, Component.split code = .ok blocks →
    ∀ template ∈ blocks.template, ¬Component.TemplateStumbles template.content

namespace Harvester

variable {h : Harvester} {code : String}

/-- Such a file has an outcome. -/
theorem harvestFile?_eq_some {path : String} (hgoes : GoesThrough code path) :
    h.harvestFile? code path = some (h.harvestFile code path) := by
  rw [harvestFile?]
  by_cases hpath : isComponentPath path = true
  · rw [harvestComponent?, Component.stopsInComponent_eq_false (hgoes.file hpath)
      (hgoes.template hpath) hgoes.unmarked, hpath]
    rfl
  · rw [harvestScript?_eq_some (Script.dropMark_of_not_mem hgoes.unmarked),
      Bool.eq_false_iff.mpr hpath]
    rfl

/-- Behind a byte-order mark the ranges of a tree are three bytes short, here so that the message
starts inside the last character of another attribute. -/
example : (ofOptions { replaceTexts := true }).toOption.map (fun h =>
    (h.harvestFile? "\ufeffconst a = <Trans title=\"标题\" msg=\"你好\" />;" "a.tsx").isNone) =
      some true := by
  decide +kernel

end Harvester

namespace Run

/-- A run over files that the program goes through answers as `extract` does. -/
theorem extract?_eq_some {env : Surroundings} {o : Options} {root : String} {t : FileTree}
    (hgoes : ∀ path ∈ Scan.files t root o, ∀ code, t.readText? path = some code →
      GoesThrough code (Path.relativeOrSelf path root)) :
    extract? env o root t = some (extract env o root t) := by
  rw [extract?]
  cases hh : Harvester.ofOptions o with
  | error bad =>
    rw [extract, hh]
  | ok h =>
    -- each source that the run reads goes through, so none stops it
    have hnone : ¬(Scan.files t root o).any (stopsInSource
        (h.withKnown (Locale.readOrEmpty t (o.localePath root o.fromLang))) root t) = true := by
      rw [List.any_eq_true]
      rintro ⟨path, hpath, hstops⟩
      rw [stopsInSource] at hstops
      cases hread : t.readText? path with
      | none =>
        rw [hread] at hstops
        cases hstops
      | some code =>
        rw [hread] at hstops
        simp [Harvester.harvestFile?_eq_some (hgoes path hpath code hread)] at hstops
    dsimp only
    rw [if_neg hnone]

/-- A session that takes in such a file answers as `transform` does. -/
theorem Session.transform?_eq_some {s : Session} {code path : String}
    (hgoes : GoesThrough code (Path.relativeOrSelf path s.root)) :
    s.transform? code path = some (s.transform code path) := by
  rw [transform?, Harvester.harvestFile?_eq_some hgoes]
  simp

end Run

end TextHarvest
