import TextHarvest.Proofs.Except
import TextHarvest.Proofs.FileOutcome
import TextHarvest.Proofs.Harvest.Places
import TextHarvest.Proofs.Harvest.Recognised
import TextHarvest.Proofs.Key
import TextHarvest.Proofs.Text.Blank

/-!
# Reading a file again

A file that was rewritten is read again in later runs. An entry of it stays alive as long as a walk
over one of its parts still gets to a place that files the entry, and the file stays as it is when
no such walk gets to a place that is changed and the import is there. Calls of the lookup function
are places that file the keys they look up. Two generated forms are not what one would wish: a
wrapper element without a message files nothing, and a list of the names of dynamic properties may
hold names that are texts themselves.

Main results:

* `Harvester.get?_harvestFile_iff` — the entries of a file are those filed at its places.
* `Harvester.edits_filePatch_iff` — nothing is changed in a file just when it is settled.
* `Part.actions_callText` — what becomes of a generated call.
* `Harvester.staysRewritten_iff` — when what was rewritten stays as it is.
* `Harvester.keepsEntries_iff` — when what was rewritten keeps its entries.
-/

namespace TextHarvest

open Harvest

/-! ## The places of a file -/

/-- A walk over a part of a file gets to a tree, with a site and a role there. -/
def PlaceOf (h : Harvester) (code path : String) (s : Site) (r : Role) (p : Script.Tree) : Prop :=
  ∃ part ∈ h.parts code path, ∃ t, part.parse = .ok t ∧ Reaches (part.site h) .plain t s r p

namespace Part

/-- The texts of a part are those filed at its places. -/
theorem mem_texts_iff {h : Harvester} {part : Part} {k v : String} :
    (k, v) ∈ part.texts h ↔ ∃ t, part.parse = .ok t ∧
      ∃ s r p, Reaches (part.site h) .plain t s r p ∧ Files s r p k v := by
  rw [texts, actions, mem_entries]
  cases part.parse with
  | error e => simp
  | ok t => simp only [file_mem_walk_iff, Except.ok.injEq, exists_eq_left']

/-- No place of a part is changed. -/
def Untouched (h : Harvester) (part : Part) : Prop :=
  ∀ t, part.parse = .ok t → ∀ s r p, Reaches (part.site h) .plain t s r p → ¬Changed s r p

/-- A part has no edits just when no place of it is changed. -/
theorem edits_actions_eq_nil_iff {h : Harvester} {part : Part} :
    edits (part.actions h) = [] ↔ part.Untouched h := by
  rw [actions, Untouched]
  cases part.parse with
  | error e =>
    constructor
    · intro _ t hparse
      cases hparse
    · intro _
      rfl
  | ok t =>
    dsimp only
    rw [edits_walk_eq_nil_iff]
    constructor
    · intro hplaces t' hparse
      cases hparse
      exact hplaces
    · intro hplaces
      exact hplaces t rfl

end Part

namespace Harvester

/-- The texts of a file are those filed at its places. -/
theorem mem_fileTexts_iff {h : Harvester} {code path k v : String} :
    (k, v) ∈ h.fileTexts code path ↔ ∃ s r p, PlaceOf h code path s r p ∧ Files s r p k v := by
  rw [fileTexts, List.mem_flatMap]
  simp only [Part.mem_texts_iff, PlaceOf]
  constructor
  · rintro ⟨part, hpart, t, hparse, s, r, p, hreach, hfiles⟩
    exact ⟨s, r, p, ⟨part, hpart, t, hparse, hreach⟩, hfiles⟩
  · rintro ⟨s, r, p, ⟨part, hpart, t, hparse, hreach⟩, hfiles⟩
    exact ⟨part, hpart, t, hparse, s, r, p, hreach, hfiles⟩

/-- The text of a key is one that a place files for it, and no other has the last word. -/
theorem get?_harvestFile_iff {h : Harvester} {code path k v : String} :
    (h.harvestFile code path).catalog.get? k = some v ↔
      (∃ s r p, PlaceOf h code path s r p ∧ Files s r p k v) ∧
        ∀ w, (h.fileTexts code path).reverse.lookup k = some w → w = v := by
  rw [← mem_fileTexts_iff, (h.lists_harvestFile code path).answers k, Catalog.get?_ofList]
  constructor
  · intro hlookup
    refine ⟨List.mem_reverse.mp (mem_of_lookup_eq_some hlookup), ?_⟩
    intro w hw
    exact Option.some.inj (hw.symm.trans hlookup)
  · -- what is filed last under the key is what the look-up answers
    rintro ⟨hmem, hlast⟩
    obtain ⟨w, hw⟩ := Catalog.exists_get?_ofList hmem
    rw [Catalog.get?_ofList] at hw
    rw [hw, hlast w hw]

end Harvester

/-! ## Files that stay as they are -/

/-- A part comes out as it was: none of its places is changed, or it is an expression that its
changes write back. -/
def Part.Still (h : Harvester) : Part → Prop
  | .script code dialect => (Part.script code dialect).Untouched h
  | .expr code quote => (Part.expr code quote).Untouched h ∨
      (Patch.mk (edits ((Part.expr code quote).actions h))).apply code = code

/-- Whether a part is a script with texts. -/
def Part.isFilingScript (h : Harvester) : Part → Bool
  | .script code dialect => !((Part.script code dialect).texts h).isEmpty
  | .expr _ _ => false

/-- A script needs no import for the calls that are put into it. -/
def NeedsNoImport (h : Harvester) (code : String) (dialect : Script.Dialect) : Prop :=
  ∀ t e, Script.parseModule code dialect = .ok t →
    planImport t code.toList
      (h.neededNames (((Part.script code dialect).actions h).contains .useWrapper))
      h.options.importPath ≠ .ok (some e)

/-- If imports are added at all, the first script with texts needs none. -/
def ImportStands (h : Harvester) (parts : List Part) : Prop :=
  h.options.replaceTexts = true → h.options.autoImport = true → ∀ code dialect,
    parts.find? (·.isFilingScript h) = some (.script code dialect) → NeedsNoImport h code dialect

/-- Every part of a file comes out as it was, and the import that the file needs is there. -/
structure Settled (h : Harvester) (code path : String) : Prop where
  parts : ∀ part ∈ h.parts code path, part.Still h
  imports : ImportStands h (h.parts code path)

section Imports

variable {h : Harvester} {part : Part}

/-- Without parts no import is needed. -/
theorem importStands_nil (h : Harvester) : ImportStands h [] := by
  intro _ _ code dialect hfind
  cases hfind

/-- A script that does not parse comes out as it was. -/
theorem Part.still_of_error {code : String} {dialect : Script.Dialect} {e : Script.ParseError}
    (hparse : (Part.script code dialect).parse = .error e) :
    (Part.script code dialect).Still h := by
  intro t hok
  cases hparse.symm.trans hok

/-- A script that does not parse files nothing. -/
theorem Part.not_isFilingScript_of_error {code : String} {dialect : Script.Dialect}
    {e : Script.ParseError} (hparse : (Part.script code dialect).parse = .error e) :
    ¬(Part.script code dialect).isFilingScript h = true := by
  rw [isFilingScript, texts_of_error hparse]
  exact Bool.false_ne_true

/-- The first script with texts decides. -/
theorem importStands_cons_of_filing (hfiles : part.isFilingScript h = true) (parts : List Part) :
    ImportStands h (part :: parts) ↔ ImportStands h [part] := by
  rw [ImportStands, ImportStands, List.find?_cons_of_pos hfiles, List.find?_cons_of_pos hfiles]

/-- A part without texts does not count. -/
theorem importStands_cons_of_not_filing (hfiles : ¬part.isFilingScript h = true)
    (parts : List Part) : ImportStands h (part :: parts) ↔ ImportStands h parts := by
  rw [ImportStands, ImportStands, List.find?_cons_of_neg hfiles]

/-- Expressions do not count. -/
theorem importStands_append {exprs : List Part}
    (hexprs : ∀ part ∈ exprs, ¬part.isFilingScript h = true) (parts : List Part) :
    ImportStands h (parts ++ exprs) ↔ ImportStands h parts := by
  have hnone : exprs.find? (·.isFilingScript h) = none := List.find?_eq_none.mpr hexprs
  rw [ImportStands, ImportStands, List.find?_append, hnone, Option.or_none]

end Imports

namespace Harvester

variable {h : Harvester}

/-- An import adds its edit to those that are there. -/
theorem addImport_edits_iff {script : Script.Tree} {source : List Char} {harvest : Harvest} :
    (h.addImport script source harvest).harvest.patch.edits = [] ↔ harvest.patch.edits = [] ∧
      ∀ e, planImport script source (h.neededNames harvest.usesWrapper) h.options.importPath ≠
        .ok (some e) := by
  rw [addImport]
  split
  · rename_i e hplan
    simp [Patch.replace, hplan]
  · rename_i hplan
    simp [hplan]
  · rename_i c hplan
    simp [hplan]

/-- An import is wanted just when there are texts to look up and imports are added at all. -/
theorem wantsImport_ofActions (actions : List Action) :
    h.wantsImport (Harvest.ofActions actions) = true ↔ h.options.replaceTexts = true ∧
      h.options.autoImport = true ∧ (!(entries actions).isEmpty) = true := by
  have hempty : (Harvest.ofActions actions).catalog.isEmpty = (entries actions).isEmpty :=
    (Catalog.answers_ofList (entries actions)).isEmpty_eq
  rw [wantsImport, hempty, Bool.and_eq_true, Bool.and_eq_true, and_assoc]

/-- The import of a script stands just when none is wanted or none is needed. -/
theorem importStands_singleton_iff {code : String} {dialect : Script.Dialect}
    {script : Script.Tree} (hparse : Script.parseModule code dialect = .ok script) :
    ImportStands h [.script code dialect] ↔
      (h.wantsImport (Harvest.ofActions ((Part.script code dialect).actions h)) = true →
        ∀ e, planImport script code.toList
          (h.neededNames (((Part.script code dialect).actions h).contains .useWrapper))
            h.options.importPath ≠ .ok (some e)) := by
  rw [wantsImport_ofActions]
  constructor
  · rintro himport ⟨hreplace, hauto, hfiles⟩ e
    -- the only part is the first one that files, as soon as it files at all
    have hfind : [Part.script code dialect].find? (·.isFilingScript h) =
        some (.script code dialect) := List.find?_cons_of_pos hfiles
    exact himport hreplace hauto code dialect hfind script e hparse
  · intro hplan hreplace hauto code' dialect' hfind t e hparse'
    have hfiles := List.find?_some hfind
    cases List.mem_singleton.mp (List.mem_of_find?_eq_some hfind)
    cases hparse.symm.trans hparse'
    exact hplan ⟨hreplace, hauto, hfiles⟩ e

/-- A script is harvested without a patch just when none of its places is changed and the import
that is asked for is there. -/
theorem edits_harvestScript_iff {code : String} {dialect : Script.Dialect} {inject : Bool}
    {out : ScriptHarvest} (hok : h.harvestScript code dialect inject = .ok out) :
    out.harvest.patch.edits = [] ↔ (Part.script code dialect).Still h ∧
      (inject = true → ImportStands h [.script code dialect]) := by
  rw [harvestScript] at hok
  cases hparse : Script.parseModule code dialect with
  | error e => simp [hparse, Except.map] at hok
  | ok script =>
    rw [Part.Still, ← Part.edits_actions_eq_nil_iff,
      importStands_singleton_iff hparse]
    have hpart : (Part.script code dialect).parse = .ok script := hparse
    rw [Part.actions_of_parse hpart]
    rw [hparse, Except.map, Except.ok.injEq] at hok
    subst hok
    dsimp only
    split
    · -- an import is asked for and wanted
      rename_i hwants
      rw [Bool.and_eq_true] at hwants
      rw [addImport_edits_iff]
      constructor
      · rintro ⟨hedits, hplan⟩
        exact ⟨hedits, fun _ _ => hplan⟩
      · rintro ⟨hedits, hplan⟩
        exact ⟨hedits, hplan hwants.1 hwants.2⟩
    · -- no import, whatever the script needs
      rename_i hwants
      rw [Bool.and_eq_true, not_and] at hwants
      constructor
      · intro hedits
        exact ⟨hedits, fun hinject hwanted => absurd hwanted (hwants hinject)⟩
      · rintro ⟨hedits, -⟩
        exact hedits

end Harvester

namespace Component

variable {h : Harvester}

/-- Nothing is changed when nothing is in either part. -/
theorem edits_absorb_iff {whole part : Harvest} {offset : Nat} :
    (whole.absorb part offset).patch.edits = [] ↔
      whole.patch.edits = [] ∧ part.patch.edits = [] := by
  simp [Harvest.absorb, Patch.absorb]

/-- The scripts of a component are harvested without a patch just when each comes out as it was and
the import is there, unless an earlier script has it. -/
theorem edits_harvestScripts_iff {source file : String} {scripts : List Block} {injected : Bool}
    {out : ComponentHarvest} :
    (harvestScripts h source file scripts injected out).harvest.patch.edits = [] ↔
      out.harvest.patch.edits = [] ∧ (∀ part ∈ scripts.map scriptPart, part.Still h) ∧
        (injected = false → ImportStands h (scripts.map scriptPart)) := by
  induction scripts generalizing injected out with
  | nil => exact ⟨fun hout => ⟨hout, by simp, fun _ => importStands_nil h⟩, fun hall => hall.1⟩
  | cons block scripts ih =>
    rw [harvestScripts_cons, List.map_cons, List.forall_mem_cons]
    split
    · rename_i script hok
      have hscript : script.harvest.patch.edits = [] ↔ (scriptPart block).Still h ∧
          ((!injected) = true → ImportStands h [scriptPart block]) :=
        Harvester.edits_harvestScript_iff hok
      have hfiles : (!script.harvest.catalog.isEmpty) = (scriptPart block).isFilingScript h := by
        rw [(Harvester.lists_harvestScript hok).answers.isEmpty_eq]
        rfl
      rw [ih, edits_absorb_iff, hscript, hfiles, and_assoc, and_assoc, and_assoc]
      cases hfiling : (scriptPart block).isFilingScript h with
      | true =>
        -- this script decides about the import, and the later ones get none
        rw [importStands_cons_of_filing hfiling (scripts.map scriptPart)]
        simp only [Bool.or_true, Bool.not_eq_true', reduceCtorEq, false_implies, and_true]
        rw [and_comm (a := _ → ImportStands h _)]
      | false =>
        -- a script without texts leaves the import to the later ones
        have hnone : ¬(scriptPart block).isFilingScript h = true := by simp [hfiling]
        have hstands := (importStands_cons_of_not_filing hnone []).mpr (importStands_nil h)
        rw [importStands_cons_of_not_filing hnone (scripts.map scriptPart)]
        simp only [Bool.or_false, hstands, implies_true, true_and]
    · rename_i e herror
      have hparse := Harvester.parse_of_harvestScript_error herror
      have hstill : (scriptPart block).Still h := Part.still_of_error hparse
      have hnone : ¬(scriptPart block).isFilingScript h = true :=
        Part.not_isFilingScript_of_error hparse
      rw [ih, importStands_cons_of_not_filing hnone]
      simp only [hstill, true_and]

/-- An expression is not changed just when it comes out as it was. -/
theorem harvestExpr_snd_eq_none_iff {code : String} {quote : Quote} {surface : Surface} :
    (harvestExpr h code quote surface).2 = none ↔ (Part.expr code quote).Still h := by
  delta harvestExpr
  rw [Part.Still, ← Part.edits_actions_eq_nil_iff, Harvester.harvestExpr]
  cases hparse : Script.parseExpr code with
  | error e =>
    have hpart : (Part.expr code quote).parse = .error e := hparse
    rw [Part.actions, hpart]
    exact ⟨fun _ => Or.inl rfl, fun _ => rfl⟩
  | ok e =>
    have hpart : (Part.expr code quote).parse = .ok e := hparse
    rw [Part.actions_of_parse hpart]
    dsimp only [Except.map]
    split
    · rename_i hempty
      exact ⟨fun _ => Or.inl (List.isEmpty_iff.mp hempty), fun _ => rfl⟩
    · -- there are edits, but they may come to nothing
      rename_i hempty
      have hne := mt List.isEmpty_iff.mpr hempty
      dsimp only
      split
      · rename_i hsame
        exact ⟨fun _ => Or.inr (beq_iff_eq.mp hsame), fun _ => rfl⟩
      · rename_i hchanged
        constructor
        · intro hnone
          cases hnone
        · rintro (hnil | hsame)
          · exact absurd hnil hne
          · exact absurd (beq_iff_eq.mpr hsame) hchanged

/-- The edit of a template is made where the expression stands, not in the expression. -/
theorem edits_harvestExpr (h : Harvester) (code : String) (quote : Quote) (surface : Surface) :
    edits (harvestExpr h code quote surface).1 = [] := by
  delta harvestExpr
  rw [List.eq_nil_iff_forall_not_mem]
  intro e hmem
  rw [mem_edits] at hmem
  split at hmem
  · cases hmem
  · split at hmem
    · simp at hmem
    · simp at hmem

/-- A node is not changed just when its expression is not. -/
theorem edits_withEdit_iff {result : List Action × Option String} {edit : String → Edit}
    (hresult : edits result.1 = []) : edits (withEdit result edit) = [] ↔ result.2 = none := by
  obtain ⟨actions, changed⟩ := result
  cases changed with
  | none => exact ⟨fun _ => rfl, fun _ => hresult⟩
  | some code => simp [withEdit, edits]

/-- The parts of a template are expressions. -/
theorem edits_harvestNode_iff {node : Node} :
    edits (harvestNode h node) = [] ↔ ∀ part, part? h node = some part → part.Still h := by
  -- a node is still when its expression is, and one without an expression always
  rcases harvestNode_cases h node with ⟨hnone, hnode⟩ | ⟨code, quote, surface, edit, hsome, hnode⟩
  · rw [hnode, hnone]
    constructor
    · intro _ part hpart
      cases hpart
    · intro _
      rfl
  · rw [hnode, edits_withEdit_iff (edits_harvestExpr h code quote surface),
      harvestExpr_snd_eq_none_iff, hsome]
    constructor
    · intro hstill part hpart
      cases hpart
      exact hstill
    · intro hparts
      exact hparts _ rfl

/-- A template is not changed just when each expression comes out as it was. -/
theorem edits_harvestTemplate_iff {template : Block} :
    (harvestTemplate h template).patch.edits = [] ↔
      ∀ part ∈ templateParts h template, part.Still h := by
  rw [harvestTemplate, templateParts]
  split
  · have hedits : edits ((nodes template.content template.offset).flatMap (harvestNode h)) = [] ↔
        ∀ node ∈ nodes template.content template.offset, edits (harvestNode h node) = [] := by
      rw [edits, List.filterMap_flatMap, List.flatMap_eq_nil_iff]
      rfl
    simp only [List.forall_mem_filterMap]
    exact hedits.trans (forall₂_congr fun _ _ => edits_harvestNode_iff)
  · exact ⟨fun _ _ hpart => absurd hpart List.not_mem_nil, fun _ => rfl⟩

/-- The parts of a template are no scripts. -/
theorem not_isFilingScript_of_mem_templateParts {template : Block} {part : Part}
    (hpart : part ∈ templateParts h template) : ¬part.isFilingScript h = true := by
  rw [templateParts] at hpart
  split at hpart
  · obtain ⟨node, -, hnode⟩ := List.mem_filterMap.mp hpart
    rcases harvestNode_cases h node with ⟨hnone, -⟩ | ⟨code, quote, surface, edit, hsome, -⟩
    · cases hnone.symm.trans hnode
    · cases hsome.symm.trans hnode
      exact Bool.false_ne_true
  · cases hpart

end Component

namespace Harvester

variable {h : Harvester}

theorem edits_harvestComponent_iff {source file : String} {out : ComponentHarvest}
    (hok : h.harvestComponent source file = .ok out) :
    out.harvest.patch.edits = [] ↔ (∀ part ∈ Component.parts h source, part.Still h) ∧
      ImportStands h (Component.parts h source) := by
  rw [harvestComponent] at hok
  rw [Component.parts]
  cases hsplit : Component.split source with
  | error e => simp [hsplit, Except.map] at hok
  | ok blocks =>
    rw [hsplit, Except.map, Except.ok.injEq] at hok
    subst hok
    dsimp only
    generalize blocks.scripts.filter (·.setup) ++ blocks.scripts.filter (!·.setup) = scripts
    have hscripts : (Component.harvestScripts h source file scripts false
        {}).harvest.patch.edits = [] ↔ (∀ part ∈ scripts.map Component.scriptPart, part.Still h) ∧
          ImportStands h (scripts.map Component.scriptPart) := by
      rw [Component.edits_harvestScripts_iff]
      exact ⟨fun hall => ⟨hall.2.1, hall.2.2 rfl⟩, fun hall => ⟨rfl, hall.1, fun _ => hall.2⟩⟩
    -- the template adds its edits to those of the scripts, but never an import
    cases blocks.template with
    | none =>
      rw [Option.elim_none, List.append_nil]
      exact hscripts
    | some template =>
      dsimp only
      rw [Option.elim_some, Component.edits_absorb_iff, hscripts,
        Component.edits_harvestTemplate_iff, List.forall_mem_append,
        importStands_append fun _ => Component.not_isFilingScript_of_mem_templateParts]
      exact and_right_comm

/-- Nothing is changed in a file just when it is settled. -/
theorem edits_filePatch_iff {code path : String} :
    (h.filePatch code path).edits = [] ↔ Settled h code path := by
  -- a component is settled block by block, a script as a whole
  have hsettled : Settled h code path ↔ (∀ part ∈ h.parts code path, part.Still h) ∧
      ImportStands h (h.parts code path) :=
    ⟨fun hs => ⟨hs.parts, hs.imports⟩, fun hs => ⟨hs.1, hs.2⟩⟩
  rw [hsettled, filePatch, parts]
  split
  · cases hout : h.harvestComponent code path with
    | ok out => exact edits_harvestComponent_iff hout
    | error e =>
      rw [parts_of_harvestComponent_error hout]
      exact ⟨fun _ => ⟨fun _ hpart => absurd hpart List.not_mem_nil, importStands_nil h⟩,
        fun _ => rfl⟩
  · rw [List.forall_mem_singleton]
    cases hout : h.harvestScript code (.ofName (Path.extension? path)) true with
    | ok script =>
      have hscript := edits_harvestScript_iff hout
      simpa using hscript
    | error e =>
      -- what is not parsed is not edited
      have hparse := parse_of_harvestScript_error hout
      have hstands := (importStands_cons_of_not_filing
        (Part.not_isFilingScript_of_error hparse) []).mpr (importStands_nil h)
      exact ⟨fun _ => ⟨Part.still_of_error hparse, hstands⟩, fun _ => rfl⟩

end Harvester

/-! ## Calls that were written -/

/-- The key of a text is read from a call as it was written. -/
structure Harvester.KeyStands (h : Harvester) (text : String) : Prop where
  trimmed : Text.trim (h.keyFor text) = h.keyFor text
  nonempty : h.keyFor text ≠ ""

/-- Keys with digits stand for themselves, and so do texts that are their own keys. -/
theorem Harvester.Made.keyStands {o : Options} {h : Harvester} (hmade : Made o h)
    (hlength : 0 < o.keyLength) {text : String} (htext : Text.trim text ≠ "") :
    h.KeyStands (Text.trim text) := by
  have hkey : h.keyFor (Text.trim text) =
      if o.keepRaw then Text.trim text else Key.ofText (Text.trim text) o.keyLength := by
    rw [keyFor, hmade.options, hmade.makeKey]
  -- a raw key is the text itself, any other one is made of digits
  cases hraw : o.keepRaw with
  | true =>
    have hself : h.keyFor (Text.trim text) = Text.trim text := by
      rw [hkey, hraw, if_pos rfl]
    constructor
    · rw [hself, Text.trim, Text.trim, String.toList_ofList, Chars.trim_trim]
    · rw [hself]
      exact htext
  | false =>
    have hmake : h.keyFor (Text.trim text) = Key.ofText (Text.trim text) o.keyLength := by
      rw [hkey, hraw]
      rfl
    have hdigits : Key.alphabet.all (fun c => !Chars.isBlank c) = true := by decide
    constructor
    · have hsolid : ∀ c ∈ (Key.ofText (Text.trim text) o.keyLength).toList,
          Chars.isBlank c = false := by
        intro c hc
        have hdigit := List.all_eq_true.mp hdigits c (Key.mem_alphabet_of_mem_ofText hc)
        simpa using hdigit
      rw [hmake, Text.trim, Chars.trim_of_not_blank hsolid, String.ofList_toList]
    · intro hempty
      have hnone := Key.length_ofText (Text.trim text) o.keyLength
      rw [← hmake, hempty] at hnone
      exact absurd hnone.symm (Nat.pos_iff_ne_zero.mp hlength)

/-- A generated call that is an expression of a template stays as it is and files its key again, if
the key is known and the call is recognised. -/
theorem Part.actions_callText {h : Harvester} (hpath : IsIdentifierPath h.options.translateKey)
    (hname : h.exclusion.translateKey = h.options.translateKey) {key text : String}
    (hknows : h.Knows key text) (message : String) (quote quote' : Quote) {inRender : Bool}
    (hdot : '.' ∈ h.options.translateKey.toList → inRender = false) :
    (Part.expr (h.callText key message quote inRender) quote').actions h = [.file key text] := by
  obtain ⟨t, hparse, ht⟩ := h.parseExpr_callText hpath key message quote inRender
  obtain ⟨hlookup, hexcluded⟩ := (isLookupCall_callPath_iff hname inRender).mpr hdot
  have hpart : (Part.expr (h.callText key message quote inRender) quote').parse = .ok t := hparse
  rw [Part.actions_of_parse hpart]
  exact walk_isCall_of_knows ht hlookup hexcluded hknows

section Calls

variable {h : Harvester} {part : Part} {key text : String}

/-- A part at which one key is filed and nothing else is done has one text. -/
theorem Part.texts_of_actions (hactions : part.actions h = [.file key text]) :
    part.texts h = [(key, text)] := by
  rw [texts, hactions]
  rfl

/-- Such a part comes out as it was. -/
theorem Part.still_of_actions (hactions : part.actions h = [.file key text]) : part.Still h := by
  have hedits : edits (part.actions h) = [] := by
    rw [hactions]
    rfl
  have huntouched := edits_actions_eq_nil_iff.mp hedits
  cases part with
  | script code dialect => exact huntouched
  | expr code quote => exact Or.inl huntouched

end Calls

/-! ## Reading what was written -/

namespace Harvester

/-- What was rewritten stays as it is when it is read again and the keys of the first reading are
known too. -/
def StaysRewritten (h : Harvester) (code path : String) : Prop :=
  ∀ c, (h.harvestFile code path).code = some c →
    ((h.withKnown (h.known.merge (h.harvestFile code path).catalog)).harvestFile c path).code = none

/-- What was rewritten keeps the entries that were filed for it when it is read again with these
entries known. -/
def KeepsEntries (h : Harvester) (code path : String) : Prop :=
  ∀ c k v, (h.harvestFile code path).code = some c →
    (h.harvestFile code path).catalog.get? k = some v →
    ((h.withKnown (h.harvestFile code path).catalog).harvestFile c path).catalog.get? k = some v

instance (h : Harvester) (code path : String) : Decidable (h.StaysRewritten code path) :=
  decidable_of_iff ((h.harvestFile code path).code.all fun c =>
      ((h.withKnown (h.known.merge (h.harvestFile code path).catalog)).harvestFile c
        path).code.isNone) <| by
    simp only [StaysRewritten, Option.all_eq_true, Option.isNone_iff_eq_none]

instance (h : Harvester) (code path : String) : Decidable (h.KeepsEntries code path) :=
  decidable_of_iff ((h.harvestFile code path).code.all fun c =>
      (h.harvestFile code path).catalog.entries.all fun e =>
        ((h.withKnown (h.harvestFile code path).catalog).harvestFile c path).catalog.get? e.1 ==
          some e.2) <| by
    simp only [KeepsEntries, Option.all_eq_true, List.all_eq_true, beq_iff_eq, Prod.forall,
      Catalog.get?_eq_some_iff_mem]
    exact forall_congr' fun c => ⟨fun hall k v hc => hall hc k v, fun hall hc k v => hall k v hc⟩

/-- What was rewritten stays as it is just when it is settled for the second reading, or its changes
write back what stands there. -/
theorem staysRewritten_iff (h : Harvester) (code path : String) :
    h.StaysRewritten code path ↔ ∀ c, (h.harvestFile code path).code = some c →
      let again := h.withKnown (h.known.merge (h.harvestFile code path).catalog)
      Settled again c path ∨ (again.filePatch c path).apply c = c := by
  refine forall₂_congr fun c hc => ?_
  rw [code_harvestFile] at hc
  have hemits : (h.withKnown (h.known.merge (h.harvestFile code path).catalog)).emitsCode = true :=
    (changedCode_eq_some hc).1
  rw [code_harvestFile, changedCode_eq_none_iff hemits, edits_filePatch_iff]

/-- What was rewritten keeps its entries just when each is still filed at a place of the new text
and no other text has the last word on its key. -/
theorem keepsEntries_iff (h : Harvester) (code path : String) :
    h.KeepsEntries code path ↔ ∀ c k v, (h.harvestFile code path).code = some c →
      (h.harvestFile code path).catalog.get? k = some v →
      let again := h.withKnown (h.harvestFile code path).catalog
      (∃ s r p, PlaceOf again c path s r p ∧ Files s r p k v) ∧
        ∀ w, (again.fileTexts c path).reverse.lookup k = some w → w = v := by
  exact forall₃_congr fun _ _ _ => forall₂_congr fun _ _ => get?_harvestFile_iff

/-- The names of dynamic properties are written into a list, and one of them may be a text. -/
theorem not_staysRewritten_dynamic : ∃ h, ofOptions { replaceTexts := true } = .ok h ∧
    ¬h.StaysRewritten "_createVNode(\"div\", \x7b\"标题\": \"你好\"\x7d)" "a.js" := by
  have heval : (ofOptions { replaceTexts := true }).toOption.map (fun h => decide
      (h.StaysRewritten "_createVNode(\"div\", \x7b\"标题\": \"你好\"\x7d)" "a.js")) =
        some false := by
    decide +kernel
  obtain ⟨h, hh, hfalse⟩ := exists_ok_of_toOption_map heval
  exact ⟨h, hh, of_decide_eq_false hfalse⟩

/-- The text of an element becomes a wrapper element without a message, which files nothing. -/
theorem not_keepsEntries_wrapper : ∃ h, ofOptions { replaceTexts := true, jsx := true } = .ok h ∧
    ¬h.KeepsEntries "const a = <div>你好</div>;" "a.tsx" := by
  have heval : (ofOptions { replaceTexts := true, jsx := true }).toOption.map (fun h => decide
      (h.KeepsEntries "const a = <div>你好</div>;" "a.tsx")) = some false := by
    decide +kernel
  obtain ⟨h, hh, hfalse⟩ := exists_ok_of_toOption_map heval
  exact ⟨h, hh, of_decide_eq_false hfalse⟩

end Harvester

end TextHarvest
