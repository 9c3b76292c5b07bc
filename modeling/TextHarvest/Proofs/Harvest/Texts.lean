import TextHarvest.FileOutcome
import TextHarvest.Proofs.Catalog
import TextHarvest.Proofs.Harvest.Walk

/-!
# The texts of a file

The catalog of a file is what is left of the entries that its walks file: a later text of a key
takes the place of an earlier one, in a script, in an expression of a template and where the parts
of a component come together. Here the entries are listed as they come, before anything is
replaced, so that one can say of them that they agree.

Main results:

* `Harvester.fileTexts` — the texts of a file in the order in which they are filed.
* `Harvester.lists_harvestFile` — the catalog of a file answers as its texts filed in order, and its
  findings are listed in them.
-/

namespace TextHarvest

open Harvest

/-! ## Actions -/

/-- The entries of actions are what they file. -/
theorem mem_entries {actions : List Action} {k v : String} :
    (k, v) ∈ entries actions ↔ .file k v ∈ actions := by
  rw [entries, List.mem_filterMap]
  constructor
  · rintro ⟨action, hmem, heq⟩
    split at heq <;> cases heq
    exact hmem
  · intro hmem
    exact ⟨_, hmem, rfl⟩

/-- The findings of actions are what they record. -/
theorem mem_records {actions : List Action} {f : Finding} :
    f ∈ records actions ↔ .record f ∈ actions := by
  rw [records, List.mem_filterMap]
  constructor
  · rintro ⟨action, hmem, heq⟩
    split at heq <;> cases heq
    exact hmem
  · intro hmem
    exact ⟨_, hmem, rfl⟩

/-- Entries of actions one after the other. -/
theorem entries_append (as bs : List Action) : entries (as ++ bs) = entries as ++ entries bs :=
  List.filterMap_append

/-- Entries of many actions. -/
theorem entries_flatMap {α : Type} (f : α → List Action) (l : List α) :
    entries (l.flatMap f) = l.flatMap fun a => entries (f a) := by
  induction l with
  | nil => rfl
  | cons a l ih => rw [List.flatMap_cons, List.flatMap_cons, entries_append, ih]

/-- Filing the entries of a catalog files just these. -/
theorem entries_map_file (es : List (String × String)) :
    entries (es.map fun e => Action.file e.1 e.2) = es := by
  rw [entries, List.filterMap_map]
  exact List.filterMap_some

/-- To record is not to file. -/
theorem entries_map_record {α : Type} (f : α → Finding) (l : List α) :
    entries (l.map fun a => Action.record (f a)) = [] := by
  rw [entries, List.filterMap_map, List.filterMap_eq_nil_iff]
  intro a _
  rfl

/-- A finding that is not dynamic is a text among some texts, under its key. -/
def ListedIn (h : Harvester) (texts : List (String × String)) (f : Finding) : Prop :=
  f.dynamic = false → f.text ≠ "" ∧ (h.keyFor f.text, f.text) ∈ texts

/-- What is listed in some texts is listed in more. -/
theorem ListedIn.of_subset {h : Harvester} {ts us : List (String × String)} {f : Finding}
    (hlisted : ListedIn h ts f) (hsub : ts ⊆ us) : ListedIn h us f := by
  intro hstatic
  obtain ⟨htext, hmem⟩ := hlisted hstatic
  exact ⟨htext, hsub hmem⟩

/-- The findings of actions are listed in their entries. -/
theorem listedIn_entries {h : Harvester} {actions : List Action}
    (haccounted : Accounted h actions) {f : Finding} (hmem : f ∈ records actions) :
    ListedIn h (entries actions) f := by
  intro hstatic
  obtain ⟨htext, hfile⟩ := haccounted f (mem_records.mp hmem) hstatic
  exact ⟨htext, mem_entries.mpr hfile⟩

/-! ## What a harvest lists -/

/-- A catalog and findings that come from some texts: the catalog answers as they do when they are
filed in order, and the findings are listed in them. -/
structure Lists (h : Harvester) (catalog : Catalog) (findings : List Finding)
    (texts : List (String × String)) : Prop where
  answers : catalog.Answers texts
  findings : ∀ f ∈ findings, ListedIn h texts f

/-- Nothing lists nothing. -/
theorem lists_nil (h : Harvester) : Lists h .empty [] [] where
  answers := Catalog.answers_empty
  findings := by
    intro f hmem
    cases hmem

/-- Catalogs and findings one after the other. -/
theorem Lists.append {h : Harvester} {c d : Catalog} {fs gs : List Finding}
    {ts us : List (String × String)} (hfirst : Lists h c fs ts) (hsecond : Lists h d gs us) :
    Lists h (c.merge d) (fs ++ gs) (ts ++ us) where
  answers := hfirst.answers.merge hsecond.answers
  findings := by
    intro f hmem
    rcases List.mem_append.mp hmem with hmem | hmem
    · exact (hfirst.findings f hmem).of_subset (List.subset_append_left _ _)
    · exact (hsecond.findings f hmem).of_subset (List.subset_append_right _ _)

/-- Actions that are accounted for list their entries. -/
theorem lists_actions {h : Harvester} {actions : List Action}
    (haccounted : Accounted h actions) :
    Lists h (.ofList (entries actions)) (records actions) (entries actions) where
  answers := Catalog.answers_ofList _
  findings := fun _ hmem => listedIn_entries haccounted hmem

/-! ## Parts of a file -/

/-- A part of a file that is parsed and walked over on its own. -/
inductive Part where
  | script (code : String) (dialect : Script.Dialect)
  /-- An expression of a template, with the quote of the literals that are put into it. -/
  | expr (code : String) (quote : Quote)
  deriving DecidableEq

namespace Part

def parse : Part → Except Script.ParseError Script.Tree
  | .script code dialect => Script.parseModule code dialect
  | .expr code _ => Script.parseExpr code

/-- The site at which the walk over a part starts. -/
def site (h : Harvester) : Part → Site
  | .script code _ => { harvester := h, source := code.toList, quote := .double }
  | .expr code quote => { harvester := h, source := code.toList, quote }

/-- The actions of the walk over a part; one that does not parse has none. -/
def actions (h : Harvester) (part : Part) : List Action :=
  match part.parse with
  | .ok t => walk (part.site h) .plain t
  | .error _ => []

/-- The texts that are filed for a part, in order. -/
def texts (h : Harvester) (part : Part) : List (String × String) :=
  entries (part.actions h)

/-- The actions of a part that parses are those of a walk. -/
theorem actions_of_parse {h : Harvester} {part : Part} {t : Script.Tree}
    (hparse : part.parse = .ok t) : part.actions h = walk (part.site h) .plain t := by
  rw [actions, hparse]

/-- A part that does not parse has no texts. -/
theorem texts_of_error {h : Harvester} {part : Part} {e : Script.ParseError}
    (hparse : part.parse = .error e) : part.texts h = [] := by
  rw [texts, actions, hparse]
  rfl

/-- The walk over a part has the harvester of the file. -/
theorem site_harvester (h : Harvester) (part : Part) : (part.site h).harvester = h := by
  cases part <;> rfl

/-- The findings of a part are filed. -/
theorem accounted_actions (h : Harvester) (part : Part) : Accounted h (part.actions h) := by
  rw [actions]
  split
  · rename_i t _
    have hwalk := accounted_walk (part.site h) .plain t
    rw [site_harvester] at hwalk
    exact hwalk
  · exact accounted_nil h

end Part

/-! ## Scripts -/

namespace Harvester

/-- An import changes neither the texts nor the findings of a script. -/
theorem addImport_catalog (h : Harvester) (script : Script.Tree) (source : List Char)
    (harvest : Harvest) : (h.addImport script source harvest).harvest.catalog = harvest.catalog ∧
      (h.addImport script source harvest).harvest.findings = harvest.findings := by
  rw [addImport]
  split <;> exact ⟨rfl, rfl⟩

/-- A script that parses is harvested by one walk. -/
theorem lists_harvestScript {h : Harvester} {code : String} {dialect : Script.Dialect}
    {inject : Bool} {out : ScriptHarvest} (hok : h.harvestScript code dialect inject = .ok out) :
    Lists h out.harvest.catalog out.harvest.findings ((Part.script code dialect).texts h) := by
  rw [harvestScript] at hok
  cases hparse : Script.parseModule code dialect with
  | error e => simp [hparse, Except.map] at hok
  | ok script =>
    rw [hparse, Except.map, Except.ok.injEq] at hok
    have hpart : (Part.script code dialect).parse = .ok script := hparse
    have hwalk := lists_actions ((Part.script code dialect).accounted_actions h)
    rw [Part.texts]
    rw [Part.actions_of_parse hpart] at hwalk ⊢
    subst hok
    dsimp only
    split
    · -- the import that is added brings no text
      obtain ⟨hcatalog, hfindings⟩ := h.addImport_catalog script code.toList (Harvest.ofActions
        (walk { harvester := h, source := code.toList, quote := .double } .plain script))
      rw [hcatalog, hfindings]
      exact hwalk
    · exact hwalk

/-- A script is not harvested because it does not parse. -/
theorem parse_of_harvestScript_error {h : Harvester} {code : String} {dialect : Script.Dialect}
    {inject : Bool} {e : Script.ParseError}
    (herror : h.harvestScript code dialect inject = .error e) :
    (Part.script code dialect).parse = .error e := by
  rw [harvestScript] at herror
  rw [Part.parse]
  cases hparse : Script.parseModule code dialect with
  | error e' =>
    rw [hparse, Except.map, Except.error.injEq] at herror
    rw [herror]
  | ok script => simp [hparse, Except.map] at herror

end Harvester

/-! ## Templates -/

namespace Component

/-- The expression in which the texts of a node of a template are looked for. -/
def part? (h : Harvester) : Node → Option Part
  | .text text _ =>
    let display := Text.decodeEntities (Text.collapse text)
    if h.options.extractFromText && h.accepts display && (Text.trimmedSpan? text).isSome then
      some (.expr (Text.quoted display .single) .single)
    else none
  | .interpolation expr _ _ =>
    if onOneLine expr == "" then none else some (.expr (onOneLine expr) .single)
  | .attribute attr => attr.value.bind fun value =>
    match Directive.ofName? attr.name with
    | some d =>
      if isSkipped d || Text.trim value.text == "" then none
      else
        some (.expr (Text.trim value.text) (if value.quote == some '\x27' then .double else .single))
    | none =>
      if h.options.extractFromText && h.accepts (Text.trim value.text) then
        some (.expr (Text.quoted (Text.trim value.text) .single) .single)
      else none

/-- The actions for a node of a template are those for its expression. -/
theorem harvestNode_cases (h : Harvester) (node : Node) :
    (part? h node = none ∧ harvestNode h node = []) ∨
      ∃ code quote surface edit, part? h node = some (.expr code quote) ∧
        harvestNode h node = withEdit (harvestExpr h code quote surface) edit := by
  rcases node with ⟨text, span⟩ | ⟨expr, span, exprSpan⟩ | ⟨attr⟩
  · -- texts
    simp only [part?, harvestNode, harvestText]
    cases hspan : Text.trimmedSpan? text with
    | none => simp
    | some inner =>
      by_cases htaken : (h.options.extractFromText &&
          h.accepts (Text.decodeEntities (Text.collapse text))) = true
      · simp only [htaken, Option.isSome_some, Bool.and_self, if_true]
        exact Or.inr ⟨_, _, _, _, rfl, rfl⟩
      · simp [htaken]
  · -- interpolations
    simp only [part?, harvestNode, harvestInterpolation]
    split
    · exact Or.inl ⟨rfl, rfl⟩
    · exact Or.inr ⟨_, _, _, _, rfl, rfl⟩
  · -- attributes, which are directives or plain
    simp only [part?, harvestNode]
    cases attr.value with
    | none => exact Or.inl ⟨rfl, rfl⟩
    | some value =>
      dsimp only [Option.bind_some]
      cases hname : Directive.ofName? attr.name with
      | some d =>
        simp only [harvestDirective]
        by_cases hskip : (isSkipped d || Text.trim value.text == "") = true
        · exact Or.inl ⟨if_pos hskip, if_pos hskip⟩
        · exact Or.inr ⟨_, _, _, _, if_neg hskip, if_neg hskip⟩
      | none =>
        simp only [harvestPlainAttribute]
        by_cases htaken : (h.options.extractFromText && h.accepts (Text.trim value.text)) = true
        · exact Or.inr ⟨_, _, _, _, if_pos htaken, if_pos htaken⟩
        · exact Or.inl ⟨if_neg htaken, if_neg htaken⟩

/-- The edit of a node files nothing. -/
theorem entries_withEdit (result : List Action × Option String) (edit : String → Edit) :
    entries (withEdit result edit) = entries result.1 := by
  obtain ⟨actions, _ | code⟩ := result
  · rfl
  · rw [withEdit, entries_append]
    exact List.append_nil _

/-- Nor does it record anything. -/
theorem mem_records_withEdit {result : List Action × Option String} {edit : String → Edit}
    {f : Finding} : f ∈ records (withEdit result edit) ↔ f ∈ records result.1 := by
  rw [mem_records, mem_records]
  obtain ⟨actions, _ | code⟩ := result
  · rfl
  · simp [withEdit]

/-- An expression of a template is harvested by one walk. -/
theorem harvestExpr_eq (h : Harvester) (code : String) (quote : Quote) (surface : Surface) :
    entries (harvestExpr h code quote surface).1 =
        (Catalog.ofList ((Part.expr code quote).texts h)).entries ∧
      ∀ f ∈ records (harvestExpr h code quote surface).1,
        ∃ g ∈ records ((Part.expr code quote).actions h), f = relabel surface g := by
  delta harvestExpr
  rw [Harvester.harvestExpr, Part.texts, Part.actions, Part.parse]
  cases Script.parseExpr code with
  | error e =>
    refine ⟨rfl, ?_⟩
    intro f hf
    cases hf
  | ok e =>
    -- without edits the findings are dropped, the entries are not
    dsimp only [Except.map]
    split
    · refine ⟨entries_map_file _, ?_⟩
      intro f hf
      simp [mem_records] at hf
    · refine ⟨?_, ?_⟩
      · rw [entries_append, entries_map_file, entries_map_record, List.append_nil]
        rfl
      · intro f hf
        simp only [mem_records, List.mem_append, List.mem_map, reduceCtorEq, and_false,
          exists_false, false_or, Action.record.injEq] at hf
        obtain ⟨g, hg, rfl⟩ := hf
        exact ⟨g, hg, rfl⟩

/-- Another surface leaves the text of a finding alone. -/
theorem relabel_text (surface : Surface) (f : Finding) : (relabel surface f).text = f.text := by
  rw [relabel]
  split <;> rfl

/-- And whether it is dynamic. -/
theorem relabel_dynamic (surface : Surface) (f : Finding) :
    (relabel surface f).dynamic = f.dynamic := by
  rw [relabel]
  split <;> rfl

/-- The texts that are filed for a node of a template, in order. -/
def nodeTexts (h : Harvester) (node : Node) : List (String × String) :=
  (part? h node).elim [] (Part.texts h)

/-- A node of a template files what its expression comes to. -/
theorem entries_harvestNode (h : Harvester) (node : Node) :
    entries (harvestNode h node) = (Catalog.ofList (nodeTexts h node)).entries := by
  rw [nodeTexts]
  rcases harvestNode_cases h node with ⟨hnone, hnode⟩ | ⟨code, quote, surface, edit, hsome, hnode⟩
  · rw [hnone, hnode]
    rfl
  · rw [hsome, hnode, entries_withEdit, (harvestExpr_eq h code quote surface).1]
    rfl

/-- The findings of a node are listed in its texts. -/
theorem listedIn_nodeTexts {h : Harvester} {node : Node} {f : Finding}
    (hmem : f ∈ records (harvestNode h node)) : ListedIn h (nodeTexts h node) f := by
  rw [nodeTexts]
  rcases harvestNode_cases h node with ⟨-, hnode⟩ | ⟨code, quote, surface, edit, hsome, hnode⟩
  · rw [hnode] at hmem
    cases hmem
  · rw [hnode, mem_records_withEdit] at hmem
    obtain ⟨g, hg, rfl⟩ := (harvestExpr_eq h code quote surface).2 f hmem
    rw [hsome, ListedIn, relabel_dynamic, relabel_text]
    exact listedIn_entries (Part.accounted_actions h _) hg

/-- The expressions of a template. -/
def templateParts (h : Harvester) (template : Block) : List Part :=
  if isPlainTemplate template then
    (nodes template.content template.offset).filterMap (part? h)
  else []

/-- The texts of some nodes are those of their expressions. -/
theorem flatMap_nodeTexts (h : Harvester) (ns : List Node) :
    ns.flatMap (nodeTexts h) = (ns.filterMap (part? h)).flatMap (Part.texts h) := by
  induction ns with
  | nil => rfl
  | cons node ns ih =>
    rw [List.flatMap_cons, ih, nodeTexts]
    cases hpart : part? h node with
    | none => rw [List.filterMap_cons_none hpart, Option.elim_none, List.nil_append]
    | some part => rw [List.filterMap_cons_some hpart, List.flatMap_cons, Option.elim_some]

/-- A template lists the texts of its expressions. -/
theorem lists_harvestTemplate (h : Harvester) (template : Block) :
    Lists h (harvestTemplate h template).catalog (harvestTemplate h template).findings
      ((templateParts h template).flatMap (Part.texts h)) := by
  rw [harvestTemplate, templateParts]
  split
  · rw [← flatMap_nodeTexts]
    refine ⟨?_, ?_⟩
    · rw [Harvest.ofActions, entries_flatMap]
      simp only [entries_harvestNode]
      exact Catalog.answers_ofList_flatMap (nodeTexts h) _
    · intro f hmem
      obtain ⟨node, hnode, hrecord⟩ := List.mem_flatMap.mp (mem_records.mp hmem)
      -- what one node lists, all nodes list
      refine (listedIn_nodeTexts (mem_records.mpr hrecord)).of_subset ?_
      intro e he
      exact List.mem_flatMap.mpr ⟨node, hnode, he⟩
  · exact lists_nil h

/-! ## Components -/

/-- A script of a component. -/
def scriptPart (block : Block) : Part :=
  .script block.content (.ofName block.lang)

/-- One script after the other. -/
theorem harvestScripts_cons (h : Harvester) (source file : String) (block : Block)
    (rest : List Block) (injected : Bool) (out : ComponentHarvest) :
    harvestScripts h source file (block :: rest) injected out =
      match h.harvestScript block.content (.ofName block.lang) !injected with
      | .ok script =>
        harvestScripts h source file rest (injected || !script.harvest.catalog.isEmpty)
          { harvest := out.harvest.absorb script.harvest block.offset
            issues := out.issues ++ script.issues file }
      | .error e =>
        harvestScripts h source file rest injected
          { out with
            issues := out.issues ++
              [.ofParseError file source (some (block.offset + e.offset)) e.message] } := by
  rfl

/-- Scripts list their texts behind those of earlier ones. -/
theorem lists_harvestScripts {h : Harvester} {source file : String} {scripts : List Block}
    {injected : Bool} {out : ComponentHarvest} {texts : List (String × String)}
    (hout : Lists h out.harvest.catalog out.harvest.findings texts) :
    Lists h (harvestScripts h source file scripts injected out).harvest.catalog
      (harvestScripts h source file scripts injected out).harvest.findings
      (texts ++ (scripts.map scriptPart).flatMap (Part.texts h)) := by
  induction scripts generalizing injected out texts with
  | nil =>
    rw [List.map_nil, List.flatMap_nil, List.append_nil]
    exact hout
  | cons block scripts ih =>
    rw [harvestScripts_cons, List.map_cons, List.flatMap_cons, ← List.append_assoc]
    split
    · rename_i script hok
      exact ih (hout.append (Harvester.lists_harvestScript hok))
    · -- a script that cannot be parsed has no texts, and the others go on
      rename_i e herror
      rw [scriptPart, Part.texts_of_error (Harvester.parse_of_harvestScript_error herror),
        List.append_nil]
      exact ih hout

/-- The parts of a component: its scripts, those of setup first, and the expressions of its
template. -/
def parts (h : Harvester) (source : String) : List Part :=
  match split source with
  | .ok blocks =>
    (blocks.scripts.filter (·.setup) ++ blocks.scripts.filter (!·.setup)).map scriptPart ++
      blocks.template.elim [] (templateParts h)
  | .error _ => []

end Component

/-! ## Files -/

namespace Harvester

/-- The parts of the file at a path. -/
def parts (h : Harvester) (code path : String) : List Part :=
  if isComponentPath path then Component.parts h code
  else [.script code (.ofName (Path.extension? path))]

/-- The texts that are filed for the file at a path, in order. -/
def fileTexts (h : Harvester) (code path : String) : List (String × String) :=
  (h.parts code path).flatMap (Part.texts h)

/-- A component lists the texts of its scripts and then those of its template. -/
theorem lists_harvestComponent {h : Harvester} {source file : String} {out : ComponentHarvest}
    (hok : h.harvestComponent source file = .ok out) :
    Lists h out.harvest.catalog out.harvest.findings
      ((Component.parts h source).flatMap (Part.texts h)) := by
  rw [harvestComponent] at hok
  rw [Component.parts]
  cases hsplit : Component.split source with
  | error e => simp [hsplit, Except.map] at hok
  | ok blocks =>
    rw [hsplit, Except.map, Except.ok.injEq] at hok
    subst hok
    -- the scripts come before the template
    have hscripts (scripts : List Component.Block) :
        Lists h (Component.harvestScripts h source file scripts false {}).harvest.catalog
          (Component.harvestScripts h source file scripts false {}).harvest.findings
          ([] ++ (scripts.map Component.scriptPart).flatMap (Part.texts h)) :=
      Component.lists_harvestScripts (lists_nil h)
    dsimp only
    rw [List.flatMap_append]
    cases blocks.template with
    | none =>
      rw [Option.elim_none, List.flatMap_nil, List.append_nil]
      exact hscripts _
    | some template => exact (hscripts _).append (Component.lists_harvestTemplate h template)

/-- A component that is not split has no parts. -/
theorem parts_of_harvestComponent_error {h : Harvester} {source file : String}
    {e : Component.BlockError} (herror : h.harvestComponent source file = .error e) :
    Component.parts h source = [] := by
  rw [harvestComponent] at herror
  cases hsplit : Component.split source with
  | error e => rw [Component.parts, hsplit]
  | ok blocks => simp [hsplit, Except.map] at herror

/-- The harvest of a file comes to the texts that are filed for it. -/
theorem lists_harvestFile (h : Harvester) (code path : String) :
    Lists h (h.harvestFile code path).catalog (h.harvestFile code path).findings
      (h.fileTexts code path) := by
  rw [harvestFile, fileTexts, parts]
  split
  · -- a component is all or nothing: without an outcome it has no parts
    cases hout : h.harvestComponent code path with
    | ok out => exact lists_harvestComponent hout
    | error e =>
      rw [parts_of_harvestComponent_error hout]
      exact lists_nil h
  · rw [List.flatMap_singleton]
    cases hout : h.harvestScript code (.ofName (Path.extension? path)) true with
    | ok script => exact lists_harvestScript hout
    | error e =>
      rw [Part.texts_of_error (parse_of_harvestScript_error hout)]
      exact lists_nil h

end Harvester

end TextHarvest
