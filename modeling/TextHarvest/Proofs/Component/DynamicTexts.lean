import TextHarvest.Proofs.Component.Layout
import TextHarvest.Proofs.Except
import TextHarvest.Proofs.Harvest.Texts
import TextHarvest.Proofs.Script.Quoted

/-!
# Dynamic texts of components

A lookup of a template with substitutions cannot be filed; it is recorded as a dynamic text, so
that a harvest can be told how many there are. A script records all of its dynamic texts. An
expression of a template records its own only when it has an edit as well: what stands next to a
dynamic text decides whether the text is counted.

Main results:

* `lookup_of_dynamic` — where dynamic texts come from.
* `Harvester.countsDynamic_iff` — which dynamic texts a component records, and when these are all.
-/

namespace TextHarvest

open Harvest

/-- The dynamic ones among some findings. -/
def dynamics (fs : List Finding) : List Finding :=
  fs.filter (·.dynamic)

/-- The dynamic findings are those marked as such. -/
theorem mem_dynamics {fs : List Finding} {f : Finding} :
    f ∈ dynamics fs ↔ f ∈ fs ∧ f.dynamic = true :=
  List.mem_filter

/-- Findings one after the other. -/
theorem dynamics_append (fs gs : List Finding) : dynamics (fs ++ gs) = dynamics fs ++ dynamics gs :=
  List.filter_append fs gs

/-! ## Where dynamic texts come from -/

namespace Harvest

/-- Only an argument of the lookup function is recorded as dynamic. -/
def OnlyLookups (actions : List Action) : Prop :=
  ∀ f : Finding, .record f ∈ actions → f.dynamic = true → f.surface = .lookupArgument

/-- Where nothing is done nothing is recorded. -/
theorem onlyLookups_nil : OnlyLookups [] := by
  intro f hmem
  cases hmem

/-- Actions one after the other. -/
theorem onlyLookups_append {as bs : List Action} (has : OnlyLookups as) (hbs : OnlyLookups bs) :
    OnlyLookups (as ++ bs) := by
  intro f hmem hdynamic
  rcases List.mem_append.mp hmem with hmem | hmem
  · exact has f hmem hdynamic
  · exact hbs f hmem hdynamic

/-- No text that is taken is recorded as dynamic. -/
def Static (actions : List Action) : Prop :=
  ∀ f : Finding, .record f ∈ actions → f.dynamic = false

/-- Without dynamic findings there is nothing to show. -/
theorem Static.onlyLookups {as : List Action} (h : Static as) : OnlyLookups as := by
  intro f hmem hdynamic
  rw [h f hmem] at hdynamic
  cases hdynamic

/-- Where nothing is done nothing is dynamic. -/
theorem static_nil : Static [] := by
  intro f hmem
  cases hmem

variable {site : Site}

/-- Filing a text records it as it is, and the edit behind it records nothing. -/
theorem static_file_append (text : String) (surface : Surface) {as : List Action}
    (hnone : ∀ f : Finding, .record f ∉ as) : Static (site.file text surface ++ as) := by
  intro f hmem
  simp only [Site.file, List.mem_append, List.mem_cons, List.not_mem_nil, or_false, reduceCtorEq,
    false_or, Action.record.injEq, hnone f] at hmem
  rw [hmem]

/-- The finding of a literal is static. -/
theorem static_literal (span : Span) (value : Option String) (slot : Slot) :
    Static (site.literal span value slot) := by
  rw [Site.literal.eq_def]
  split
  · split
    · exact static_file_append _ _ (by simp [Action.replace])
    · exact static_nil
  · exact static_nil

/-- The finding of a constant argument is static. -/
theorem static_constantArgument (span : Span) (value : Option String) (count : Nat) :
    Static (site.constantArgument span value count) := by
  rw [Site.constantArgument]
  split
  · exact static_nil
  · split
    · exact static_nil
    · split
      · -- a known key is filed again and not recorded
        intro f hmem
        simp at hmem
      · split
        · exact static_file_append _ _ (by simp [Action.replace])
        · exact static_nil

/-- The findings of a template are static. -/
theorem static_chunks (cs : List Script.Chunk) : Static (site.chunks cs) := by
  have hchunk : ∀ c, Static (site.chunk c) := by
    intro c
    rw [Site.chunk]
    split
    · exact static_nil
    · dsimp only
      split
      · split
        · exact static_file_append _ _ (by simp [Action.replace])
        · exact static_nil
      · exact static_nil
  rw [Site.chunks]
  split
  · intro f hmem
    obtain ⟨c, -, hmem⟩ := List.mem_flatMap.mp hmem
    exact hchunk c f hmem
  · exact static_nil

/-- The finding of the text of an element is static. -/
theorem static_elementText (span : Span) : Static (site.elementText span) := by
  rw [Site.elementText]
  split
  · split
    · exact static_nil
    · dsimp only
      split
      · split
        · refine static_file_append _ _ ?_
          split <;> simp [Action.replace]
        · exact static_nil
      · exact static_nil
  · exact static_nil

/-- The finding of a message is static. -/
theorem static_wrapperElement (nameEnd : Nat) (attributes : List Script.Tree) :
    Static (site.wrapperElement nameEnd attributes) := by
  -- a wrapper without a message does nothing at all
  by_cases hsome : ∃ message span,
      Site.lastAttribute "msg" attributes = some (message, span) ∧ Text.trim message ≠ ""
  · obtain ⟨message, span, hmessage, hne⟩ := hsome
    -- taking an attribute away is an edit, never a finding
    have hremoval : ∀ f : Finding, .record f ∉ removal site span := by
      intro f hmem
      obtain ⟨e, heq⟩ := eq_edit_of_mem_removal hmem
      cases heq
    rw [wrapperElement_of_message hmessage hne]
    intro f hmem
    split at hmem
    · simp [hremoval f] at hmem
    · simp only [Action.insert, List.mem_append, List.mem_cons, List.not_mem_nil, or_false,
        reduceCtorEq, Action.record.injEq, hremoval f] at hmem
      rw [hmem]
  · rw [wrapperElement_of_no_message]
    · exact static_nil
    · intro message span hmessage
      exact Classical.byContradiction fun hne => hsome ⟨message, span, hmessage, hne⟩

/-- A dynamic argument of the lookup function is recorded as one. -/
theorem onlyLookups_dynamicArgument (span : Span) : OnlyLookups (site.dynamicArgument span) := by
  intro f hmem _
  rw [Site.dynamicArgument, List.mem_singleton, Action.record.injEq] at hmem
  rw [hmem]

/-- On entering a node only arguments of the lookup function are dynamic. -/
theorem onlyLookups_enter (role : Role) (kind : Script.Kind) (span : Span)
    (children : List Script.Tree) : OnlyLookups (enter site role kind span children) := by
  have hentered := entered_enter site role kind span children
  generalize enter site role kind span children = actions at hentered ⊢
  cases hentered with
  | lookup => exact (static_constantArgument _ _ _).onlyLookups
  | dynamic => exact onlyLookups_dynamicArgument _
  | literal _ => exact (static_literal _ _ _).onlyLookups
  | markup => exact (static_literal _ _ _).onlyLookups
  | text => exact (static_elementText _).onlyLookups
  | wrapper => exact (static_wrapperElement _ _).onlyLookups
  | nothing => exact onlyLookups_nil

/-- On leaving a node nothing is dynamic. -/
theorem onlyLookups_leave (role : Role) (kind : Script.Kind) (children : List Script.Tree) :
    OnlyLookups (leave site role kind children) := by
  intro f hmem hdynamic
  rcases mem_leave_iff.mp hmem with ⟨callee, args, -, -, hmem⟩ | ⟨chunks, -, -, hmem⟩
  · obtain ⟨e, heq⟩ := eq_edit_of_mem_marks hmem
    cases heq
  · exact (static_chunks chunks).onlyLookups f hmem hdynamic

end Harvest

namespace Part

variable {h : Harvester}

/-- The dynamic texts that a harvest of a part reports. -/
def dynamics (h : Harvester) (part : Part) : List Finding :=
  TextHarvest.dynamics (records (part.actions h))

/-- A dynamic text of a part is an argument of the lookup function. -/
theorem lookup_of_dynamic {part : Part} {f : Finding} (hmem : f ∈ part.dynamics h) :
    f.surface = .lookupArgument := by
  obtain ⟨hmem, hdynamic⟩ := mem_dynamics.mp hmem
  rw [mem_records, actions] at hmem
  split at hmem
  · rename_i t _
    refine walk_induction onlyLookups_nil (fun _ _ => onlyLookups_append) ?_ ?_ (part.site h) .plain
      t (Site.SameGround.refl _) f hmem hdynamic
    · exact fun _ _ _ _ _ _ => onlyLookups_enter _ _ _ _
    · exact fun _ _ _ _ _ => onlyLookups_leave _ _ _
  · cases hmem

/-- A part that does not parse has no findings. -/
theorem dynamics_of_error {part : Part} {e : Script.ParseError} (hparse : part.parse = .error e) :
    part.dynamics h = [] := by
  rw [dynamics, actions, hparse]
  rfl

/-- A generated literal is an expression without dynamic texts. -/
theorem dynamics_quoted (text : String) (q quote : Quote) :
    (Part.expr (Text.quoted text q) quote).dynamics h = [] := by
  have hparse : (Part.expr (Text.quoted text q) quote).parse = .ok (.leaf (.strLit (some text))
      ⟨0, Chars.size (Text.quoted text q).toList⟩) := Script.parseExpr_quoted text q
  rw [dynamics, TextHarvest.dynamics, List.filter_eq_nil_iff]
  intro f hmem
  rw [mem_records, actions_of_parse hparse, Script.Tree.leaf, Role.plain, walk] at hmem
  simp only [enter, visits, walkAll, leave, List.append_nil] at hmem
  rw [static_literal _ _ _ f hmem]
  exact Bool.false_ne_true

/-- The dynamic texts of an expression of a template that are recorded: all of them when the
expression has an edit, and none otherwise. -/
def recorded (h : Harvester) (part : Part) : List Finding :=
  if (edits (part.actions h)).isEmpty then [] else part.dynamics h

end Part

/-! ## What is recorded -/

namespace Component

variable {h : Harvester}

/-- The finding of an argument keeps its surface. -/
theorem relabel_of_lookup {surface : Surface} {f : Finding} (hf : f.surface = .lookupArgument) :
    relabel surface f = f := by
  rw [relabel, hf]
  rfl

/-- Dynamic findings keep their surfaces. -/
theorem dynamics_map_relabel {surface : Surface} {fs : List Finding}
    (hfs : ∀ f ∈ TextHarvest.dynamics fs, f.surface = .lookupArgument) :
    TextHarvest.dynamics (fs.map (relabel surface)) = TextHarvest.dynamics fs := by
  have hsame : (fun f : Finding => f.dynamic) ∘ relabel surface = fun f => f.dynamic :=
    funext (relabel_dynamic surface)
  rw [TextHarvest.dynamics, TextHarvest.dynamics, List.filter_map, hsame]
  refine (List.map_congr_left fun f hf => ?_).trans (List.map_id _)
  exact relabel_of_lookup (hfs f hf)

/-- Findings of actions one after the other. -/
theorem records_append (as bs : List Action) : records (as ++ bs) = records as ++ records bs :=
  List.filterMap_append

/-- Filing records nothing. -/
theorem records_map_file (es : List (String × String)) :
    records (es.map fun e => Action.file e.1 e.2) = [] := by
  rw [records, List.filterMap_map, List.filterMap_eq_nil_iff]
  intro e _
  rfl

/-- What is recorded are the findings. -/
theorem records_map_record (fs : List Finding) : records (fs.map Action.record) = fs := by
  rw [records, List.filterMap_map]
  exact List.filterMap_some

/-- The edit of a node is no finding. -/
theorem records_withEdit (result : List Action × Option String) (edit : String → Edit) :
    records (withEdit result edit) = records result.1 := by
  obtain ⟨actions, _ | code⟩ := result
  · rfl
  · rw [withEdit, records_append]
    exact List.append_nil _

/-- An expression of a template records its dynamic texts along with an edit. -/
theorem dynamics_harvestExpr (code : String) (quote : Quote) (surface : Surface) :
    TextHarvest.dynamics (records (harvestExpr h code quote surface).1) =
      (Part.expr code quote).recorded h := by
  delta harvestExpr
  rw [Harvester.harvestExpr, Part.recorded]
  cases hparse : Script.parseExpr code with
  | error e =>
    have hpart : (Part.expr code quote).parse = .error e := hparse
    rw [Part.dynamics_of_error hpart, ite_self]
    rfl
  | ok e =>
    have hactions : (Part.expr code quote).actions h =
        walk { harvester := h, source := code.toList, quote } .plain e :=
      Part.actions_of_parse hparse
    dsimp only [Except.map]
    rw [← hactions]
    -- an expression that is not changed records nothing
    split
    · rename_i hempty
      have hnone : (edits ((Part.expr code quote).actions h)).isEmpty = true := hempty
      rw [if_pos hnone, records_map_file]
      rfl
    · rename_i hempty
      have hsome : ¬(edits ((Part.expr code quote).actions h)).isEmpty = true := hempty
      have hrecord : (fun f => Action.record (relabel surface f)) =
          Action.record ∘ relabel surface := rfl
      rw [if_neg hsome, records_append, records_map_file, List.nil_append, hrecord,
        ← List.map_map, records_map_record]
      exact dynamics_map_relabel fun f hf => Part.lookup_of_dynamic hf

/-- The expression that a node of a template holds as it is written: that of an interpolation or of
a directive. Texts and plain attributes hold none. -/
def authored? (h : Harvester) : Node → Option Part
  | .text _ _ => none
  | .interpolation expr span exprSpan => part? h (.interpolation expr span exprSpan)
  | .attribute attr =>
    if (Directive.ofName? attr.name).isSome then part? h (.attribute attr) else none

/-- What else is looked for in a node is a generated literal, which reports no dynamic text. -/
theorem authored?_cases (node : Node) : authored? h node = part? h node ∨
    authored? h node = none ∧ ∀ part, part? h node = some part → part.dynamics h = [] := by
  rcases node with ⟨text, span⟩ | ⟨expr, span, exprSpan⟩ | ⟨attr⟩
  · -- texts
    refine Or.inr ⟨rfl, ?_⟩
    intro part hpart
    simp only [part?, Option.ite_none_right_eq_some, Option.some.injEq] at hpart
    rw [← hpart.2]
    exact Part.dynamics_quoted _ _ _
  · exact Or.inl rfl
  · -- attributes, which are directives or plain
    cases hname : Directive.ofName? attr.name with
    | some d => exact Or.inl (if_pos (by rw [hname]; rfl))
    | none =>
      refine Or.inr ⟨if_neg (by simp [hname]), ?_⟩
      intro part hpart
      obtain ⟨value, -, hpart⟩ := Option.bind_eq_some_iff.mp hpart
      simp only [hname, Option.ite_none_right_eq_some, Option.some.injEq] at hpart
      rw [← hpart.2]
      exact Part.dynamics_quoted _ _ _

/-- What is recorded of a part was found in it. -/
theorem recorded_subset (part : Part) : part.recorded h ⊆ part.dynamics h := by
  rw [Part.recorded]
  split
  · exact List.nil_subset _
  · exact List.Subset.refl _

/-- A node of a template records the dynamic texts that its expression records. -/
theorem dynamics_harvestNode (node : Node) : TextHarvest.dynamics (records (harvestNode h node)) =
    (authored? h node).elim [] (Part.recorded h) := by
  rcases harvestNode_cases h node with ⟨hnone, hnode⟩ | ⟨code, quote, surface, edit, hsome, hnode⟩
  · have hauthored : authored? h node = none := by
      rcases authored?_cases (h := h) node with heq | ⟨heq, -⟩
      · rw [heq, hnone]
      · exact heq
    rw [hnode, hauthored]
    rfl
  · rw [hnode, records_withEdit, dynamics_harvestExpr]
    rcases authored?_cases (h := h) node with heq | ⟨heq, hliteral⟩
    · rw [heq, hsome]
      rfl
    · -- a literal that is handled as authored has no dynamic part, so it counts nothing twice
      have hnil := recorded_subset (h := h) (Part.expr code quote)
      rw [hliteral _ hsome] at hnil
      rw [heq, List.subset_nil.mp hnil]
      rfl

/-- The expressions that are written in a template. -/
def templateExpressions (h : Harvester) (template : Block) : List Part :=
  if isPlainTemplate template then
    (nodes template.content template.offset).filterMap (authored? h)
  else []

/-- The dynamic findings of a template are those recorded of its expressions. -/
theorem dynamics_harvestTemplate (template : Block) :
    TextHarvest.dynamics (harvestTemplate h template).findings =
      (templateExpressions h template).flatMap (Part.recorded h) := by
  rw [harvestTemplate, templateExpressions]
  split
  · have hnode : ∀ node, TextHarvest.dynamics (records (harvestNode h node)) =
        (authored? h node).toList.flatMap (Part.recorded h) := by
      intro node
      rw [dynamics_harvestNode]
      cases authored? h node with
      | none => rfl
      | some part =>
        rw [Option.elim_some, Option.toList_some, List.flatMap_singleton]
    -- what is found in the template is what is found at its nodes
    have hrecords : ∀ ns : List Node, TextHarvest.dynamics (ofActions
        (ns.flatMap (harvestNode h))).findings =
          ns.flatMap fun node => TextHarvest.dynamics (records (harvestNode h node)) := by
      intro ns
      rw [ofActions, records, List.filterMap_flatMap, TextHarvest.dynamics, List.filter_flatMap]
      rfl
    rw [hrecords, List.filterMap_eq_flatMap_toList, List.flatMap_assoc]
    simp only [hnode]
  · rfl

/-- The scripts of a component, in the order in which they are harvested. -/
def scriptParts (blocks : Blocks) : List Part :=
  (blocks.scripts.filter (·.setup) ++ blocks.scripts.filter (!·.setup)).map scriptPart

/-- The dynamic findings of a script are those of its walk. -/
theorem dynamics_harvestScript {code : String} {dialect : Script.Dialect} {inject : Bool}
    {out : ScriptHarvest} (hok : h.harvestScript code dialect inject = .ok out) :
    TextHarvest.dynamics out.harvest.findings = (Part.script code dialect).dynamics h := by
  rw [Harvester.harvestScript] at hok
  cases hparse : Script.parseModule code dialect with
  | error e => simp [hparse, Except.map] at hok
  | ok script =>
    rw [hparse, Except.map, Except.ok.injEq] at hok
    have hpart : (Part.script code dialect).parse = .ok script := hparse
    rw [Part.dynamics, Part.actions_of_parse hpart, ← hok]
    dsimp only
    split
    · rw [(h.addImport_catalog script _ _).2]
      rfl
    · rfl

/-- Scripts record all their dynamic texts. -/
theorem dynamics_harvestScripts (h : Harvester) (source file : String) (scripts : List Block)
    (injected : Bool) (out : ComponentHarvest) :
    TextHarvest.dynamics (harvestScripts h source file scripts injected out).harvest.findings =
      TextHarvest.dynamics out.harvest.findings ++
        (scripts.map scriptPart).flatMap (Part.dynamics h) := by
  induction scripts generalizing injected out with
  | nil => exact (List.append_nil _).symm
  | cons block scripts ih =>
    rw [harvestScripts_cons, List.map_cons, List.flatMap_cons, ← List.append_assoc]
    split
    · rename_i script hok
      rw [ih, Harvest.absorb, dynamics_append, dynamics_harvestScript hok]
      rfl
    · -- a script that cannot be parsed counts nothing
      rename_i e herror
      rw [ih, scriptPart, Part.dynamics_of_error (Harvester.parse_of_harvestScript_error herror),
        List.append_nil]

/-- The expressions that are written in the template of a component. -/
def expressions (h : Harvester) (blocks : Blocks) : List Part :=
  blocks.template.elim [] (templateExpressions h)

/-- Every dynamic text that the harvest of an expression of the template reports is among some
findings. -/
def CountsDynamic (h : Harvester) (blocks : Blocks) (findings : List Finding) : Prop :=
  ∀ code quote, .expr code quote ∈ expressions h blocks →
    ∀ harvest, h.harvestExpr code quote = .ok harvest →
      ∀ f ∈ harvest.findings, f.dynamic = true → f ∈ findings

/-- What is looked for in a template is an expression. -/
theorem exists_expr_of_mem {blocks : Blocks} {part : Part} (hmem : part ∈ expressions h blocks) :
    ∃ code quote, part = .expr code quote := by
  rw [expressions] at hmem
  cases htemplate : blocks.template with
  | none =>
    rw [htemplate] at hmem
    cases hmem
  | some template =>
    rw [htemplate, Option.elim_some, templateExpressions] at hmem
    split at hmem
    · obtain ⟨node, -, hnode⟩ := List.mem_filterMap.mp hmem
      -- an authored part is still the part of its node
      have hpart : part? h node = some part := by
        rcases authored?_cases (h := h) node with heq | ⟨heq, -⟩
        · rw [← heq, hnode]
        · rw [heq] at hnode
          cases hnode
      rcases harvestNode_cases h node with ⟨hnone, -⟩ | ⟨code, quote, -, -, hsome, -⟩
      · rw [hnone] at hpart
        cases hpart
      · exact ⟨code, quote, Option.some.inj (hpart.symm.trans hsome)⟩
    · cases hmem

/-- The dynamic findings of an expression are those of its walk. -/
theorem dynamics_of_harvestExpr {code : String} {quote : Quote} {harvest : Harvest}
    (hok : h.harvestExpr code quote = .ok harvest) :
    TextHarvest.dynamics harvest.findings = (Part.expr code quote).dynamics h := by
  rw [Harvester.harvestExpr] at hok
  cases hparse : Script.parseExpr code with
  | error e => simp [hparse, Except.map] at hok
  | ok e =>
    rw [hparse, Except.map, Except.ok.injEq] at hok
    have hpart : (Part.expr code quote).parse = .ok e := hparse
    rw [Part.dynamics, Part.actions_of_parse hpart, ← hok]
    rfl

/-- Counting the dynamic units is recording the dynamic findings. -/
theorem countsDynamic_iff_dynamics {blocks : Blocks} {findings : List Finding} :
    CountsDynamic h blocks findings ↔
      ∀ part ∈ expressions h blocks, ∀ f ∈ part.dynamics h, f ∈ findings := by
  constructor
  · intro hcounts part hpart f hf
    obtain ⟨code, quote, rfl⟩ := exists_expr_of_mem hpart
    cases hok : h.harvestExpr code quote with
    | error e =>
      -- an expression that does not parse reports nothing
      have hparse : (Part.expr code quote).parse = .error e := by
        rw [Harvester.harvestExpr] at hok
        rw [Part.parse]
        cases hparse : Script.parseExpr code with
        | error e' =>
          rw [hparse, Except.map, Except.error.injEq] at hok
          rw [hok]
        | ok e' => simp [hparse, Except.map] at hok
      rw [Part.dynamics_of_error hparse] at hf
      cases hf
    | ok harvest =>
      rw [← dynamics_of_harvestExpr hok] at hf
      obtain ⟨hmem, hdynamic⟩ := mem_dynamics.mp hf
      exact hcounts code quote hpart harvest hok f hmem hdynamic
  · intro hall code quote hpart harvest hok f hmem hdynamic
    apply hall _ hpart
    rw [← dynamics_of_harvestExpr hok]
    exact mem_dynamics.mpr ⟨hmem, hdynamic⟩

/-- Of an expression something is recorded only if it has edits. -/
theorem mem_recorded {part : Part} {f : Finding} : f ∈ part.recorded h ↔
    edits (part.actions h) ≠ [] ∧ f ∈ part.dynamics h := by
  rw [Part.recorded]
  split
  · rename_i hempty
    simp [List.isEmpty_iff.mp hempty]
  · rename_i hempty
    exact ⟨fun hf => ⟨mt List.isEmpty_iff.mpr hempty, hf⟩, fun hf => hf.2⟩

/-- The dynamic texts that a component records. -/
theorem exists_dynamics_harvestComponent (h : Harvester) (file : String) {source : String}
    {blocks : Blocks} (hsplit : split source = .ok blocks) :
    ∃ out, h.harvestComponent source file = .ok out ∧
      TextHarvest.dynamics out.harvest.findings =
        (scriptParts blocks).flatMap (Part.dynamics h) ++
          (expressions h blocks).flatMap (Part.recorded h) := by
  rw [Harvester.harvestComponent, hsplit]
  refine ⟨_, rfl, ?_⟩
  -- the scripts come first, those with setup in front; then the template adds its own
  have hscripts := dynamics_harvestScripts h source file
    (blocks.scripts.filter (·.setup) ++ blocks.scripts.filter (!·.setup)) false {}
  rw [expressions, scriptParts]
  dsimp only
  cases blocks.template with
  | none =>
    rw [Option.elim_none, List.flatMap_nil, List.append_nil]
    exact hscripts
  | some template =>
    rw [Option.elim_some, ← dynamics_harvestTemplate]
    exact (dynamics_append _ _).trans (congrArg (· ++ _) hscripts)

end Component

open Component in
/-- A component records the dynamic texts of all its scripts, and those of the expressions of its
template that have an edit. So they are all counted just when those of every other expression are
recorded for a script or another expression anyway. -/
theorem Harvester.countsDynamic_iff (h : Harvester) (file : String) {source : String}
    {blocks : Blocks} (hsplit : split source = .ok blocks) :
    ∃ out, h.harvestComponent source file = .ok out ∧
      dynamics out.harvest.findings = (scriptParts blocks).flatMap (Part.dynamics h) ++
        (expressions h blocks).flatMap (Part.recorded h) ∧
      (CountsDynamic h blocks out.harvest.findings ↔
        ∀ part ∈ expressions h blocks, edits (part.actions h) = [] → ∀ f ∈ part.dynamics h,
          (∃ script ∈ scriptParts blocks, f ∈ script.dynamics h) ∨
            ∃ other ∈ expressions h blocks,
              edits (other.actions h) ≠ [] ∧ f ∈ other.dynamics h) := by
  obtain ⟨out, hout, hdynamics⟩ := exists_dynamics_harvestComponent h file hsplit
  refine ⟨out, hout, hdynamics, ?_⟩
  -- a dynamic text is recorded for a script or for an expression with an edit
  have hmem : ∀ f, f.dynamic = true → (f ∈ out.harvest.findings ↔
      (∃ script ∈ scriptParts blocks, f ∈ script.dynamics h) ∨
        ∃ other ∈ expressions h blocks,
          edits (other.actions h) ≠ [] ∧ f ∈ other.dynamics h) := by
    intro f hdynamic
    have hfinding : f ∈ out.harvest.findings ↔ f ∈ dynamics out.harvest.findings := by
      simp [mem_dynamics, hdynamic]
    rw [hfinding, hdynamics, List.mem_append, List.mem_flatMap, List.mem_flatMap]
    simp only [mem_recorded]
  rw [countsDynamic_iff_dynamics]
  constructor
  · intro hall part hpart _ f hf
    exact (hmem f (mem_dynamics.mp hf).2).mp (hall part hpart f hf)
  · intro hothers part hpart f hf
    rw [hmem f (mem_dynamics.mp hf).2]
    by_cases hedits : edits (part.actions h) = []
    · exact hothers part hpart hedits f hf
    · exact Or.inr ⟨part, hpart, hedits, hf⟩

/-- A component with a dynamic text next to a text that is taken. -/
def besideText : String :=
  "<template><p>\x7b\x7b $t(\x60你好$\x7bx\x7d\x60) + '再见' \x7d\x7d</p></template>"

open Component in
/-- Next to a text that is taken a dynamic text is counted. -/
theorem Harvester.countsDynamic_beside_text : ∃ h blocks out,
    Harvester.ofOptions { replaceTexts := true } = .ok h ∧
    split besideText = .ok blocks ∧
    h.harvestComponent besideText "App.vue" = .ok out ∧
    dynamics out.harvest.findings = [⟨"\x60你好$\x7bx\x7d\x60", .lookupArgument, true⟩] ∧
    CountsDynamic h blocks out.harvest.findings := by
  have hview : (Harvester.ofOptions { replaceTexts := true }).toOption.map (fun h =>
      ((h.harvestComponent besideText "App.vue").toOption.map fun out =>
          dynamics out.harvest.findings,
        (split besideText).toOption.map fun blocks =>
          (expressions h blocks).all fun e => !(edits (e.actions h)).isEmpty)) =
      some (some [⟨"\x60你好$\x7bx\x7d\x60", .lookupArgument, true⟩], some true) := by
    rewrite [show besideText = String.ofList _ from rfl]
    simp only [Harvester.harvestComponent, split_ofList]
    decide +kernel
  obtain ⟨h, hh, hview⟩ := exists_ok_of_toOption_map hview
  obtain ⟨hfindings, hedited⟩ := Prod.mk.inj hview
  obtain ⟨blocks, hblocks, hedited⟩ := exists_ok_of_toOption_map hedited
  obtain ⟨out, hout, hfindings⟩ := exists_ok_of_toOption_map hfindings
  obtain ⟨out', hout', -, hiff⟩ := h.countsDynamic_iff "App.vue" hblocks
  cases hout.symm.trans hout'
  refine ⟨h, blocks, out, hh, hblocks, hout, hfindings, hiff.mpr ?_⟩
  -- every expression has an edit
  intro part hpart hnone
  have hsome := List.all_eq_true.mp hedited part hpart
  simp [hnone] at hsome

/-- A component with nothing but a dynamic text. -/
def dynamicAlone : String :=
  "<template><p>\x7b\x7b $t(\x60你好$\x7bx\x7d\x60) \x7d\x7d</p></template>"

open Component in
/-- Without an edit next to it a dynamic text of a template is lost. -/
theorem Harvester.not_countsDynamic_alone : ∃ h blocks out,
    Harvester.ofOptions { replaceTexts := true } = .ok h ∧
    split dynamicAlone = .ok blocks ∧
    h.harvestComponent dynamicAlone "App.vue" = .ok out ∧
    ¬CountsDynamic h blocks out.harvest.findings := by
  have hview : (Harvester.ofOptions { replaceTexts := true }).toOption.map (fun h =>
      ((h.harvestComponent dynamicAlone "App.vue").toOption.map (·.harvest.findings),
        (split dynamicAlone).toOption.map fun blocks =>
          decide (.expr "$t(\x60你好$\x7bx\x7d\x60)" .single ∈ expressions h blocks),
        (h.harvestExpr "$t(\x60你好$\x7bx\x7d\x60)" .single).toOption.map (·.findings))) =
      some (some [], some true, some [⟨"\x60你好$\x7bx\x7d\x60", .lookupArgument, true⟩]) := by
    rewrite [show dynamicAlone = String.ofList _ from rfl]
    simp only [Harvester.harvestComponent, split_ofList]
    decide +kernel
  obtain ⟨h, hh, hview⟩ := exists_ok_of_toOption_map hview
  obtain ⟨hfindings, hview⟩ := Prod.mk.inj hview
  obtain ⟨hmem, hreported⟩ := Prod.mk.inj hview
  obtain ⟨out, hout, hfindings⟩ := exists_ok_of_toOption_map hfindings
  obtain ⟨blocks, hblocks, hmem⟩ := exists_ok_of_toOption_map hmem
  obtain ⟨harvest, hok, hreported⟩ := exists_ok_of_toOption_map hreported
  refine ⟨h, blocks, out, hh, hblocks, hout, ?_⟩
  -- the expression is reported when it is harvested alone, but not by the component
  intro hcounts
  have hfound := hcounts _ _ (of_decide_eq_true hmem) harvest hok _
    (by rw [hreported]; exact List.mem_singleton_self _) rfl
  rw [hfindings] at hfound
  cases hfound

end TextHarvest
