import TextHarvest.Proofs.Harvest.Imported
import TextHarvest.Proofs.Harvest.Recognised
import TextHarvest.Proofs.Harvest.Rereading
import TextHarvest.Proofs.Script.Export

/-!
# A text that is exported by default

In a script that exports a text by default the literal may stand right behind a keyword. Its
harvest is followed here from the first character to the last: the literal becomes a call, an import
comes in front of the script, and the result is read again. It is a script just when there is a
blank between the keyword and the literal, that is when the keyword is still a word of its own. If
so, the second reading finds the import and the call, files the key again and changes nothing.

Main results:

* `code_harvestFile_export` — the rewritten script, character by character.
* `staysScript_export_iff` — it is a script just when the keyword is still there.
* `staysScript_export_iff_word` — the same for the word that the keyword is read as.
* `staysRewritten_export` — what is there after the first reading stays as it is.
* `keepsEntries_export_iff` — it keeps its entry just when it is still a script.
-/

namespace TextHarvest

open Script Harvest

/-- A script that exports a text by default, with blanks or nothing in front of the literal. -/
structure ExportsText (code : String) (gap : List Char) (text : String) (q : Quote) : Prop where
  code : code.toList = exportChars ++ (gap ++ (Text.quoted text q).toList)
  blank : ∀ c ∈ gap, isLineBreak c = true ∨ isSpace c = true

namespace Harvester

/-- A harvester that puts calls of an importable function into a script. -/
structure RewritesScript (h : Harvester) (path : String) : Prop where
  isScript : isComponentPath path = false
  emitsCode : h.emitsCode = true
  name : IsIdentifierPath h.options.translateKey
  importPath : Text.quoted h.options.importPath .double = "\x22" ++ h.options.importPath ++ "\x22"

/-- The harvester of a project that replaces texts is one, if its function can be called and the
path of its import needs no escapes. -/
theorem Made.rewritesScript {o : Options} {h : Harvester} (hmade : Made o h) {path : String}
    (hscript : isComponentPath path = false) (hreplace : o.replaceTexts = true)
    (hname : IsIdentifierPath o.translateKey)
    (hpath : Text.quoted o.importPath .double = "\x22" ++ o.importPath ++ "\x22") :
    h.RewritesScript path where
  isScript := hscript
  emitsCode := hmade.emitsCode.trans hreplace
  name := by
    rw [hmade.options]
    exact hname
  importPath := by
    rw [hmade.options]
    exact hpath

/-- A text that is taken where no call is around it. -/
def Takes (h : Harvester) (text : String) : Prop :=
  h.options.extractFromText = true ∧ h.accepts (Text.trim text) = true

/-- The call that stands for a text in a script. -/
def scriptCall (h : Harvester) (text : String) : String :=
  h.callText (h.keyFor (Text.trim text)) (Text.trim text) .double false

/-- The import that is put in front of a script without imports. -/
def importFor (h : Harvester) : Option (String × String) :=
  if h.options.replaceTexts && h.options.autoImport &&
      !unimportable.contains (headSegment h.options.translateKey) then
    some (headSegment h.options.translateKey, h.options.importPath)
  else none

end Harvester

/-! ## The import -/

/-- The first segment of a dotted name. -/
theorem headSegment_joinDots {first : String} (hfirst : IsWord first.toList) (more : List String) :
    headSegment (joinDots first more) = first := by
  have hdots : ∀ c ∈ first.toList, (c != '.') = true := by
    intro c hc
    have hpart := hfirst.parts c hc
    rw [bne_iff_ne]
    rintro rfl
    exact absurd hpart (by decide)
  rw [headSegment, toList_joinDots, List.takeWhile_append_of_pos hdots]
  cases more with
  | nil => simp [segmentText]
  | cons w more => simp [segmentText]

/-- One name is imported by its first segment, if that can be imported. -/
theorem importNames_singleton (name : String) : importNames [name] =
    if headSegment name == "" || unimportable.contains (headSegment name) then []
    else [headSegment name] := by
  simp [importNames]

/-- The plan for an import into a script that exports by default, with no import or declaration. -/
theorem planImport_export {e : Tree} (he : declared e = []) (whole span : Span)
    (cs : List Char) {name : String} (path : String) (hname : headSegment name ≠ "") :
    planImport (.node .module whole [.node .exportDefault span [e]]) ('e' :: cs) [name] path =
      .ok (if unimportable.contains (headSegment name) then none
        else some ⟨Span.point 0, importStatement [headSegment name] path ++ "\n"⟩) := by
  have himports : importsOf (.node .module whole [.node .exportDefault span [e]]) = [] := rfl
  -- the script imports and declares nothing that could be in the way
  have hdeclared : declared (.node .module whole [.node .exportDefault span [e]]) = [] := by
    simp [declared, declaredAll, he]
  have hneeds : ∀ n, needsImport [] [] path n = .ok true := fun _ => rfl
  rw [planImport_eq, importNames_singleton, himports, hdeclared]
  by_cases hout : unimportable.contains (headSegment name) = true
  · simp only [hout, Bool.or_true, if_true]
    rfl
  · have hnone : (headSegment name == "") = false := beq_eq_false_iff_ne.mpr hname
    simp only [hout, hnone, Bool.or_self, Bool.false_eq_true, if_false]
    rfl

/-! ## The rewritten script -/

section Rewriting

variable {h : Harvester} {code path text : String} {gap : List Char} {q : Quote}

/-- A default export is walked through. -/
theorem walk_exportDefault (site : Site) (span : Span) (e : Tree) :
    walk site .plain (.node .exportDefault span [e]) = walk site .plain e := by
  rw [walk]
  simp [enter, visits, walkAll, Site.visit, leave]

/-- What is done at a literal that is taken. -/
def Harvester.literalActions (h : Harvester) (text : String) (place : Span) : List Action :=
  [.file (h.keyFor (Text.trim text)) (Text.trim text),
    .record ⟨Text.trim text, .stringLiteral, false⟩, .replace place (h.scriptCall text)]

/-- A rewritten literal asks for an import. -/
theorem wantsImport_literalActions (h : Harvester) (text : String) (place : Span) :
    h.wantsImport (Harvest.ofActions (h.literalActions text place)) =
      (h.options.replaceTexts && h.options.autoImport) := by
  have hfiled : (Catalog.ofList (entries (h.literalActions text place))).isEmpty = false := rfl
  rw [Harvester.wantsImport, Harvest.ofActions]
  dsimp only
  rw [hfiled, Bool.not_false, Bool.and_true]

/-- Everything that is done in the script is done at the literal. -/
theorem actions_export (htakes : h.Takes text) (source : List Char) (whole span place : Span) :
    walk { harvester := h, source, quote := .double } .plain
        (.node .module whole [.node .exportDefault span [.node (.strLit (some text)) place []]]) =
      h.literalActions text place := by
  have hwalk := walk_exportDefault { harvester := h, source, quote := .double } span
    (.node (.strLit (some text)) place [])
  -- outside of any call every accepted text is taken
  have htaken : Site.takesLiteral { harvester := h, source, quote := .double } text = true := by
    simp [Site.takesLiteral, Site.takesTexts, Site.options, Exclusion.isExcluded, htakes.1,
      htakes.2]
  rw [walk]
  simp only [enter, visits, List.map_cons, List.map_nil, walkAll, Site.visit, leave, hwalk,
    List.nil_append, List.append_nil]
  rw [walk]
  simp [enter, visits, leave, Role.plain, Site.literal, htaken, Site.file,
    Site.replacement, Site.callOf, Harvester.scriptCall, Harvester.literalActions]

/-- The edit that puts the import in front of the script. -/
def Harvester.importEdits (h : Harvester) : List Edit :=
  (h.importFor.map fun i => ⟨Span.point 0, importStatement [i.1] i.2 ++ "\n"⟩).toList

/-- The first segment of the name of a function that can be called. -/
theorem IsIdentifierPath.isWord_headSegment {name : String} (hname : IsIdentifierPath name) :
    IsWord (headSegment name).toList := by
  obtain ⟨first, more, rfl, hwords, -, -⟩ := hname
  have hfirst := hwords first List.mem_cons_self
  rw [headSegment_joinDots hfirst]
  exact hfirst

theorem IsIdentifierPath.headSegment_ne {name : String} (hname : IsIdentifierPath name) :
    headSegment name ≠ "" := by
  obtain ⟨d, ds, hd, -⟩ := hname.isWord_headSegment.start
  intro hempty
  rw [hempty] at hd
  cases hd

/-- The script is changed at the literal, and an import is put in front of it. -/
theorem edits_filePatch_export (hrewrites : h.RewritesScript path) (htakes : h.Takes text)
    (hcode : ExportsText code gap text q) :
    (h.filePatch code path).edits = ⟨⟨Chars.size (exportChars ++ gap),
      Chars.size (exportChars ++ gap) + Chars.size (Text.quoted text q).toList⟩,
        h.scriptCall text⟩ :: h.importEdits := by
  obtain ⟨whole, span, hparse⟩ := parseModule_exportLiteral hcode.blank text q hcode.code
    (.ofName (Path.extension? path))
  have hsize : Chars.size (exportChars ++ gap) = 14 + Chars.size gap := by
    rw [Chars.size_append]
    rfl
  -- the source starts with the keyword, so there is no interpreter line
  obtain ⟨cs, hcs⟩ : ∃ cs, code.toList = 'e' :: cs := ⟨_, hcode.code⟩
  have hactions := actions_export htakes code.toList whole span
    ⟨14 + Chars.size gap, 14 + Chars.size gap + Chars.size (Text.quoted text q).toList⟩
  have hplan := planImport_export (e := .node (.strLit (some text)) ⟨14 + Chars.size gap,
    14 + Chars.size gap + Chars.size (Text.quoted text q).toList⟩ [])
    (by simp [declared, declaredAll]) whole span cs h.options.importPath hrewrites.name.headSegment_ne
  rw [Harvester.filePatch, if_neg (by simp [hrewrites.isScript]), Harvester.harvestScript, hparse,
    Except.map, hsize]
  dsimp only
  rw [hactions]
  rw [wantsImport_literalActions, Bool.true_and, Harvester.importEdits, Harvester.importFor]
  cases hon : h.options.replaceTexts && h.options.autoImport with
  | false => rfl
  | true =>
    have hneeded : h.neededNames (Harvest.ofActions (h.literalActions text
        ⟨14 + Chars.size gap, 14 + Chars.size gap +
          Chars.size (Text.quoted text q).toList⟩)).usesWrapper = [h.options.translateKey] := rfl
    rw [if_pos rfl, Harvester.addImport, hneeded, hcs, hplan]
    cases unimportable.contains (headSegment h.options.translateKey) <;> rfl

/-- The import statement, character by character. -/
theorem toList_importStatement (name : String) {path : String}
    (hpath : Text.quoted path .double = "\x22" ++ path ++ "\x22") :
    (importStatement [name] path ++ "\n").toList = importFront (some (name, path)) := by
  unfold importStatement importFront importChars
  simp [hpath, toList_listed]

theorem path_of_importFor {h : Harvester} {name path : String}
    (himport : h.importFor = some (name, path)) : path = h.options.importPath := by
  rw [Harvester.importFor] at himport
  split at himport
  · exact (Prod.mk.inj (Option.some.inj himport)).2.symm
  · cases himport

/-- An import in front of a text and a replacement in it do not get in each other's way. -/
theorem apply_importEdits {h : Harvester} (hpath : Text.quoted h.options.importPath .double =
      "\x22" ++ h.options.importPath ++ "\x22") {source : String} {front old : List Char}
    (hsource : source.toList = front ++ old) (hfront : front ≠ []) (new : String) :
    ((Patch.mk (⟨⟨Chars.size front, Chars.size front + Chars.size old⟩, new⟩ ::
        h.importEdits)).apply source).toList =
      importFront h.importFor ++ (front ++ new.toList) := by
  -- the import goes in front of everything, so it sorts first
  have hpos : Chars.size front ≠ 0 := mt Chars.eq_nil_of_size_eq_zero hfront
  rw [Patch.apply, String.toList_ofList, hsource]
  cases himport : h.importFor with
  | none =>
    have hedits : h.importEdits = [] := by
      rw [Harvester.importEdits, himport]
      rfl
    rw [hedits]
    exact Patch.splice_replace_end front old new
  | some found =>
    obtain ⟨name, path⟩ := found
    obtain rfl := path_of_importFor himport
    have hedits : h.importEdits =
        [⟨Span.point 0, importStatement [name] h.options.importPath ++ "\n"⟩] := by
      rw [Harvester.importEdits, himport]
      rfl
    have hsort : Edit.sort (⟨⟨Chars.size front, Chars.size front + Chars.size old⟩, new⟩ ::
        h.importEdits) = h.importEdits ++
          [⟨⟨Chars.size front, Chars.size front + Chars.size old⟩, new⟩] := by
      rw [hedits]
      simp [Edit.sort, Edit.insertSorted, Edit.before, Span.point, hpos]
    rw [hsort, hedits, List.singleton_append, Patch.splice_insert_front, Patch.splice_replace_end,
      toList_importStatement name hpath]

/-- A call starts with a letter. -/
theorem exists_first_scriptCall {h : Harvester} (hname : IsIdentifierPath h.options.translateKey)
    (text : String) :
    ∃ d ds, (h.scriptCall text).toList = d :: ds ∧ Text.isIdStart d = true := by
  obtain ⟨first, more, hpath, hwords, -, -⟩ := hname
  obtain ⟨d, ds, hd, hletter⟩ := (hwords first List.mem_cons_self).start
  rw [Harvester.scriptCall, h.callText_plain hpath, callChars, hd]
  exact ⟨d, _, rfl, hletter⟩

/-- The rewritten script, character by character. -/
theorem code_harvestFile_export (hrewrites : h.RewritesScript path) (htakes : h.Takes text)
    (hcode : ExportsText code gap text q) :
    ∃ c, (h.harvestFile code path).code = some c ∧
      c.toList =
        importFront h.importFor ++ (exportChars ++ (gap ++ (h.scriptCall text).toList)) := by
  have hedits := edits_filePatch_export hrewrites htakes hcode
  have hsource : code.toList = (exportChars ++ gap) ++ (Text.quoted text q).toList := by
    rw [hcode.code, List.append_assoc]
  have hfront : exportChars ++ gap ≠ [] := List.cons_ne_nil _ _
  have happly := apply_importEdits hrewrites.importPath hsource hfront (h.scriptCall text)
  rw [← hedits, List.append_assoc] at happly
  have hne : (h.filePatch code path).apply code ≠ code := by
    intro hsame
    rw [hsame, hcode.code] at happly
    cases hfor : h.importFor with
    | some found =>
      -- the import starts with another letter
      rw [hfor] at happly
      exact absurd (List.cons.inj happly).1 (by decide)
    | none =>
      rw [hfor] at happly
      have hcall := List.append_cancel_left (List.append_cancel_left happly)
      obtain ⟨d, ds, hd, hletter⟩ := exists_first_scriptCall hrewrites.name text
      rw [hd, Text.quoted, String.toList_ofList] at hcall
      rw [← (List.cons.inj hcall).1] at hletter
      cases q <;> exact absurd hletter (by decide)
  have hsome : (h.harvestFile code path).code ≠ none := by
    have hchanged : (h.filePatch code path).edits ≠ [] := by
      rw [hedits]
      exact List.cons_ne_nil _ _
    rw [Harvester.code_harvestFile, ne_eq, Harvester.changedCode_eq_none_iff hrewrites.emitsCode,
      not_or]
    exact ⟨hchanged, hne⟩
  obtain ⟨c, hc⟩ := Option.ne_none_iff_exists'.mp hsome
  refine ⟨c, hc, ?_⟩
  rw [Harvester.code_harvestFile] at hc
  rw [← (Harvester.changedCode_eq_some hc).2]
  exact happly

/-! ## Whether it is a script -/

/-- The name that an import in front of the script binds. -/
theorem isWord_of_importFor (hname : IsIdentifierPath h.options.translateKey) :
    ∀ n p, h.importFor = some (n, p) → IsWord n.toList := by
  intro n p himport
  rw [Harvester.importFor] at himport
  split at himport
  · rw [← (Prod.mk.inj (Option.some.inj himport)).1]
    exact hname.isWord_headSegment
  · cases himport

/-- The rewritten script is one just when there is a blank between the keyword and the call. -/
theorem exists_parseModule_iff (hname : IsIdentifierPath h.options.translateKey)
    (hblank : ∀ c ∈ gap, isLineBreak c = true ∨ isSpace c = true) {c : String}
    (hc : c.toList = importFront h.importFor ++
      (exportChars ++ (gap ++ (h.scriptCall text).toList))) (dialect : Dialect) :
    (∃ t, parseModule c dialect = .ok t) ↔ gap ≠ [] := by
  have hfront := isWord_of_importFor hname
  obtain ⟨first, more, hpath, hwords, hfirst, hawait⟩ := hname
  rw [Harvester.scriptCall, h.callText_plain hpath] at hc
  constructor
  · rintro ⟨t, hok⟩ rfl
    -- the one text that fails is the one that makes a comment of what follows
    obtain ⟨e, herror⟩ := exists_parseModule_exportCall_error hfront hwords .double _ _ hc dialect
    cases herror.symm.trans hok
  · intro hgap
    obtain ⟨whole, items, span, t, stop, hparse, -⟩ := parseModule_exportCall hfront hwords hfirst
      hawait .double _ _ hblank hgap hc dialect
    exact ⟨_, hparse⟩

/-- What a script that exports a text by default is rewritten to is a script just when a blank keeps
the keyword apart from the literal. -/
theorem staysScript_export_iff (hrewrites : h.RewritesScript path) (htakes : h.Takes text)
    (hcode : ExportsText code gap text q) : h.StaysScript code path ↔ gap ≠ [] := by
  obtain ⟨c, hsome, hc⟩ := code_harvestFile_export hrewrites htakes hcode
  obtain ⟨whole, span, hparse⟩ := parseModule_exportLiteral hcode.blank text q hcode.code
    (.ofName (Path.extension? path))
  rw [← exists_parseModule_iff hrewrites.name hcode.blank hc (.ofName (Path.extension? path))]
  constructor
  · intro hstays
    exact hstays c ⟨_, hparse⟩ hsome
  · intro hok c' _ hsome'
    rw [hsome] at hsome'
    rw [← Option.some.inj hsome']
    exact hok

/-- That is when the keyword is still the word in front of the call. -/
theorem staysScript_export_iff_word (hrewrites : h.RewritesScript path) (htakes : h.Takes text)
    (hcode : ExportsText code gap text q) (pos : Nat) : h.StaysScript code path ↔
      (scanToken ("default".toList ++ (gap ++ (h.scriptCall text).toList)) pos).1 =
        .word "default" := by
  rw [staysScript_export_iff hrewrites htakes hcode]
  obtain ⟨first, more, hpath, hwords, -, -⟩ := hrewrites.name
  have hfirst := hwords first List.mem_cons_self
  cases gap with
  | nil =>
    -- the word goes on with the name of the function
    obtain ⟨d, z, hcall, hd, hslash⟩ := exists_head_callChars .double first more
      (h.keyFor (Text.trim text)) (h.messages (Text.trim text))
    have hscan := scanToken_word (isWord_default_append hfirst) hd hslash z pos
    have hlonger : String.ofList ("default".toList ++ first.toList) ≠ "default" := by
      intro hsame
      rw [← String.ofList_toList (s := "default"), String.ofList_inj] at hsame
      exact hfirst.ne_nil (List.append_right_eq_self.mp hsame)
    rw [List.append_assoc, ← hcall] at hscan
    rw [List.nil_append, Harvester.scriptCall, h.callText_plain hpath, hscan]
    simpa using hlonger
  | cons g gap =>
    have hmem := mem_gapCodes (hcode.blank g List.mem_cons_self)
    have hend := not_isIdPart_gap g.toNat hmem
    rw [Char.ofNat_toNat] at hend
    have hslash : g ≠ '\\' := by
      rintro rfl
      exact absurd hmem (by decide)
    have hscan := scanToken_word isWord_default hend hslash (gap ++ (h.scriptCall text).toList) pos
    rw [String.ofList_toList] at hscan
    rw [List.cons_append, hscan]
    simp

/-! ## The second reading -/

/-- The name that is called needs no import any more. -/
theorem planImport_importsFront (hname : IsIdentifierPath h.options.translateKey)
    (hreplace : h.options.replaceTexts = true) (hauto : h.options.autoImport = true)
    {items : List Tree} (hitems : ImportsFront h.importFor items) (whole span : Span) (t : Tree)
    (source : List Char) :
    planImport (.node .module whole (items ++ [Script.Tree.node .exportDefault span [t]])) source
      [h.options.translateKey] h.options.importPath = .ok none := by
  have hnone : (headSegment h.options.translateKey == "") = false :=
    beq_eq_false_iff_ne.mpr hname.headSegment_ne
  rw [planImport_eq, importNames_singleton, hnone, Bool.false_or]
  rw [Harvester.importFor, hreplace, hauto, Bool.and_self, Bool.true_and] at hitems
  cases hout : unimportable.contains (headSegment h.options.translateKey) with
  | true => rfl
  | false =>
    rw [hout] at hitems
    -- the import of the name is there, as a value
    obtain ⟨specifiers, place, rfl, hbind⟩ := hitems
    obtain _ | ⟨⟨-, hspecifier, -⟩, hrest⟩ := hbind
    obtain _ | _ := hrest
    rename_i s
    rw [List.singleton_append]
    have hneeds : needsImport
        [⟨⟨some h.options.importPath, false, [s]⟩, place⟩]
        (declared (.node .module whole [.node (.importDecl ⟨some h.options.importPath, false,
          [s]⟩) place [], .node .exportDefault span [t]])) h.options.importPath
        (headSegment h.options.translateKey) = .ok false := by
      rw [needsImport]
      simp [hspecifier]
    have himports : importsOf (.node .module whole [.node (.importDecl ⟨some h.options.importPath,
        false, [s]⟩) place [], .node .exportDefault span [t]]) =
          [⟨⟨some h.options.importPath, false, [s]⟩, place⟩] := rfl
    rw [himports, if_neg Bool.false_ne_true, List.filterM, List.filterAuxM, hneeds]
    rfl

/-- An import holds nothing to do, so everything that is done is done at the call. -/
theorem walk_exportCall (site : Site) {items : List Tree}
    {front : Option (String × String)} (hitems : ImportsFront front items) (whole span : Span)
    (t : Tree) :
    walk site .plain (.node .module whole (items ++ [Script.Tree.node .exportDefault span [t]])) =
      walk site .plain t := by
  -- an import has nothing to harvest, and the rest of the script is the exported expression
  have himport : ∀ clause place, walk site .plain (.node (.importDecl clause) place []) = [] := by
    intro clause place
    rw [walk]
    simp [enter, visits, leave]
  have hexport := walk_exportDefault site span t
  rw [walk]
  cases front with
  | none =>
    rw [show items = [] from hitems]
    simp [enter, visits, walkAll, Site.visit, leave, hexport]
  | some found =>
    obtain ⟨specifiers, place, rfl, -⟩ := hitems
    simp [enter, visits, walkAll, Site.visit, leave, hexport, himport]

/-- The rewritten script files the key of its call, and nothing else is done in it. -/
theorem exists_parse_actions (hname : IsIdentifierPath h.options.translateKey)
    (hself : h.exclusion.translateKey = h.options.translateKey)
    (hblank : ∀ c ∈ gap, isLineBreak c = true ∨ isSpace c = true) (hgap : gap ≠ []) {c : String}
    (hc : c.toList = importFront h.importFor ++
      (exportChars ++ (gap ++ (h.scriptCall text).toList))) {known : Catalog}
    (hknows : (h.withKnown known).Knows (h.keyFor (Text.trim text)) (Text.trim text))
    (dialect : Dialect) : ∃ whole items span t,
      parseModule c dialect =
        .ok (.node .module whole (items ++ [Script.Tree.node .exportDefault span [t]])) ∧
      ImportsFront h.importFor items ∧
      (Part.script c dialect).actions (h.withKnown known) =
        [.file (h.keyFor (Text.trim text)) (Text.trim text)] := by
  have hfront := isWord_of_importFor hname
  obtain ⟨first, more, hpath, hwords, hfirst, hawait⟩ := hname
  rw [Harvester.scriptCall, h.callText_plain hpath] at hc
  obtain ⟨whole, items, span, t, stop, hparse, hitems, ht⟩ := parseModule_exportCall hfront hwords
    hfirst hawait .double _ _ hblank hgap hc dialect
  have hpart : (Part.script c dialect).parse = .ok _ := hparse
  obtain ⟨hlookup, hexcluded⟩ := (isLookupCall_callPath_iff hself false).mpr fun _ => rfl
  rw [Harvester.callPath, if_neg Bool.false_ne_true, hpath] at hlookup hexcluded
  -- the module is an import, if there is one, and the call: only the call has actions
  refine ⟨whole, items, span, t, hparse, hitems, ?_⟩
  rw [Part.actions_of_parse hpart, walk_exportCall _ hitems]
  exact walk_isCall_of_knows ht hlookup hexcluded hknows

/-- A file that is no component is one script. -/
theorem parts_of_not_component (hscript : isComponentPath path = false) (h : Harvester)
    (code : String) : h.parts code path = [.script code (.ofName (Path.extension? path))] := by
  rw [Harvester.parts, hscript]
  rfl

/-- A script that exports a text files it. -/
theorem answers_export (hrewrites : h.RewritesScript path) (htakes : h.Takes text)
    (hcode : ExportsText code gap text q) : (h.harvestFile code path).catalog.Answers
      [(h.keyFor (Text.trim text), Text.trim text)] := by
  obtain ⟨whole, span, hparse⟩ := parseModule_exportLiteral hcode.blank text q hcode.code
    (.ofName (Path.extension? path))
  have hpart : (Part.script code (.ofName (Path.extension? path))).parse = .ok _ := hparse
  have htexts : h.fileTexts code path = [(h.keyFor (Text.trim text), Text.trim text)] := by
    rw [Harvester.fileTexts, parts_of_not_component hrewrites.isScript, List.flatMap_singleton,
      Part.texts, Part.actions_of_parse hpart]
    exact congrArg entries (actions_export htakes code.toList whole span _)
  rw [← htexts]
  exact (h.lists_harvestFile code path).answers

/-- The key of the text is known to later readings. -/
theorem knows_export (hrewrites : h.RewritesScript path) (htakes : h.Takes text)
    (hcode : ExportsText code gap text q) (hstands : h.KeyStands (Text.trim text))
    {known : Catalog} (hknown : ∀ k v, (h.harvestFile code path).catalog.get? k = some v →
      known.get? k = some v) :
    (h.withKnown known).Knows (h.keyFor (Text.trim text)) (Text.trim text) where
  trimmed := hstands.trimmed
  nonempty := hstands.nonempty
  text := hknown _ _ ((answers_export hrewrites htakes hcode).get?_eq_some_iff.mpr ⟨rfl, rfl⟩)

/-- What a script that exports a text by default is rewritten to stays as it is: without a blank it
is no script any more, and with one its import and its call are settled. -/
theorem staysRewritten_export (hrewrites : h.RewritesScript path)
    (hself : h.exclusion.translateKey = h.options.translateKey) (htakes : h.Takes text)
    (hstands : h.KeyStands (Text.trim text)) (hcode : ExportsText code gap text q) :
    h.StaysRewritten code path := by
  obtain ⟨c, hsome, hc⟩ := code_harvestFile_export hrewrites htakes hcode
  intro c' hsome'
  rw [hsome] at hsome'
  obtain rfl := Option.some.inj hsome'
  have hemits : (h.withKnown (h.known.merge (h.harvestFile code path).catalog)).emitsCode = true :=
    hrewrites.emitsCode
  rw [Harvester.code_harvestFile, Harvester.changedCode_eq_none_iff hemits]
  refine Or.inl (Harvester.edits_filePatch_iff.mpr ?_)
  have hparts := parts_of_not_component hrewrites.isScript
    (h.withKnown (h.known.merge (h.harvestFile code path).catalog)) c
  by_cases hgap : gap = []
  · -- what does not parse is left alone
    have hnone := mt (exists_parseModule_iff hrewrites.name hcode.blank hc
      (.ofName (Path.extension? path))).mp (not_not_intro hgap)
    cases hparse : parseModule c (.ofName (Path.extension? path)) with
    | ok t => exact absurd ⟨t, hparse⟩ hnone
    | error e =>
      have hpart : (Part.script c (.ofName (Path.extension? path))).parse = .error e := hparse
      constructor
      · rw [hparts, List.forall_mem_singleton]
        exact Part.still_of_error hpart
      · rw [hparts, importStands_cons_of_not_filing (Part.not_isFilingScript_of_error hpart)]
        exact importStands_nil _
  · have hmerged : ∀ k v, (h.harvestFile code path).catalog.get? k = some v →
        (h.known.merge (h.harvestFile code path).catalog).get? k = some v := by
      intro k v hget
      rw [Catalog.get?_merge, hget, Option.some_or]
    have hknows := knows_export hrewrites htakes hcode hstands hmerged
    obtain ⟨whole, items, span, t, hparse, hitems, hactions⟩ := exists_parse_actions hrewrites.name
      hself hcode.blank hgap hc hknows (.ofName (Path.extension? path))
    constructor
    · rw [hparts, List.forall_mem_singleton]
      exact Part.still_of_actions hactions
    · rw [hparts, Harvester.importStands_singleton_iff hparse, hactions]
      intro hwants e hplan
      rw [Harvester.wantsImport, Bool.and_eq_true, Bool.and_eq_true] at hwants
      have hnone := planImport_importsFront hrewrites.name hwants.1.1 hwants.1.2 hitems whole span t
        c.toList
      exact absurd (hplan.symm.trans hnone) (by simp)

/-- It keeps its entry just when it is still a script. -/
theorem keepsEntries_export_iff (hrewrites : h.RewritesScript path)
    (hself : h.exclusion.translateKey = h.options.translateKey) (htakes : h.Takes text)
    (hstands : h.KeyStands (Text.trim text)) (hcode : ExportsText code gap text q) :
    h.KeepsEntries code path ↔ gap ≠ [] := by
  obtain ⟨c, hsome, hc⟩ := code_harvestFile_export hrewrites htakes hcode
  have hfiled := answers_export hrewrites htakes hcode
  have hagain := ((h.withKnown (h.harvestFile code path).catalog).lists_harvestFile c path).answers
  have hparts := parts_of_not_component hrewrites.isScript
    (h.withKnown (h.harvestFile code path).catalog) c
  rw [Harvester.fileTexts, hparts, List.flatMap_singleton] at hagain
  constructor
  · rintro hkeeps rfl
    -- the script that does not parse has no entries
    have hnone := mt (exists_parseModule_iff hrewrites.name hcode.blank hc
      (.ofName (Path.extension? path))).mp (not_not_intro rfl)
    cases hparse : parseModule c (.ofName (Path.extension? path)) with
    | ok t => exact absurd ⟨t, hparse⟩ hnone
    | error e =>
      have hkept := hkeeps c _ _ hsome (hfiled.get?_eq_some_iff.mpr ⟨rfl, rfl⟩)
      have hpart : (Part.script c (.ofName (Path.extension? path))).parse = .error e := hparse
      rw [hagain, Part.texts_of_error hpart] at hkept
      cases hkept
  · intro hgap c' k v hsome' hget
    rw [hsome] at hsome'
    obtain rfl := Option.some.inj hsome'
    have hknows := knows_export hrewrites htakes hcode hstands fun _ _ hget => hget
    obtain ⟨-, -, -, -, -, -, hactions⟩ := exists_parse_actions hrewrites.name hself hcode.blank
      hgap hc hknows (.ofName (Path.extension? path))
    rw [Part.texts_of_actions hactions] at hagain
    exact hagain.get?_eq_some_iff.mpr (hfiled.get?_eq_some_iff.mp hget)

end Rewriting

end TextHarvest
