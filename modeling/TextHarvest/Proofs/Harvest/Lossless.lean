import TextHarvest.Proofs.Except
import TextHarvest.Proofs.Harvest.Apart

/-!
# Scripts that lose no edit

A text that is taken is filed, whether or not the edit that puts a call in its place is applied. So
an edit that is dropped because it gets into the way of another would leave a text behind that is
looked up nowhere. Over a nested tree the edits of the walk stand apart; what is left is the import.
It is written at an import that is there already, or at the front of the script, where nothing else
is edited. Only below a line that names an interpreter can it fall into an edit: that line is taken
to end at the first line feed, but a script may end it by another character, and then the first line
feed stands in the midst of the script.

Main results:

* `replaced_walk` — every text that a walk records as taken is named by one of its edits.
* `Harvester.lossless_iff` — when no edit of a script is lost.
-/

namespace TextHarvest

open Script

namespace Harvest

/-! ## Texts that are replaced -/

/-- A text in which a key stands in quotes. -/
def Mentions (key text : String) : Prop :=
  ∃ quote before after, text = before ++ Text.quoted key quote ++ after

/-- A literal mentions its text. -/
theorem mentions_quoted (key : String) (quote : Quote) : Mentions key (Text.quoted key quote) :=
  ⟨quote, "", "", by simp⟩

/-- What mentions a key does so behind another text. -/
theorem Mentions.append_left {key text : String} (h : Mentions key text) (front : String) :
    Mentions key (front ++ text) := by
  obtain ⟨quote, before, after, rfl⟩ := h
  exact ⟨quote, front ++ before, after, by simp only [String.append_assoc]⟩

/-- And in front of one. -/
theorem Mentions.append_right {key text : String} (h : Mentions key text) (back : String) :
    Mentions key (text ++ back) := by
  obtain ⟨quote, before, after, rfl⟩ := h
  exact ⟨quote, before, after ++ back, by simp only [String.append_assoc]⟩

/-- Every text that is recorded as taken is named by an edit. -/
def Replaced (h : Harvester) (actions : List Action) : Prop :=
  ∀ f : Finding, .record f ∈ actions → f.dynamic = false →
    ∃ e, .edit e ∈ actions ∧ Mentions (h.keyFor f.text) e.text

/-- Where nothing is done nothing is recorded. -/
theorem replaced_nil (h : Harvester) : Replaced h [] := by
  intro f hmem
  cases hmem

/-- Findings that are replaced in one part or the other. -/
theorem replaced_append {h : Harvester} {as bs : List Action} (has : Replaced h as)
    (hbs : Replaced h bs) : Replaced h (as ++ bs) := by
  intro f hmem hstatic
  rcases List.mem_append.mp hmem with hmem | hmem
  · obtain ⟨e, he, hnames⟩ := has f hmem hstatic
    exact ⟨e, List.mem_append_left _ he, hnames⟩
  · obtain ⟨e, he, hnames⟩ := hbs f hmem hstatic
    exact ⟨e, List.mem_append_right _ he, hnames⟩

/-- Without findings nothing has to be replaced. -/
theorem replaced_of_records_eq_nil {h : Harvester} {as : List Action}
    (hnone : ∀ f : Finding, .record f ∉ as) : Replaced h as := by
  intro f hmem
  exact absurd hmem (hnone f)

section

variable (site : Site)

/-- A call mentions its key. -/
theorem mentions_callOf (text : String) (quote : Quote) (inRender : Bool) :
    Mentions (site.harvester.keyFor text) (site.callOf text quote inRender) :=
  (((mentions_quoted _ quote).append_left _).append_right _).append_right _

/-- What replaces a text mentions its key, in every slot. -/
theorem mentions_replacement (text : String) (slot : Slot) :
    Mentions (site.harvester.keyFor text) (site.replacement text slot) := by
  cases slot with
  | plain => exact mentions_callOf site text _ _
  | «attribute» => exact ((mentions_callOf site text _ _).append_left _).append_right _
  | property => exact mentions_callOf site text _ _
  | text sole =>
    cases sole with
    | false => exact mentions_callOf site text _ _
    | true => exact ((mentions_callOf site text _ _).append_right _).append_right _

/-- A wrapper element mentions its key. -/
theorem mentions_wrapper (text : String) :
    Mentions (site.harvester.keyFor text) (site.wrapper text) :=
  (((mentions_quoted _ .double).append_left _).append_right _).append_right _

/-- Filing a text and putting its key somewhere replaces it. -/
theorem replaced_file {text : String} {surface : Surface} {as : List Action}
    (hnone : ∀ f : Finding, .record f ∉ as)
    (hedit : ∃ e, .edit e ∈ as ∧ Mentions (site.harvester.keyFor text) e.text) :
    Replaced site.harvester (site.file text surface ++ as) := by
  obtain ⟨e, he, hmentions⟩ := hedit
  intro f hmem _
  have hf : f = ⟨text, surface, false⟩ := by
    rcases List.mem_append.mp hmem with hmem | hmem
    · simpa [Site.file] using hmem
    · exact absurd hmem (hnone f)
  rw [hf]
  exact ⟨e, List.mem_append_right _ he, hmentions⟩

/-- A text that is filed and replaced in one step. -/
theorem replaced_file_replace {text new : String} {surface : Surface} {span : Span}
    (hmentions : Mentions (site.harvester.keyFor text) new) :
    Replaced site.harvester (site.file text surface ++ [Action.replace span new]) :=
  replaced_file site (by simp [Action.replace]) ⟨⟨span, new⟩, List.mem_cons_self, hmentions⟩

/-- The finding of a literal is replaced. -/
theorem replaced_literal (span : Span) (value : Option String) (slot : Slot) :
    Replaced site.harvester (site.literal span value slot) := by
  rw [Site.literal.eq_def]
  split
  · split
    · exact replaced_file_replace site (mentions_replacement site _ slot)
    · exact replaced_nil _
  · exact replaced_nil _

/-- The finding of a constant argument is replaced. -/
theorem replaced_constantArgument (span : Span) (value : Option String) (count : Nat) :
    Replaced site.harvester (site.constantArgument span value count) := by
  rw [Site.constantArgument.eq_def]
  split
  · exact replaced_nil _
  · split
    · exact replaced_nil _
    · split
      · exact replaced_of_records_eq_nil (by simp)
      · split
        · exact replaced_file_replace site ((mentions_quoted _ site.quote).append_right _)
        · exact replaced_nil _

/-- A dynamic finding is none that has to be replaced. -/
theorem replaced_dynamicArgument (span : Span) :
    Replaced site.harvester (site.dynamicArgument span) := by
  intro f hmem hstatic
  rw [Site.dynamicArgument, List.mem_singleton, Action.record.injEq] at hmem
  rw [hmem] at hstatic
  cases hstatic

/-- The finding of a chunk is replaced. -/
theorem replaced_chunk (c : Chunk) : Replaced site.harvester (site.chunk c) := by
  rw [Site.chunk.eq_def]
  split
  · exact replaced_nil _
  · dsimp only
    split
    · split
      · exact replaced_file_replace site
          (((mentions_callOf site _ _ _).append_left _).append_right _)
      · exact replaced_nil _
    · exact replaced_nil _

/-- The findings of a template are replaced. -/
theorem replaced_chunks (cs : List Chunk) : Replaced site.harvester (site.chunks cs) := by
  rw [Site.chunks]
  split
  · induction cs with
    | nil => exact replaced_nil _
    | cons c cs ih =>
      rw [List.flatMap_cons]
      exact replaced_append (replaced_chunk site c) ih
  · exact replaced_nil _

/-- The finding of the text of an element is replaced. -/
theorem replaced_elementText (span : Span) :
    Replaced site.harvester (site.elementText span) := by
  rw [Site.elementText.eq_def]
  split
  · split
    · exact replaced_nil _
    · dsimp only
      split
      · rename_i inner _
        split
        · split
          · refine replaced_file site (by simp [Action.replace])
              ⟨⟨inner.shift span.start, site.wrapper _⟩, ?_, mentions_wrapper site _⟩
            exact List.mem_cons_of_mem _ List.mem_cons_self
          · exact replaced_file_replace site
              (((mentions_callOf site _ _ _).append_left _).append_right _)
        · exact replaced_nil _
      · exact replaced_nil _
  · exact replaced_nil _

/-- The finding of a message gets its identifier. -/
theorem replaced_wrapperElement (nameEnd : Nat) (attributes : List Tree) :
    Replaced site.harvester (site.wrapperElement nameEnd attributes) := by
  by_cases hsome : ∃ message span,
      Site.lastAttribute "msg" attributes = some (message, span) ∧ Text.trim message ≠ ""
  · obtain ⟨message, span, hmessage, hne⟩ := hsome
    have hnone : ∀ f : Finding, .record f ∉ removal site span := by
      intro f hmem
      obtain ⟨e, heq⟩ := eq_edit_of_mem_removal hmem
      cases heq
    -- an authored identifier stays, a made one is written into the element
    rw [wrapperElement_of_message hmessage hne]
    split
    · refine replaced_of_records_eq_nil ?_
      intro f
      simp [hnone f]
    · refine replaced_append ?_ (replaced_of_records_eq_nil hnone)
      intro f hmem _
      simp only [Action.insert, List.mem_cons, List.not_mem_nil, or_false, reduceCtorEq,
        Action.record.injEq] at hmem
      subst hmem
      exact ⟨_, List.mem_cons_of_mem _ List.mem_cons_self,
        (mentions_quoted _ .double).append_left _⟩
  · rw [wrapperElement_of_no_message]
    · exact replaced_nil _
    · intro message span hmessage
      exact Classical.byContradiction fun hne => hsome ⟨message, span, hmessage, hne⟩

/-- The findings on entering a node are replaced. -/
theorem replaced_enter (role : Role) (kind : Kind) (span : Span) (children : List Tree) :
    Replaced site.harvester (enter site role kind span children) := by
  have hentered := entered_enter site role kind span children
  generalize enter site role kind span children = actions at hentered ⊢
  cases hentered with
  | lookup => exact replaced_constantArgument site _ _ _
  | dynamic => exact replaced_dynamicArgument site _
  | literal _ => exact replaced_literal site _ _ _
  | markup => exact replaced_literal site _ _ _
  | text => exact replaced_elementText site _
  | wrapper => exact replaced_wrapperElement site _ _
  | nothing => exact replaced_nil _

/-- The findings on leaving a node are replaced. -/
theorem replaced_leave (role : Role) (kind : Kind) (children : List Tree) :
    Replaced site.harvester (leave site role kind children) := by
  intro f hmem hstatic
  rcases mem_leave_iff.mp hmem with ⟨callee, args, -, -, hmem⟩ | ⟨chunks, hkind, hrole, hmem⟩
  · obtain ⟨e, heq⟩ := eq_edit_of_mem_marks hmem
    cases heq
  · obtain ⟨e, he, hmentions⟩ := replaced_chunks site chunks f hmem hstatic
    exact ⟨e, mem_leave_iff.mpr (Or.inr ⟨chunks, hkind, hrole, he⟩), hmentions⟩

end

/-- Every text that a walk records as taken is named by one of its edits. -/
theorem replaced_walk (site : Site) (role : Role) (t : Tree) :
    Replaced site.harvester (walk site role t) := by
  refine walk_induction (replaced_nil _) (fun _ _ => replaced_append) ?_ ?_ site role t
    (Site.SameGround.refl site)
  · intro s r kind span children hground
    rw [← hground.harvester]
    exact replaced_enter s r kind span children
  · intro s r kind children hground
    rw [← hground.harvester]
    exact replaced_leave s r kind children

/-! ## The place of the import -/

/-- The place below the line that names an interpreter, when there is one that ends. -/
def interpreterEnd? (source : List Char) : Option Nat :=
  match source with
  | '#' :: '!' :: _ =>
    let line := source.takeWhile (· != '\n')
    if line.length < source.length then some (Chars.size line + 1) else none
  | _ => none

/-- Without an interpreter line there is no end of one. -/
theorem interpreterEnd?_eq_none {source : List Char}
    (hplain : ∀ rest, source = '#' :: '!' :: rest → False) : interpreterEnd? source = none := by
  rw [interpreterEnd?.eq_def]
  split
  · exact (hplain _ rfl).elim
  · rfl

/-- An import is written at an import that is there, or as a new one. -/
theorem planImport_cases {t : Tree} {source : List Char} {names : List String} {path : String}
    {e : Edit} (hplan : planImport t source names path = .ok (some e)) :
    (∃ i ∈ importsOf t, isExtensible path i = true ∧ ∃ listed, e = extendImport i listed) ∨
      ∃ statement, e = newImport (importsOf t) source statement := by
  rw [planImport] at hplan
  cases hmissing : (importNames names).filterM
      (needsImport (importsOf t) (declared t) path) with
  | error c =>
    simp only [hmissing] at hplan
    cases hplan
  | ok missing =>
    simp only [hmissing] at hplan
    change (if missing.isEmpty then _ else _) = _ at hplan
    split at hplan
    · cases hplan
    · split at hplan
      · -- names are added to an import of the same module, if there is one
        rename_i i hfind
        obtain rfl := Option.some.inj (Except.ok.inj hplan)
        exact Or.inl ⟨i, List.mem_of_find?_eq_some hfind, List.find?_some hfind, _, rfl⟩
      · obtain rfl := Option.some.inj (Except.ok.inj hplan)
        exact Or.inr ⟨_, rfl⟩

/-- A maximum is one of the numbers. -/
theorem foldl_max_mem (m : Nat) (ns : List Nat) : ns.foldl max m ∈ m :: ns := by
  induction ns generalizing m with
  | nil => exact List.mem_cons_self
  | cons n ns ih =>
    rw [List.foldl_cons]
    rcases List.mem_cons.mp (ih (max m n)) with heq | hmem
    · rw [heq]
      rcases Nat.le_total m n with hle | hle
      · rw [Nat.max_eq_right hle]
        exact List.mem_cons_of_mem _ List.mem_cons_self
      · rw [Nat.max_eq_left hle]
        exact List.mem_cons_self
    · exact List.mem_cons_of_mem _ (List.mem_cons_of_mem _ hmem)

/-- Names are added to an import behind one of its names. -/
theorem exists_specifier_of_extendImport {i : ImportSite} (hsome : i.clause.specifiers ≠ [])
    (names : String) :
    ∃ s ∈ i.clause.specifiers, (extendImport i names).span = Span.point s.span.stop := by
  rw [extendImport]
  split
  · rename_i s hlast
    exact ⟨s, (List.mem_filter.mp (List.mem_of_getLast? hlast)).1, rfl⟩
  · obtain ⟨s, ss, hspecifiers⟩ := List.exists_cons_of_ne_nil hsome
    have hmem := foldl_max_mem s.span.stop (ss.map (·.span.stop))
    rw [hspecifiers, List.map_cons, List.foldl_cons, Nat.zero_max]
    rw [← List.map_cons (f := fun s : Specifier => s.span.stop)] at hmem
    obtain ⟨s', hs', hstop⟩ := List.mem_map.mp hmem
    exact ⟨s', hs', by rw [hstop]⟩

/-- A new import comes behind the last one, or at the front of the script but below a line that
names an interpreter. -/
theorem newImport_cases (imports : List ImportSite) (source : List Char) (statement : String) :
    (∃ i ∈ imports, (newImport imports source statement).span = Span.point i.span.stop) ∨
      imports = [] ∧
        ((∃ n, interpreterEnd? source = some n ∧
            (newImport imports source statement).span = Span.point n) ∨
          interpreterEnd? source = none ∧
            ((newImport imports source statement).span = Span.point (Chars.size source) ∨
              (newImport imports source statement).span =
                Span.point (Chars.size (source.takeWhile Chars.isBlank)))) := by
  rw [newImport.eq_def]
  split
  · rename_i i hlast
    exact Or.inl ⟨i, List.mem_of_getLast? hlast, rfl⟩
  · rename_i hnone
    refine Or.inr ⟨List.getLast?_eq_none_iff.mp hnone, ?_⟩
    split
    · rename_i line
      -- an interpreter line that is not ended takes the import behind it
      by_cases hends : (('#' :: '!' :: line).takeWhile (· != '\n')).length <
          ('#' :: '!' :: line).length
      · exact Or.inl ⟨_, if_pos hends, by simp only [if_pos hends]⟩
      · exact Or.inr ⟨if_neg hends, Or.inl (by simp only [if_neg hends])⟩
    · rename_i hplain
      exact Or.inr ⟨interpreterEnd?_eq_none hplain, Or.inr rfl⟩

/-- A name of an import ends between two characters, within the import. -/
theorem between_of_mem_specifiers {source : List Char} {clause : ImportClause} {span : Span}
    {children : List Tree} (hfits : Fits source (.importDecl clause) span children)
    {s : Specifier} (hs : s ∈ clause.specifiers) :
    s.span.Inside span ∧ Chars.Between source s.span.stop := by
  have hmem : s.span ∈ (Kind.importDecl clause).spans := List.mem_map_of_mem hs
  exact ⟨hfits.inside _ (List.mem_append_left _ hmem),
    (Chars.cuts_of_isSome_slice? (hfits.cuts _ (List.mem_cons_of_mem _ hmem))).stop⟩

/-- An import is a child of the script. -/
theorem exists_importDecl_of_mem {t : Tree} {i : ImportSite} (hi : i ∈ importsOf t) :
    ∃ parts, Script.Tree.node (.importDecl i.clause) i.span parts ∈ t.children := by
  obtain ⟨u, hu, heq⟩ := List.mem_filterMap.mp hi
  split at heq
  · obtain rfl := Option.some.inj heq
    exact ⟨_, hu⟩
  · cases heq

/-- An import that is written at one that is there falls between characters of it. -/
theorem exists_import_of_planImport {t : Tree} {source : List Char} {names : List String}
    {path : String} {e : Edit} (hnested : t.isNested source = true)
    (hplan : planImport t source names path = .ok (some e)) :
    (∃ n i, i ∈ importsOf t ∧ e.span = Span.point n ∧ (Span.point n).Inside i.span ∧
        Chars.Between source n) ∨
      importsOf t = [] ∧ ∃ statement, e = newImport [] source statement := by
  -- every import of the module is a node of its tree
  have himport : ∀ i ∈ importsOf t, ∃ parts,
      Fits source (.importDecl i.clause) i.span parts := by
    intro i hi
    obtain ⟨parts, hmem⟩ := exists_importDecl_of_mem hi
    exact ⟨parts, (Tree.isNested_node.mp (Tree.isNested_of_mem hnested hmem)).1⟩
  rcases planImport_cases hplan with ⟨i, hi, hextensible, listed, rfl⟩ | ⟨statement, rfl⟩
  · obtain ⟨parts, hfits⟩ := himport i hi
    have hsome : i.clause.specifiers ≠ [] := by
      intro hnil
      simp [isExtensible, hnil] at hextensible
    obtain ⟨s, hs, hspan⟩ := exists_specifier_of_extendImport hsome listed
    obtain ⟨hinside, hbetween⟩ := between_of_mem_specifiers hfits hs
    exact Or.inl ⟨s.span.stop, i, hi, hspan,
      ⟨Nat.le_trans hinside.start hinside.order, Nat.le_refl _, hinside.stop⟩, hbetween⟩
  · rcases newImport_cases (importsOf t) source statement with ⟨i, hi, hspan⟩ | ⟨hnil, -⟩
    · obtain ⟨parts, hfits⟩ := himport i hi
      have hcuts := hfits.cuts_span
      exact Or.inl ⟨i.span.stop, i, hi, hspan, ⟨hcuts.order, Nat.le_refl _, Nat.le_refl _⟩,
        hcuts.stop⟩
    · exact Or.inr ⟨hnil, statement, by rw [hnil]⟩

/-- The place of the import of a script without imports that names an interpreter. -/
theorem span_of_interpreterEnd? {t : Tree} {source : List Char} {names : List String}
    {path : String} {e : Edit} (hplan : planImport t source names path = .ok (some e))
    (hnil : importsOf t = []) {n : Nat} (hn : interpreterEnd? source = some n) :
    e.span = Span.point n := by
  -- there is no import to extend, so the new one goes behind the interpreter line
  rcases planImport_cases hplan with ⟨i, hi, -⟩ | ⟨statement, rfl⟩
  · rw [hnil] at hi
    cases hi
  · rcases newImport_cases (importsOf t) source statement with
      ⟨i, hi, -⟩ | ⟨-, ⟨m, hm, hspan⟩ | ⟨hnone, -⟩⟩
    · rw [hnil] at hi
      cases hi
    · rw [hspan, ← Option.some.inj (hn.symm.trans hm)]
    · rw [hn] at hnone
      cases hnone

/-- An edit in a script lies in a part of it that is no import. -/
theorem exists_part_of_mem_edits {source : List Char} {site : Site} {role : Role} {span : Span}
    {parts : List Tree} (hsource : site.source = source)
    (hnested : (Script.Tree.node .module span parts).isNested source = true) {e : Edit}
    (he : e ∈ edits (walk site role (.node .module span parts))) :
    ∃ c ∈ parts, e.span.Inside c.span ∧ ∀ clause span' children',
      c ≠ .node (.importDecl clause) span' children' := by
  obtain ⟨-, hparts⟩ := Tree.isNested_node.mp hnested
  rw [edits_walk_of_idle rfl rfl] at he
  obtain ⟨s, r, c, hzip, -, hmem, hinside⟩ := exists_child_of_mem_edits hsource hparts
    (fun c hc => editsFit_walk c (hparts c hc)) he
  refine ⟨c, (List.of_mem_zip hzip).2, hinside, ?_⟩
  rintro clause span' children' rfl
  -- an import is walked through without an edit
  have hnone : edits (walk s r (.node (.importDecl clause) span' children')) = [] := by
    rw [edits_walk_of_idle rfl rfl]
    exact congrArg edits (walkAll_nil_left children')
  rw [hnone] at hmem
  cases hmem

/-- The blanks at the front of a script come before all edits. -/
theorem le_start_of_mem_edits {source : List Char} {site : Site} {role : Role} {span : Span}
    {parts : List Tree} (hsource : site.source = source)
    (hnested : (Script.Tree.node .module span parts).isNested source = true) {e : Edit}
    (he : e ∈ edits (walk site role (.node .module span parts))) :
    Chars.size (source.takeWhile Chars.isBlank) ≤ e.span.start := by
  obtain ⟨c, hc, hinside, -⟩ := exists_part_of_mem_edits hsource hnested he
  have hfirm := (Tree.isNested_node.mp hnested).1.firm
  rw [Kind.isFirm, List.all_eq_true] at hfirm
  exact Nat.le_trans (Chars.le_start_of_startsFirm (hfirm c hc)) hinside.start

/-- An interpreter line ends between two characters. -/
theorem between_interpreterEnd {source : List Char} {n : Nat}
    (h : interpreterEnd? source = some n) : Chars.Between source n := by
  rw [interpreterEnd?.eq_def] at h
  split at h
  · rename_i rest
    dsimp only at h
    split at h
    · rename_i hshort
      obtain rfl := Option.some.inj h
      generalize '#' :: '!' :: rest = source at hshort ⊢
      -- the line ends with a line feed, or nothing is left behind it
      have hcut : source.takeWhile (· != '\n') ++ source.dropWhile (· != '\n') = source :=
        List.takeWhile_append_dropWhile
      have hhead := List.head?_dropWhile_not (· != '\n') source
      cases hdrop : source.dropWhile (· != '\n') with
      | nil =>
        rw [hdrop, List.append_nil] at hcut
        rw [hcut] at hshort
        exact absurd hshort (Nat.lt_irrefl _)
      | cons c after =>
        rw [hdrop] at hcut hhead
        have hc : c = '\n' := by simpa using hhead
        refine ⟨source.takeWhile (· != '\n') ++ [c], after, ?_, ?_⟩
        · rw [List.append_assoc, List.singleton_append, hcut]
        · rw [hc, Chars.size_append]
          rfl
    · cases h
  · cases h

/-- The import stands apart from the edits of the walk over a script, but for one that is written
below a line that names an interpreter. -/
theorem import_apart {source : List Char} (site : Site) (role : Role) {span : Span}
    {parts : List Tree} (hsource : site.source = source)
    (hnested : (Script.Tree.node .module span parts).isNested source = true) {names : List String}
    {path : String} {f : Edit}
    (hplan : planImport (.node .module span parts) source names path = .ok (some f)) :
    f.span.Cuts source ∧
      ((∀ e ∈ edits (walk site role (.node .module span parts)), e.span.Apart f.span) ∨
        importsOf (.node .module span parts) = [] ∧
          ∃ n, interpreterEnd? source = some n ∧ f.span = Span.point n) := by
  have hpoint {n : Nat} (hspan : f.span = Span.point n) (hn : Chars.Between source n) :
      f.span.Cuts source := by
    rw [hspan]
    exact ⟨Nat.le_refl _, hn, hn⟩
  rcases exists_import_of_planImport hnested hplan with
    ⟨n, i, hi, hspan, hinside, hn⟩ | ⟨hnil, statement, rfl⟩
  · -- at an import that is there, in which nothing is edited
    refine ⟨hpoint hspan hn, Or.inl ?_⟩
    intro e he
    obtain ⟨importParts, hmem⟩ := exists_importDecl_of_mem hi
    obtain ⟨c, hc, hec, hne⟩ := exists_part_of_mem_edits hsource hnested he
    rw [hspan]
    exact ((Tree.isNested_node.mp hnested).1.apart_of_ne rfl hc hmem (hne _ _ _)).of_inside hec
      hinside
  · rcases newImport_cases [] source statement with
      ⟨i, hi, -⟩ | ⟨-, ⟨n, hn, hspan⟩ | ⟨-, hspan | hspan⟩⟩
    · cases hi
    · exact ⟨hpoint hspan (between_interpreterEnd hn), Or.inr ⟨hnil, n, hn, hspan⟩⟩
    · -- at the end of the script
      refine ⟨hpoint hspan (Chars.between_size source), Or.inl ?_⟩
      intro e he
      have hcuts := (editsFit_walk _ hnested site role hsource).cuts e he
      rw [hspan]
      exact Or.inl hcuts.stop.le_size
    · -- at its front
      have hfront : Chars.Between source (Chars.size (source.takeWhile Chars.isBlank)) :=
        ⟨_, source.dropWhile Chars.isBlank, List.takeWhile_append_dropWhile.symm, rfl⟩
      refine ⟨hpoint hspan hfront, Or.inl ?_⟩
      intro e he
      rw [hspan]
      exact Or.inr (le_start_of_mem_edits hsource hnested he)

end Harvest

/-! ## Harvested scripts -/

open Harvest

namespace Harvester

/-- The harvest of a script that is parsed already. -/
def harvestTree (h : Harvester) (code : String) (inject : Bool) (script : Tree) : ScriptHarvest :=
  let harvest := Harvest.ofActions
    (walk { harvester := h, source := code.toList, quote := .double } .plain script)
  if inject && h.wantsImport harvest then h.addImport script code.toList harvest else { harvest }

/-- The edits that the walk over a script makes. -/
def walkEdits (h : Harvester) (code : String) (script : Tree) : List Edit :=
  edits (walk { harvester := h, source := code.toList, quote := .double } .plain script)

/-- The edit that imports what the calls in a script need. -/
def importEdit? (h : Harvester) (code : String) (inject : Bool) (script : Tree) : Option Edit :=
  let harvest := Harvest.ofActions
    (walk { harvester := h, source := code.toList, quote := .double } .plain script)
  if inject && h.wantsImport harvest then
    (planImport script code.toList (h.neededNames harvest.usesWrapper)
      h.options.importPath).toOption.join
  else none

/-- The edits of a script are those of its walk, and the import. -/
theorem edits_harvestTree (h : Harvester) (code : String) (inject : Bool) (script : Tree) :
    (h.harvestTree code inject script).harvest.patch.edits =
      h.walkEdits code script ++ (h.importEdit? code inject script).toList := by
  simp only [harvestTree, importEdit?]
  split
  · rw [addImport]
    split
    · rename_i e hplan
      rw [hplan]
      rfl
    · rename_i hplan
      rw [hplan]
      exact (List.append_nil _).symm
    · rename_i c hplan
      rw [hplan]
      exact (List.append_nil _).symm
  · exact (List.append_nil _).symm

/-- The findings of a script are those of its walk. -/
theorem findings_harvestTree (h : Harvester) (code : String) (inject : Bool) (script : Tree) :
    (h.harvestTree code inject script).harvest.findings =
      records (walk { harvester := h, source := code.toList, quote := .double } .plain script) := by
  rw [harvestTree]
  split
  · exact (h.addImport_catalog script code.toList _).2
  · rfl

/-- No edit of a harvested script is lost: its edits stand apart, all of them are applied, and every
text that is recorded as taken has its key in one of them. -/
structure Lossless (h : Harvester) (code : String) (harvest : Harvest) : Prop where
  apart : harvest.patch.edits.Pairwise fun e f => e.span.Apart f.span
  applied : harvest.patch.AppliesAll code
  replaced : ∀ f ∈ harvest.findings, f.dynamic = false →
    ∃ e ∈ harvest.patch.edits, Mentions (h.keyFor f.text) e.text

/-- An import is written below the line that names an interpreter, and an edit goes on both sides of
that place. -/
def crossesImport (h : Harvester) (code : String) (inject : Bool) (script : Tree) : Bool :=
  (h.importEdit? code inject script).isSome && (importsOf script).isEmpty &&
    (interpreterEnd? code.toList).any fun n =>
      (h.walkEdits code script).any fun e => e.span.start < n && n < e.span.stop

/-- When a replacement reaches over the place of the import. -/
theorem crossesImport_iff {h : Harvester} {code : String} {inject : Bool} {script : Tree} :
    h.crossesImport code inject script = true ↔ ∃ f n, h.importEdit? code inject script = some f ∧
      importsOf script = [] ∧ interpreterEnd? code.toList = some n ∧
        ∃ e ∈ h.walkEdits code script, e.span.start < n ∧ n < e.span.stop := by
  simp only [crossesImport, Bool.and_eq_true, Option.isSome_iff_exists, List.isEmpty_iff,
    Option.any_eq_true, List.any_eq_true, decide_eq_true_eq]
  constructor
  · rintro ⟨⟨⟨f, hf⟩, hnil⟩, n, hn, hcross⟩
    exact ⟨f, n, hf, hnil, hn, hcross⟩
  · rintro ⟨f, n, hf, hnil, hn, hcross⟩
    exact ⟨⟨⟨f, hf⟩, hnil⟩, n, hn, hcross⟩

/-- The import that is added is one that was planned. -/
theorem planImport_of_importEdit? {h : Harvester} {code : String} {inject : Bool} {script : Tree}
    {f : Edit} (hf : h.importEdit? code inject script = some f) :
    ∃ names path, planImport script code.toList names path = .ok (some f) := by
  rw [importEdit?] at hf
  split at hf
  · exact ⟨_, _, eq_ok_of_toOption (Option.join_eq_some_iff.mp hf)⟩
  · cases hf

/-- The edits of a script over a nested tree fall between characters, and they stand apart just when
none goes over the import below the line that names an interpreter. -/
theorem apart_edits_iff (h : Harvester) {code : String} (inject : Bool) {script : Tree}
    (hmodule : script.kind = .module) (hnested : script.isNested code.toList = true) :
    (∀ e ∈ (h.harvestTree code inject script).harvest.patch.edits, e.span.Cuts code.toList) ∧
      ((h.harvestTree code inject script).harvest.patch.edits.Pairwise
          (fun e f => e.span.Apart f.span) ↔
        h.crossesImport code inject script = false) := by
  obtain ⟨kind, span, parts⟩ := script
  obtain rfl : kind = .module := hmodule
  have hwalk : EditsFit code.toList _ (h.walkEdits code (.node .module span parts)) :=
    editsFit_walk _ hnested _ _ rfl
  rw [edits_harvestTree, ← Bool.not_eq_true, crossesImport_iff]
  -- without an import the edits of the walk are apart
  cases hf : h.importEdit? code inject (.node .module span parts) with
  | none =>
    rw [Option.toList_none, List.append_nil]
    exact ⟨hwalk.cuts, by simp [hwalk.apart]⟩
  | some f =>
    obtain ⟨names, path, hplan⟩ := planImport_of_importEdit? hf
    obtain ⟨hcuts, hplace⟩ := import_apart
      { harvester := h, source := code.toList, quote := .double } .plain rfl hnested hplan
    rw [Option.toList_some]
    refine ⟨?_, ?_, ?_⟩
    · intro e he
      rcases List.mem_append.mp he with he | he
      · exact hwalk.cuts e he
      · rw [List.mem_singleton.mp he]
        exact hcuts
    · rintro hapart ⟨f', n, hf', hnil, hn, e, he, hstart, hstop⟩
      -- with one they are, unless an edit reaches over the end of the interpreter line
      have hspan := span_of_interpreterEnd? hplan hnil hn
      have hef := (List.pairwise_append.mp hapart).2.2 e he f List.mem_cons_self
      rw [hspan] at hef
      rcases hef with hef | hef
      · exact absurd hef (Nat.not_le.mpr hstop)
      · exact absurd hef (Nat.not_le.mpr hstart)
    · intro hnone
      refine List.pairwise_append.mpr ⟨hwalk.apart, List.pairwise_singleton _ _, ?_⟩
      intro e he f' hf'
      rw [List.mem_singleton.mp hf']
      rcases hplace with hplace | ⟨hnil, n, hn, hspan⟩
      · exact hplace e he
      · rw [hspan]
        by_cases hstart : e.span.start < n
        · refine Or.inl (Nat.not_lt.mp fun hstop => hnone ?_)
          exact ⟨f, n, rfl, hnil, hn, e, he, hstart, hstop⟩
        · exact Or.inr (Nat.not_lt.mp hstart)

/-- Over a nested tree of a script, no edit is lost just when none goes over the import below the
line that names an interpreter. -/
theorem lossless_iff {h : Harvester} {code : String} {inject : Bool} {script : Tree}
    (hmodule : script.kind = .module) (hnested : script.isNested code.toList = true) :
    h.Lossless code (h.harvestTree code inject script).harvest ↔
      h.crossesImport code inject script = false := by
  obtain ⟨hcuts, hiff⟩ := h.apart_edits_iff inject hmodule hnested
  constructor
  · intro hlossless
    exact hiff.mp hlossless.apart
  · intro hcross
    have hapart := hiff.mpr hcross
    refine ⟨hapart, Patch.appliesAll_of_apart hcuts hapart, ?_⟩
    intro f hf hstatic
    rw [findings_harvestTree] at hf
    -- a static finding has its own edit, which writes a call with the key of the text
    obtain ⟨e, he, hmentions⟩ := replaced_walk
      { harvester := h, source := code.toList, quote := .double } .plain script f
      (mem_records.mp hf) hstatic
    refine ⟨e, ?_, hmentions⟩
    rw [edits_harvestTree]
    exact List.mem_append_left _ (mem_edits.mpr he)

/-- A wrapper element behind a line that names an interpreter: the identifier, the removal of the
message with the blanks before it, and the import. -/
theorem lossless_iff_wrapper : ∃ h t,
    ofOptions { replaceTexts := true } = .ok h ∧
      parseModule "#!/usr/bin/env node\nconst a = <Trans\n msg=\"你好\" />;" (.ofName (some "tsx")) =
        .ok t ∧
      h.Lossless "#!/usr/bin/env node\nconst a = <Trans\n msg=\"你好\" />;"
        (h.harvestTree "#!/usr/bin/env node\nconst a = <Trans\n msg=\"你好\" />;" true t).harvest ∧
      (h.harvestTree "#!/usr/bin/env node\nconst a = <Trans\n msg=\"你好\" />;" true
        t).harvest.patch.edits.length = 3 := by
  -- the wrapper spans lines, but the interpreter line is ended before it
  have heval : (ofOptions { replaceTexts := true }).toOption.map (fun h =>
      (parseModule "#!/usr/bin/env node\nconst a = <Trans\n msg=\"你好\" />;"
        (.ofName (some "tsx"))).toOption.map fun t =>
          decide (t.kind = .module ∧
            t.isNested "#!/usr/bin/env node\nconst a = <Trans\n msg=\"你好\" />;".toList = true ∧
            h.crossesImport "#!/usr/bin/env node\nconst a = <Trans\n msg=\"你好\" />;" true t =
              false ∧
            (h.harvestTree "#!/usr/bin/env node\nconst a = <Trans\n msg=\"你好\" />;" true
              t).harvest.patch.edits.length = 3)) = some (some true) := by
    decide +kernel
  obtain ⟨h, hh, hparsed⟩ := exists_ok_of_toOption_map heval
  obtain ⟨t, ht, hviews⟩ := exists_ok_of_toOption_map hparsed
  obtain ⟨hmodule, hnested, hcross, hlength⟩ := of_decide_eq_true hviews
  exact ⟨h, t, hh, ht, (lossless_iff hmodule hnested).mpr hcross, hlength⟩

/-- A line that names an interpreter and ends by a carriage return: the import falls into the text
that is replaced below it. -/
theorem not_lossless_interpreter : ∃ h t,
    ofOptions { replaceTexts := true } = .ok h ∧
      parseModule "#!x\rconst a = `你好\n世界`;" (.ofName (some "js")) = .ok t ∧
      t.kind = .module ∧ t.isNested "#!x\rconst a = `你好\n世界`;".toList = true ∧
      ¬h.Lossless "#!x\rconst a = `你好\n世界`;"
        (h.harvestTree "#!x\rconst a = `你好\n世界`;" true t).harvest := by
  have heval : (ofOptions { replaceTexts := true }).toOption.map (fun h =>
      (parseModule "#!x\rconst a = `你好\n世界`;" (.ofName (some "js"))).toOption.map fun t =>
        decide (t.kind = .module ∧ t.isNested "#!x\rconst a = `你好\n世界`;".toList = true ∧
          ¬(h.harvestTree "#!x\rconst a = `你好\n世界`;" true t).harvest.patch.edits.Pairwise
            fun e f => e.span.Apart f.span)) = some (some true) := by
    decide +kernel
  obtain ⟨h, hh, hparsed⟩ := exists_ok_of_toOption_map heval
  obtain ⟨t, ht, hviews⟩ := exists_ok_of_toOption_map hparsed
  obtain ⟨hmodule, hnested, hcross⟩ := of_decide_eq_true hviews
  exact ⟨h, t, hh, ht, hmodule, hnested, fun hlossless => hcross hlossless.apart⟩

end Harvester

end TextHarvest
