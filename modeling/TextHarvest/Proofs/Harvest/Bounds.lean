import TextHarvest.Proofs.Harvest.Chunk
import TextHarvest.Proofs.Harvest.Places
import TextHarvest.Proofs.Patch

/-!
# Edits stay in the text

A walk makes its edits at the spans of the nodes that it reaches, or at a part of them. As long as
the spans of a tree lie in the text it was read from, so do all edits.

Main results:

* `within_of_mem_edits_walk` — the edits of a walk lie in its source.
* `Harvester.within_of_mem_harvestScript` — and so do those of a script with the import.
-/

namespace TextHarvest

/-- A range of a text of `n` bytes. -/
def Span.Within (s : Span) (n : Nat) : Prop :=
  s.start ≤ s.stop ∧ s.stop ≤ n

instance (s : Span) (n : Nat) : Decidable (s.Within n) :=
  inferInstanceAs (Decidable (_ ∧ _))

/-- A point is in a text just when it is not behind its end. -/
theorem Span.within_point {offset n : Nat} : (Span.point offset).Within n ↔ offset ≤ n := by
  simp [Span.Within, Span.point]

namespace Script

/-- The ranges that a node carries besides its own. -/
def Kind.spans : Kind → List Span
  | .template chunks => chunks.map (·.span)
  | .tagged chunks => chunks.map (·.span)
  | .element (.plain _ span) => [span]
  | .importDecl clause => clause.specifiers.map (·.span)
  | _ => []

mutual

/-- All ranges of a tree. -/
def Tree.spans : Tree → List Span
  | .node kind span children => span :: (kind.spans ++ Tree.spansAll children)

/-- All ranges of some trees. -/
def Tree.spansAll : List Tree → List Span
  | [] => []
  | t :: ts => t.spans ++ Tree.spansAll ts

end

namespace Tree

/-- The span of a tree is one of its spans. -/
theorem span_mem_spans (t : Tree) : t.span ∈ t.spans := by
  cases t
  exact List.mem_cons_self

/-- The spans of a tree are among those of its list. -/
theorem spans_subset_spansAll {t : Tree} {ts : List Tree} (h : t ∈ ts) : t.spans ⊆ spansAll ts := by
  induction ts with
  | nil => cases h
  | cons u ts ih =>
    rw [spansAll]
    rcases List.mem_cons.mp h with rfl | h
    · exact List.subset_append_left _ _
    · exact List.Subset.trans (ih h) (List.subset_append_right _ _)

/-- The spans of a child are among those of its node. -/
theorem spans_subset_of_mem_children {kind : Kind} {span : Span} {children : List Tree} {c : Tree}
    (h : c ∈ children) : c.spans ⊆ (Tree.node kind span children).spans := by
  rw [spans]
  have hkind : spansAll children ⊆ kind.spans ++ spansAll children := List.subset_append_right _ _
  exact List.subset_cons_of_subset _ (List.Subset.trans (spans_subset_spansAll h) hkind)

/-- The spans that a kind holds are among those of its node. -/
theorem kind_spans_subset (kind : Kind) (span : Span) (children : List Tree) :
    kind.spans ⊆ (Tree.node kind span children).spans := by
  rw [spans]
  exact List.subset_cons_of_subset _ (List.subset_append_left _ _)

/-- What is spread has no spans of its own. -/
theorem spans_unspread_subset (t : Tree) : t.unspread.spans ⊆ t.spans := by
  rw [unspread.eq_def]
  split
  · exact spans_subset_of_mem_children List.mem_cons_self
  · exact List.Subset.refl _

end Tree

end Script

/-! ## Parts of a text -/

namespace Chars

/-- A reversed text has as many bytes. -/
theorem size_reverse (cs : List Char) : size cs.reverse = size cs := by
  induction cs with
  | nil => rfl
  | cons c cs ih =>
    rw [List.reverse_cons, size_append, ih, size_cons, size_cons, size_nil]
    omega

/-- The end of a text is no longer than the text. -/
theorem size_le_of_suffix {cs ds : List Char} (h : cs <:+ ds) : size cs ≤ size ds := by
  obtain ⟨front, rfl⟩ := h
  rw [size_append]
  omega

/-- The front of a text is no longer than the text. -/
theorem size_le_of_prefix {cs ds : List Char} (h : cs <+: ds) : size cs ≤ size ds := by
  obtain ⟨rest, rfl⟩ := h
  rw [size_append]
  omega

/-- A text trimmed at its end is a front of it. -/
theorem prefix_trimEnd (cs : List Char) : trimEnd cs <+: cs := by
  rw [trimEnd, ← List.reverse_suffix, List.reverse_reverse]
  exact List.dropWhile_suffix _

/-- What a slice is cut out of. -/
theorem slice?_eq_some {cs xs : List Char} {span : Span} (h : slice? cs span = some xs) :
    ∃ front back, cs = front ++ (xs ++ back) ∧ span.start = size front ∧
      span.stop = span.start + size xs := by
  rw [slice?] at h
  split at h
  · rename_i hle
    split at h
    · rename_i rest hdrop
      obtain ⟨front, rfl, hfront⟩ := drop?_eq_some hdrop
      obtain ⟨⟨a, b⟩, hcut, rfl⟩ := Option.map_eq_some_iff.mp h
      obtain ⟨rfl, hsize⟩ := splitAt?_eq_some_iff.mp hcut
      exact ⟨front, b, rfl, hfront.symm, by dsimp only; omega⟩
    · cases h
  · cases h

/-- What is left of a trimmed text is in the text. -/
theorem trimmedSpan?_within {cs : List Char} {inner : Span} (h : trimmedSpan? cs = some inner) :
    inner.Within (size cs) := by
  rw [trimmedSpan?] at h
  split at h
  · rename_i hlt
    obtain rfl := Option.some.inj h
    exact ⟨Nat.le_of_lt hlt, size_le_of_prefix (prefix_trimEnd cs)⟩
  · cases h

end Chars

namespace Harvest

open Script

/-- What is written for the trimmed value of a chunk is in the chunk. -/
theorem writtenSpan?_within {raw cooked : List Char} {inner : Span}
    (h : writtenSpan? raw cooked = some inner) : inner.Within (Chars.size raw) := by
  obtain ⟨front, xs, back, f, b, hedges⟩ := exists_edges h
  rw [hedges.written, hedges.place, Chars.size_append, Chars.size_append]
  exact ⟨Nat.le_add_right _ _, by dsimp only; omega⟩

/-- A range of a part of a text is in the text. -/
theorem within_shift {inner : Span} {span : Span} {n : Nat} {xs : List Char}
    (hinner : inner.Within (Chars.size xs)) (hspan : span.stop = span.start + Chars.size xs)
    (hn : span.stop ≤ n) : (inner.shift span.start).Within n := by
  obtain ⟨horder, hstop⟩ := hinner
  constructor
  · dsimp only [Span.shift]
    omega
  · dsimp only [Span.shift]
    omega

/-! ## The edits of one place -/

/-- Every edit among some actions lies in a text of `n` bytes. -/
def EditsWithin (n : Nat) (actions : List Action) : Prop :=
  ∀ e, .edit e ∈ actions → e.span.Within n

section

variable {n : Nat}

/-- Nothing to do is within any bounds. -/
theorem editsWithin_nil : EditsWithin n [] := by
  intro e hmem
  cases hmem

/-- Actions one after the other. -/
theorem editsWithin_append {as bs : List Action} (has : EditsWithin n as)
    (hbs : EditsWithin n bs) : EditsWithin n (as ++ bs) := by
  intro e hmem
  rcases List.mem_append.mp hmem with hmem | hmem
  · exact has e hmem
  · exact hbs e hmem

/-- An action in front of others. -/
theorem editsWithin_cons {a : Action} {as : List Action} (ha : EditsWithin n [a])
    (has : EditsWithin n as) : EditsWithin n (a :: as) :=
  editsWithin_append ha has

/-- A replacement within the text. -/
theorem editsWithin_replace {span : Span} (h : span.Within n) (text : String) :
    EditsWithin n [.replace span text] := by
  intro e hmem
  rw [Action.replace, List.mem_singleton, Action.edit.injEq] at hmem
  rw [hmem]
  exact h

/-- An insertion within the text. -/
theorem editsWithin_insert {offset : Nat} (h : offset ≤ n) (text : String) :
    EditsWithin n [.insert offset text] :=
  editsWithin_replace (Span.within_point.mpr h) text

/-- Filing a text changes nothing. -/
theorem editsWithin_file (site : Site) (text : String) (surface : Surface) :
    EditsWithin n (site.file text surface) := by
  intro e hmem
  simp [Site.file] at hmem

variable {site : Site}

/-- A literal is changed where it stands. -/
theorem editsWithin_literal {span : Span} (h : span.Within n) (value : Option String)
    (slot : Slot) : EditsWithin n (site.literal span value slot) := by
  rw [Site.literal.eq_def]
  split
  · split
    · exact editsWithin_append (editsWithin_file _ _ _) (editsWithin_replace h _)
    · exact editsWithin_nil
  · exact editsWithin_nil

/-- A constant argument is changed where it stands. -/
theorem editsWithin_constantArgument {span : Span} (h : span.Within n) (value : Option String)
    (count : Nat) : EditsWithin n (site.constantArgument span value count) := by
  rw [Site.constantArgument.eq_def]
  split
  · exact editsWithin_nil
  · split
    · exact editsWithin_nil
    · split
      · intro e hmem
        simp at hmem
      · split
        · exact editsWithin_append (editsWithin_file _ _ _) (editsWithin_replace h _)
        · exact editsWithin_nil

/-- The chunks of a template are changed within the source. -/
theorem editsWithin_chunks (chunks : List Chunk) :
    EditsWithin (Chars.size site.source) (site.chunks chunks) := by
  -- what is cut out of the source is no longer than the source
  have hchunk : ∀ c, EditsWithin (Chars.size site.source) (site.chunk c) := by
    intro c
    rw [Site.chunk.eq_def]
    split
    · exact editsWithin_nil
    · dsimp only
      split
      · rename_i hcond
        split
        · rename_i inner hinner
          rw [Bool.and_eq_true, beq_iff_eq] at hcond
          obtain ⟨front, back, hsource, hstart, hstop⟩ := Chars.slice?_eq_some hcond.2
          refine editsWithin_append (editsWithin_file _ _ _) (editsWithin_replace ?_ _)
          apply within_shift (writtenSpan?_within hinner) hstop
          rw [hsource, Chars.size_append, Chars.size_append]
          omega
        · exact editsWithin_nil
      · exact editsWithin_nil
  intro e hmem
  rw [Site.chunks] at hmem
  split at hmem
  · obtain ⟨c, -, hmem⟩ := List.mem_flatMap.mp hmem
    exact hchunk c e hmem
  · cases hmem

/-- The text of an element is changed within the source. -/
theorem editsWithin_elementText (span : Span) :
    EditsWithin (Chars.size site.source) (site.elementText span) := by
  rw [Site.elementText.eq_def]
  split
  · split
    · exact editsWithin_nil
    · rename_i raw hraw
      obtain ⟨front, back, hsource, hstart, hstop⟩ := Chars.slice?_eq_some hraw
      dsimp only
      split
      · rename_i inner hinner
        -- the text without its blanks lies in the element, and the element in the source
        have hwithin : (inner.shift span.start).Within (Chars.size site.source) := by
          apply within_shift (Chars.trimmedSpan?_within hinner) hstop
          rw [hsource, Chars.size_append, Chars.size_append]
          omega
        split
        · refine editsWithin_append (editsWithin_file _ _ _) ?_
          split
          · refine editsWithin_cons ?_ (editsWithin_replace hwithin _)
            intro e hmem
            simp at hmem
          · exact editsWithin_replace hwithin _
        · exact editsWithin_nil
      · exact editsWithin_nil
  · exact editsWithin_nil

/-- What a search from left to right comes to was there before it, or is of one of the items. -/
theorem of_foldl_eq_some {α β : Type} {f : Option β → α → Option β} {P : α → β → Prop}
    (hstep : ∀ found a b, f found a = some b → found = some b ∨ P a b) {b : β} (as : List α)
    (found : Option β) (h : as.foldl f found = some b) : found = some b ∨ ∃ a ∈ as, P a b := by
  induction as generalizing found with
  | nil => exact Or.inl h
  | cons a as ih =>
    rcases ih (f found a) h with hfound | ⟨a', hmem, ha'⟩
    · rcases hstep found a b hfound with hfound | ha
      · exact Or.inl hfound
      · exact Or.inr ⟨a, List.mem_cons_self, ha⟩
    · exact Or.inr ⟨a', List.mem_cons_of_mem a hmem, ha'⟩

/-- The span of the last attribute of a name is that of one of the attributes. -/
theorem exists_mem_of_lastAttribute {name : String} {attributes : List Tree} {text : String}
    {span : Span} (h : Site.lastAttribute name attributes = some (text, span)) :
    ∃ t ∈ attributes, t.span = span := by
  -- each attribute of the name replaces the one found before, with its own span
  have hfound := of_foldl_eq_some (P := fun (t : Tree) (found : String × Span) => t.span = found.2)
    ?hstep attributes none h
  case hstep =>
    intro found t b heq
    split at heq
    · split at heq
      · obtain ⟨_, -, rfl⟩ := Option.map_eq_some_iff.mp heq
        exact Or.inr rfl
      · exact Or.inl heq
    · exact Or.inl heq
  exact hfound.resolve_left (by simp)

/-- A message is removed with blanks in front of it only. -/
theorem editsWithin_removal {span : Span} (h : span.Within n) :
    EditsWithin n (removal site span) := by
  rw [removal_eq]
  split
  · exact editsWithin_nil
  · split
    · rename_i before _ hcut
      obtain ⟨-, hsize⟩ := Chars.splitAt?_eq_some_iff.mp hcut
      apply editsWithin_replace
      have htrim := Chars.size_le_of_prefix (Chars.prefix_trimEnd before)
      obtain ⟨horder, hstop⟩ := h
      exact ⟨by dsimp only; omega, hstop⟩
    · exact editsWithin_nil

/-- A wrapper element is changed behind its name and at its attributes. -/
theorem editsWithin_wrapperElement {nameEnd : Nat} (hname : nameEnd ≤ n) {attributes : List Tree}
    (h : ∀ t ∈ attributes, t.span.Within n) :
    EditsWithin n (site.wrapperElement nameEnd attributes) := by
  by_cases hsome : ∃ message span,
      Site.lastAttribute "msg" attributes = some (message, span) ∧ Text.trim message ≠ ""
  · obtain ⟨message, span, hmessage, hne⟩ := hsome
    obtain ⟨t, ht, rfl⟩ := exists_mem_of_lastAttribute hmessage
    have hremoval : EditsWithin n (removal site t.span) := editsWithin_removal (h t ht)
    rw [wrapperElement_of_message hmessage hne]
    split
    · intro e hmem
      rcases List.mem_cons.mp hmem with heq | hmem
      · cases heq
      · exact hremoval e hmem
    · -- the new attribute is put in behind the name, the old one is taken away
      refine editsWithin_append ?_ hremoval
      intro e hmem
      simp only [Action.insert, List.mem_cons, List.not_mem_nil, or_false, reduceCtorEq,
        Action.edit.injEq, false_or] at hmem
      rw [hmem]
      exact Span.within_point.mpr hname
  · rw [wrapperElement_of_no_message]
    · exact editsWithin_nil
    · intro message span hmessage
      exact Classical.byContradiction fun hne => hsome ⟨message, span, hmessage, hne⟩

/-- Marks are put behind the arguments of a call, or in place of them. -/
theorem editsWithin_markDynamic {args : List Tree} (h : ∀ s ∈ Tree.spansAll args, s.Within n)
    (names : List String) (quote : Quote) : EditsWithin n (markDynamic args names quote) := by
  have harg : ∀ t ∈ args, ∀ s ∈ t.spans, s.Within n :=
    fun t ht s hs => h s (Tree.spans_subset_spansAll ht hs)
  have hextend (t : Tree) (ht : ∀ s ∈ t.spans, s.Within n) :
      EditsWithin n (extendNames t names quote) := by
    rw [extendNames.eq_def]
    split
    · rename_i span elements
      dsimp only
      split
      · exact editsWithin_nil
      · split
        · rename_i last hlast
          have hmem : last ∈ elements := (List.mem_filter.mp (List.mem_of_getLast? hlast)).1
          have hspan := ht _ (Tree.spans_subset_of_mem_children hmem last.span_mem_spans)
          exact editsWithin_insert hspan.2 _
        · exact editsWithin_replace (ht _ (Tree.span_mem_spans _)) _
    · exact editsWithin_replace (ht _ (Tree.span_mem_spans _)) _
  have hunspread (t : Tree) (ht : t ∈ args) : ∀ s ∈ t.unspread.spans, s.Within n :=
    fun s hs => harg t ht s (t.spans_unspread_subset hs)
  -- one case for each number of arguments
  rw [markDynamic.eq_def]
  split
  · rename_i _ props
    exact editsWithin_insert (harg props (by simp) _ props.span_mem_spans).2 _
  · rename_i _ _ children
    exact editsWithin_insert (harg children (by simp) _ children.span_mem_spans).2 _
  · rename_i _ _ _ flag more
    have hflag := hunspread flag (by simp) _ (Tree.span_mem_spans _)
    dsimp only
    split
    · exact editsWithin_cons (editsWithin_replace hflag _) (editsWithin_insert hflag.2 _)
    · rename_i existing _
      exact editsWithin_cons (editsWithin_replace hflag _)
        (hextend _ (hunspread existing (by simp)))
  · exact editsWithin_nil

/-- A call is marked at its arguments. -/
theorem editsWithin_marks {callee : Tree} {args : List Tree}
    (h : ∀ s ∈ Tree.spansAll args, s.Within n) : EditsWithin n (marks site callee args) := by
  rw [marks]
  split
  · split
    · split
      · dsimp only
        split
        · exact editsWithin_nil
        · exact editsWithin_markDynamic h _ _
      · exact editsWithin_nil
    · exact editsWithin_nil
  · exact editsWithin_nil

/-- What is done on entering a node stays within the source when the spans of the node do. -/
theorem editsWithin_enter {role : Role} {kind : Kind} {span : Span} {children : List Tree}
    (h : ∀ s ∈ (Script.Tree.node kind span children).spans, s.Within (Chars.size site.source)) :
    EditsWithin (Chars.size site.source) (enter site role kind span children) := by
  have hspan : span.Within (Chars.size site.source) := h span List.mem_cons_self
  have hkind := Tree.kind_spans_subset kind span children
  have hchildren : ∀ c ∈ children, c.span.Within (Chars.size site.source) :=
    fun c hc => h _ (Tree.spans_subset_of_mem_children hc c.span_mem_spans)
  have hentered := entered_enter site role kind span children
  -- one case for each thing that is done at a node
  generalize enter site role kind span children = actions at hentered ⊢
  cases hentered with
  | lookup => exact editsWithin_constantArgument hspan _ _
  | dynamic =>
    intro e hmem
    simp [Site.dynamicArgument] at hmem
  | literal _ => exact editsWithin_literal hspan _ _
  | markup => exact editsWithin_literal hspan _ _
  | text => exact editsWithin_elementText _
  | @wrapper _ place =>
    have hplace := h place (hkind List.mem_cons_self)
    exact editsWithin_wrapperElement hplace.2 hchildren
  | nothing => exact editsWithin_nil

end

/-! ## The edits of a walk -/

/-- The spans of a place are among those of the tree. -/
theorem spans_subset_of_reaches {site site' : Site} {role role' : Role} {t t' : Tree}
    (h : Reaches site role t site' role' t') : t'.spans ⊆ t.spans := by
  induction h with
  | here => exact List.Subset.refl _
  | child hchild _ ih =>
    exact List.Subset.trans ih (Tree.spans_subset_of_mem_children (List.of_mem_zip hchild).2)

/-- The site of a place has the source and the harvester of the walk. -/
theorem sameGround_of_reaches {site site' : Site} {role role' : Role} {t t' : Tree}
    (h : Reaches site role t site' role' t') : site'.SameGround site := by
  induction h with
  | here site role t => exact Site.SameGround.refl site
  | child hchild _ ih =>
    exact ih.trans (onGround_visits _ _ _ _ _ (List.of_mem_zip hchild).1)

/-- The edits of a walk lie in its source, when the spans of the tree do. -/
theorem editsWithin_walk {site : Site} {role : Role} {t : Tree}
    (h : ∀ s ∈ t.spans, s.Within (Chars.size site.source)) :
    EditsWithin (Chars.size site.source) (walk site role t) := by
  intro e hmem
  obtain ⟨site', role', ⟨kind, span, children⟩, hreach, htaken⟩ := mem_walk_iff.mp hmem
  have hsource := (sameGround_of_reaches hreach).source
  have hspans := spans_subset_of_reaches hreach
  -- a tree that is reached has its ranges among those of the whole
  have hown : ∀ s ∈ (Script.Tree.node kind span children).spans,
      s.Within (Chars.size site'.source) := by
    intro s hs
    rw [hsource]
    exact h s (hspans hs)
  rw [← hsource]
  rcases htaken with henter | hleave
  · exact editsWithin_enter hown e henter
  · rcases mem_leave_iff.mp hleave with ⟨callee, args, -, rfl, hmarks⟩ | ⟨chunks, -, -, hchunks⟩
    · refine editsWithin_marks ?_ e hmarks
      intro s hs
      apply hown
      rw [Tree.spans, Tree.spansAll]
      exact List.mem_cons_of_mem _ (List.mem_append_right _ (List.mem_append_right _ hs))
    · exact editsWithin_chunks chunks e hchunks

/-! ## The edits of a script -/

/-- Whether all ranges of a script that parses lie in it. -/
def SpansWithin (code : String) (dialect : Dialect) : Prop :=
  ∀ t, parseModule code dialect = .ok t → ∀ s ∈ t.spans, s.Within (Chars.size code.toList)

instance (code : String) (dialect : Dialect) : Decidable (SpansWithin code dialect) :=
  decidable_of_iff ((parseModule code dialect).toOption.all fun t =>
      t.spans.all fun s => decide (s.Within (Chars.size code.toList))) <| by
    cases hparse : parseModule code dialect with
    | error e => simp [SpansWithin, hparse, Except.toOption]
    | ok t => simp [SpansWithin, hparse, Except.toOption]

/-- An import and its names stand in the source. -/
theorem span_within_of_mem_importsOf {n : Nat} {t : Tree} (h : ∀ s ∈ t.spans, s.Within n)
    {i : ImportSite} (hi : i ∈ importsOf t) :
    i.span.Within n ∧ ∀ s ∈ i.clause.specifiers, s.span.Within n := by
  obtain ⟨u, hu, heq⟩ := List.mem_filterMap.mp hi
  cases t with
  | node kind span children =>
    have hsub : u.spans ⊆ (Script.Tree.node kind span children).spans :=
      Tree.spans_subset_of_mem_children hu
    split at heq
    · rename_i clause span' children'
      obtain rfl := Option.some.inj heq
      -- the spans of an import are those of its declaration and of its specifiers
      refine ⟨h _ (hsub List.mem_cons_self), ?_⟩
      intro s hs
      apply h _ (hsub (Tree.kind_spans_subset _ _ _ _))
      exact List.mem_map_of_mem hs
    · cases heq

/-- Names are added behind names that stand in the source. -/
theorem within_extendImport {n : Nat} {i : ImportSite}
    (h : ∀ s ∈ i.clause.specifiers, s.span.Within n) (names : String) :
    (extendImport i names).span.Within n := by
  -- the names go behind the last specifier, or behind all of them
  have hmax : ∀ (stops : List Nat) (m : Nat), m ≤ n → (∀ k ∈ stops, k ≤ n) →
      stops.foldl max m ≤ n := by
    intro stops
    induction stops with
    | nil => exact fun m hm _ => hm
    | cons k stops ih =>
      intro m hm hstops
      obtain ⟨hk, hstops⟩ := List.forall_mem_cons.mp hstops
      exact ih (max m k) (Nat.max_le.mpr ⟨hm, hk⟩) hstops
  rw [extendImport]
  split
  · rename_i s hlast
    have hs := (List.mem_filter.mp (List.mem_of_getLast? hlast)).1
    exact Span.within_point.mpr (h s hs).2
  · apply Span.within_point.mpr
    apply hmax _ 0 (Nat.zero_le n)
    intro k hk
    obtain ⟨s, hs, rfl⟩ := List.mem_map.mp hk
    exact (h s hs).2

/-- A line that does not go on to the end of a text leaves room for what ends it. -/
theorem size_takeWhile_lt {p : Char → Bool} {cs : List Char}
    (h : (cs.takeWhile p).length < cs.length) :
    Chars.size (cs.takeWhile p) + 1 ≤ Chars.size cs := by
  have hcut : cs.takeWhile p ++ cs.dropWhile p = cs := List.takeWhile_append_dropWhile
  have hrest : cs.dropWhile p ≠ [] := by
    intro hnil
    rw [hnil, List.append_nil] at hcut
    rw [hcut] at h
    exact Nat.lt_irrefl _ h
  have hpos := mt Chars.eq_nil_of_size_eq_zero hrest
  have hsize := congrArg Chars.size hcut
  rw [Chars.size_append] at hsize
  omega

/-- A new import is put behind the last one, or behind what the script starts with. -/
theorem within_newImport {imports : List ImportSite} {source : List Char}
    (h : ∀ i ∈ imports, i.span.Within (Chars.size source)) (statement : String) :
    (newImport imports source statement).span.Within (Chars.size source) := by
  rw [newImport.eq_def]
  -- an import, an interpreter line or the blanks in front of the script
  split
  · rename_i i hlast
    exact Span.within_point.mpr (h i (List.mem_of_getLast? hlast)).2
  · split
    · dsimp only
      split
      · rename_i hshort
        apply Span.within_point.mpr
        apply size_takeWhile_lt
        exact hshort
      · exact Span.within_point.mpr (Nat.le_refl _)
    · apply Span.within_point.mpr
      exact Chars.size_le_of_prefix (List.takeWhile_prefix _)

/-- The plan for an import stays within the source. -/
theorem within_planImport {t : Tree} {source : List Char}
    (h : ∀ s ∈ t.spans, s.Within (Chars.size source)) {names : List String} {path : String}
    {e : Edit} (hplan : planImport t source names path = .ok (some e)) :
    e.span.Within (Chars.size source) := by
  have himports : ∀ i ∈ importsOf t, i.span.Within (Chars.size source) ∧
      ∀ s ∈ i.clause.specifiers, s.span.Within (Chars.size source) :=
    fun i hi => span_within_of_mem_importsOf h hi
  rw [planImport] at hplan
  cases hmissing : (importNames names).filterM
      (needsImport (importsOf t) (declared t) path) with
  | error c =>
    simp only [hmissing] at hplan
    cases hplan
  | ok missing =>
    simp only [hmissing] at hplan
    -- what is missing goes into an import that is there, or into a new one
    change (if missing.isEmpty then _ else _) = _ at hplan
    split at hplan
    · cases hplan
    · split at hplan
      · rename_i i hfind
        obtain rfl := Option.some.inj (Except.ok.inj hplan)
        exact within_extendImport (himports i (List.mem_of_find?_eq_some hfind)).2 _
      · obtain rfl := Option.some.inj (Except.ok.inj hplan)
        exact within_newImport (fun i hi => (himports i hi).1) _

end Harvest

open Harvest in
/-- The edits of a script lie in it. -/
theorem Harvester.within_of_mem_harvestScript {h : Harvester} {code : String}
    {dialect : Script.Dialect} {inject : Bool} (hspans : SpansWithin code dialect)
    {script : ScriptHarvest} (hscript : h.harvestScript code dialect inject = .ok script) :
    ∀ e ∈ script.harvest.patch.edits, e.span.Within (Chars.size code.toList) := by
  rw [harvestScript] at hscript
  cases hparse : Script.parseModule code dialect with
  | error e => simp [hparse, Except.map] at hscript
  | ok t =>
    have ht := hspans t hparse
    -- the edits of the walk, then the one of the import
    have hwalk : ∀ e ∈ edits (walk { harvester := h, source := code.toList, quote := .double }
        .plain t), e.span.Within (Chars.size code.toList) :=
      fun e he => editsWithin_walk ht e (mem_edits.mp he)
    rw [hparse, Except.map, Except.ok.injEq] at hscript
    subst hscript
    dsimp only
    split
    · rw [addImport]
      split
      · rename_i new hplan
        intro e he
        rcases List.mem_append.mp he with he | he
        · exact hwalk e he
        · obtain rfl := List.mem_singleton.mp he
          exact within_planImport ht hplan
      · exact hwalk
      · exact hwalk
    · exact hwalk

end TextHarvest
