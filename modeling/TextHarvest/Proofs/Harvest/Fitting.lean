import TextHarvest.Proofs.Harvest.Nested

/-!
# Edits that fit into a tree

Edits are made at literals, at parts of the chunks of a template and at the name and the message of a
wrapper element. Over a tree whose ranges are nested they lie in the range of the node at which they
are made, fall between characters and stand apart. The removal of a message reaches back over the
blanks before it, but not into the part of the element that comes before.

Main results:

* `editsFit_children` — the edits below a node lie in its children.
* `editsFit_elementText`, `editsFit_chunks` and `editsFit_wrapperElement` — the edits of one place.
* `apart_wrapperElement` — the edits of a wrapper element and of its other parts.
-/

namespace TextHarvest

open Script

namespace Script.Tree

/-- A child is smaller than its node. -/
theorem sizeOf_lt_of_mem {t c : Tree} (h : c ∈ t.children) : sizeOf c < sizeOf t := by
  obtain ⟨kind, span, children⟩ := t
  have hlt : sizeOf c < sizeOf children := List.sizeOf_lt_of_mem h
  rw [Tree.node.sizeOf_spec]
  omega

/-- What is spread is no larger than the spread. -/
theorem sizeOf_unspread_le (t : Tree) : sizeOf t.unspread ≤ sizeOf t := by
  rw [unspread.eq_def]
  split
  · exact Nat.le_of_lt (sizeOf_lt_of_mem List.mem_cons_self)
  · exact Nat.le_refl _

/-- The children of a nested tree are nested. -/
theorem isNested_of_mem {source : List Char} {t c : Tree} (h : t.isNested source = true)
    (hc : c ∈ t.children) : c.isNested source = true := by
  obtain ⟨kind, span, children⟩ := t
  exact (isNested_node.mp h).2 c hc

end Script.Tree

namespace Harvest

/-- Edits of actions one after the other. -/
theorem edits_append (as bs : List Action) : edits (as ++ bs) = edits as ++ edits bs :=
  List.filterMap_append

/-! ## Edits that fit into some ranges -/

/-- Edits that lie in some ranges, fall between characters and stand apart. -/
structure EditsFit (source : List Char) (ranges : List Span) (es : List Edit) : Prop where
  inside : ∀ e ∈ es, ∃ s ∈ ranges, e.span.Inside s
  cuts : ∀ e ∈ es, e.span.Cuts source
  apart : es.Pairwise fun e f => e.span.Apart f.span

section

variable {source : List Char}

/-- No edits fit anywhere. -/
theorem editsFit_nil (ranges : List Span) : EditsFit source ranges [] where
  inside := by simp
  cuts := by simp
  apart := .nil

/-- One edit fits where it lies. -/
theorem editsFit_single {range : Span} {e : Edit} (hinside : e.span.Inside range)
    (hcuts : e.span.Cuts source) : EditsFit source [range] [e] where
  inside := by simpa using hinside
  cuts := by simpa using hcuts
  apart := List.pairwise_singleton _ _

/-- Edits that do not cross fit together. -/
theorem EditsFit.append {ranges : List Span} {es fs : List Edit} (hes : EditsFit source ranges es)
    (hfs : EditsFit source ranges fs) (hcross : ∀ e ∈ es, ∀ f ∈ fs, e.span.Apart f.span) :
    EditsFit source ranges (es ++ fs) where
  inside := by
    intro e he
    rcases List.mem_append.mp he with he | he
    · exact hes.inside e he
    · exact hfs.inside e he
  cuts := by
    intro e he
    rcases List.mem_append.mp he with he | he
    · exact hes.cuts e he
    · exact hfs.cuts e he
  apart := List.pairwise_append.mpr ⟨hes.apart, hfs.apart, hcross⟩

/-- Edits that lie in some ranges lie in any that take these in. -/
theorem EditsFit.mono {ranges ranges' : List Span} {es : List Edit}
    (hes : EditsFit source ranges es) (hranges : ∀ s ∈ ranges, ∃ s' ∈ ranges', s.Inside s') :
    EditsFit source ranges' es where
  inside := by
    intro e he
    obtain ⟨s, hs, hes⟩ := hes.inside e he
    obtain ⟨s', hs', hss'⟩ := hranges s hs
    exact ⟨s', hs', hes.trans hss'⟩
  cuts := hes.cuts
  apart := hes.apart

/-- What fits into some ranges fits into more. -/
theorem EditsFit.of_subset {ranges ranges' : List Span} {es : List Edit}
    (hes : EditsFit source ranges es) (hsub : ranges ⊆ ranges') : EditsFit source ranges' es where
  inside := by
    intro e he
    obtain ⟨s, hs, hes⟩ := hes.inside e he
    exact ⟨s, hsub hs, hes⟩
  cuts := hes.cuts
  apart := hes.apart

/-- Edits in one range stand apart from those in another that stands apart. -/
theorem EditsFit.apart_of_clear {ranges ranges' : List Span} {es fs : List Edit}
    (hes : EditsFit source ranges es) (hfs : EditsFit source ranges' fs)
    (hclear : ∀ a ∈ ranges, ∀ b ∈ ranges', a.Apart b) :
    ∀ e ∈ es, ∀ f ∈ fs, e.span.Apart f.span := by
  intro e he f hf
  obtain ⟨a, ha, hea⟩ := hes.inside e he
  obtain ⟨b, hb, hfb⟩ := hfs.inside f hf
  exact (hclear a ha b hb).of_inside hea hfb

/-! ## The edits of some children -/

/-- A walk over a tree, wherever it starts, makes edits that fit into the tree. -/
def WalksFit (source : List Char) (t : Tree) : Prop :=
  ∀ site role, site.source = source → EditsFit source t.extents (edits (walk site role t))

/-- The edits of some trees fit into these trees. -/
theorem editsFit_walkAll {vs : List Visit} {ts : List Tree}
    (hground : ∀ s r, some (s, r) ∈ vs → s.source = source) (hts : ∀ t ∈ ts, WalksFit source t)
    (hclear : ts.Pairwise Tree.Clear) :
    EditsFit source (ts.flatMap Tree.extents) (edits (walkAll vs ts)) := by
  -- by induction on the trees, which are clear of each other
  induction ts generalizing vs with
  | nil =>
    rw [walkAll_nil_right]
    exact editsFit_nil _
  | cons t ts ih =>
    obtain ⟨hthere, hclear⟩ := List.pairwise_cons.mp hclear
    obtain ⟨ht, hts⟩ := List.forall_mem_cons.mp hts
    cases vs with
    | nil =>
      rw [walkAll_nil_left]
      exact editsFit_nil _
    | cons v vs =>
      have hrest := ih (fun s r hmem => hground s r (List.mem_cons_of_mem _ hmem)) hts hclear
      rw [List.flatMap_cons]
      cases v with
      | none =>
        rw [walkAll]
        exact hrest.of_subset (List.subset_append_right _ _)
      | some visit =>
        obtain ⟨s, r⟩ := visit
        have hwalk := ht s r (hground s r List.mem_cons_self)
        -- the ranges of two parts are apart, and so are the edits in them
        have hcross : ∀ a ∈ t.extents, ∀ b ∈ ts.flatMap Tree.extents, a.Apart b := by
          intro a ha b hb
          obtain ⟨u, hu, hb⟩ := List.mem_flatMap.mp hb
          exact hthere u hu a ha b hb
        rw [walkAll, edits_append]
        exact EditsFit.append (hwalk.of_subset (List.subset_append_left _ _))
          (hrest.of_subset (List.subset_append_right _ _)) (hwalk.apart_of_clear hrest hcross)

/-- An edit of some trees is one of a tree. -/
theorem mem_edits_walkAll {vs : List Visit} {ts : List Tree} {e : Edit} :
    e ∈ edits (walkAll vs ts) ↔ ∃ s r t, (some (s, r), t) ∈ vs.zip ts ∧ e ∈ edits (walk s r t) := by
  simp only [mem_edits, mem_walkAll_iff]

variable {site : Site} {role : Role} {kind : Kind} {span : Span} {children : List Tree}

/-- The edits below a node lie in its children. -/
theorem editsFit_children (hsource : site.source = source)
    (hfits : Fits source kind span children)
    (hnested : ∀ c ∈ children, c.isNested source = true)
    (hwalks : ∀ c ∈ children, WalksFit source c) :
    EditsFit source (children.map Tree.span)
      (edits (walkAll (visits site role kind children) children)) := by
  have hground : ∀ s r, some (s, r) ∈ visits site role kind children → s.source = source :=
    fun s r hmem => (onGround_visits role kind children s r hmem).source.trans hsource
  refine (editsFit_walkAll hground hwalks (hfits.pairwise_clear hnested)).mono ?_
  intro s hs
  obtain ⟨c, hc, hs⟩ := List.mem_flatMap.mp hs
  exact ⟨c.span, List.mem_map_of_mem hc, Tree.inside_of_mem_extents (hnested c hc) hs⟩

/-- An edit below a node is made by a walk over one of its children, and lies in it. -/
theorem exists_child_of_mem_edits (hsource : site.source = source)
    (hnested : ∀ c ∈ children, c.isNested source = true)
    (hwalks : ∀ c ∈ children, WalksFit source c) {e : Edit}
    (he : e ∈ edits (walkAll (visits site role kind children) children)) :
    ∃ s r c, (some (s, r), c) ∈ (visits site role kind children).zip children ∧
      s.source = source ∧ e ∈ edits (walk s r c) ∧ e.span.Inside c.span := by
  obtain ⟨s, r, c, hzip, he⟩ := mem_edits_walkAll.mp he
  obtain ⟨hvisit, hc⟩ := List.of_mem_zip hzip
  have hs : s.source = source :=
    (onGround_visits role kind children s r hvisit).source.trans hsource
  obtain ⟨range, hrange, hinside⟩ := (hwalks c hc s r hs).inside e he
  exact ⟨s, r, c, hzip, hs, he, hinside.trans (Tree.inside_of_mem_extents (hnested c hc) hrange)⟩

/-- A node at which nothing is done has the edits of its children. -/
theorem edits_walk_of_idle (henter : enter site role kind span children = [])
    (hleave : leave site role kind children = []) :
    edits (walk site role (.node kind span children)) =
      edits (walkAll (visits site role kind children) children) := by
  rw [walk, henter, hleave, List.nil_append, List.append_nil]

/-- A node whose children are not visited. -/
theorem walk_of_bare (hchildren : walkAll (visits site role kind children) children = [])
    (hleave : leave site role kind children = []) :
    walk site role (.node kind span children) = enter site role kind span children := by
  rw [walk, hchildren, hleave, List.append_nil, List.append_nil]

/-- The children of a node lie in its ranges. -/
theorem exists_extent_of_child (hfits : Fits source kind span children) :
    ∀ s ∈ children.map Tree.span,
      ∃ s' ∈ (Script.Tree.node kind span children).extents, s.Inside s' := by
  intro s hs
  have hinside := hfits.inside s (List.mem_append_right _ hs)
  rw [Tree.extents.eq_def]
  split
  · rename_i heq
    obtain ⟨rfl, rfl, rfl⟩ := Script.Tree.node.inj heq
    exact ⟨s, hs, Nat.le_refl _, hinside.order, Nat.le_refl _⟩
  · exact ⟨span, List.mem_cons_self, hinside⟩

/-! ## The edits of one place -/

/-- At most one edit, which replaces a range. -/
def Sole (range : Span) (actions : List Action) : Prop :=
  edits actions = [] ∨ ∃ text, edits actions = [⟨range, text⟩]

/-- A single edit fits into its place. -/
theorem Sole.editsFit {range : Span} {actions : List Action} (h : Sole range actions)
    (hinside : range.Inside span) (hcuts : range.Cuts source) :
    EditsFit source [span] (edits actions) := by
  rcases h with h | ⟨text, h⟩
  · rw [h]
    exact editsFit_nil _
  · rw [h]
    exact editsFit_single hinside hcuts

/-- A literal is replaced as a whole. -/
theorem sole_literal (value : Option String) (slot : Slot) :
    Sole span (site.literal span value slot) := by
  rw [Site.literal.eq_def]
  split
  · split
    · exact Or.inr ⟨_, rfl⟩
    · exact Or.inl rfl
  · exact Or.inl rfl

/-- So is a constant argument. -/
theorem sole_constantArgument (value : Option String) (count : Nat) :
    Sole span (site.constantArgument span value count) := by
  rw [Site.constantArgument.eq_def]
  split
  · exact Or.inl rfl
  · split
    · exact Or.inl rfl
    · split
      · exact Or.inl rfl
      · split
        · exact Or.inr ⟨_, rfl⟩
        · exact Or.inl rfl

/-- A piece of the text of a range lies in it. -/
theorem piece_of_slice? {range : Span} {front xs back : List Char}
    (hslice : Chars.slice? source range = some (front ++ (xs ++ back))) {place : Span}
    (hplace : place = ⟨Chars.size front, Chars.size front + Chars.size xs⟩) :
    (place.shift range.start).Inside range ∧ (place.shift range.start).Cuts source := by
  obtain ⟨before, after, rfl, hstart, hstop⟩ := Chars.slice?_eq_some hslice
  rw [Chars.size_append, Chars.size_append] at hstop
  subst hplace
  refine ⟨⟨?_, ?_, ?_⟩, ?_, ⟨before ++ front, xs ++ back ++ after, ?_, ?_⟩,
    ⟨before ++ front ++ xs, back ++ after, ?_, ?_⟩⟩
  all_goals
    simp only [Span.shift, List.append_assoc, Chars.size_append]
    try omega

/-- What is trimmed at its end ends in no blank. -/
theorem exists_firm_end {cs : List Char} (hcs : Chars.trimEnd cs ≠ []) :
    ∃ ds c, Chars.trimEnd cs = ds ++ [c] ∧ Chars.isBlank c = false := by
  have hhead := List.head?_dropWhile_not Chars.isBlank cs.reverse
  rw [Chars.trimEnd] at hcs ⊢
  cases hdrop : cs.reverse.dropWhile Chars.isBlank with
  | nil =>
    rw [hdrop] at hcs
    exact absurd rfl hcs
  | cons c ds =>
    rw [hdrop] at hhead
    exact ⟨ds.reverse, c, List.reverse_cons, hhead⟩

/-- The text of an element is edited without the blanks at its ends. -/
theorem edits_elementText : edits (site.elementText span) = [] ∨ ∃ raw inner text,
    Chars.slice? site.source span = some raw ∧ Chars.trimmedSpan? raw = some inner ∧
      edits (site.elementText span) = [⟨inner.shift span.start, text⟩] := by
  rw [Site.elementText.eq_def]
  split
  · split
    · exact Or.inl rfl
    · rename_i raw hraw
      dsimp only
      split
      · rename_i inner hinner
        split
        · refine Or.inr ⟨raw, inner, ?_⟩
          split
          · exact ⟨_, hraw, hinner, rfl⟩
          · exact ⟨_, hraw, hinner, rfl⟩
        · exact Or.inl rfl
      · exact Or.inl rfl
  · exact Or.inl rfl

/-- What is left of a trimmed range lies in it, between characters and behind no blank. -/
theorem place_of_trimmedSpan? {raw : List Char} {inner : Span}
    (hslice : Chars.slice? source span = some raw) (hinner : Chars.trimmedSpan? raw = some inner) :
    (inner.shift span.start).Inside span ∧ (inner.shift span.start).Cuts source ∧
      Chars.BehindFirm source (inner.shift span.start).stop := by
  obtain ⟨htrim, rfl⟩ := Chars.trimmedSpan?_eq_some_iff.mp hinner
  have haround : raw = raw.takeWhile Chars.isBlank ++ (Chars.trim raw ++ Chars.blankEnd raw) :=
    (Chars.around_trim htrim).symm
  rw [haround] at hslice
  obtain ⟨hinside, hcuts⟩ := piece_of_slice? hslice rfl
  refine ⟨hinside, hcuts, ?_⟩
  -- what stands without its blanks ends in a character that is none
  obtain ⟨ds, c, hend, hc⟩ := exists_firm_end htrim
  obtain ⟨before, after, hsource, hstart, -⟩ := Chars.slice?_eq_some hslice
  refine ⟨before ++ raw.takeWhile Chars.isBlank ++ ds, c, Chars.blankEnd raw ++ after, ?_, hc, ?_⟩
  · rw [hsource]
    rw [Chars.trim, hend]
    simp
  · dsimp only [Span.shift]
    rw [Chars.trim, hend]
    simp only [Chars.size_append, Chars.size_cons, Chars.size_nil]
    omega

/-- The edit of a text fits into the text. -/
theorem editsFit_elementText (hsource : site.source = source) :
    EditsFit source [span] (edits (site.elementText span)) := by
  rcases edits_elementText with hnone | ⟨raw, inner, text, hslice, hinner, hsome⟩
  · rw [hnone]
    exact editsFit_nil _
  · obtain ⟨hinside, hcuts, -⟩ := place_of_trimmedSpan? (hsource ▸ hslice) hinner
    rw [hsome]
    exact editsFit_single hinside hcuts

/-- The edit of a chunk fits into the chunk. -/
theorem editsFit_chunk (hsource : site.source = source) (c : Chunk) :
    EditsFit source [c.span] (edits (site.chunk c)) := by
  rw [Site.chunk.eq_def]
  split
  · exact editsFit_nil _
  · dsimp only
    split
    · rename_i hcond
      split
      · rename_i inner hinner
        rw [Bool.and_eq_true, beq_iff_eq, hsource] at hcond
        obtain ⟨front, xs, back, f, b, hedges⟩ := exists_edges hinner
        rw [hedges.written] at hcond
        obtain ⟨hinside, hcuts⟩ := piece_of_slice? hcond.2 hedges.place
        exact editsFit_single hinside hcuts
      · exact editsFit_nil _
    · exact editsFit_nil _

/-- The edits of a template fit into its chunks. -/
theorem editsFit_chunks (hsource : site.source = source) {cs : List Chunk}
    (hapart : (cs.map (·.span)).Pairwise Span.Apart) :
    EditsFit source (cs.map (·.span)) (edits (site.chunks cs)) := by
  rw [Site.chunks]
  split
  · induction cs with
    | nil => exact editsFit_nil _
    | cons c cs ih =>
      rw [List.map_cons] at hapart ⊢
      obtain ⟨hc, hapart⟩ := List.pairwise_cons.mp hapart
      have hrest := ih hapart
      have hfirst := editsFit_chunk hsource c
      rw [List.flatMap_cons, edits_append]
      -- the first chunk is apart from each of the others, so their edits are too
      refine EditsFit.append (hfirst.of_subset ?_) (hrest.of_subset ?_)
        (hfirst.apart_of_clear hrest ?_)
      · simp
      · exact List.subset_cons_self _ _
      · intro a ha b hb
        rw [List.mem_singleton.mp ha]
        exact hc b hb
  · exact editsFit_nil _

/-! ## Wrapper elements -/

/-- The last attribute of a name is one of the attributes. -/
theorem exists_attribute_of_lastAttribute {name text : String} {attributes : List Tree}
    (h : Site.lastAttribute name attributes = some (text, span)) :
    ∃ value, Script.Tree.node (.attribute (.plain name)) span value ∈ attributes := by
  -- the last of the attributes of this name, found by a fold over all of them
  have hfound := of_foldl_eq_some
    (P := fun (t : Tree) (found : String × Span) =>
      ∃ value, t = .node (.attribute (.plain name)) found.2 value) ?hstep attributes none h
  case hstep =>
    intro found t b heq
    split at heq
    · rename_i n attrSpan value
      split at heq
      · rename_i hname
        obtain ⟨_, -, rfl⟩ := Option.map_eq_some_iff.mp heq
        rw [beq_iff_eq.mp hname]
        exact Or.inr ⟨value, rfl⟩
      · exact Or.inl heq
    · exact Or.inl heq
  rcases hfound with hnone | ⟨t, ht, value, rfl⟩
  · cases hnone
  · exact ⟨value, ht⟩

/-- The removal of an attribute of a wrapper element, with the blanks before it. -/
def IsRemoval (source : List Char) (attributes : List Tree) (range : Span) : Prop :=
  ∃ attr value before rest, Script.Tree.node (.attribute (.plain "msg")) attr value ∈ attributes ∧
    source = before ++ rest ∧ Chars.size before = attr.start ∧
    range = ⟨Chars.size (Chars.trimEnd before), attr.stop⟩

/-- A wrapper element gets an identifier behind its name and loses its message. -/
theorem edits_wrapperElement (hsource : site.source = source) (nameEnd : Nat)
    (attributes : List Tree) : ∃ new old, edits (site.wrapperElement nameEnd attributes) =
        new ++ old ∧ (new = [] ∨ ∃ text, new = [⟨Span.point nameEnd, text⟩]) ∧
      (old = [] ∨ ∃ range text, IsRemoval source attributes range ∧ old = [⟨range, text⟩]) := by
  by_cases hsome : ∃ message span,
      Site.lastAttribute "msg" attributes = some (message, span) ∧ Text.trim message ≠ ""
  · obtain ⟨message, attr, hmessage, hne⟩ := hsome
    obtain ⟨value, hmem⟩ := exists_attribute_of_lastAttribute hmessage
    -- the attribute goes together with the blanks in front of it
    have hold : edits (removal site attr) = [] ∨ ∃ range text,
        IsRemoval source attributes range ∧ edits (removal site attr) = [⟨range, text⟩] := by
      rw [removal_eq]
      split
      · exact Or.inl rfl
      · split
        · rename_i before rest hcut
          obtain ⟨happend, hsize⟩ := Chars.splitAt?_eq_some_iff.mp hcut
          exact Or.inr ⟨_, _, ⟨attr, value, before, rest, hmem, hsource ▸ happend, hsize, rfl⟩, rfl⟩
        · exact Or.inl rfl
    rw [wrapperElement_of_message hmessage hne]
    split
    · exact ⟨[], edits (removal site attr), rfl, Or.inl rfl, hold⟩
    · exact ⟨[⟨Span.point nameEnd, _⟩], edits (removal site attr), rfl, Or.inr ⟨_, rfl⟩, hold⟩
  · rw [wrapperElement_of_no_message]
    · exact ⟨[], [], rfl, Or.inl rfl, Or.inl rfl⟩
    · intro message attr hmessage
      exact Classical.byContradiction fun hne => hsome ⟨message, attr, hmessage, hne⟩

/-- What the name of an element and its parts have to do with each other. -/
theorem firm_element {name : String} {place : Span}
    (hfits : Fits source (.element (.plain name place)) span children) :
    Chars.BehindFirm source place.stop ∧ ∀ c ∈ children, place.stop ≤ c.span.start ∧
      (c.kind = .markupText ∨ Chars.BehindFirm source c.span.stop) := by
  have hfirm := hfits.firm
  rw [Kind.isFirm, Bool.and_eq_true, List.all_eq_true] at hfirm
  refine ⟨Chars.behindFirm_of_endsFirm hfirm.1, ?_⟩
  intro c hc
  obtain ⟨horder, hend⟩ := Bool.and_eq_true_iff.mp (hfirm.2 c hc)
  refine ⟨of_decide_eq_true horder, ?_⟩
  rcases Bool.or_eq_true_iff.mp hend with htext | hend
  · exact Or.inl (beq_iff_eq.mp htext)
  · exact Or.inr (Chars.behindFirm_of_endsFirm hend)

/-- The edits of a wrapper element fit into the element. -/
theorem editsFit_wrapperElement (hsource : site.source = source) {name : String} {place : Span}
    (hfits : Fits source (.element (.plain name place)) span children)
    (hnested : ∀ c ∈ children, c.isNested source = true) :
    EditsFit source [span] (edits (site.wrapperElement place.stop children)) := by
  obtain ⟨hname, hparts⟩ := firm_element hfits
  have hplace : place.Inside span := hfits.inside place List.mem_cons_self
  have hplaceCuts : place.Cuts source :=
    Chars.cuts_of_isSome_slice? (hfits.cuts place (List.mem_cons_of_mem _ List.mem_cons_self))
  obtain ⟨new, old, hedits, hnew, hold⟩ := edits_wrapperElement hsource place.stop children
  have hnewFit : EditsFit source [span] new := by
    rcases hnew with rfl | ⟨text, rfl⟩
    · exact editsFit_nil _
    · refine editsFit_single ⟨?_, Nat.le_refl _, hplace.stop⟩
        ⟨Nat.le_refl _, hplaceCuts.stop, hplaceCuts.stop⟩
      exact Nat.le_trans hplace.start hplace.order
  rw [hedits]
  rcases hold with rfl | ⟨range, text, ⟨attr, value, before, rest, hmem, happend, hsize, rfl⟩, rfl⟩
  · rw [List.append_nil]
    exact hnewFit
  · have hattr : attr.Inside span :=
      hfits.inside attr (List.mem_append_right _ (List.mem_map_of_mem hmem))
    have hattrCuts : attr.Cuts source := (Tree.isNested_node.mp (hnested _ hmem)).1.cuts_span
    -- the blanks before the message go with it, but not the name of the element
    have hafter : place.stop ≤ Chars.size (Chars.trimEnd before) :=
      hname.le_trimEnd happend (by rw [hsize]; exact (hparts _ hmem).1)
    have hback : Chars.size (Chars.trimEnd before) ≤ attr.start := by
      rw [← hsize]
      exact Chars.size_le_of_prefix (Chars.prefix_trimEnd before)
    have hbetween : Chars.Between source (Chars.size (Chars.trimEnd before)) := by
      obtain ⟨blanks, hblanks⟩ := Chars.prefix_trimEnd before
      exact ⟨_, blanks ++ rest, by rw [happend, ← List.append_assoc, hblanks], rfl⟩
    have hstart := hplace.start
    have horder := hplace.order
    have hattrOrder := hattr.order
    have holdFit : EditsFit source [span]
        [⟨⟨Chars.size (Chars.trimEnd before), attr.stop⟩, text⟩] := by
      refine editsFit_single ⟨?_, ?_, hattr.stop⟩ ⟨?_, hbetween, hattrCuts.stop⟩
      all_goals
        dsimp only
        omega
    refine hnewFit.append holdFit ?_
    intro e he f hf
    rw [List.mem_singleton.mp hf]
    rcases hnew with rfl | ⟨newText, rfl⟩
    · cases he
    · rw [List.mem_singleton.mp he]
      exact Or.inl hafter

/-- Edits in the other parts of a wrapper element stand apart from those of the element. -/
theorem apart_wrapperElement (hsource : site.source = source) {name : String} {place : Span}
    (hfits : Fits source (.element (.plain name place)) span children) {c : Tree}
    (hc : c ∈ children) (hother : ∀ attr value, c ≠ .node (.attribute (.plain "msg")) attr value)
    {e : Edit} (hinside : e.span.Inside c.span)
    (hfirm : c.kind = .markupText → Chars.BehindFirm source e.span.stop) :
    ∀ f ∈ edits (site.wrapperElement place.stop children), f.span.Apart e.span := by
  obtain ⟨-, hparts⟩ := firm_element hfits
  obtain ⟨horder, hend⟩ := hparts c hc
  obtain ⟨new, old, hedits, hnew, hold⟩ := edits_wrapperElement hsource place.stop children
  intro f hf
  rw [hedits] at hf
  rcases List.mem_append.mp hf with hf | hf
  · -- the identifier comes before all parts
    rcases hnew with rfl | ⟨text, rfl⟩
    · cases hf
    · rw [List.mem_singleton.mp hf]
      exact Or.inl (Nat.le_trans horder hinside.start)
  · rcases hold with rfl | ⟨range, text, ⟨attr, value, before, rest, hmem, happend, hsize, rfl⟩, rfl⟩
    · cases hf
    · rw [List.mem_singleton.mp hf]
      rcases hfits.apart_of_ne rfl hc hmem (hother attr value) with hbefore | hbehind
      · -- the blanks before the message are no part of what comes before them
        refine Or.inr ?_
        rcases hend with htext | hend
        · refine (hfirm htext).le_trimEnd happend ?_
          rw [hsize]
          exact Nat.le_trans hinside.stop hbefore
        · refine Nat.le_trans hinside.stop (hend.le_trimEnd happend ?_)
          rw [hsize]
          exact hbefore
      · exact Or.inl (Nat.le_trans hbehind hinside.start)

end

end Harvest

end TextHarvest
