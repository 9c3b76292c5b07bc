import TextHarvest.Proofs.Harvest.Fitting

/-!
# The edits of a walk stand apart

The edits below a node lie in its children, which stand apart, and what is edited at the node itself
is either no child, or a child below which nothing is edited. The latter holds of the marks of a
call, which are made after its arguments were walked over: they are put behind an argument, in place
of a number, or into an array of names.

Main results:

* `marksFit_markDynamic` — the marks of a call lie in its arguments and stand apart.
* `editsFit_node` — one node: its own edits, those of its children, and how they stand to each other.
* `editsFit_walk` — the edits of a walk over a nested tree lie in it and stand apart.
-/

namespace TextHarvest.Harvest

open Script

section

variable {source : List Char} {site : Site} {role : Role} {kind : Kind} {span : Span}
  {children : List Tree}

/-! ## Marks -/

/-- An edit in an argument that stands apart from all edits that a walk makes there. -/
def MarksArgument (source : List Char) (arg : Tree) (f : Edit) : Prop :=
  f.span.Inside arg.span ∧ f.span.Cuts source ∧
    ∀ s r, s.source = source → ∀ e ∈ edits (walk s r arg), e.span.Apart f.span

/-- A mark in what an argument spreads is a mark in the argument. -/
theorem MarksArgument.of_unspread {arg : Tree} (hnested : arg.isNested source = true)
    (hwalks : ∀ c ∈ arg.children, WalksFit source c) {f : Edit}
    (hmark : MarksArgument source arg.unspread f) : MarksArgument source arg f := by
  rw [Tree.unspread.eq_def] at hmark
  split at hmark
  · rename_i spreadSpan first rest
    obtain ⟨hinside, hcuts, hapart⟩ := hmark
    obtain ⟨hfits, hparts⟩ := Tree.isNested_node.mp hnested
    -- the first element lies inside the spread argument, which is nested itself
    have hfirst : first.span.Inside spreadSpan :=
      hfits.inside _ (List.mem_append_right _ (List.mem_map_of_mem List.mem_cons_self))
    refine ⟨hinside.trans hfirst, hcuts, ?_⟩
    intro s r hs e he
    rw [edits_walk_of_idle rfl rfl] at he
    obtain ⟨s', r', c, hzip, hs', hmem, hec⟩ := exists_child_of_mem_edits hs hparts hwalks he
    -- an edit of another element lies inside that element, and so apart from the first
    by_cases hc : c = first
    · exact hapart s' r' hs' e (hc ▸ hmem)
    · exact (hfits.apart_of_ne rfl (List.of_mem_zip hzip).2 List.mem_cons_self hc).of_inside hec
        hinside
  · exact hmark

/-- A mark behind an argument. -/
theorem marksArgument_behind {arg : Tree} (hnested : arg.isNested source = true)
    (hwalks : WalksFit source arg) (text : String) :
    MarksArgument source arg ⟨Span.point arg.span.stop, text⟩ := by
  have hcuts := Tree.cuts_span hnested
  refine ⟨⟨hcuts.order, Nat.le_refl _, Nat.le_refl _⟩, ⟨Nat.le_refl _, hcuts.stop, hcuts.stop⟩, ?_⟩
  intro s r hs e he
  obtain ⟨range, hrange, hinside⟩ := (hwalks s r hs).inside e he
  exact Or.inl (hinside.trans (Tree.inside_of_mem_extents hnested hrange)).stop

/-- A number is not edited otherwise. -/
theorem marksArgument_number {raw : String}
    (hfits : Fits source (.numLit raw) span children) {f : Edit} (hinside : f.span.Inside span)
    (hcuts : f.span.Cuts source) :
    MarksArgument source (.node (.numLit raw) span children) f := by
  refine ⟨hinside, hcuts, ?_⟩
  intro s r hs e he
  obtain rfl := List.isEmpty_iff.mp (hfits.leaf rfl)
  cases he

/-- New names are put behind the last one in an array, or in place of an array without names. -/
theorem marksArgument_names
    (hnested : (Script.Tree.node .array span children).isNested source = true)
    (hwalks : ∀ c ∈ children, WalksFit source c) (names : List String) (quote : Quote) :
    ∀ f ∈ edits (extendNames (.node .array span children) names quote),
      MarksArgument source (.node .array span children) f := by
  obtain ⟨hfits, hparts⟩ := Tree.isNested_node.mp hnested
  have hbelow : ∀ s r, s.source = source → ∀ e ∈ edits (walk s r (.node .array span children)),
      ∃ s' r' c, c ∈ children ∧ e ∈ edits (walk s' r' c) ∧ e.span.Inside c.span := by
    intro s r hs e he
    rw [edits_walk_of_idle rfl rfl] at he
    obtain ⟨s', r', c, hzip, -, hmem, hinside⟩ := exists_child_of_mem_edits hs hparts hwalks he
    exact ⟨s', r', c, (List.of_mem_zip hzip).2, hmem, hinside⟩
  intro f hf
  rw [extendNames] at hf
  split at hf
  · cases hf
  · split at hf
    · rename_i last hlast
      rw [List.mem_singleton.mp hf]
      have hmem : last ∈ children := (List.mem_filter.mp (List.mem_of_getLast? hlast)).1
      have hcuts := Tree.cuts_span (hparts last hmem)
      have hinside : last.span.Inside span :=
        hfits.inside _ (List.mem_append_right _ (List.mem_map_of_mem hmem))
      refine ⟨⟨Nat.le_trans hinside.start hinside.order, Nat.le_refl _, hinside.stop⟩,
        ⟨Nat.le_refl _, hcuts.stop, hcuts.stop⟩, ?_⟩
      intro s r hs e he
      obtain ⟨s', r', c, hc, -, hec⟩ := hbelow s r hs e he
      by_cases hcl : c = last
      · exact Or.inl (hcl ▸ hec.stop)
      · exact (hfits.apart_of_ne rfl hc hmem hcl).of_inside hec
          ⟨hcuts.order, Nat.le_refl _, Nat.le_refl _⟩
    · rename_i hnone
      rw [List.mem_singleton.mp hf]
      refine ⟨Tree.inside_span hnested, hfits.cuts_span, ?_⟩
      intro s r hs e he
      obtain ⟨s', r', c, hc, hmem, -⟩ := hbelow s r hs e he
      -- there are only holes, and a hole is not edited
      have hhole : c.kind = .hole := by
        have hempty := List.getLast?_eq_none_iff.mp hnone
        simpa using List.filter_eq_nil_iff.mp hempty c hc
      obtain ⟨kind, holeSpan, parts⟩ := c
      obtain rfl : kind = .hole := hhole
      obtain rfl := List.isEmpty_iff.mp ((Tree.isNested_node.mp (hparts _ hc)).1.leaf rfl)
      cases hmem

/-- All nested trees that are smaller than a tree are walked over with edits that fit. -/
def WalksFitBelow (source : List Char) (t : Tree) : Prop :=
  ∀ u, sizeOf u < sizeOf t → u.isNested source = true → WalksFit source u

theorem WalksFitBelow.of_mem {t c : Tree} (hbelow : WalksFitBelow source t)
    (hnested : t.isNested source = true) (hc : c ∈ t.children) : WalksFit source c :=
  hbelow c (Tree.sizeOf_lt_of_mem hc) (Tree.isNested_of_mem hnested hc)

/-- What fits below a tree fits below a smaller one. -/
theorem WalksFitBelow.mono {t u : Tree} (hbelow : WalksFitBelow source t)
    (hle : sizeOf u ≤ sizeOf t) : WalksFitBelow source u :=
  fun v hv => hbelow v (Nat.lt_of_lt_of_le hv hle)

/-- A mark in the flag of a node, which is a number. -/
theorem marksArgument_flag {flag : Tree} (hnested : flag.isNested source = true)
    (hbelow : WalksFitBelow source flag) {raw : String} {place : Span} {parts : List Tree}
    (hnumber : flag.unspread = .node (.numLit raw) place parts) {f : Edit}
    (hinside : f.span.Inside flag.unspread.span) (hcuts : f.span.Cuts source) :
    MarksArgument source flag f := by
  have hnested' := (Tree.isNested_unspread hnested).1
  refine MarksArgument.of_unspread hnested (fun c hc => hbelow.of_mem hnested hc) ?_
  rw [hnumber] at hnested' hinside ⊢
  exact marksArgument_number (Tree.isNested_node.mp hnested').1 hinside hcuts

/-- A mark in the dynamic names of a node, which are in an array. -/
theorem marksArgument_existing {existing : Tree} (hnested : existing.isNested source = true)
    (hbelow : WalksFitBelow source existing) {array : Span} {elements : List Tree}
    (harray : existing.unspread = .node .array array elements) {names : List String}
    {quote : Quote} {f : Edit} (hf : f ∈ edits (extendNames existing.unspread names quote)) :
    MarksArgument source existing f := by
  have hnested' := (Tree.isNested_unspread hnested).1
  have hbelow' := hbelow.mono existing.sizeOf_unspread_le
  refine MarksArgument.of_unspread hnested (fun c hc => hbelow.of_mem hnested hc) ?_
  rw [harray] at hnested' hf hbelow' ⊢
  exact marksArgument_names hnested' (fun c hc => hbelow'.of_mem hnested' hc) names quote f hf

/-- There is at most one edit in the dynamic names. -/
theorem edits_extendNames (t : Tree) (names : List String) (quote : Quote) :
    edits (extendNames t names quote) = [] ∨ ∃ f, edits (extendNames t names quote) = [f] := by
  rw [extendNames.eq_def]
  split
  · dsimp only
    split
    · exact Or.inl rfl
    · split
      · exact Or.inr ⟨_, rfl⟩
      · exact Or.inr ⟨_, rfl⟩
  · exact Or.inr ⟨_, rfl⟩

/-- Flags that fit are a number. -/
theorem exists_number_of_flagsFit {tag props content flag : Tree} {more : List Tree}
    (hflags : flagsFit (tag :: props :: content :: flag :: more) = true) :
    ∃ raw place parts, flag.unspread = .node (.numLit raw) place parts := by
  rw [flagsFit, Bool.and_eq_true] at hflags
  have hnumber := hflags.1
  split at hnumber
  · rename_i raw place parts heq
    exact ⟨raw, place, parts, heq⟩
  · cases hnumber

/-- Names that fit are an array. -/
theorem exists_array_of_flagsFit {tag props content flag existing : Tree} {more : List Tree}
    (hflags : flagsFit (tag :: props :: content :: flag :: existing :: more) = true) :
    ∃ array elements, existing.unspread = .node .array array elements := by
  rw [flagsFit, Bool.and_eq_true] at hflags
  have harray := hflags.2
  rw [List.head?_cons, Option.all_some] at harray
  split at harray
  · rename_i array elements heq
    exact ⟨array, elements, heq⟩
  · cases harray

/-- Marks that lie in the arguments of a call and stand apart. -/
structure MarksFit (source : List Char) (args : List Tree) (es : List Edit) : Prop where
  marks : ∀ f ∈ es, ∃ a ∈ args, MarksArgument source a f
  apart : es.Pairwise fun e f => e.span.Apart f.span

theorem marksFit_nil (args : List Tree) : MarksFit source args [] where
  marks := by simp
  apart := .nil

/-- A single mark fits. -/
theorem marksFit_single {args : List Tree} {a : Tree} (ha : a ∈ args) {f : Edit}
    (hmark : MarksArgument source a f) : MarksFit source args [f] where
  marks := by
    intro g hg
    rw [List.mem_singleton.mp hg]
    exact ⟨a, ha, hmark⟩
  apart := List.pairwise_singleton _ _

/-- One more mark fits when it is apart from the others. -/
theorem MarksFit.cons {args : List Tree} {a : Tree} (ha : a ∈ args) {f : Edit} {es : List Edit}
    (hmark : MarksArgument source a f) (hes : MarksFit source args es)
    (hapart : ∀ e ∈ es, f.span.Apart e.span) : MarksFit source args (f :: es) where
  marks := List.forall_mem_cons.mpr ⟨⟨a, ha, hmark⟩, hes.marks⟩
  apart := List.pairwise_cons.mpr ⟨hapart, hes.apart⟩

/-- The marks of a call of a node maker lie in its arguments and stand apart. -/
theorem marksFit_markDynamic {args : List Tree} (hargs : ∀ a ∈ args, a.isNested source = true)
    (hwalks : ∀ a ∈ args, WalksFit source a ∧ WalksFitBelow source a)
    (hapart : args.Pairwise fun a b => a.span.Apart b.span) (hflags : flagsFit args = true)
    (names : List String) (quote : Quote) :
    MarksFit source args (edits (markDynamic args names quote)) := by
  rw [markDynamic.eq_def]
  split
  · -- two arguments
    rename_i tag props
    have hprops : props ∈ [tag, props] := by simp
    exact marksFit_single hprops (marksArgument_behind (hargs _ hprops) (hwalks _ hprops).1 _)
  · -- three arguments
    rename_i tag props content
    have hcontent : content ∈ [tag, props, content] := by simp
    exact marksFit_single hcontent
      (marksArgument_behind (hargs _ hcontent) (hwalks _ hcontent).1 _)
  · -- there is a flag
    rename_i tag props content flag more
    have hflag : flag ∈ tag :: props :: content :: flag :: more := by simp
    obtain ⟨raw, place, parts, hnumber⟩ := exists_number_of_flagsFit hflags
    obtain ⟨hnested, hinside⟩ := Tree.isNested_unspread (hargs _ hflag)
    have hcuts := Tree.cuts_span hnested
    have hmerged (text : String) : MarksArgument source flag ⟨flag.unspread.span, text⟩ :=
      marksArgument_flag (hargs _ hflag) (hwalks _ hflag).2 hnumber (Tree.inside_span hnested) hcuts
    dsimp only
    split
    · -- the names come behind it
      refine MarksFit.cons hflag (hmerged _) (marksFit_single hflag ?_) ?_
      · exact marksArgument_flag (hargs _ hflag) (hwalks _ hflag).2 hnumber
          ⟨hcuts.order, Nat.le_refl _, Nat.le_refl _⟩ ⟨Nat.le_refl _, hcuts.stop, hcuts.stop⟩
      · intro e he
        rw [List.mem_singleton.mp he]
        exact Or.inl (Nat.le_refl _)
    · -- the names are in an array
      rename_i existing rest
      have hexisting : existing ∈ tag :: props :: content :: flag :: existing :: rest := by simp
      obtain ⟨array, elements, harray⟩ := exists_array_of_flagsFit hflags
      have hnames : ∀ f ∈ edits (extendNames existing.unspread names quote),
          MarksArgument source existing f :=
        fun f hf => marksArgument_existing (hargs _ hexisting) (hwalks _ hexisting).2 harray hf
      have hspans : flag.span.Apart existing.span := by
        simp only [List.pairwise_cons] at hapart
        exact hapart.2.2.2.1 existing List.mem_cons_self
      have hrest : MarksFit source (tag :: props :: content :: flag :: existing :: rest)
          (edits (extendNames existing.unspread names quote)) := by
        rcases edits_extendNames existing.unspread names quote with hnone | ⟨f, hsome⟩
        · rw [hnone]
          exact marksFit_nil _
        · rw [hsome]
          exact marksFit_single hexisting (hnames f (by rw [hsome]; exact List.mem_cons_self))
      exact MarksFit.cons hflag (hmerged _) hrest
        fun e he => hspans.of_inside hinside (hnames e he).1
  · exact marksFit_nil _

/-- A call is marked as dynamic or left alone. -/
theorem edits_marks (callee : Tree) (args : List Tree) :
    edits (marks site callee args) = [] ∨ ∃ names, makesNode callee = true ∧
      edits (marks site callee args) = edits (markDynamic args names site.quote) := by
  rw [marks]
  split
  · rename_i n hn
    split
    · rename_i hmaker
      have hmakes : makesNode callee = true := by
        rw [makesNode, hn]
        exact (Bool.and_eq_true_iff.mp hmaker).2
      split
      · dsimp only
        split
        · exact Or.inl rfl
        · exact Or.inr ⟨_, hmakes, rfl⟩
      · exact Or.inl rfl
    · exact Or.inl rfl
  · exact Or.inl rfl

/-! ## From nodes to walks -/

/-- The edits of a call: those of its callee and arguments, then its marks. -/
theorem editsFit_call {callee : Tree} {args : List Tree} (hsource : site.source = source)
    (hnested : (Script.Tree.node kind span (callee :: args)).isNested source = true)
    (hbelow : WalksFitBelow source (.node kind span (callee :: args)))
    (hmethod : kind.isMethod = false)
    (hcall : callFits kind (callee :: args) = (!makesNode callee || flagsFit args)) :
    EditsFit source [span]
      (edits (walkAll (visits site role kind (callee :: args)) (callee :: args)) ++
        edits (marks site callee args)) := by
  obtain ⟨hfits, hparts⟩ := Tree.isNested_node.mp hnested
  have hwalks : ∀ c ∈ callee :: args, WalksFit source c := fun c hc => hbelow.of_mem hnested hc
  have hinside : ∀ c ∈ callee :: args, c.span.Inside span :=
    fun c hc => hfits.inside _ (List.mem_append_right _ (List.mem_map_of_mem hc))
  have hchildren : EditsFit source [span]
      (edits (walkAll (visits site role kind (callee :: args)) (callee :: args))) := by
    refine (editsFit_children hsource hfits hparts hwalks).mono ?_
    intro s hs
    obtain ⟨c, hc, rfl⟩ := List.mem_map.mp hs
    exact ⟨span, List.mem_cons_self, hinside c hc⟩
  have hmarks : MarksFit source args (edits (marks site callee args)) := by
    rcases edits_marks callee args with hnone | ⟨names, hmakes, hsome⟩
    · rw [hnone]
      exact marksFit_nil _
    · have hflags : flagsFit args = true := by
        have hfit := hfits.flags
        rw [hcall, hmakes] at hfit
        exact hfit
      have hspans := List.pairwise_map.mp (List.pairwise_append.mp (hfits.apart hmethod)).2.1
      rw [hsome]
      refine marksFit_markDynamic (fun a ha => hparts a (List.mem_cons_of_mem _ ha)) ?_
        (List.pairwise_cons.mp hspans).2 hflags names site.quote
      intro a ha
      have hmem : a ∈ callee :: args := List.mem_cons_of_mem _ ha
      exact ⟨hwalks a hmem, hbelow.mono (Nat.le_of_lt (Tree.sizeOf_lt_of_mem hmem))⟩
  refine hchildren.append ⟨?_, ?_, hmarks.apart⟩ ?_
  · intro f hf
    obtain ⟨a, ha, hfa, -⟩ := hmarks.marks f hf
    exact ⟨span, List.mem_cons_self, hfa.trans (hinside a (List.mem_cons_of_mem _ ha))⟩
  · intro f hf
    obtain ⟨a, -, -, hcuts, -⟩ := hmarks.marks f hf
    exact hcuts
  · -- an edit of the walk lies in one part and a mark in one argument, which may be the same
    intro e he f hf
    obtain ⟨s, r, c, hzip, hs, hmem, hec⟩ := exists_child_of_mem_edits hsource hparts hwalks he
    obtain ⟨a, ha, hfa, -, hown⟩ := hmarks.marks f hf
    by_cases hca : c = a
    · exact hown s r hs e (hca ▸ hmem)
    · exact (hfits.apart_of_ne hmethod (List.of_mem_zip hzip).2 (List.mem_cons_of_mem _ ha)
        hca).of_inside hec hfa

/-- The edits of a template: those of its substitutions, then those of its chunks. -/
theorem editsFit_template {chunks : List Chunk} (hsource : site.source = source)
    (hnested : (Script.Tree.node (.template chunks) span children).isNested source = true)
    (hbelow : WalksFitBelow source (.node (.template chunks) span children)) :
    EditsFit source [span] (edits (walkAll (visits site role (.template chunks) children) children) ++
      edits (site.chunks chunks)) := by
  obtain ⟨hfits, hparts⟩ := Tree.isNested_node.mp hnested
  have hwalks : ∀ c ∈ children, WalksFit source c := fun c hc => hbelow.of_mem hnested hc
  obtain ⟨hchunks, -, hcross⟩ := List.pairwise_append.mp (hfits.apart rfl)
  -- the edits of the substitutions and those of the chunks lie in different children
  have hbelowFit : EditsFit source (children.map Tree.span)
      (edits (walkAll (visits site role (.template chunks) children) children)) :=
    editsFit_children hsource hfits hparts hwalks
  have hchunksFit : EditsFit source (chunks.map (·.span)) (edits (site.chunks chunks)) :=
    editsFit_chunks hsource hchunks
  refine EditsFit.append (hbelowFit.mono ?_) (hchunksFit.mono ?_)
    (hbelowFit.apart_of_clear hchunksFit ?_)
  · intro s hs
    exact ⟨span, List.mem_cons_self, hfits.inside s (List.mem_append_right _ hs)⟩
  · intro s hs
    exact ⟨span, List.mem_cons_self, hfits.inside s (List.mem_append_left _ hs)⟩
  · intro a ha b hb
    exact (hcross b hb a ha).symm

/-- A text of an element is edited up to a character that is no blank. -/
theorem behindFirm_of_mem_walk (hsource : site.source = source) {t : Tree}
    (hnested : t.isNested source = true) (htext : t.kind = .markupText) {e : Edit}
    (he : e ∈ edits (walk site role t)) : Chars.BehindFirm source e.span.stop := by
  obtain ⟨kind, span, children⟩ := t
  obtain rfl : kind = .markupText := htext
  obtain rfl := List.isEmpty_iff.mp ((Tree.isNested_node.mp hnested).1.leaf rfl)
  rw [walk_of_bare (walkAll_nil_right _) rfl] at he
  have he' : e ∈ edits (site.elementText span) := he
  -- a text has one edit at most, which replaces it without its blanks
  rcases edits_elementText with hnone | ⟨raw, inner, text, hslice, hinner, hsome⟩
  · rw [hnone] at he'
    cases he'
  · rw [hsome] at he'
    rw [List.mem_singleton.mp he']
    exact (place_of_trimmedSpan? (hsource ▸ hslice) hinner).2.2

theorem eq_of_mem_zip_map {α β : Type} {f : α → β} {l : List α} {a : α} {b : β}
    (h : (b, a) ∈ (l.map f).zip l) : f a = b := by
  induction l with
  | nil => cases h
  | cons x l ih =>
    rw [List.map_cons, List.zip_cons_cons] at h
    rcases List.mem_cons.mp h with heq | h
    · cases heq
      rfl
    · exact ih h

/-- The message of a wrapper element is not visited. -/
theorem not_message_of_mem_visits {name : String} {place : Span}
    (hname : (name == site.options.jsxElement) = true) {s : Site} {r : Role} {c : Tree}
    (hzip : (some (s, r), c) ∈
      (visits site role (.element (.plain name place)) children).zip children) :
    ∀ attr value, c ≠ .node (.attribute (.plain "msg")) attr value := by
  rintro attr value rfl
  dsimp only [visits] at hzip
  rw [if_pos hname] at hzip
  cases eq_of_mem_zip_map hzip

/-- The edits of a wrapper element: its own, then those of its other parts. -/
theorem editsFit_wrapper {name : String} {place : Span} (hsource : site.source = source)
    (hnested : (Script.Tree.node (.element (.plain name place)) span children).isNested source = true)
    (hbelow : WalksFitBelow source (.node (.element (.plain name place)) span children))
    (hname : (name == site.options.jsxElement) = true) :
    EditsFit source [span] (edits (site.wrapperElement place.stop children) ++
      edits (walkAll (visits site role (.element (.plain name place)) children) children)) := by
  obtain ⟨hfits, hparts⟩ := Tree.isNested_node.mp hnested
  have hwalks : ∀ c ∈ children, WalksFit source c := fun c hc => hbelow.of_mem hnested hc
  -- the edits of the element itself, then those of its children, each within its span
  refine EditsFit.append (editsFit_wrapperElement hsource hfits hparts)
    ((editsFit_children hsource hfits hparts hwalks).mono ?_) ?_
  · intro s hs
    exact ⟨span, List.mem_cons_self, hfits.inside s (List.mem_append_right _ hs)⟩
  · intro f hf e he
    obtain ⟨s, r, c, hzip, hs, hmem, hinside⟩ := exists_child_of_mem_edits hsource hparts hwalks he
    have hc := (List.of_mem_zip hzip).2
    exact apart_wrapperElement hsource hfits hc (not_message_of_mem_visits hname hzip) hinside
      (fun htext => behindFirm_of_mem_walk hs (hparts c hc) htext hmem) f hf

/-- A node at which nothing is done. -/
theorem editsFit_idle (hsource : site.source = source)
    (hnested : (Script.Tree.node kind span children).isNested source = true)
    (hbelow : WalksFitBelow source (.node kind span children))
    (henter : enter site role kind span children = [])
    (hleave : leave site role kind children = []) :
    EditsFit source (Script.Tree.node kind span children).extents
      (edits (walk site role (.node kind span children))) := by
  obtain ⟨hfits, hparts⟩ := Tree.isNested_node.mp hnested
  rw [edits_walk_of_idle henter hleave]
  exact (editsFit_children hsource hfits hparts fun c hc => hbelow.of_mem hnested hc).mono
    (exists_extent_of_child hfits)

/-- One node: its own edits, those of its children, and how they stand to each other. -/
theorem editsFit_node (hsource : site.source = source)
    (hnested : (Script.Tree.node kind span children).isNested source = true)
    (hbelow : WalksFitBelow source (.node kind span children)) :
    EditsFit source (Script.Tree.node kind span children).extents
      (edits (walk site role (.node kind span children))) := by
  obtain ⟨hfits, -⟩ := Tree.isNested_node.mp hnested
  have hinside : span.Inside span := Tree.inside_span hnested
  have hsole {as : List Action} (has : Sole span as) : EditsFit source [span] (edits as) :=
    has.editsFit hinside hfits.cuts_span
  cases kind with
  | strLit value =>
    have hbare : walkAll (visits site role (.strLit value) children) children = [] :=
      walkAll_nil_left children
    rw [walk_of_bare hbare rfl]
    cases role with
    | lookup count => exact hsole (sole_constantArgument value count)
    | _ => exact hsole (sole_literal value _)
  | template chunks =>
    -- outside a lookup nothing is done on entering a template; its chunks are edited on leaving it
    have hfull (henter : edits (enter site role (.template chunks) span children) = [])
        (hleave : leave site role (.template chunks) children = site.chunks chunks) :
        EditsFit source [span] (edits (walk site role (.node (.template chunks) span children))) := by
      rw [walk, edits_append, edits_append, henter, hleave]
      exact editsFit_template hsource hnested hbelow
    cases role with
    | lookup count =>
      cases children with
      | nil =>
        rw [walk_of_bare (walkAll_nil_right _) rfl]
        exact hsole (sole_constantArgument _ count)
      | cons c cs => exact hfull rfl rfl
    | _ => exact hfull rfl rfl
  | markupString value =>
    obtain rfl := List.isEmpty_iff.mp (hfits.leaf rfl)
    rw [walk_of_bare (walkAll_nil_right _) rfl]
    exact hsole (sole_literal (some value) .attribute)
  | markupText =>
    obtain rfl := List.isEmpty_iff.mp (hfits.leaf rfl)
    rw [walk_of_bare (walkAll_nil_right _) rfl]
    exact editsFit_elementText hsource
  | element tag =>
    cases tag with
    | plain name place =>
      by_cases hname : (name == site.options.jsxElement) = true
      · have henter : enter site role (.element (.plain name place)) span children =
            site.wrapperElement place.stop children := if_pos hname
        have hleave : leave site role (.element (.plain name place)) children = [] := rfl
        rw [walk, henter, hleave, List.append_nil, edits_append]
        exact editsFit_wrapper hsource hnested hbelow hname
      · refine editsFit_idle hsource hnested hbelow ?_ rfl
        exact if_neg hname
    | _ => exact editsFit_idle hsource hnested hbelow rfl rfl
  | call chained =>
    cases children with
    | nil => exact editsFit_idle hsource hnested hbelow rfl rfl
    | cons callee args =>
      rw [walk, edits_append, edits_append]
      exact editsFit_call hsource hnested hbelow rfl rfl
  | construct withArgs =>
    cases children with
    | nil => exact editsFit_idle hsource hnested hbelow rfl rfl
    | cons callee args =>
      rw [walk, edits_append, edits_append]
      exact editsFit_call hsource hnested hbelow rfl rfl
  | _ => exact editsFit_idle hsource hnested hbelow rfl rfl

/-- The edits of a walk over a nested tree lie in it and stand apart. -/
theorem editsFit_walk (t : Tree) (hnested : t.isNested source = true) : WalksFit source t := by
  have hbelow : WalksFitBelow source t := fun u hlt hu => editsFit_walk u hu
  intro site role hsource
  cases t with
  | node kind span children => exact editsFit_node hsource hnested hbelow
termination_by sizeOf t

end

end TextHarvest.Harvest
