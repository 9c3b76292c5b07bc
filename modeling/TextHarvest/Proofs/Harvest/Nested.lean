import TextHarvest.Proofs.Harvest.Bounds
import TextHarvest.Proofs.Harvest.Display
import TextHarvest.Proofs.Patch.Apart
import TextHarvest.Proofs.Text.Blank

/-!
# Trees whose ranges are nested

A syntax tree goes with the text it was read from: the range of a node falls between characters and
takes in the ranges of its parts, and the parts stand apart from each other. Here that is a check
of one node with its children, to be made all over a tree.

The check makes an allowance for methods. The range of the function of a method takes in the name of
the method, so the two do not stand apart; what does are the name and the parts of the function.

Main results:

* `Tree.isNested` — the check, which also looks at the flags in calls of compiled render code.
* `Chars.BehindFirm.le_trimEnd` — dropping blanks does not go back over a character that is none.
-/

namespace TextHarvest

/-! ## Blanks around ranges -/

namespace Chars

/-- The place right behind a character that is no blank. -/
def BehindFirm (source : List Char) (n : Nat) : Prop :=
  ∃ front c back, source = front ++ c :: back ∧ isBlank c = false ∧ n = size front + c.utf8Size

/-- Whether the text of a range starts with a character that is no blank. -/
def startsFirm (source : List Char) (s : Span) : Bool :=
  (slice? source s).any fun cs => cs.head?.any fun c => !isBlank c

/-- Whether the text of a range ends with a character that is no blank. -/
def endsFirm (source : List Char) (s : Span) : Bool :=
  (slice? source s).any fun cs => cs.getLast?.any fun c => !isBlank c

/-- A character that stops the search is not dropped. -/
theorem suffix_dropWhile {p : Char → Bool} {c : Char} (hc : p c = false) (front rest : List Char) :
    c :: rest <:+ (front ++ c :: rest).dropWhile p := by
  induction front with
  | nil => simp [hc]
  | cons d front ih =>
    rw [List.cons_append, List.dropWhile_cons]
    split
    · exact ih
    · exact List.suffix_append (d :: front) (c :: rest)

/-- Nor is it taken. -/
theorem prefix_of_takeWhile {p : Char → Bool} {c : Char} (hc : p c = false)
    (front rest : List Char) : (front ++ c :: rest).takeWhile p <+: front := by
  induction front with
  | nil => simp [hc]
  | cons d front ih =>
    rw [List.cons_append, List.takeWhile_cons]
    split
    · exact List.cons_prefix_cons.mpr ⟨rfl, ih⟩
    · exact List.nil_prefix

/-- Dropping the blanks at the end of a text does not go back over a character that is none. -/
theorem BehindFirm.le_trimEnd {source before rest : List Char} {n : Nat} (h : BehindFirm source n)
    (hsource : source = before ++ rest) (hle : n ≤ size before) : n ≤ size (trimEnd before) := by
  obtain ⟨front, c, back, hfirm, hc, rfl⟩ := h
  have hcut : (front ++ [c]) ++ back = before ++ rest := by
    rw [← hsource, hfirm, List.append_assoc, List.singleton_append]
  have hsize : size (front ++ [c]) = size front + c.utf8Size := by
    rw [size_append, size_cons, size_nil, Nat.add_zero]
  obtain ⟨kept, rfl, -⟩ := eq_append_of_size_le hcut (by omega)
  -- a character that is no blank stops the trimming
  have hsuffix : c :: front.reverse <:+ (trimEnd (front ++ [c] ++ kept)).reverse := by
    rw [trimEnd, List.reverse_reverse, List.reverse_append, List.reverse_append]
    exact suffix_dropWhile hc kept.reverse front.reverse
  have hle' := size_le_of_suffix hsuffix
  rw [size_reverse, size_cons, size_reverse] at hle'
  omega

/-- A range that ends firmly ends behind a firm character. -/
theorem behindFirm_of_endsFirm {source : List Char} {s : Span} (h : endsFirm source s = true) :
    BehindFirm source s.stop := by
  obtain ⟨cs, hslice, hlast⟩ := (Option.any_eq_true _ _).mp h
  obtain ⟨c, hc, hfirm⟩ := (Option.any_eq_true _ _).mp hlast
  obtain ⟨front, back, rfl, hstart, hstop⟩ := slice?_eq_some hslice
  obtain ⟨ds, rfl⟩ := List.getLast?_eq_some_iff.mp hc
  refine ⟨front ++ ds, c, back, ?_, by simpa using hfirm, ?_⟩
  · simp only [List.append_assoc, List.singleton_append]
  · rw [hstop, hstart, size_append, size_append, size_cons, size_nil]
    omega

/-- A range that does not start with a blank starts behind the blanks at the front of the text. -/
theorem le_start_of_startsFirm {source : List Char} {s : Span} (h : startsFirm source s = true) :
    size (source.takeWhile isBlank) ≤ s.start := by
  obtain ⟨cs, hslice, hhead⟩ := (Option.any_eq_true _ _).mp h
  obtain ⟨c, hc, hfirm⟩ := (Option.any_eq_true _ _).mp hhead
  obtain ⟨front, back, rfl, hstart, -⟩ := slice?_eq_some hslice
  obtain ⟨ds, rfl⟩ := List.head?_eq_some_iff.mp hc
  rw [hstart]
  exact size_le_of_prefix (prefix_of_takeWhile (by simpa using hfirm) front (ds ++ back))

/-- A range with a slice lies between characters. -/
theorem cuts_of_isSome_slice? {source : List Char} {s : Span}
    (h : (slice? source s).isSome = true) : s.Cuts source := by
  obtain ⟨xs, hslice⟩ := Option.isSome_iff_exists.mp h
  obtain ⟨front, back, rfl, hstart, hstop⟩ := slice?_eq_some hslice
  refine ⟨by omega, ⟨front, xs ++ back, rfl, hstart.symm⟩, ⟨front ++ xs, back, ?_, ?_⟩⟩
  · rw [List.append_assoc]
  · rw [hstop, hstart, size_append]

end Chars

/-! ## Calls of compiled render code -/

namespace Harvest

open Script

/-- Whether a callee makes nodes. -/
def makesNode (callee : Tree) : Bool :=
  callee.path?.any fun n => nodeMakers.contains (Exclusion.terminalSegment n)

/-- Among the arguments of a node maker the fourth is a number and the fifth is an array. -/
def flagsFit : List Tree → Bool
  | _ :: _ :: _ :: flag :: more =>
    (match flag.unspread with
      | .node (.numLit _) _ _ => true
      | _ => false) &&
    more.head?.all fun names =>
      match names.unspread with
      | .node .array _ _ => true
      | _ => false
  | _ => true

/-- The flags of a call of a node maker are written out. -/
def callFits : Kind → List Tree → Bool
  | .call _, callee :: args => !makesNode callee || flagsFit args
  | .construct _, callee :: args => !makesNode callee || flagsFit args
  | _, _ => true

end Harvest

/-! ## Nested ranges -/

namespace Script

/-- The ranges in which a tree lies: that of its node or, for a function, those of its parts. -/
def Tree.extents : Tree → List Span
  | .node (.func _ _) _ children => children.map Tree.span
  | t => [t.span]

/-- Two trees that lie apart from each other. -/
def Tree.Clear (t u : Tree) : Prop :=
  ∀ a ∈ t.extents, ∀ b ∈ u.extents, a.Apart b

instance (t u : Tree) : Decidable (t.Clear u) :=
  inferInstanceAs (Decidable (∀ a ∈ t.extents, ∀ b ∈ u.extents, a.Apart b))

namespace Kind

/-- The members whose function takes in their name. -/
def isMethod : Kind → Bool
  | .method => true
  | .classMethod _ => true
  | _ => false

/-- Kinds of nodes without parts. -/
def isLeaf : Kind → Bool
  | .numLit _ => true
  | .hole => true
  | .markupString _ => true
  | .markupText => true
  | _ => false

/-- The parts of a script do not start with blanks. The name of an element comes before its other
parts, and none of them ends with blanks unless it is a text. -/
def isFirm (source : List Char) (children : List Tree) : Kind → Bool
  | .module => children.all fun c => Chars.startsFirm source c.span
  | .element (.plain _ place) =>
    Chars.endsFirm source place && children.all fun c =>
      place.stop ≤ c.span.start && (c.kind == .markupText || Chars.endsFirm source c.span)
  | _ => true

end Kind

/-- The ranges of a node, of what it carries and of its children fit together, and the flags of a
call of a node maker are written out. -/
structure Fits (source : List Char) (kind : Kind) (span : Span) (children : List Tree) : Prop where
  cuts : ∀ s ∈ span :: kind.spans, (Chars.slice? source s).isSome = true
  inside : ∀ s ∈ kind.spans ++ children.map Tree.span, s.Inside span
  apart : kind.isMethod = false → (kind.spans ++ children.map Tree.span).Pairwise Span.Apart
  clear : kind.isMethod = true → children.Pairwise Tree.Clear
  leaf : kind.isLeaf = true → children.isEmpty = true
  firm : kind.isFirm source children = true
  flags : Harvest.callFits kind children = true

instance (source : List Char) (kind : Kind) (span : Span) (children : List Tree) :
    Decidable (Fits source kind span children) :=
  decidable_of_iff
    ((∀ s ∈ span :: kind.spans, (Chars.slice? source s).isSome = true) ∧
      (∀ s ∈ kind.spans ++ children.map Tree.span, s.Inside span) ∧
      (kind.isMethod = false → (kind.spans ++ children.map Tree.span).Pairwise Span.Apart) ∧
      (kind.isMethod = true → children.Pairwise Tree.Clear) ∧
      (kind.isLeaf = true → children.isEmpty = true) ∧ kind.isFirm source children = true ∧
      Harvest.callFits kind children = true)
    ⟨fun ⟨hcuts, hinside, hapart, hclear, hleaf, hfirm, hflags⟩ =>
        ⟨hcuts, hinside, hapart, hclear, hleaf, hfirm, hflags⟩,
      fun h => ⟨h.cuts, h.inside, h.apart, h.clear, h.leaf, h.firm, h.flags⟩⟩

/-- A tree whose nodes all fit together. -/
def Tree.isNested (source : List Char) (t : Tree) : Bool :=
  t.all fun kind span children => decide (Fits source kind span children)

theorem Fits.cuts_span {source : List Char} {kind : Kind} {span : Span} {children : List Tree}
    (hfits : Fits source kind span children) : span.Cuts source :=
  Chars.cuts_of_isSome_slice? (hfits.cuts span List.mem_cons_self)

namespace Tree

theorem allIn_iff {p : Kind → Span → List Tree → Bool} {ts : List Tree} :
    allIn p ts = true ↔ ∀ t ∈ ts, t.all p = true := by
  induction ts with
  | nil => simp [allIn]
  | cons t ts ih => rw [allIn, Bool.and_eq_true, ih, List.forall_mem_cons]

/-- A tree is nested when its root and all of its children are. -/
theorem isNested_node {source : List Char} {kind : Kind} {span : Span} {children : List Tree} :
    (Tree.node kind span children).isNested source = true ↔
      Fits source kind span children ∧ ∀ c ∈ children, c.isNested source = true := by
  rw [isNested, all, Bool.and_eq_true, decide_eq_true_eq, allIn_iff]
  rfl

/-- The range of a nested tree lies between characters. -/
theorem cuts_span {source : List Char} {t : Tree} (h : t.isNested source = true) :
    t.span.Cuts source := by
  obtain ⟨kind, span, children⟩ := t
  exact (isNested_node.mp h).1.cuts_span

theorem inside_span {source : List Char} {t : Tree} (h : t.isNested source = true) :
    t.span.Inside t.span :=
  ⟨Nat.le_refl _, (cuts_span h).order, Nat.le_refl _⟩

/-- What is spread is nested too, and lies inside of the spread. -/
theorem isNested_unspread {source : List Char} {t : Tree} (h : t.isNested source = true) :
    t.unspread.isNested source = true ∧ t.unspread.span.Inside t.span := by
  rw [unspread.eq_def]
  split
  · rename_i span first rest
    obtain ⟨hfits, hparts⟩ := isNested_node.mp h
    refine ⟨hparts first List.mem_cons_self, hfits.inside _ ?_⟩
    exact List.mem_append_right _ (List.mem_map_of_mem List.mem_cons_self)
  · exact ⟨h, inside_span h⟩

/-- The ranges in which a nested tree lies are within its own. -/
theorem inside_of_mem_extents {source : List Char} {t : Tree} (h : t.isNested source = true)
    {s : Span} (hs : s ∈ t.extents) : s.Inside t.span := by
  have hself := inside_span h
  obtain ⟨kind, span, children⟩ := t
  obtain ⟨hfits, -⟩ := isNested_node.mp h
  rw [extents.eq_def] at hs
  split at hs
  · rename_i heq
    obtain ⟨rfl, rfl, rfl⟩ := Tree.node.inj heq
    exact hfits.inside s (List.mem_append_right _ hs)
  · rw [List.mem_singleton.mp hs]
    exact hself

end Tree

/-- Children that stand apart lie apart. -/
theorem Fits.pairwise_clear {source : List Char} {kind : Kind} {span : Span}
    {children : List Tree} (hfits : Fits source kind span children)
    (hnested : ∀ c ∈ children, c.isNested source = true) : children.Pairwise Tree.Clear := by
  cases hmethod : kind.isMethod with
  | true => exact hfits.clear hmethod
  | false =>
    have hspans := (List.pairwise_append.mp (hfits.apart hmethod)).2.1
    refine (List.pairwise_map.mp hspans).imp_of_mem ?_
    intro t u ht hu hapart a ha b hb
    exact hapart.of_inside (Tree.inside_of_mem_extents (hnested t ht) ha)
      (Tree.inside_of_mem_extents (hnested u hu) hb)

/-- Two different children stand apart, but for those of a method. -/
theorem Fits.apart_of_ne {source : List Char} {kind : Kind} {span : Span} {children : List Tree}
    (hfits : Fits source kind span children) (hmethod : kind.isMethod = false) {c d : Tree}
    (hc : c ∈ children) (hd : d ∈ children) (hne : c ≠ d) : c.span.Apart d.span := by
  have hspans := (List.pairwise_append.mp (hfits.apart hmethod)).2.1
  have : Std.Symm fun c d : Tree => c.span.Apart d.span := ⟨fun _ _ h => Span.Apart.symm h⟩
  exact (List.pairwise_map.mp hspans).forall hc hd hne

end Script

end TextHarvest
