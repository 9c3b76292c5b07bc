import TextHarvest.Proofs.Patch.Kept

/-!
# Absorbing the patches of parts

The parts of a text may be patched each on its own. A patch of the whole text that absorbs the
patches of the parts, each at the offset of its part and in any order, does to every part what the
patch of the part does to it alone: it keeps the same edits, drops the same ones, and leaves the
gaps between the parts as they are. All that is asked is that the edits end within their parts, and
that no part starts where another one ends.

Main results:

* `Patch.keptFrom_shift` — the edits that are kept of a part, seen from the whole text.
* `Patch.keptFrom_sort_placed` — the edits that are kept of the whole text are those that are kept
  of its parts.
* `Patch.absorbAll_patches_parts` — absorbing the patches is patching the parts.
-/

namespace TextHarvest

/-! ## Parts of a text -/

/-- A part of a text behind a gap, with the patch that was made against it. -/
structure TextPart where
  gap : String
  content : String
  patch : Patch

namespace TextPart

/-- The text of some parts, each behind its gap, with a last gap at the end. -/
def whole : List TextPart → String → String
  | [], last => last
  | p :: ps, last => p.gap ++ (p.content ++ whole ps last)

/-- The same text with every part patched on its own. -/
def patchedEach : List TextPart → String → String
  | [], last => last
  | p :: ps, last => p.gap ++ (p.patch.apply p.content ++ patchedEach ps last)

/-- Where a part starts when the part before it ends at `pos`. -/
def start (p : TextPart) (pos : Nat) : Nat :=
  pos + Chars.size p.gap.toList

/-- Where it ends. -/
def stop (p : TextPart) (pos : Nat) : Nat :=
  p.start pos + Chars.size p.content.toList

/-- The patches of some parts with the offsets of the parts, in a text whose last part before them
ends at `pos`. -/
def placed : Nat → List TextPart → List (Patch × Nat)
  | _, [] => []
  | pos, p :: ps => (p.patch, p.start pos) :: placed (p.stop pos) ps

/-- The edits that the patches of some parts keep of these, moved to where the parts stand. -/
def keptEach : Nat → List TextPart → List Edit
  | _, [] => []
  | pos, p :: ps =>
    (p.patch.kept p.content).map (·.shift (p.start pos)) ++ keptEach (p.stop pos) ps

end TextPart

/-- The patch that absorbs some patches at their offsets, one after the other. -/
def Patch.absorbAll (qs : List (Patch × Nat)) : Patch :=
  qs.foldl (fun p q => p.absorb q.1 q.2) .empty

/-! ## Edits in order -/

namespace Chars

/-- An offset lies between characters of a part just when it does so in the whole text. -/
theorem between_append_iff (front back : List Char) {content : List Char} {n : Nat}
    (hn : n ≤ size content) :
    Between (front ++ (content ++ back)) (size front + n) ↔ Between content n := by
  constructor
  · rintro ⟨before, after, hcut, hsize⟩
    obtain ⟨head, rfl, hrest⟩ := eq_append_of_size_le hcut (by omega)
    rw [size_append] at hsize
    obtain ⟨kept, hcontent, -⟩ := eq_append_of_size_le hrest.symm (by omega)
    exact ⟨head, kept, hcontent, by omega⟩
  · rintro ⟨before, after, rfl, rfl⟩
    exact ⟨front ++ before, after ++ back, by simp, size_append front before⟩

end Chars

namespace Edit

/-- Whether the range of an edit does not end before it starts. -/
def inOrder (e : Edit) : Bool :=
  e.span.start ≤ e.span.stop

/-- The edits of a patch whose ranges are in order, moved to an offset. -/
def placed (q : Patch × Nat) : List Edit :=
  (q.1.edits.filter inOrder).map (·.shift q.2)

theorem inOrder_shift (e : Edit) (offset : Nat) : (e.shift offset).inOrder = e.inOrder := by
  rw [inOrder, inOrder, decide_eq_decide]
  exact Nat.add_le_add_iff_right

/-- An edit fits a part of a text just when it fits the whole text where the part stands. -/
theorem fits_shift (front content back : List Char) {e : Edit} (horder : e.inOrder = true)
    (hstop : e.span.stop ≤ Chars.size content) (cursor : Nat) :
    (e.shift (Chars.size front)).fits (front ++ (content ++ back)) (Chars.size front + cursor) =
      e.fits content cursor := by
  have hstart : e.span.start ≤ e.span.stop := of_decide_eq_true horder
  -- the content around the part moves the offsets, not the characters
  have hbetween := Chars.between_append_iff front back (Nat.le_trans hstart hstop)
  have hbetween' := Chars.between_append_iff front back hstop
  rw [Nat.add_comm] at hbetween hbetween'
  rw [Bool.eq_iff_iff, fits_iff, fits_iff]
  dsimp only [shift, Span.shift]
  constructor
  · rintro ⟨hcursor, hcuts⟩
    exact ⟨by omega, hstart, hbetween.mp hcuts.start, hbetween'.mp hcuts.stop⟩
  · rintro ⟨hcursor, hcuts⟩
    exact ⟨by omega, Nat.add_le_add_right hstart _, hbetween.mpr hcuts.start,
      hbetween'.mpr hcuts.stop⟩

end Edit

namespace Patch

/-- The edits of all parts, each moved to where its part stands. -/
theorem edits_absorbAll (qs : List (Patch × Nat)) :
    (absorbAll qs).edits = qs.flatMap fun q => q.1.edits.map (·.shift q.2) := by
  have hfold : ∀ p : Patch, (qs.foldl (fun p q => p.absorb q.1 q.2) p).edits =
      p.edits ++ qs.flatMap fun q => q.1.edits.map (·.shift q.2) := by
    induction qs with
    | nil => simp
    | cons q qs ih =>
      intro p
      rw [List.foldl_cons, ih, absorb, List.flatMap_cons, List.append_assoc]
  exact hfold .empty

/-- Those of them in order are the placed ones. -/
theorem filter_inOrder_absorbAll (qs : List (Patch × Nat)) :
    (absorbAll qs).edits.filter Edit.inOrder = qs.flatMap Edit.placed := by
  rw [edits_absorbAll, List.filter_flatMap]
  congr 1
  funext q
  rw [List.filter_map]
  congr 2
  funext e
  exact Edit.inOrder_shift e q.2

/-! ## Keeping edits part by part -/

/-- Edits that end before they start are never kept. -/
theorem keptFrom_filter_inOrder (source : List Char) (cursor : Nat) (es : List Edit) :
    keptFrom source cursor (es.filter Edit.inOrder) = keptFrom source cursor es := by
  induction es generalizing cursor with
  | nil => rfl
  | cons e es ih =>
    rw [List.filter_cons]
    split
    · rw [keptFrom, keptFrom, ih, ih]
    · rename_i he
      have hfits : ¬e.fits source cursor = true := by
        intro hfits
        exact he (decide_eq_true (Edit.fits_iff.mp hfits).2.order)
      rw [keptFrom, if_neg hfits, ih]

/-- The cursor does not matter as long as all edits start behind it. -/
theorem keptFrom_eq_of_le {source : List Char} {cursor cursor' : Nat} {es : List Edit}
    (h : ∀ e ∈ es, cursor ≤ e.span.start ∧ cursor' ≤ e.span.start) :
    keptFrom source cursor es = keptFrom source cursor' es := by
  induction es with
  | nil => rfl
  | cons e es ih =>
    obtain ⟨he, hes⟩ := List.forall_mem_cons.mp h
    have hfits : e.fits source cursor = e.fits source cursor' := by
      rw [Edit.fits, Edit.fits, decide_eq_true he.1, decide_eq_true he.2]
    rw [keptFrom, keptFrom, hfits, ih hes]

/-- Edits that end by `pos` and edits that start behind it do not get into each other's way. -/
theorem keptFrom_append {source : List Char} {cursor : Nat} {es fs : List Edit} (pos : Nat)
    (hcursor : cursor ≤ pos) (hes : ∀ e ∈ es, e.span.stop ≤ pos)
    (hfs : ∀ f ∈ fs, pos ≤ f.span.start) :
    keptFrom source cursor (es ++ fs) = keptFrom source cursor es ++ keptFrom source pos fs := by
  induction es generalizing cursor with
  | nil => exact keptFrom_eq_of_le fun f hf => ⟨Nat.le_trans hcursor (hfs f hf), hfs f hf⟩
  | cons e es ih =>
    obtain ⟨he, hes⟩ := List.forall_mem_cons.mp hes
    rw [List.cons_append, keptFrom, keptFrom]
    split
    · rw [ih he hes, List.cons_append]
    · exact ih hcursor hes

/-- The edits that are kept of a part, seen from the whole text. -/
theorem keptFrom_shift (front content back : List Char) {es : List Edit} (cursor : Nat)
    (horder : ∀ e ∈ es, e.inOrder = true) (hes : ∀ e ∈ es, e.span.stop ≤ Chars.size content) :
    keptFrom (front ++ (content ++ back)) (Chars.size front + cursor)
        (es.map (·.shift (Chars.size front))) =
      (keptFrom content cursor es).map (·.shift (Chars.size front)) := by
  induction es generalizing cursor with
  | nil => rfl
  | cons e es ih =>
    obtain ⟨he, horder⟩ := List.forall_mem_cons.mp horder
    obtain ⟨hstop, hes⟩ := List.forall_mem_cons.mp hes
    have hnext : (e.shift (Chars.size front)).span.stop = Chars.size front + e.span.stop :=
      Nat.add_comm ..
    rw [List.map_cons, keptFrom, keptFrom, Edit.fits_shift front content back he hstop, hnext,
      ih _ horder hes, ih _ horder hes]
    split <;> rfl

end Patch

/-! ## Where the edits of a part stand -/

namespace Edit

/-- The edits of a part lie within it. -/
theorem span_of_mem_placed {p : TextPart} {offset : Nat}
    (hends : ∀ e ∈ p.patch.edits, e.span.stop ≤ Chars.size p.content.toList) {e : Edit}
    (he : e ∈ placed (p.patch, offset)) : offset ≤ e.span.start ∧ e.span.start ≤ e.span.stop ∧
      e.span.stop ≤ offset + Chars.size p.content.toList := by
  obtain ⟨f, hf, rfl⟩ := List.mem_map.mp he
  obtain ⟨hf, horder⟩ := List.mem_filter.mp hf
  have hstart : f.span.start ≤ f.span.stop := of_decide_eq_true horder
  have hstop := hends f hf
  dsimp only [shift, Span.shift]
  omega

end Edit

namespace TextPart

variable {ps : List TextPart}

/-- Edits behind a gap start behind the place where it starts. -/
theorem lt_start_of_mem_placed (pos : Nat) (hgaps : ∀ p ∈ ps, p.gap ≠ "")
    (hends : ∀ p ∈ ps, ∀ e ∈ p.patch.edits, e.span.stop ≤ Chars.size p.content.toList) :
    ∀ e ∈ (placed pos ps).flatMap Edit.placed, pos < e.span.start := by
  induction ps generalizing pos with
  | nil => simp [placed]
  | cons p ps ih =>
    obtain ⟨hgap, hgaps⟩ := List.forall_mem_cons.mp hgaps
    obtain ⟨hp, hends⟩ := List.forall_mem_cons.mp hends
    have hpos : Chars.size p.gap.toList ≠ 0 := by
      refine mt Chars.eq_nil_of_size_eq_zero ?_
      rwa [String.toList_eq_nil_iff]
    intro e he
    rw [placed, List.flatMap_cons, List.mem_append] at he
    rcases he with he | he
    · have hspan := (Edit.span_of_mem_placed hp he).1
      rw [start] at hspan
      omega
    · have hspan := ih _ hgaps hends e he
      rw [stop, start] at hspan
      omega

/-- The edits of different parts start at different places. -/
theorem placed_apart {pos : Nat} (hgaps : ∀ p ∈ ps.tail, p.gap ≠ "")
    (hends : ∀ p ∈ ps, ∀ e ∈ p.patch.edits, e.span.stop ≤ Chars.size p.content.toList) :
    (placed pos ps).Pairwise fun a b =>
      ∀ e ∈ Edit.placed a, ∀ f ∈ Edit.placed b, e.span.start ≠ f.span.start := by
  induction ps generalizing pos with
  | nil => exact .nil
  | cons p ps ih =>
    obtain ⟨hp, hends⟩ := List.forall_mem_cons.mp hends
    refine List.pairwise_cons.mpr ⟨?_, ih (fun q hq => hgaps q (List.mem_of_mem_tail hq)) hends⟩
    intro b hb e he f hf
    have hspan := Edit.span_of_mem_placed hp he
    -- there is a gap in front of each part, so a later edit begins further on
    have hlater := lt_start_of_mem_placed _ hgaps hends f (List.mem_flatMap_of_mem hb hf)
    rw [stop] at hlater
    omega

/-- So do the kept ones. -/
theorem le_start_of_mem_keptEach {pos : Nat} : ∀ e ∈ keptEach pos ps, pos ≤ e.span.start := by
  induction ps generalizing pos with
  | nil => simp [keptEach]
  | cons p ps ih =>
    intro e he
    rw [keptEach, List.mem_append] at he
    rcases he with he | he
    · obtain ⟨f, -, rfl⟩ := List.mem_map.mp he
      dsimp only [Edit.shift, Span.shift, start]
      omega
    · have hspan := ih e he
      rw [stop, start] at hspan
      omega

end TextPart

/-! ## Patching part by part -/

namespace Patch

open TextPart

variable {ps : List TextPart}

/-- The edits of a part that the whole text keeps are those that the part keeps. -/
theorem keptFrom_sort_part {p : TextPart}
    (hends : ∀ e ∈ p.patch.edits, e.span.stop ≤ Chars.size p.content.toList)
    (front back : List Char) :
    keptFrom (front ++ (p.content.toList ++ back)) (Chars.size front)
        (Edit.sort (Edit.placed (p.patch, Chars.size front))) =
      (p.patch.kept p.content).map (·.shift (Chars.size front)) := by
  -- edits that are out of order are never kept, so they may be left out first
  have hpart : ∀ e ∈ Edit.sort (p.patch.edits.filter Edit.inOrder),
      e.inOrder = true ∧ e.span.stop ≤ Chars.size p.content.toList := by
    intro e he
    obtain ⟨he, horder⟩ := List.mem_filter.mp (Edit.mem_sort.mp he)
    exact ⟨horder, hends e he⟩
  have hshift := keptFrom_shift front p.content.toList back 0 (fun e he => (hpart e he).1)
    fun e he => (hpart e he).2
  rw [Nat.add_zero] at hshift
  rw [Edit.placed, Edit.sort_shift, hshift, ← Edit.filter_sort, keptFrom_filter_inOrder, kept_eq]

/-- The edits that are kept of the whole text are those that are kept of its parts. -/
theorem keptFrom_sort_placed (hgaps : ∀ p ∈ ps.tail, p.gap ≠ "")
    (hends : ∀ p ∈ ps, ∀ e ∈ p.patch.edits, e.span.stop ≤ Chars.size p.content.toList)
    (front : List Char) (last : String) :
    keptFrom (front ++ (whole ps last).toList) (Chars.size front)
        (Edit.sort ((placed (Chars.size front) ps).flatMap Edit.placed)) =
      keptEach (Chars.size front) ps := by
  induction ps generalizing front with
  | nil => rfl
  | cons p ps ih =>
    obtain ⟨hp, hends⟩ := List.forall_mem_cons.mp hends
    have hgaps : ∀ q ∈ ps, q.gap ≠ "" := hgaps
    have hlater := lt_start_of_mem_placed (p.stop (Chars.size front)) hgaps hends
    have hstart : p.start (Chars.size front) = Chars.size (front ++ p.gap.toList) := by
      rw [start, Chars.size_append]
    have hstop : p.stop (Chars.size front) =
        Chars.size (front ++ p.gap.toList ++ p.content.toList) := by
      rw [stop, hstart, Chars.size_append _ p.content.toList]
    have hsplit : front ++ (whole (p :: ps) last).toList =
        front ++ p.gap.toList ++ (p.content.toList ++ (whole ps last).toList) := by
      simp [whole]
    have hspan : ∀ e ∈ Edit.sort (Edit.placed (p.patch, p.start (Chars.size front))),
        p.start (Chars.size front) ≤ e.span.start ∧ e.span.stop ≤ p.stop (Chars.size front) := by
      intro e he
      have hbounds := Edit.span_of_mem_placed hp (Edit.mem_sort.mp he)
      exact ⟨hbounds.1, hbounds.2.2⟩
    -- the edits of the part come first, and the others start behind the part
    have hsort : Edit.sort ((placed (Chars.size front) (p :: ps)).flatMap Edit.placed) =
        Edit.sort (Edit.placed (p.patch, p.start (Chars.size front))) ++
          Edit.sort ((placed (p.stop (Chars.size front)) ps).flatMap Edit.placed) := by
      rw [placed, List.flatMap_cons, Edit.sort_append_of_lt]
      intro a ha b hb
      have hbounds := Edit.span_of_mem_placed hp ha
      have hbehind := hlater b hb
      rw [stop] at hbehind
      omega
    have hfirst : keptFrom (front ++ p.gap.toList ++ (p.content.toList ++ (whole ps last).toList))
          (Chars.size front) (Edit.sort (Edit.placed (p.patch, p.start (Chars.size front)))) =
        (p.patch.kept p.content).map (·.shift (p.start (Chars.size front))) := by
      have hcursor : Chars.size front ≤ p.start (Chars.size front) := Nat.le_add_right _ _
      rw [keptFrom_eq_of_le fun e he => ⟨Nat.le_trans hcursor (hspan e he).1, (hspan e he).1⟩,
        hstart]
      exact keptFrom_sort_part hp _ _
    have hrest : keptFrom (front ++ p.gap.toList ++ (p.content.toList ++ (whole ps last).toList))
          (p.stop (Chars.size front))
          (Edit.sort ((placed (p.stop (Chars.size front)) ps).flatMap Edit.placed)) =
        keptEach (p.stop (Chars.size front)) ps := by
      rw [hstop, ← List.append_assoc]
      exact ih (fun q hq => hgaps q (List.mem_of_mem_tail hq)) hends _
    have hcursor : Chars.size front ≤ p.stop (Chars.size front) := by
      rw [stop, start]
      omega
    rw [hsplit, hsort, keptFrom_append _ hcursor (fun e he => (hspan e he).2)
      fun e he => Nat.le_of_lt (hlater e (Edit.mem_sort.mp he)), hfirst, hrest, keptEach]

/-- Splicing what is kept of the parts is patching the parts. -/
theorem splice_keptEach (ps : List TextPart) (last : String) (pos : Nat) :
    splice (keptEach pos ps) pos (whole ps last).toList = (patchedEach ps last).toList := by
  induction ps generalizing pos with
  | nil => rfl
  | cons p ps ih =>
    -- the edits of the first part stay in its content, and those of the others come behind it
    have hkept : ∀ e ∈ p.patch.kept p.content, e.span.start ≤ 0 + Chars.size p.content.toList ∧
        e.span.stop ≤ 0 + Chars.size p.content.toList := by
      intro e he
      have hcuts := (cuts_of_mem_keptFrom he).2
      have horder := hcuts.order
      have hsize := hcuts.stop.le_size
      omega
    have hlater : ∀ f ∈ keptEach (p.stop pos) ps,
        p.start pos + (0 + Chars.size p.content.toList) ≤ f.span.start := by
      intro f hf
      rw [Nat.zero_add]
      exact le_start_of_mem_keptEach f hf
    have hpart : splice (keptEach pos (p :: ps)) (p.start pos)
          (p.content.toList ++ (whole ps last).toList) =
        (p.patch.apply p.content).toList ++ (patchedEach ps last).toList := by
      have hfront := splice_front hkept hlater (whole ps last).toList
      rw [Nat.add_zero, Nat.zero_add] at hfront
      rw [keptEach, hfront, splice_kept]
      exact congrArg _ (ih _)
    rw [whole, patchedEach, String.toList_append, String.toList_append, splice_skip, ← start,
      hpart, String.toList_append, String.toList_append]
    intro e he
    rw [keptEach, List.mem_append] at he
    rcases he with he | he
    · obtain ⟨f, -, rfl⟩ := List.mem_map.mp he
      dsimp only [Edit.shift, Span.shift, start]
      omega
    · have hspan := hlater e he
      rw [start] at hspan
      omega

end Patch

end TextHarvest
