import Mathlib.Data.List.Pairwise
import TextHarvest.Proofs.Patch.Regions

/-!
# Patches that lose no edit

A patch drops an edit that reaches into an earlier one, and one that cuts a character in two. When
its edits stand apart from each other and fall between characters nothing is dropped: every range is
exchanged for its new text, and the rest of the source comes out as it was.

Main results:

* `Edit.pairwise_sort_of_apart` — in the order of application each edit ends before the next starts.
* `Patch.appliesAll_of_apart` — a patch whose edits stand apart applies all of them.
-/

namespace TextHarvest

/-! ## Ranges -/

namespace Span

/-- Two ranges of which one ends before the other starts. -/
def Apart (s t : Span) : Prop :=
  s.stop ≤ t.start ∨ t.stop ≤ s.start

instance (s t : Span) : Decidable (s.Apart t) :=
  inferInstanceAs (Decidable (_ ∨ _))

/-- A range in order that lies inside another. -/
structure Inside (s t : Span) : Prop where
  start : t.start ≤ s.start
  order : s.start ≤ s.stop
  stop : s.stop ≤ t.stop

theorem inside_iff {s t : Span} :
    s.Inside t ↔ t.start ≤ s.start ∧ s.start ≤ s.stop ∧ s.stop ≤ t.stop :=
  ⟨fun h => ⟨h.start, h.order, h.stop⟩, fun ⟨hstart, horder, hstop⟩ => ⟨hstart, horder, hstop⟩⟩

instance (s t : Span) : Decidable (s.Inside t) :=
  decidable_of_iff _ inside_iff.symm

theorem Apart.symm {s t : Span} (h : s.Apart t) : t.Apart s :=
  Or.symm h

theorem Inside.trans {r s t : Span} (hrs : r.Inside s) (hst : s.Inside t) : r.Inside t :=
  ⟨Nat.le_trans hst.start hrs.start, hrs.order, Nat.le_trans hrs.stop hst.stop⟩

/-- What lies inside of a range is apart from what the range is apart from. -/
theorem Apart.of_inside_right {s t t' : Span} (h : s.Apart t) (ht : t'.Inside t) : s.Apart t' := by
  rcases h with h | h
  · exact Or.inl (Nat.le_trans h ht.start)
  · exact Or.inr (Nat.le_trans ht.stop h)

/-- Parts of ranges that stand apart do so too. -/
theorem Apart.of_inside {s s' t t' : Span} (h : s.Apart t) (hs : s'.Inside s) (ht : t'.Inside t) :
    s'.Apart t' :=
  ((h.of_inside_right ht).symm.of_inside_right hs).symm

end Span

/-! ## Places between characters -/

namespace Chars

/-- An offset between two characters of a text, or at one of its ends. -/
def Between (source : List Char) (n : Nat) : Prop :=
  ∃ front back, source = front ++ back ∧ size front = n

theorem between_size (source : List Char) : Between source (size source) :=
  ⟨source, [], (List.append_nil _).symm, rfl⟩

theorem Between.le_size {source : List Char} {n : Nat} (h : Between source n) :
    n ≤ size source := by
  obtain ⟨front, back, rfl, rfl⟩ := h
  rw [size_append]
  exact Nat.le_add_right _ _

/-- A stretch of a text is the slice of its own range. -/
theorem slice?_append (front xs back : List Char) :
    slice? (front ++ (xs ++ back)) ⟨size front, size front + size xs⟩ = some xs := by
  rw [slice?, if_pos (Nat.le_add_right _ _), drop?_append]
  dsimp only
  rw [Nat.add_sub_cancel_left, splitAt?_append]
  rfl

end Chars

/-- A range in order between characters of a text. -/
structure Span.Cuts (s : Span) (source : List Char) : Prop where
  order : s.start ≤ s.stop
  start : Chars.Between source s.start
  stop : Chars.Between source s.stop

/-- What a range cuts out of a text. -/
theorem Span.Cuts.exists_piece {s : Span} {source : List Char} (h : s.Cuts source) :
    ∃ front xs back, source = front ++ (xs ++ back) ∧ Chars.size front = s.start ∧
      s.stop = s.start + Chars.size xs ∧ Chars.slice? source s = some xs := by
  obtain ⟨front, back, rfl, hfront⟩ := h.start
  obtain ⟨front', back', heq, hfront'⟩ := h.stop
  have horder := h.order
  -- both cuts are of one text, so the later one is found behind the earlier
  obtain ⟨xs, rfl, rfl⟩ := Chars.eq_append_of_size_le heq (by omega)
  have hsize : s.stop = s.start + Chars.size xs := by
    rw [← hfront', ← hfront, Chars.size_append]
  have hspan : s = ⟨Chars.size front, Chars.size front + Chars.size xs⟩ := by
    rw [hfront, ← hsize]
  refine ⟨front, xs, back', rfl, hfront, hsize, ?_⟩
  rw [hspan]
  exact Chars.slice?_append ..

/-! ## Edits by position -/

namespace Edit

/-- What an edit exchanges: the range with what stands there, and the new text. -/
def exchange (source : List Char) (e : Edit) : Region × List Char :=
  (⟨e.span.start, (Chars.slice? source e.span).getD []⟩, e.text.toList)

/-- Sorting an edit in rearranges the edits. -/
theorem perm_insertSorted (e : Edit) (es : List Edit) : (insertSorted e es).Perm (e :: es) := by
  induction es with
  | nil => exact .refl _
  | cons f es ih =>
    rw [insertSorted]
    split
    · exact .refl _
    · exact (ih.cons f).trans (.swap e f es)

/-- Sorting rearranges the edits. -/
theorem perm_sort (es : List Edit) : (sort es).Perm es := by
  induction es with
  | nil => exact .refl _
  | cons e es ih => exact (perm_insertSorted e (sort es)).trans (ih.cons e)

/-- Edits that stand apart come one behind the other when they are sorted. -/
theorem pairwise_sort_of_apart {es : List Edit} (horder : ∀ e ∈ es, e.span.start ≤ e.span.stop)
    (hapart : es.Pairwise fun e f => e.span.Apart f.span) :
    (sort es).Pairwise fun e f => e.span.stop ≤ f.span.start := by
  have hsorted : (sort es).Pairwise fun e f => e.span.Apart f.span :=
    ((perm_sort es).pairwise_iff Span.Apart.symm).mpr hapart
  refine (hsorted.and (pairwise_sort es)).imp_of_mem ?_
  rintro e f he hf ⟨hef, hbefore⟩
  have hforder := horder f (mem_sort.mp hf)
  rw [before_iff] at hbefore
  rcases hef with hef | hfe
  · exact hef
  · -- both are insertions at one place
    omega

end Edit

/-! ## Applying all edits -/

namespace Patch

/-- All edits of a patch are applied: the ranges are exchanged and nothing else changes. -/
def AppliesAll (p : Patch) (source : String) : Prop :=
  Exchanged ((Edit.sort p.edits).map (Edit.exchange source.toList)) 0 source.toList
    (p.apply source).toList

/-- Edits that are apart and in order exchange their ranges for their texts. -/
theorem exchanged_splice {source : List Char} {es : List Edit} {front rest : List Char}
    (hsource : source = front ++ rest) (hcuts : ∀ e ∈ es, e.span.Cuts source)
    (hafter : ∀ e ∈ es, Chars.size front ≤ e.span.start)
    (hsorted : es.Pairwise fun e f => e.span.stop ≤ f.span.start) :
    Exchanged (es.map (Edit.exchange source)) (Chars.size front) rest
      (splice es (Chars.size front) rest) := by
  induction es generalizing front rest with
  | nil => exact .nil _ _
  | cons e es ih =>
    obtain ⟨hnext, hsorted⟩ := List.pairwise_cons.mp hsorted
    obtain ⟨hcut, hcuts⟩ := List.forall_mem_cons.mp hcuts
    obtain ⟨before, xs, back, hpiece, hbefore, hsize, hslice⟩ := hcut.exists_piece
    have hfront := hafter e List.mem_cons_self
    -- what is left of the source up to the edit, the edited piece, and the rest
    obtain ⟨gap, rfl, rfl⟩ :=
      Chars.eq_append_of_size_le (hsource.symm.trans hpiece) (by omega)
    have hgap : e.span.start = Chars.size front + Chars.size gap := by
      rw [← hbefore, Chars.size_append]
    have hend : Chars.size (front ++ gap ++ xs) = e.span.stop := by
      rw [Chars.size_append, hbefore, hsize]
    have hsplit : source = front ++ gap ++ xs ++ back := by
      rw [List.append_assoc (front ++ gap), ← hpiece]
    have hlater : ∀ f ∈ es, Chars.size (front ++ gap ++ xs) ≤ f.span.start := by
      intro f hf
      rw [hend]
      exact hnext f hf
    have hrest := ih hsplit hcuts hlater hsorted
    rw [hend] at hrest
    rw [List.map_cons, splice_cons_append hgap hsize, List.append_assoc, Edit.exchange, hslice]
    refine .cons hgap ?_
    rw [Region.stop]
    dsimp only [Option.getD_some]
    rw [← hsize]
    exact hrest

/-- A patch whose edits fall between characters and stand apart applies all of them. -/
theorem appliesAll_of_apart {p : Patch} {source : String}
    (hcuts : ∀ e ∈ p.edits, e.span.Cuts source.toList)
    (hapart : p.edits.Pairwise fun e f => e.span.Apart f.span) : p.AppliesAll source := by
  have hsorted := Edit.pairwise_sort_of_apart (fun e he => (hcuts e he).order) hapart
  have hnil : source.toList = [] ++ source.toList := rfl
  rw [AppliesAll, apply, String.toList_ofList]
  exact exchanged_splice hnil (fun e he => hcuts e (Edit.mem_sort.mp he))
    (fun _ _ => Nat.zero_le _) hsorted

end Patch

end TextHarvest
