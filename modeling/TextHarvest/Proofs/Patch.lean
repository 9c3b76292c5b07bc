import TextHarvest.Patch

/-!
# What a patch leaves in place

A patch goes through its edits by position. What lies between two edits comes out as it was, with
the new texts around it, as long as no other edit reaches into it.

Main results:

* `Edit.pairwise_sort` — edits are applied by position.
* `Patch.splice_append` — edits that end within the front of a text leave its rest alone.
* `Patch.apply_around` — a piece of the source and an edit right behind it, in the patched text.
-/

namespace TextHarvest

/-! ## Cutting a text -/

namespace Chars

theorem eq_nil_of_size_eq_zero {cs : List Char} (h : size cs = 0) : cs = [] := by
  cases cs with
  | nil => rfl
  | cons c cs =>
    have hpos := c.utf8Size_pos
    rw [size_cons] at h
    omega

/-- What is dropped is a front of the given size. -/
theorem drop?_eq_some {cs rest : List Char} {n : Nat} (h : drop? cs n = some rest) :
    ∃ front, cs = front ++ rest ∧ size front = n := by
  induction cs generalizing n with
  | nil =>
    cases n with
    | zero =>
      cases h
      exact ⟨[], rfl, rfl⟩
    | succ n => cases h
  | cons c cs ih =>
    cases n with
    | zero =>
      cases h
      exact ⟨[], rfl, rfl⟩
    | succ n =>
      -- a character is dropped when all of its bytes are
      rw [drop?] at h
      split at h
      · obtain ⟨front, rfl, hsize⟩ := ih h
        refine ⟨c :: front, rfl, ?_⟩
        rw [size_cons, hsize]
        omega
      · cases h

/-- A cut is a front of the given size and the rest. -/
theorem splitFrom?_eq_some {cs front a b : List Char} {n : Nat}
    (h : splitFrom? cs n front = some (a, b)) :
    ∃ m, cs = m ++ b ∧ a = front.reverse ++ m ∧ size m = n := by
  induction cs generalizing n front with
  | nil =>
    cases n with
    | zero =>
      cases h
      exact ⟨[], rfl, by simp, rfl⟩
    | succ n => cases h
  | cons c cs ih =>
    cases n with
    | zero =>
      cases h
      exact ⟨[], rfl, by simp, rfl⟩
    | succ n =>
      -- a character goes to the front when all of its bytes do
      rw [splitFrom?] at h
      split at h
      · rename_i hle
        obtain ⟨m, rfl, rfl, hsize⟩ := ih h
        refine ⟨c :: m, rfl, by simp, ?_⟩
        rw [size_cons, hsize]
        omega
      · cases h

/-- A cut loses nothing and is made where it was asked for. -/
theorem splitAt?_eq_some_iff {cs a b : List Char} {n : Nat} :
    splitAt? cs n = some (a, b) ↔ cs = a ++ b ∧ size a = n := by
  constructor
  · intro h
    obtain ⟨m, hcs, ha, hsize⟩ := splitFrom?_eq_some h
    rw [List.reverse_nil, List.nil_append] at ha
    subst ha
    exact ⟨hcs, hsize⟩
  · rintro ⟨rfl, rfl⟩
    exact splitAt?_append a b

/-- A cut within the front of a text is a cut of the front. -/
theorem eq_append_of_size_le {a b front rest : List Char} (h : a ++ b = front ++ rest)
    (hle : size a ≤ size front) : ∃ kept, front = a ++ kept ∧ b = kept ++ rest := by
  rcases List.append_eq_append_iff.mp h with hfront | ⟨more, ha, hrest⟩
  · exact hfront
  · have hmore : more = [] := by
      apply eq_nil_of_size_eq_zero
      rw [ha, size_append] at hle
      omega
    subst hmore
    exact ⟨[], by rw [ha, List.append_nil, List.append_nil], by rw [hrest]; rfl⟩

end Chars

/-- The bytes of a text are those of its characters. -/
theorem String.utf8ByteSize_eq (s : String) : s.utf8ByteSize = Chars.size s.toList := by
  have hofList : ∀ cs : List Char, (String.ofList cs).utf8ByteSize = Chars.size cs := by
    intro cs
    induction cs with
    | nil => simp
    | cons c cs ih =>
      rw [String.ofList_cons, String.utf8ByteSize_append, ih]
      simp
  rw [← hofList, String.ofList_toList]

/-! ## Edits by position -/

namespace Edit

theorem before_iff {a b : Edit} : before a b = true ↔
    a.span.start < b.span.start ∨ a.span.start = b.span.start ∧ a.span.stop ≤ b.span.stop := by
  simp [before]

/-- Of two edits one is before the other. -/
theorem before_of_not {a b : Edit} (h : ¬before a b = true) : before b a = true := by
  rw [before_iff] at h ⊢
  omega

/-- The order of edits is transitive. -/
theorem before_trans {a b c : Edit} (hab : before a b = true) (hbc : before b c = true) :
    before a c = true := by
  rw [before_iff] at hab hbc ⊢
  omega

/-- Sorting in adds the edit and nothing else. -/
theorem mem_insertSorted {e f : Edit} {es : List Edit} :
    f ∈ insertSorted e es ↔ f = e ∨ f ∈ es := by
  induction es with
  | nil => simp [insertSorted]
  | cons g es ih =>
    rw [insertSorted]
    split
    · rw [List.mem_cons]
    · rw [List.mem_cons, ih, List.mem_cons, or_left_comm]

@[simp] theorem mem_sort {e : Edit} {es : List Edit} : e ∈ sort es ↔ e ∈ es := by
  induction es with
  | nil => exact Iff.rfl
  | cons f es ih => rw [sort, List.foldr_cons, mem_insertSorted, ← sort, ih, List.mem_cons]

/-- Sorting an edit in keeps the order. -/
theorem pairwise_insertSorted (e : Edit) {es : List Edit}
    (h : es.Pairwise fun a b => before a b = true) :
    (insertSorted e es).Pairwise fun a b => before a b = true := by
  induction es with
  | nil => simp [insertSorted]
  | cons f es ih =>
    obtain ⟨hf, hes⟩ := List.pairwise_cons.mp h
    rw [insertSorted]
    split
    · rename_i hef
      refine List.pairwise_cons.mpr ⟨?_, h⟩
      intro g hg
      rcases List.mem_cons.mp hg with rfl | hg
      · exact hef
      · exact before_trans hef (hf g hg)
    · -- the new edit goes behind this one, so it is one of the later ones
      rename_i hef
      refine List.pairwise_cons.mpr ⟨?_, ih hes⟩
      intro g hg
      rcases mem_insertSorted.mp hg with rfl | hg
      · exact before_of_not hef
      · exact hf g hg

/-- Sorted edits are in order. -/
theorem pairwise_sort (es : List Edit) : (sort es).Pairwise fun a b => before a b = true := by
  induction es with
  | nil => exact .nil
  | cons e es ih => exact pairwise_insertSorted e ih

/-- Edits that are in order already stay as they are. -/
theorem sort_of_pairwise {es : List Edit}
    (h : es.Pairwise fun a b => before a b = true) : sort es = es := by
  induction es with
  | nil => rfl
  | cons e es ih =>
    obtain ⟨he, hes⟩ := List.pairwise_cons.mp h
    rw [sort, List.foldr_cons, ← sort, ih hes]
    cases es with
    | nil => rfl
    | cons f es => exact if_pos (he f List.mem_cons_self)

end Edit

/-! ## Splicing -/

namespace Patch

/-- Edits that end within the front of a text leave its rest alone; what they do not reach of the
front comes right before it. -/
theorem splice_append {es fs : List Edit} {cursor : Nat} {front rest : List Char}
    (h : ∀ e ∈ es, e.span.stop ≤ cursor + Chars.size front) :
    ∃ out cursor' kept, splice (es ++ fs) cursor (front ++ rest) =
        out ++ splice fs cursor' (kept ++ rest) ∧
      cursor' + Chars.size kept = cursor + Chars.size front := by
  induction es generalizing cursor front with
  | nil => exact ⟨[], cursor, front, rfl, rfl⟩
  | cons e es ih =>
    obtain ⟨he, hes⟩ := List.forall_mem_cons.mp h
    rw [List.cons_append, splice]
    split
    · rename_i hspan
      rw [Bool.and_eq_true, decide_eq_true_eq, decide_eq_true_eq] at hspan
      split
      · rename_i a after hcut
        split
        · rename_i gone tail hcut'
          -- both cuts fall into the front, so the tail still has what is left of it
          obtain ⟨happend, hsize⟩ := Chars.splitAt?_eq_some_iff.mp hcut
          obtain ⟨happend', hsize'⟩ := Chars.splitAt?_eq_some_iff.mp hcut'
          obtain ⟨kept, rfl, rfl⟩ := Chars.eq_append_of_size_le happend.symm (by omega)
          rw [Chars.size_append] at he hes ⊢
          obtain ⟨kept', rfl, rfl⟩ := Chars.eq_append_of_size_le happend'.symm (by omega)
          rw [Chars.size_append] at he hes ⊢
          have hes' : ∀ f ∈ es, f.span.stop ≤ e.span.stop + Chars.size kept' := by
            intro f hf
            have hstop := hes f hf
            omega
          obtain ⟨out, cursor', last, hsplice, hcursor⟩ := ih hes'
          refine ⟨a ++ e.text.toList ++ out, cursor', last, ?_, by omega⟩
          rw [hsplice, List.append_assoc, List.append_assoc, List.append_assoc]
        · exact ih hes
      · exact ih hes
    · exact ih hes

/-- An edit that starts at the end of the front of a text replaces what follows there. -/
theorem splice_cons_append {e : Edit} {es : List Edit} {cursor : Nat}
    {front old rest : List Char} (hstart : e.span.start = cursor + Chars.size front)
    (hstop : e.span.stop = e.span.start + Chars.size old) :
    splice (e :: es) cursor (front ++ (old ++ rest)) =
      front ++ e.text.toList ++ splice es e.span.stop rest := by
  have hspan : (cursor ≤ e.span.start && e.span.start ≤ e.span.stop) = true := by
    rw [Bool.and_eq_true, decide_eq_true_eq, decide_eq_true_eq]
    omega
  have hfront : e.span.start - cursor = Chars.size front := by omega
  have hold : e.span.stop - e.span.start = Chars.size old := by omega
  rw [splice, if_pos hspan, hfront, Chars.splitAt?_append]
  dsimp only
  rw [hold, Chars.splitAt?_append]

/-- A replacement up to the end of a text. -/
theorem splice_replace_end (front old : List Char) (new : String) :
    splice [⟨⟨Chars.size front, Chars.size front + Chars.size old⟩, new⟩] 0 (front ++ old) =
      front ++ new.toList := by
  have hone : splice [⟨⟨Chars.size front, Chars.size front + Chars.size old⟩, new⟩] 0
      (front ++ (old ++ [])) = front ++ new.toList ++ splice [] _ [] :=
    splice_cons_append (Nat.zero_add _).symm rfl
  rw [List.append_nil] at hone
  rw [hone, splice, List.append_nil]

/-- An insertion in front of a text. -/
theorem splice_insert_front (new : String) (es : List Edit) (cs : List Char) :
    splice (⟨Span.point 0, new⟩ :: es) 0 cs = new.toList ++ splice es 0 cs := by
  have hnothing : splice (⟨Span.point 0, new⟩ :: es) 0 ([] ++ ([] ++ cs)) =
      [] ++ new.toList ++ splice es 0 cs := splice_cons_append rfl rfl
  exact hnothing

/-- A patch is applied to the characters of the source. -/
theorem apply_ofList (p : Patch) (cs : List Char) :
    p.apply (String.ofList cs) = String.ofList (splice (Edit.sort p.edits) 0 cs) := by
  rw [apply, String.toList_ofList]

/-- A patch that replaces the whole source by a text gives the text. -/
theorem apply_whole (source text : String) :
    apply ⟨[⟨⟨0, Chars.size source.toList⟩, text⟩]⟩ source = text := by
  have hsplice : splice [⟨⟨0, Chars.size source.toList⟩, text⟩] 0
      ([] ++ (source.toList ++ [])) = [] ++ text.toList ++ [] :=
    splice_cons_append rfl (Nat.zero_add _).symm
  rw [List.nil_append, List.append_nil, List.nil_append, List.append_nil] at hsplice
  have hsort : Edit.sort [⟨⟨0, Chars.size source.toList⟩, text⟩] =
      [⟨⟨0, Chars.size source.toList⟩, text⟩] := rfl
  rw [apply, hsort, hsplice, String.ofList_toList]

/-- Where a patch puts a text behind a piece of the source, and no other edit reaches into the two,
the piece stands right before the new text. -/
theorem apply_around {p : Patch} {source : String} {e : Edit} {front piece old rest : List Char}
    (hsource : source.toList = front ++ (piece ++ (old ++ rest))) (hold : old ≠ [])
    (hstart : e.span.start = Chars.size (front ++ piece))
    (hstop : e.span.stop = e.span.start + Chars.size old) (hmem : e ∈ p.edits)
    (hothers : ∀ f ∈ p.edits, f = e ∨ f.span.stop ≤ Chars.size front ∨
      e.span.stop ≤ f.span.start) :
    ∃ x y, (p.apply source).toList = x ++ (piece ++ (e.text.toList ++ y)) := by
  obtain ⟨es, fs, hsort, hfresh⟩ := List.eq_append_cons_of_mem (Edit.mem_sort.mpr hmem)
  have hpos : Chars.size old ≠ 0 := mt Chars.eq_nil_of_size_eq_zero hold
  rw [Chars.size_append] at hstart
  -- an edit that is applied earlier does not lie behind this one
  have hbefore : ∀ f ∈ es, f.span.stop ≤ 0 + Chars.size front := by
    intro f hf
    have horder : Edit.before f e = true := by
      have hsorted := Edit.pairwise_sort p.edits
      rw [hsort] at hsorted
      exact (List.pairwise_append.mp hsorted).2.2 f hf e List.mem_cons_self
    have hf' : f ∈ p.edits := by
      rw [← Edit.mem_sort, hsort]
      exact List.mem_append_left _ hf
    rw [Edit.before_iff] at horder
    rcases hothers f hf' with rfl | hfront | hlater
    · exact absurd hf hfresh
    · omega
    · omega
  obtain ⟨out, cursor, kept, hsplice, hcursor⟩ :
      ∃ out cursor kept, splice (es ++ e :: fs) 0 (front ++ (piece ++ (old ++ rest))) =
          out ++ splice (e :: fs) cursor (kept ++ (piece ++ (old ++ rest))) ∧
        cursor + Chars.size kept = 0 + Chars.size front := splice_append hbefore
  have hedit : splice (e :: fs) cursor (kept ++ piece ++ (old ++ rest)) =
      kept ++ piece ++ e.text.toList ++ splice fs e.span.stop rest := by
    apply splice_cons_append _ hstop
    rw [Chars.size_append]
    omega
  refine ⟨out ++ kept, splice fs e.span.stop rest, ?_⟩
  rw [apply, hsort, String.toList_ofList, hsource, hsplice, ← List.append_assoc kept, hedit]
  simp only [List.append_assoc]

end Patch

end TextHarvest
