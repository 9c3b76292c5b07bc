import TextHarvest.Proofs.Patch

/-!
# Patching a text region by region

A text may hold several regions that are patched each on its own: the edits of a region are made
against its content and then moved to where the region stands. Applying all of them at once is the
same as exchanging the content of every region for its own patched text, whatever the order in
which the edits were recorded, because regions that stand apart do not get into each other's way.

Main results:

* `Edit.sort_regions` — the order of the regions does not matter for the order of their edits.
* `Patch.splice_regions` — every region is exchanged for its patched content, and nothing else
  changes.
-/

namespace TextHarvest

/-- A part of a text and where it starts. -/
structure Region where
  offset : Nat
  content : List Char
  deriving DecidableEq, Repr

namespace Region

/-- The offset behind a region. -/
def stop (r : Region) : Nat :=
  r.offset + Chars.size r.content

end Region

/-- Regions follow each other in a text that starts at `pos`, each behind a text of its own that
belongs to no region. -/
inductive LaidOut : List Region → Nat → List Char → Prop
  | nil (pos : Nat) (rest : List Char) : LaidOut [] pos rest
  | cons {r : Region} {rs : List Region} {pos : Nat} {gap rest : List Char} (hgap : gap ≠ [])
      (hoffset : r.offset = pos + Chars.size gap) (hrest : LaidOut rs r.stop rest) :
      LaidOut (r :: rs) pos (gap ++ (r.content ++ rest))

/-- Two texts that start at `pos` differ in the contents of some regions only, which are exchanged
for the texts given with them. -/
inductive Exchanged : List (Region × List Char) → Nat → List Char → List Char → Prop
  | nil (pos : Nat) (rest : List Char) : Exchanged [] pos rest rest
  | cons {r : Region} {new : List Char} {xs : List (Region × List Char)} {pos : Nat}
      {gap rest rest' : List Char} (hoffset : r.offset = pos + Chars.size gap)
      (hrest : Exchanged xs r.stop rest rest') :
      Exchanged ((r, new) :: xs) pos (gap ++ (r.content ++ rest)) (gap ++ (new ++ rest'))

/-- A region with the edits of its content. -/
abbrev Patched := Region × List Edit

namespace Patched

/-- The edits of a region, moved to where it stands. -/
def placed (p : Patched) : List Edit :=
  p.2.map (·.shift p.1.offset)

/-- Every edit lies within the content of the region. -/
def Within (p : Patched) : Prop :=
  ∀ e ∈ p.2, e.span.start ≤ Chars.size p.1.content ∧ e.span.stop ≤ Chars.size p.1.content

/-- What a region becomes. -/
def text (p : Patched) : List Char :=
  Patch.splice (Edit.sort p.2) 0 p.1.content

/-- The edits of a patched text start within its region. -/
theorem Within.start_placed {p : Patched} (h : p.Within) {e : Edit} (he : e ∈ p.placed) :
    p.1.offset ≤ e.span.start ∧ e.span.start ≤ p.1.stop := by
  obtain ⟨f, hf, rfl⟩ := List.mem_map.mp he
  have hstart := (h f hf).1
  dsimp only [Edit.shift, Span.shift, Region.stop]
  omega

end Patched

namespace LaidOut

/-- Regions that are laid out stay so behind more text. -/
theorem gap_append {rs : List Region} {pos : Nat} {rest : List Char} (front : List Char)
    (h : LaidOut rs (pos + Chars.size front) rest) : LaidOut rs pos (front ++ rest) := by
  cases h with
  | nil => exact .nil pos _
  | @cons r rs _ gap rest hgap hoffset hrest =>
    rw [← List.append_assoc]
    refine .cons (List.append_ne_nil_of_right_ne_nil front hgap) ?_ hrest
    rw [hoffset, Chars.size_append, Nat.add_assoc]

/-- Every region holds characters of the text. -/
theorem content_subset {rs : List Region} {pos : Nat} {rest : List Char} (h : LaidOut rs pos rest) :
    ∀ r ∈ rs, r.content ⊆ rest := by
  induction h with
  | nil => simp
  | @cons r rs pos gap rest hgap hoffset hrest ih =>
    intro s hs c hc
    rcases List.mem_cons.mp hs with rfl | hs
    · exact List.mem_append_right _ (List.mem_append_left _ hc)
    · exact List.mem_append_right _ (List.mem_append_right _ (ih s hs hc))

/-- Every region starts behind the place where the layout starts. -/
theorem offset_lt {rs : List Region} {pos : Nat} {rest : List Char} (h : LaidOut rs pos rest) :
    ∀ r ∈ rs, pos < r.offset := by
  induction h with
  | nil => simp
  | @cons r rs pos gap rest hgap hoffset hrest ih =>
    have hpos := mt Chars.eq_nil_of_size_eq_zero hgap
    intro s hs
    rcases List.mem_cons.mp hs with rfl | hs
    · omega
    · have hlt := ih s hs
      rw [Region.stop] at hlt
      omega

/-- Regions that are laid out stand apart. -/
theorem apart {ps : List Patched} {pos : Nat} {rest : List Char}
    (h : LaidOut (ps.map Prod.fst) pos rest) :
    ∀ p ∈ ps, ∀ q ∈ ps, p = q ∨ p.1.stop < q.1.offset ∨ q.1.stop < p.1.offset := by
  induction ps generalizing pos rest with
  | nil => simp
  | cons p ps ih =>
    cases h with
    | cons hgap hoffset hrest =>
      -- what stands behind begins behind the end of this one
      have hlater : ∀ q ∈ ps, p.1.stop < q.1.offset :=
        fun q hq => hrest.offset_lt q.1 (List.mem_map_of_mem hq)
      intro q hq r hr
      rcases List.mem_cons.mp hq with hqp | hq <;> rcases List.mem_cons.mp hr with hrp | hr
      · exact Or.inl (hqp.trans hrp.symm)
      · exact Or.inr (Or.inl (hqp ▸ hlater r hr))
      · exact Or.inr (Or.inr (hrp ▸ hlater q hq))
      · exact ih hrest q hq r hr

/-- The edits of regions that are laid out start behind the place they are laid out from. -/
theorem lt_start_placed {ps : List Patched} {pos : Nat} {rest : List Char}
    (h : LaidOut (ps.map Prod.fst) pos rest) (hwithin : ∀ p ∈ ps, p.Within) :
    ∀ e ∈ ps.flatMap Patched.placed, pos < e.span.start := by
  intro e he
  obtain ⟨q, hq, heq⟩ := List.mem_flatMap.mp he
  have hstart := ((hwithin q hq).start_placed heq).1
  have hplace := h.offset_lt q.1 (List.mem_map_of_mem hq)
  omega

end LaidOut

/-! ## The order of the edits -/

namespace Edit

/-- Edits that start at different places are put in their places in any order. -/
theorem insertSorted_comm {a b : Edit} (h : a.span.start ≠ b.span.start) (es : List Edit) :
    insertSorted b (insertSorted a es) = insertSorted a (insertSorted b es) := by
  -- the two begin at different places, so exactly one comes before the other
  have hone : before a b = true ∧ ¬before b a = true ∨ ¬before a b = true ∧ before b a = true := by
    simp only [before_iff]
    omega
  induction es with
  | nil => rcases hone with ⟨hab, hba⟩ | ⟨hab, hba⟩ <;> simp [insertSorted, hab, hba]
  | cons f es ih =>
    by_cases ha : before a f = true <;> by_cases hb : before b f = true
    · rcases hone with ⟨hab, hba⟩ | ⟨hab, hba⟩ <;> simp [insertSorted, ha, hb, hab, hba]
    · have hba : ¬before b a = true := fun hba => hb (before_trans hba ha)
      simp [insertSorted, ha, hb, hba]
    · have hab : ¬before a b = true := fun hab => ha (before_trans hab hb)
      simp [insertSorted, ha, hb, hab]
    · simp [insertSorted, ha, hb, ih]

/-- An edit and a list of edits that start elsewhere may be sorted in in either order. -/
theorem insertSorted_foldr_comm {a : Edit} {bs : List Edit}
    (h : ∀ b ∈ bs, a.span.start ≠ b.span.start) (es : List Edit) :
    bs.foldr insertSorted (insertSorted a es) = insertSorted a (bs.foldr insertSorted es) := by
  induction bs with
  | nil => rfl
  | cons b bs ih =>
    obtain ⟨hb, hbs⟩ := List.forall_mem_cons.mp h
    rw [List.foldr_cons, ih hbs, insertSorted_comm hb, List.foldr_cons]

/-- Two lists of edits that start apart may be sorted in in either order. -/
theorem foldr_insertSorted_comm {as bs : List Edit}
    (h : ∀ a ∈ as, ∀ b ∈ bs, a.span.start ≠ b.span.start) (es : List Edit) :
    bs.foldr insertSorted (as.foldr insertSorted es) =
      as.foldr insertSorted (bs.foldr insertSorted es) := by
  induction as with
  | nil => rfl
  | cons a as ih =>
    obtain ⟨ha, has⟩ := List.forall_mem_cons.mp h
    rw [List.foldr_cons, insertSorted_foldr_comm ha, ih has, List.foldr_cons]

/-- Two lists of edits are sorted by sorting the first into the second. -/
theorem sort_append (as bs : List Edit) : sort (as ++ bs) = as.foldr insertSorted (sort bs) :=
  List.foldr_append

/-- An edit before all of a second list is sorted into the first. -/
theorem insertSorted_append {e : Edit} {bs : List Edit} (h : ∀ b ∈ bs, before e b = true)
    (as : List Edit) : insertSorted e (as ++ bs) = insertSorted e as ++ bs := by
  -- the place of the edit is found in front, or else at the first of those behind
  induction as with
  | nil =>
    cases bs with
    | nil => rfl
    | cons b bs =>
      have hinsert : insertSorted e (b :: bs) = e :: b :: bs :=
        if_pos (h b List.mem_cons_self)
      exact hinsert
  | cons a as ih =>
    rw [List.cons_append, insertSorted, insertSorted]
    split
    · rfl
    · rw [ih, List.cons_append]

/-- Edits that all start earlier than some others come before them. -/
theorem sort_append_of_lt {as bs : List Edit}
    (h : ∀ a ∈ as, ∀ b ∈ bs, a.span.start < b.span.start) :
    sort (as ++ bs) = sort as ++ sort bs := by
  induction as with
  | nil => rfl
  | cons a as ih =>
    obtain ⟨ha, has⟩ := List.forall_mem_cons.mp h
    have hbefore : ∀ b ∈ sort bs, before a b = true := by
      intro b hb
      exact before_iff.mpr (Or.inl (ha b (mem_sort.mp hb)))
    rw [List.cons_append, sort, List.foldr_cons, ← sort, ih has, insertSorted_append hbefore]
    rfl

/-- Moving two edits alike keeps their order. -/
theorem before_shift (a b : Edit) (offset : Nat) :
    before (a.shift offset) (b.shift offset) = before a b := by
  rw [Bool.eq_iff_iff, before_iff, before_iff]
  dsimp only [shift, Span.shift]
  omega

/-- Edits that are moved alike are sorted as before. -/
theorem sort_shift (es : List Edit) (offset : Nat) :
    sort (es.map (·.shift offset)) = (sort es).map (·.shift offset) := by
  -- moving both edits does not change which of them comes first
  have hinsert : ∀ (e : Edit) (fs : List Edit),
      insertSorted (e.shift offset) (fs.map (·.shift offset)) =
        (insertSorted e fs).map (·.shift offset) := by
    intro e fs
    induction fs with
    | nil => rfl
    | cons f fs ih =>
      rw [List.map_cons, insertSorted, insertSorted, before_shift, ih]
      split <;> rfl
  induction es with
  | nil => rfl
  | cons e es ih =>
    rw [List.map_cons, sort, List.foldr_cons, ← sort, ih, hinsert]
    rfl

theorem sort_flatMap {α : Type} (f : α → List Edit) (as : List α) :
    sort (as.flatMap f) = as.foldr (fun a es => (f a).foldr insertSorted es) [] := by
  induction as with
  | nil => rfl
  | cons a as ih => rw [List.flatMap_cons, sort_append, ih, List.foldr_cons]

/-- Groups of edits that start at different places can be recorded in any order. -/
theorem sort_flatMap_perm {α : Type} {f : α → List Edit} {as bs : List α} (hperm : as.Perm bs)
    (hapart : ∀ a ∈ as, ∀ b ∈ as,
      a = b ∨ ∀ e ∈ f a, ∀ e' ∈ f b, e.span.start ≠ e'.span.start) :
    sort (as.flatMap f) = sort (bs.flatMap f) := by
  rw [sort_flatMap, sort_flatMap]
  apply hperm.foldr_eq'
  intro a ha b hb es
  rcases hapart a ha b hb with rfl | hapart
  · rfl
  · exact foldr_insertSorted_comm hapart es

/-- The order in which regions are patched does not matter. -/
theorem sort_regions {ps qs : List Patched} (hperm : ps.Perm qs) {pos : Nat} {rest : List Char}
    (hlaid : LaidOut (ps.map Prod.fst) pos rest) (hwithin : ∀ p ∈ ps, p.Within) :
    sort (ps.flatMap Patched.placed) = sort (qs.flatMap Patched.placed) := by
  apply sort_flatMap_perm hperm
  intro p hp q hq
  refine (hlaid.apart p hp q hq).imp_right ?_
  intro hapart a ha b hb
  have hstart := (hwithin p hp).start_placed ha
  have hstart' := (hwithin q hq).start_placed hb
  omega

/-- The edits of a region come before those that start behind it. -/
theorem sort_placed_cons {p : Patched} {ps : List Patched} (hp : p.Within)
    (hlater : ∀ e ∈ ps.flatMap Patched.placed, p.1.stop < e.span.start) :
    sort ((p :: ps).flatMap Patched.placed) =
      (sort p.2).map (·.shift p.1.offset) ++ sort (ps.flatMap Patched.placed) := by
  rw [List.flatMap_cons, sort_append_of_lt, Patched.placed, sort_shift]
  intro a ha b hb
  exact Nat.lt_of_le_of_lt (hp.start_placed ha).2 (hlater b hb)

end Edit

/-! ## Splicing region by region -/

namespace Chars

/-- A cut within the front of a text is a cut of the front. -/
theorem splitAt?_of_le {front rest : List Char} {n : Nat} (h : n ≤ size front) :
    splitAt? (front ++ rest) n = (splitAt? front n).map fun cut => (cut.1, cut.2 ++ rest) := by
  cases hcut : splitAt? front n with
  | some cut =>
    obtain ⟨a, b⟩ := cut
    obtain ⟨rfl, rfl⟩ := splitAt?_eq_some_iff.mp hcut
    rw [List.append_assoc, splitAt?_append]
    rfl
  | none =>
    cases hcut' : splitAt? (front ++ rest) n with
    | none => rfl
    | some cut =>
      obtain ⟨a, b⟩ := cut
      obtain ⟨happend, hsize⟩ := splitAt?_eq_some_iff.mp hcut'
      -- a cut in front of the rest is a cut of the front alone
      obtain ⟨kept, rfl, -⟩ := eq_append_of_size_le happend.symm (by omega)
      rw [← hsize, splitAt?_append] at hcut
      cases hcut

/-- A cut behind the front of a text is a cut of the rest. -/
theorem splitAt?_append_add (front rest : List Char) (n : Nat) :
    splitAt? (front ++ rest) (size front + n) =
      (splitAt? rest n).map fun cut => (front ++ cut.1, cut.2) := by
  cases hcut : splitAt? rest n with
  | some cut =>
    obtain ⟨a, b⟩ := cut
    obtain ⟨rfl, rfl⟩ := splitAt?_eq_some_iff.mp hcut
    rw [← List.append_assoc, ← size_append, splitAt?_append]
    rfl
  | none =>
    cases hcut' : splitAt? (front ++ rest) (size front + n) with
    | none => rfl
    | some cut =>
      obtain ⟨a, b⟩ := cut
      obtain ⟨happend, hsize⟩ := splitAt?_eq_some_iff.mp hcut'
      -- a cut behind the front cuts the rest
      obtain ⟨more, rfl, rfl⟩ := eq_append_of_size_le happend (by omega)
      rw [size_append] at hsize
      have hmore : size more = n := by omega
      rw [← hmore, splitAt?_append] at hcut
      cases hcut

end Chars

namespace Patch

/-- Edits that start behind the front of a text leave it as it is. -/
theorem splice_skip {es : List Edit} {cursor : Nat} {front : List Char}
    (h : ∀ e ∈ es, cursor + Chars.size front ≤ e.span.start) (rest : List Char) :
    splice es cursor (front ++ rest) = front ++ splice es (cursor + Chars.size front) rest := by
  induction es with
  | nil => rfl
  | cons e es ih =>
    obtain ⟨he, hes⟩ := List.forall_mem_cons.mp h
    have hcursor : decide (cursor ≤ e.span.start) =
        decide (cursor + Chars.size front ≤ e.span.start) := by
      rw [decide_eq_decide]
      omega
    -- the cursor may move to the end of the front before the first edit
    have hstart : e.span.start - cursor =
        Chars.size front + (e.span.start - (cursor + Chars.size front)) := by omega
    rw [splice, splice, hcursor, hstart, Chars.splitAt?_append_add]
    split
    · cases hcut : Chars.splitAt? rest (e.span.start - (cursor + Chars.size front)) with
      | none => exact ih hes
      | some cut =>
        obtain ⟨a, after⟩ := cut
        dsimp only [Option.map_some]
        split
        · rw [List.append_assoc, List.append_assoc, List.append_assoc]
        · exact ih hes
    · exact ih hes

/-- Edits within the front of a text change it as if it stood alone. -/
theorem splice_front {es : List Edit} {offset cursor : Nat} {front : List Char}
    (h : ∀ e ∈ es, e.span.start ≤ cursor + Chars.size front ∧
      e.span.stop ≤ cursor + Chars.size front)
    {fs : List Edit} (hfs : ∀ f ∈ fs, offset + (cursor + Chars.size front) ≤ f.span.start)
    (rest : List Char) :
    splice (es.map (·.shift offset) ++ fs) (offset + cursor) (front ++ rest) =
      splice es cursor front ++ splice fs (offset + (cursor + Chars.size front)) rest := by
  induction es generalizing cursor front with
  | nil =>
    rw [List.map_nil, List.nil_append, splice, splice_skip, Nat.add_assoc]
    intro f hf
    rw [Nat.add_assoc]
    exact hfs f hf
  | cons e es ih =>
    obtain ⟨⟨hstart, hstop⟩, hes⟩ := List.forall_mem_cons.mp h
    have hcursor : decide (offset + cursor ≤ (e.shift offset).span.start) =
        decide (cursor ≤ e.span.start) := by
      rw [decide_eq_decide]
      dsimp only [Edit.shift, Span.shift]
      omega
    have horder : decide ((e.shift offset).span.start ≤ (e.shift offset).span.stop) =
        decide (e.span.start ≤ e.span.stop) := by
      rw [decide_eq_decide]
      dsimp only [Edit.shift, Span.shift]
      omega
    have hfront : (e.shift offset).span.start - (offset + cursor) = e.span.start - cursor := by
      dsimp only [Edit.shift, Span.shift]
      omega
    have hlength : (e.shift offset).span.stop - (e.shift offset).span.start =
        e.span.stop - e.span.start := Nat.add_sub_add_right _ _ _
    rw [List.map_cons, List.cons_append, splice, splice, hcursor, horder, hfront, hlength]
    -- both sides now ask the same of the edit, and drop it or apply it together
    split
    · rename_i hspan
      rw [Bool.and_eq_true, decide_eq_true_eq, decide_eq_true_eq] at hspan
      rw [Chars.splitAt?_of_le (by omega)]
      cases hcut : Chars.splitAt? front (e.span.start - cursor) with
      | none => exact ih hes hfs
      | some cut =>
        obtain ⟨a, after⟩ := cut
        obtain ⟨rfl, hsize⟩ := Chars.splitAt?_eq_some_iff.mp hcut
        rw [Chars.size_append] at hstart hstop hes hfs
        dsimp only [Option.map_some]
        rw [Chars.splitAt?_of_le (by omega)]
        cases hcut' : Chars.splitAt? after (e.span.stop - e.span.start) with
        | none =>
          rw [← Chars.size_append] at hes hfs
          exact ih hes hfs
        | some cut =>
          obtain ⟨gone, tail⟩ := cut
          obtain ⟨rfl, hsize'⟩ := Chars.splitAt?_eq_some_iff.mp hcut'
          rw [Chars.size_append] at hstart hstop hes hfs
          have hreach : cursor + (Chars.size a + (Chars.size gone + Chars.size tail)) =
              e.span.stop + Chars.size tail := by omega
          have hplace : (e.shift offset).span.stop = offset + e.span.stop := by
            dsimp only [Edit.shift, Span.shift]
            omega
          -- the cursor moves to the end of the edit, and the front is what is left of it
          rw [hreach] at hes hfs
          dsimp only [Option.map_some]
          rw [hplace, ih hes hfs, Chars.size_append, Chars.size_append, hreach]
          simp only [Edit.shift, List.append_assoc]
    · exact ih hes hfs

/-- Applying the edits of some regions exchanges each for its patched content. -/
theorem splice_regions {ps : List Patched} {pos : Nat} {text : List Char}
    (hlaid : LaidOut (ps.map Prod.fst) pos text) (hwithin : ∀ p ∈ ps, p.Within) :
    Exchanged (ps.map fun p => (p.1, p.text)) pos text
      (splice (Edit.sort (ps.flatMap Patched.placed)) pos text) := by
  induction ps generalizing pos text with
  | nil => exact .nil pos text
  | cons p ps ih =>
    obtain ⟨hp, hps⟩ := List.forall_mem_cons.mp hwithin
    cases hlaid with
    | @cons _ _ _ gap rest hgap hoffset hrest =>
      have hlater := hrest.lt_start_placed hps
      have hsort := Edit.sort_placed_cons hp hlater
      -- the gap is skipped, the region is spliced as if it stood alone, the rest by induction
      have hgap : splice (Edit.sort ((p :: ps).flatMap Patched.placed)) pos
            (gap ++ (p.1.content ++ rest)) =
          gap ++ splice (Edit.sort ((p :: ps).flatMap Patched.placed)) (pos + Chars.size gap)
            (p.1.content ++ rest) := by
        apply splice_skip
        intro e he
        rw [Edit.mem_sort, List.flatMap_cons, List.mem_append] at he
        rcases he with he | he
        · have hstart := (hp.start_placed he).1
          omega
        · have hstart := hlater e he
          rw [Region.stop] at hstart
          omega
      have hcontent : splice ((Edit.sort p.2).map (·.shift p.1.offset) ++
            Edit.sort (ps.flatMap Patched.placed)) (p.1.offset + 0) (p.1.content ++ rest) =
          splice (Edit.sort p.2) 0 p.1.content ++
            splice (Edit.sort (ps.flatMap Patched.placed))
              (p.1.offset + (0 + Chars.size p.1.content)) rest := by
        apply splice_front
        · intro e he
          rw [Nat.zero_add]
          exact hp e (Edit.mem_sort.mp he)
        · intro f hf
          have hstart := hlater f (Edit.mem_sort.mp hf)
          rw [Region.stop] at hstart
          omega
      rw [Nat.add_zero, Nat.zero_add] at hcontent
      rw [hgap, ← hoffset, hsort, hcontent]
      exact .cons hoffset (ih hrest hps)

end Patch

end TextHarvest
