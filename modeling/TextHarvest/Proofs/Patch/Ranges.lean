import TextHarvest.Proofs.Patch.Apart

/-!
# Patching a text range by range

The ranges of some parts of a text come one behind the other, with something between them. Edits
that lie in the parts exchange each part for what its own edits make of it and leave the rest alone.
The edits of a part may be recorded in two turns, between which those of other parts are recorded.

Main results:

* `Edit.sort_turns` — edits that are recorded in two turns are applied part by part.
* `Patch.exchanged_within` — every part is exchanged for its own patched text.
* `Patch.within_behind`, `Patch.within_replace` — what becomes of one part.
-/

namespace TextHarvest

/-- The text of a range. -/
def Chars.cut (source : List Char) (s : Span) : List Char :=
  (slice? source s).getD []

/-- What some edits make of the text of a range. -/
def Patch.within (source : List Char) (s : Span) (es : List Edit) : List Char :=
  splice (Edit.sort es) s.start (Chars.cut source s)

/-- A part of a text with the edits that are made in it first, and those that follow later. -/
structure EditedPart where
  span : Span
  first : List Edit
  later : List Edit

namespace EditedPart

/-- All edits lie in the range of the part, which falls between characters. -/
structure Sound (source : List Char) (p : EditedPart) : Prop where
  cuts : p.span.Cuts source
  inside : ∀ e ∈ p.first ++ p.later, e.span.Inside p.span

/-- The part and what becomes of it. -/
def exchange (source : List Char) (p : EditedPart) : Region × List Char :=
  (⟨p.span.start, Chars.cut source p.span⟩, Patch.within source p.span (p.first ++ p.later))

end EditedPart

section

variable {source : List Char} {ps : List EditedPart}

namespace Edit

/-- Edits in the first of some parts start before those in the others. -/
theorem start_lt_of_parts {p : EditedPart} (hp : p.Sound source)
    (hps : ∀ q ∈ ps, q.Sound source) (hrow : ∀ q ∈ ps, p.span.stop < q.span.start) :
    ∀ a ∈ p.first ++ p.later, ∀ b ∈ ps.flatMap (fun q => q.first ++ q.later),
      a.span.start < b.span.start := by
  intro a ha b hb
  obtain ⟨q, hq, hb⟩ := List.mem_flatMap.mp hb
  have hapart := hrow q hq
  have hleft := hp.inside a ha
  have hright := (hps q hq).inside b hb
  have horder := hleft.order
  have hstop := hleft.stop
  have hstart := hright.start
  omega

/-- Edits that are recorded part by part are applied part by part. -/
theorem sort_parts (hps : ∀ p ∈ ps, p.Sound source)
    (hrow : ps.Pairwise fun p q => p.span.stop < q.span.start) :
    sort (ps.flatMap fun p => p.first ++ p.later) =
      ps.flatMap fun p => sort (p.first ++ p.later) := by
  induction ps with
  | nil => rfl
  | cons p ps ih =>
    obtain ⟨hp, hps⟩ := List.forall_mem_cons.mp hps
    obtain ⟨hfirst, hrow⟩ := List.pairwise_cons.mp hrow
    rw [List.flatMap_cons, sort_append_of_lt (start_lt_of_parts hp hps hfirst), ih hps hrow,
      List.flatMap_cons]

/-- Edits that are recorded in two turns are applied part by part. -/
theorem sort_turns (hps : ∀ p ∈ ps, p.Sound source)
    (hrow : ps.Pairwise fun p q => p.span.stop < q.span.start) :
    sort (ps.flatMap EditedPart.first ++ ps.flatMap EditedPart.later) =
      ps.flatMap fun p => sort (p.first ++ p.later) := by
  rw [← sort_parts hps hrow]
  induction ps with
  | nil => rfl
  | cons p ps ih =>
    obtain ⟨hp, hps⟩ := List.forall_mem_cons.mp hps
    obtain ⟨hfirst, hrow⟩ := List.pairwise_cons.mp hrow
    -- what is recorded later in the first part starts before what is recorded in the others
    have hcomm : ∀ a ∈ p.later, ∀ b ∈ ps.flatMap EditedPart.first,
        a.span.start ≠ b.span.start := by
      intro a ha b hb
      obtain ⟨q, hq, hb⟩ := List.mem_flatMap.mp hb
      have hlt := start_lt_of_parts hp hps hfirst a (List.mem_append_right _ ha) b
        (List.mem_flatMap.mpr ⟨q, hq, List.mem_append_left _ hb⟩)
      omega
    have hrest := ih hps hrow
    rw [sort_append] at hrest
    simp only [List.flatMap_cons]
    rw [List.append_assoc, sort_append, sort_append, sort_append, foldr_insertSorted_comm hcomm,
      hrest, List.append_assoc, sort_append, sort_append]

end Edit

namespace Patch

/-- Edits in the front of a text and behind it are applied each where they are made. -/
theorem splice_turns {es fs : List Edit} {cursor : Nat} {front : List Char}
    (hes : ∀ e ∈ es, e.span.start ≤ cursor + Chars.size front ∧
      e.span.stop ≤ cursor + Chars.size front)
    (hfs : ∀ f ∈ fs, cursor + Chars.size front ≤ f.span.start) (rest : List Char) :
    splice (es ++ fs) cursor (front ++ rest) =
      splice es cursor front ++ splice fs (cursor + Chars.size front) rest := by
  have hshift : es.map (·.shift 0) = es := List.map_id es
  have hsplice := @splice_front es 0 cursor front hes fs (by simpa using hfs) rest
  rwa [hshift, Nat.zero_add, Nat.zero_add] at hsplice

/-- Every part of a text is exchanged for its own patched text. -/
theorem exchanged_parts {front text back : List Char} (hsource : source = front ++ (text ++ back))
    (hps : ∀ p ∈ ps, p.Sound source)
    (hrow : ps.Pairwise fun p q => p.span.stop < q.span.start)
    (hwithin : ∀ p ∈ ps, Chars.size front ≤ p.span.start ∧
      p.span.stop ≤ Chars.size front + Chars.size text) :
    Exchanged (ps.map (EditedPart.exchange source)) (Chars.size front) text
      (splice (ps.flatMap fun p => Edit.sort (p.first ++ p.later)) (Chars.size front) text) := by
  induction ps generalizing front text with
  | nil => exact .nil _ _
  | cons p ps ih =>
    obtain ⟨hp, hps⟩ := List.forall_mem_cons.mp hps
    obtain ⟨hfirst, hrow⟩ := List.pairwise_cons.mp hrow
    obtain ⟨⟨hstart, hstop⟩, hwithin⟩ := List.forall_mem_cons.mp hwithin
    -- the text is a gap, the part and a rest
    obtain ⟨before, part, after, hpiece, hbefore, hsize, hslice⟩ := hp.cuts.exists_piece
    obtain ⟨gap, rfl, hgap⟩ := Chars.eq_append_of_size_le (hsource.symm.trans hpiece) (by omega)
    rw [Chars.size_append] at hbefore
    have hcut : (gap ++ part) ++ after = text ++ back := by
      rw [List.append_assoc]
      exact hgap.symm
    obtain ⟨rest, rfl, rfl⟩ := Chars.eq_append_of_size_le hcut (by rw [Chars.size_append]; omega)
    have hend : p.span.stop = Chars.size (front ++ gap ++ part) := by
      rw [Chars.size_append, Chars.size_append]
      omega
    have hcut : Chars.cut source p.span = part := by
      rw [Chars.cut, hslice, Option.getD_some]
    have hoffset : p.span.start = Chars.size front + Chars.size gap := by omega
    have hlater : ∀ e ∈ ps.flatMap fun q => Edit.sort (q.first ++ q.later),
        p.span.stop < e.span.start := by
      intro e he
      obtain ⟨q, hq, he⟩ := List.mem_flatMap.mp he
      exact Nat.lt_of_lt_of_le (hfirst q hq) ((hps q hq).inside e (Edit.mem_sort.mp he)).start
    have hsplit : source = front ++ gap ++ part ++ (rest ++ back) := by simp [hsource]
    have hrest := ih hsplit hps hrow (by
      intro q hq
      have hq' := hwithin q hq
      have hnext := hfirst q hq
      simp only [Chars.size_append] at hq' ⊢
      omega)
    rw [← hend] at hrest
    -- the gap is skipped, and the part is spliced as if it stood alone
    have hahead : ∀ e ∈ (p :: ps).flatMap fun q => Edit.sort (q.first ++ q.later),
        Chars.size front + Chars.size gap ≤ e.span.start := by
      intro e he
      rw [List.flatMap_cons, List.mem_append, Edit.mem_sort] at he
      rcases he with he | he
      · have hspan := (hp.inside e he).start
        omega
      · have hspan := hlater e he
        have horder := hp.cuts.order
        omega
    have hinside : ∀ e ∈ Edit.sort (p.first ++ p.later),
        e.span.start ≤ p.span.start + Chars.size part ∧
          e.span.stop ≤ p.span.start + Chars.size part := by
      intro e he
      have hspan := hp.inside e (Edit.mem_sort.mp he)
      have horder := hspan.order
      have hlast := hspan.stop
      omega
    have hbehind : ∀ e ∈ ps.flatMap fun q => Edit.sort (q.first ++ q.later),
        p.span.start + Chars.size part ≤ e.span.start := by
      intro e he
      have hspan := hlater e he
      omega
    have hskip := splice_skip hahead (part ++ rest)
    have hpart := splice_turns hinside hbehind rest
    rw [List.append_assoc, hskip, ← hoffset, List.flatMap_cons, hpart, ← hsize]
    have hregion : (⟨p.span.start, part⟩ : Region).stop = p.span.stop := hsize.symm
    rw [List.map_cons, EditedPart.exchange, within, hcut]
    refine .cons hoffset ?_
    rw [hregion]
    exact hrest

/-- The same for the text of a range in which the parts lie. -/
theorem exchanged_within {range : Span} (hrange : range.Cuts source)
    (hps : ∀ p ∈ ps, p.Sound source)
    (hrow : ps.Pairwise fun p q => p.span.stop < q.span.start)
    (hinside : ∀ p ∈ ps, p.span.Inside range) :
    Exchanged (ps.map (EditedPart.exchange source)) range.start (Chars.cut source range)
      (within source range (ps.flatMap EditedPart.first ++ ps.flatMap EditedPart.later)) := by
  obtain ⟨front, text, back, hsource, hfront, hsize, hslice⟩ := hrange.exists_piece
  -- the range is cut out, and within it the parts change places as in a whole text
  have hcut : Chars.cut source range = text := by
    rw [Chars.cut, hslice, Option.getD_some]
  have hparts := exchanged_parts hsource hps hrow (by
    intro p hp
    have hspan := hinside p hp
    have hstart := hspan.start
    have hstop := hspan.stop
    omega)
  rw [within, Edit.sort_turns hps hrow, hcut, ← hfront]
  exact hparts

/-! ## What becomes of one part -/

variable {s : Span}

/-- An edit of the whole of a text. -/
theorem splice_whole {part : List Char} (hsize : s.stop = s.start + Chars.size part)
    (text : String) : splice [⟨s, text⟩] s.start part = text.toList := by
  have hfront : Chars.splitAt? part 0 = some ([], part) := Chars.splitAt?_append [] part
  have hback : Chars.splitAt? part (Chars.size part) = some (part, []) := by
    have hsplit := Chars.splitAt?_append part []
    rwa [List.append_nil] at hsplit
  have hlength : s.stop - s.start = Chars.size part := by omega
  have horder : s.start ≤ s.stop := by omega
  simp [splice, horder, hlength, hfront, hback]

/-- A range is cut out of the text as a part of its own length. -/
theorem size_cut (hs : s.Cuts source) :
    s.stop = s.start + Chars.size (Chars.cut source s) := by
  obtain ⟨before, part, after, -, -, hsize, hslice⟩ := hs.exists_piece
  rw [Chars.cut, hslice, Option.getD_some, hsize]

/-- A range that is replaced as a whole. -/
theorem within_replace (hs : s.Cuts source) (text : String) :
    within source s [⟨s, text⟩] = text.toList :=
  splice_whole (size_cut hs) text

/-- An insertion at the end of a range comes behind all that is done in the range before. -/
theorem within_behind (hs : s.Cuts source) {es : List Edit} (hes : ∀ e ∈ es, e.span.Inside s)
    (text : String) :
    within source s (es ++ [⟨Span.point s.stop, text⟩]) = within source s es ++ text.toList := by
  -- no edit in the range comes behind its end, so sorting leaves the insertion last
  have hsort : Edit.sort (es ++ [⟨Span.point s.stop, text⟩]) =
      Edit.sort es ++ [⟨Span.point s.stop, text⟩] := by
    induction es with
    | nil => rfl
    | cons e es ih =>
      obtain ⟨he, hes⟩ := List.forall_mem_cons.mp hes
      have hbefore : ∀ f ∈ [(⟨Span.point s.stop, text⟩ : Edit)], Edit.before e f = true := by
        intro f hf
        rw [List.mem_singleton.mp hf, Edit.before_iff]
        have horder := he.order
        have hstop := he.stop
        dsimp only [Span.point]
        omega
      have hrest : Edit.sort (e :: es ++ [⟨Span.point s.stop, text⟩]) =
          Edit.insertSorted e (Edit.sort es ++ [⟨Span.point s.stop, text⟩]) := by
        rw [← ih hes]
        rfl
      rw [hrest, Edit.insertSorted_append hbefore]
      rfl
  have hsize := size_cut hs
  have hinside : ∀ e ∈ Edit.sort es, e.span.start ≤ s.start + Chars.size (Chars.cut source s) ∧
      e.span.stop ≤ s.start + Chars.size (Chars.cut source s) := by
    intro e he
    have hspan := hes e (Edit.mem_sort.mp he)
    have horder := hspan.order
    have hstop := hspan.stop
    omega
  -- spliced last, the insertion is all that follows
  have hlast : splice [⟨Span.point s.stop, text⟩] (s.start + Chars.size (Chars.cut source s)) [] =
      text.toList := by
    rw [← hsize]
    exact splice_whole (s := Span.point s.stop) rfl text
  have hpoint : ∀ f ∈ [(⟨Span.point s.stop, text⟩ : Edit)],
      s.start + Chars.size (Chars.cut source s) ≤ f.span.start := by
    intro f hf
    rw [List.mem_singleton.mp hf, ← hsize]
    exact Nat.le_refl _
  have hturns := splice_turns hinside hpoint []
  rw [within, hsort]
  rw [List.append_nil, hlast] at hturns
  exact hturns

end Patch

end

end TextHarvest
