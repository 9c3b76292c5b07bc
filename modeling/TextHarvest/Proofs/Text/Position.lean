import Mathlib.Data.List.DropRight
import TextHarvest.Proofs.Patch.Kept
import TextHarvest.Text.Position

/-!
# Positions are faithful

The position of an offset is read off the characters before it: those up to the last line feed say
which line it is, those behind it how far along. Both grow with the offset, so that no two offsets
share a position. In a part of a text positions are counted from the start of the part; the
position in the whole text follows from that and from the position at which the part starts.

Main results:

* `exists_lastLine` — a text is whole lines and the start of one more.
* `getElem?_splitOn` — the line that stands around a cut.
* `positionsFaithful` — what positions say of a source, and how they compose.
-/

namespace TextHarvest.Position

/-! ## The line of a cut -/

/-- Whether a text is made of whole lines, each with its line feed. -/
def WholeLines (cs : List Char) : Prop :=
  ∀ c ∈ cs.getLast?, c = '\n'

/-- A text as whole lines and the start of one more. -/
structure LastLine (cs whole line : List Char) : Prop where
  append : cs = whole ++ line
  whole : WholeLines whole
  unbroken : '\n' ∉ line

theorem restOfLine_append {line : List Char} (hline : '\n' ∉ line) (after : List Char) :
    restOfLine (line ++ after) = line ++ restOfLine after :=
  List.takeWhile_append_of_pos fun c hc => by
    simpa using ne_of_mem_of_not_mem hc hline

/-- The start of a line is what stands behind the last line break. -/
theorem startOfLine_of_lastLine {cs whole line : List Char} (h : LastLine cs whole line) :
    startOfLine cs = line := by
  have hreverse : '\n' ∉ line.reverse := fun hmem => h.unbroken (List.mem_reverse.mp hmem)
  have hwhole : restOfLine whole.reverse = [] := by
    cases hlast : whole.reverse with
    | nil => rfl
    | cons c cs =>
      have hc : c = '\n' := h.whole c (by rw [List.getLast?_eq_head?_reverse, hlast]; rfl)
      rw [hc]
      rfl
  rw [startOfLine, h.append, List.reverse_append, restOfLine_append hreverse, hwhole,
    List.append_nil, List.reverse_reverse]

/-- Every text is whole lines and the start of one more. -/
theorem exists_lastLine (cs : List Char) : ∃ whole, LastLine cs whole (startOfLine cs) := by
  refine ⟨(cs.reverse.dropWhile (· != '\n')).reverse, ?_, ?_, ?_⟩
  · rw [startOfLine, restOfLine, ← List.reverse_append, List.takeWhile_append_dropWhile,
      List.reverse_reverse]
  · intro c hc
    rw [List.getLast?_reverse] at hc
    have hstop := List.head?_dropWhile_not (· != '\n') cs.reverse
    rw [hc] at hstop
    simpa using hstop
  · intro hmem
    have hkept := List.all_eq_true.mp List.all_takeWhile _ (List.mem_reverse.mp hmem)
    simp at hkept

/-- Behind a text with a line feed the last line is that of the text; behind any other the line
goes on. -/
theorem startOfLine_append (front cs : List Char) :
    startOfLine (front ++ cs) =
      if '\n' ∈ cs then startOfLine cs else startOfLine front ++ cs := by
  obtain ⟨whole, hcs⟩ := exists_lastLine cs
  split
  · rename_i hmem
    -- the last line starts behind the last break, which stands in one part or the other
    have hne : whole ≠ [] := by
      rintro rfl
      have happend := hcs.append
      rw [List.nil_append] at happend
      rw [happend] at hmem
      exact hcs.unbroken hmem
    refine @startOfLine_of_lastLine _ (front ++ whole) _ ⟨?_, ?_, hcs.unbroken⟩
    · rw [List.append_assoc, ← hcs.append]
    · intro c hc
      rw [List.getLast?_append_of_ne_nil _ hne] at hc
      exact hcs.whole c hc
  · rename_i hmem
    obtain ⟨whole, hfront⟩ := exists_lastLine front
    refine @startOfLine_of_lastLine _ whole _ ⟨?_, hfront.whole, ?_⟩
    · rw [← List.append_assoc, ← hfront.append]
    · rw [List.mem_append, not_or]
      exact ⟨hfront.unbroken, hmem⟩

/-- A text has one line more than line breaks. -/
theorem length_splitOn (cs : List Char) : (cs.splitOn '\n').length = cs.count '\n' + 1 := by
  induction cs with
  | nil => rfl
  | cons c cs ih =>
    rw [List.splitOn_cons_eq_if_modifyHead, List.count_cons]
    split <;> simp [ih]

theorem head?_splitOn (cs : List Char) : (cs.splitOn '\n')[0]? = some (restOfLine cs) := by
  induction cs with
  | nil => rfl
  | cons c cs ih =>
    rw [List.splitOn_cons_eq_if_modifyHead, restOfLine, List.takeWhile_cons]
    by_cases hc : c = '\n'
    · simp [hc]
    · rw [if_neg (by simpa using hc), if_pos (by simpa using hc), ← List.head?_eq_getElem?,
        List.head?_modifyHead, List.head?_eq_getElem?, ih]
      rfl

/-- The line that stands around a cut. -/
theorem getElem?_splitOn (before after : List Char) :
    ((before ++ after).splitOn '\n')[before.count '\n']? =
      some (startOfLine before ++ restOfLine after) := by
  obtain ⟨whole, h⟩ := exists_lastLine before
  have hline : (startOfLine before).count '\n' = 0 := List.count_eq_zero.mpr h.unbroken
  have hrest := head?_splitOn (startOfLine before ++ after)
  rw [restOfLine_append h.unbroken] at hrest
  have hcount : before.count '\n' = whole.count '\n' := by
    conv_lhs => rw [h.append, List.count_append, hline, Nat.add_zero]
  -- whole lines in front, then the line that the position stands in
  have happend : before ++ after = whole ++ (startOfLine before ++ after) := by
    rw [← List.append_assoc, ← h.append]
  rw [hcount, happend]
  rcases List.eq_nil_or_concat whole with rfl | ⟨lines, c, rfl⟩
  · exact hrest
  · have hc : c = '\n' := h.whole c (by simp)
    subst hc
    rw [List.concat_eq_append, List.append_assoc, List.singleton_append,
      List.splitOn_append_cons_self, List.count_append, List.count_singleton_self,
      ← length_splitOn, List.getElem?_append_right (Nat.le_refl _), Nat.sub_self, hrest]

/-! ## Positions -/

/-- The position behind a front of the text. -/
theorem ofOffset_of_append {source : String} {before after : List Char}
    (h : source.toList = before ++ after) :
    ofOffset source (Chars.size before) = ofSplit before after := by
  rw [ofOffset, h, Chars.splitAt?_append]

/-- One position stands before another: on an earlier line, or on the same line with fewer
characters before it. -/
def Before (p q : Position) : Prop :=
  p.line < q.line ∨ p.line = q.line ∧ p.col < q.col

/-- What a position says of the place at which a text is cut. -/
structure PointsAt (p : Position) (before after : List Char) : Prop where
  /-- The number of line feeds before the place. -/
  line : p.line = before.count '\n' + 1
  /-- The number of characters behind the last of them. -/
  col : ∃ whole line, LastLine before whole line ∧ p.col = line.length + 1
  /-- That line of the text, without the carriage returns at its end. -/
  text : ∃ line, ((before ++ after).splitOn '\n')[p.line - 1]? = some line ∧
    p.text.toList = line.rdropWhile (· == '\r')

/-- The position of a cut points at it. -/
theorem pointsAt_ofSplit (before after : List Char) :
    PointsAt (ofSplit before after) before after where
  line := rfl
  col := by
    obtain ⟨whole, h⟩ := exists_lastLine before
    exact ⟨whole, _, h, rfl⟩
  text := ⟨_, getElem?_splitOn before after, by rw [ofSplit, String.toList_ofList]; rfl⟩

/-- A position moves on with every character. -/
theorem before_ofSplit (before more after rest : List Char) (hmore : more ≠ []) :
    Before (ofSplit before rest) (ofSplit (before ++ more) after) := by
  simp only [Before, ofSplit, List.count_append, startOfLine_append]
  by_cases hmem : '\n' ∈ more
  · have hcount := List.count_pos_iff.mpr hmem
    left
    omega
  · have hcount := List.count_eq_zero.mpr hmem
    have hlength := List.length_pos_iff.mpr hmore
    right
    rw [if_neg hmem, List.length_append]
    omega

/-- The position in a text of a place in a part of it. -/
structure Composes (whole start inner : Position) : Prop where
  line : whole.line = start.line + inner.line - 1
  /-- On a later line of the part the column is that in the part. -/
  later : 1 < inner.line → whole.col = inner.col
  /-- Its first line goes on behind what stands before it. -/
  first : ¬1 < inner.line → whole.col = start.col + inner.col - 1

/-- The position in a part and that of the part give the position in the whole. -/
theorem composes_ofSplit (pre before after rest post : List Char) :
    Composes (ofSplit (pre ++ before) rest) (ofSplit pre post) (ofSplit before after) := by
  have hline : 1 < (ofSplit before after).line ↔ '\n' ∈ before := by
    rw [← List.count_pos_iff, ofSplit]
    dsimp only
    omega
  constructor
  · simp only [ofSplit, List.count_append]
    omega
  · intro hlater
    simp only [ofSplit, startOfLine_append, if_pos (hline.mp hlater)]
  · intro hfirst
    have hmem : '\n' ∉ before := fun hmem => hfirst (hline.mpr hmem)
    -- without a break in front, all of it belongs to the first line
    have hbefore : startOfLine before = before := by
      have happend := startOfLine_append [] before
      rwa [if_neg hmem] at happend
    simp only [ofSplit, startOfLine_append, if_neg hmem, hbefore, List.length_append]
    omega

/-- What the positions of a source say. -/
structure PositionsFaithful (source : String) : Prop where
  /-- A position tells the line, the column and the text of the line of its offset. -/
  points : ∀ before after, source.toList = before ++ after →
    PointsAt (ofOffset source (Chars.size before)) before after
  /-- Positions grow with the offset. -/
  increasing : ∀ n m, Chars.isBoundary source.toList n → Chars.isBoundary source.toList m →
    n < m → Before (ofOffset source n) (ofOffset source m)
  /-- A line and a column belong to one offset only. -/
  injective : ∀ n m, Chars.isBoundary source.toList n → Chars.isBoundary source.toList m →
    (ofOffset source n).line = (ofOffset source m).line →
    (ofOffset source n).col = (ofOffset source m).col → n = m
  /-- The position of a place in a part of the source follows from its position in the part. -/
  composes : ∀ pre content post, source = pre ++ content ++ post →
    ∀ n, Chars.isBoundary content.toList n →
      Composes (ofOffset source (Chars.size pre.toList + n))
        (ofOffset source (Chars.size pre.toList)) (ofOffset content n)

/-- A later offset has a later position. -/
theorem increasing_ofOffset {source : String} {n m : Nat}
    (hn : Chars.isBoundary source.toList n) (hm : Chars.isBoundary source.toList m) (hlt : n < m) :
    Before (ofOffset source n) (ofOffset source m) := by
  obtain ⟨before, rest, hsource, rfl⟩ := Chars.isBoundary_iff.mp hn
  obtain ⟨before', after, hsource', rfl⟩ := Chars.isBoundary_iff.mp hm
  obtain ⟨more, rfl, -⟩ :=
    Chars.eq_append_of_size_le (hsource.symm.trans hsource') (Nat.le_of_lt hlt)
  have hmore : more ≠ [] := by
    rintro rfl
    simp at hlt
  rw [ofOffset_of_append hsource, ofOffset_of_append hsource']
  exact before_ofSplit before more after rest hmore

/-- The positions of every source are faithful: they tell the place of their offset, grow with it,
belong to one offset each, and compose. -/
theorem positionsFaithful (source : String) : PositionsFaithful source where
  points before after hsource := by
    rw [ofOffset_of_append hsource]
    exact pointsAt_ofSplit before after
  increasing _ _ := increasing_ofOffset
  injective n m hn hm hline hcol := by
    -- of two offsets the later has the later position, so equal positions are of equal offsets
    rcases Nat.lt_trichotomy n m with hlt | heq | hgt
    · have hbefore := increasing_ofOffset hn hm hlt
      simp only [Before] at hbefore
      omega
    · exact heq
    · have hbefore := increasing_ofOffset hm hn hgt
      simp only [Before] at hbefore
      omega
  composes := by
    rintro pre content post rfl n hn
    obtain ⟨before, after, hcontent, rfl⟩ := Chars.isBoundary_iff.mp hn
    have hwhole : (pre ++ content ++ post).toList =
        (pre.toList ++ before) ++ (after ++ post.toList) := by
      simp [hcontent]
    have hstart : (pre ++ content ++ post).toList =
        pre.toList ++ (content.toList ++ post.toList) := by
      simp
    rw [← Chars.size_append, ofOffset_of_append hwhole, ofOffset_of_append hstart,
      ofOffset_of_append hcontent]
    exact composes_ofSplit _ _ _ _ _

/-- An offset right behind a line feed, and one behind a character of three bytes. -/
example : ofOffset "a\r\n你b" 3 = ⟨2, 1, "你b"⟩ ∧ ofOffset "a\r\n你b" 6 = ⟨2, 2, "你b"⟩ := by
  decide

end TextHarvest.Position
