import TextHarvest.Proofs.Script.Tokens

/-!
# Gaps in front of tokens

Blanks and comments in front of a token are skipped. They are skipped in the same way in front of
any other text, so what is put behind a gap is read as it would be without it.

Main results:

* `startsWithGap_of_skipGap` — what is skipped does not depend on what follows.
* `startState_of_isGapAt` and `exists_isGapAt` — the state behind a gap.
-/

namespace TextHarvest.Script

/-! ## Gaps -/

/-- A gap is skipped, whatever stands behind it, unless that is the slash that ends a comment. -/
def Skips (mode : GapMode) (gap : List Char) (pos : Nat) (newline newline' : Bool) : Prop :=
  ∀ z : List Char, z.head? ≠ some '/' →
    skipGap mode (gap ++ z) pos newline = skipGap .blank z (pos + Chars.size gap) newline'

/-- A text starts with a gap that is skipped in any other text too. -/
def StartsWithGap (mode : GapMode) (cs : List Char) (pos : Nat) (newline : Bool) (rest : List Char)
    (start : Nat) (newline' : Bool) : Prop :=
  ∃ gap, cs = gap ++ rest ∧ start = pos + Chars.size gap ∧ Skips mode gap pos newline newline'

theorem startsWithGap_nil (cs : List Char) (pos : Nat) (newline : Bool) :
    StartsWithGap .blank cs pos newline cs pos newline :=
  ⟨[], rfl, rfl, fun _ _ => rfl⟩

/-- A gap begins with what is skipped in front of it. -/
theorem StartsWithGap.append {mode mode' : GapMode} {cs rest : List Char}
    {pos stop start : Nat} {newline newline₁ newline' : Bool}
    (h : StartsWithGap mode' cs stop newline₁ rest start newline') (front : List Char)
    (hstop : stop = pos + Chars.size front)
    (hfront : ∀ y : List Char, y.head? = cs.head? ∨ y.head? ≠ some '/' →
      skipGap mode (front ++ y) pos newline = skipGap mode' y stop newline₁) :
    StartsWithGap mode (front ++ cs) pos newline rest start newline' := by
  obtain ⟨gap, rfl, rfl, hgap⟩ := h
  refine ⟨front ++ gap, (List.append_assoc _ _ _).symm, ?_, ?_⟩
  · rw [hstop, Chars.size_append, Nat.add_assoc]
  · intro z hz
    -- only a slash right behind could make a comment of what is in front
    have hhead : (gap ++ z).head? = (gap ++ rest).head? ∨ (gap ++ z).head? ≠ some '/' := by
      cases gap with
      | nil => exact Or.inr hz
      | cons ch gap => exact Or.inl rfl
    rw [List.append_assoc, hfront _ hhead, hgap z hz, hstop, Chars.size_append, Nat.add_assoc]

/-- A blank or a line break starts no comment. -/
theorem not_sign_of_gap {ch : Char} (h : isLineBreak ch = true ∨ isSpace ch = true) :
    ch ≠ '/' ∧ ch ≠ '<' ∧ ch ≠ '-' := by
  have hmem := mem_gapCodes h
  refine ⟨?_, ?_, ?_⟩ <;>
  · rintro rfl
    exact absurd hmem (by decide)

/-- A blank in front is skipped. -/
theorem skipGap_cons_of_gap {ch : Char} (h : isLineBreak ch = true ∨ isSpace ch = true)
    (z : List Char) (pos : Nat) (newline : Bool) : skipGap .blank (ch :: z) pos newline =
      skipGap .blank z (pos + ch.utf8Size) (newline || isLineBreak ch) := by
  obtain ⟨hslash, hless, hdash⟩ := not_sign_of_gap h
  rw [skipGap.eq_def]
  split <;> simp_all
  cases hbreak : isLineBreak ch <;> simp_all

/-- A character inside of a comment is skipped. -/
theorem skipGap_inComment {ch : Char} {y : List Char} (hopen : ch = '*' → y.head? ≠ some '/')
    (comment pos : Nat) (newline : Bool) : skipGap (.blockComment comment) (ch :: y) pos newline =
      skipGap (.blockComment comment) y (pos + ch.utf8Size) (newline || isLineBreak ch) := by
  rw [skipGap.eq_def]
  split <;> simp_all

/-- What is skipped at the front of a text is skipped whatever stands behind it. -/
theorem startsWithGap_of_skipGap {mode : GapMode} {cs rest : List Char} {pos start : Nat}
    {newline newline' : Bool} (h : skipGap mode cs pos newline = ⟨rest, start, newline', none⟩)
    (hrest : rest ≠ []) : StartsWithGap mode cs pos newline rest start newline' := by
  fun_induction skipGap mode cs pos newline with
  | case1 => cases h
  | case2 =>
    cases h
    exact absurd rfl hrest
  | case3 cs pos newline ih =>
    -- a comment up to the end of the line
    exact (ih h).append ['/', '/'] rfl fun _ _ => rfl
  | case4 cs pos newline ih => exact (ih h).append ['/', '*'] rfl fun _ _ => rfl
  | case5 cs pos newline ih =>
    exact (ih h).append ['<', '!', '-', '-'] rfl fun _ _ => rfl
  | case6 cs pos ih => exact (ih h).append ['-', '-', '>'] rfl fun _ _ => rfl
  | case7 =>
    cases h
    exact startsWithGap_nil _ _ _
  | case8 ch cs pos newline _ _ _ _ hbreak ih =>
    refine (ih h).append [ch] rfl fun y _ => ?_
    exact (skipGap_cons_of_gap (Or.inl hbreak) y pos newline).trans (by rw [hbreak, Bool.or_true])
  | case9 ch cs pos newline _ _ _ _ hbreak hspace ih =>
    refine (ih h).append [ch] rfl fun y _ => ?_
    exact (skipGap_cons_of_gap (Or.inr hspace) y pos newline).trans
      (by rw [Bool.eq_false_iff.mpr hbreak, Bool.or_false])
  | case10 =>
    cases h
    exact startsWithGap_nil _ _ _
  | case11 ch cs pos newline hbreak ih =>
    refine (ih h).append [ch] rfl fun y _ => ?_
    rw [List.singleton_append, skipGap, if_pos hbreak]
  | case12 ch cs pos newline hbreak ih =>
    refine (ih h).append [ch] rfl fun y _ => ?_
    rw [List.singleton_append, skipGap, if_neg hbreak]
  | case13 start cs pos newline ih =>
    exact (ih h).append ['*', '/'] rfl fun _ _ => rfl
  | case14 comment ch cs pos newline hopen ih =>
    refine (ih h).append [ch] rfl fun y hy => skipGap_inComment ?_ _ _ _
    -- what stands behind does not end the comment either
    rintro rfl hslash
    rcases hy with hy | hy
    · obtain ⟨cs', rfl⟩ := List.head?_eq_some_iff.mp (hy.symm.trans hslash)
      exact hopen cs' rfl rfl
    · exact hy hslash

/-! ## The state behind a gap -/

/-- A token that is a word. -/
def isWordToken (t : Token) : Prop :=
  ∃ w, t = .word w

/-- A gap that may stand at a place of the source. -/
def IsGapAt (gap : List Char) (pos : Nat) : Prop :=
  ∃ newline, Skips .blank gap pos (pos == 0) newline

theorem isGapAt_nil (pos : Nat) : IsGapAt [] pos :=
  ⟨_, fun _ _ => rfl⟩

theorem isGapAt_blank (pos : Nat) : IsGapAt [' '] pos :=
  ⟨_, fun z _ => skipGap_blank z pos _⟩

/-- Blanks are skipped. -/
theorem exists_skips_of_blank {gap : List Char}
    (hblank : ∀ c ∈ gap, isLineBreak c = true ∨ isSpace c = true) (pos : Nat) (newline : Bool) :
    ∃ newline', Skips .blank gap pos newline newline' := by
  induction gap generalizing pos newline with
  | nil => exact ⟨newline, fun _ _ => rfl⟩
  | cons ch gap ih =>
    obtain ⟨newline', hskips⟩ := ih (fun c hc => hblank c (List.mem_cons_of_mem ch hc))
      (pos + ch.utf8Size) (newline || isLineBreak ch)
    refine ⟨newline', fun z hz => ?_⟩
    rw [List.cons_append, skipGap_cons_of_gap (hblank ch List.mem_cons_self), hskips z hz,
      Chars.size_cons, Nat.add_assoc]

/-- Blanks and line breaks are a gap wherever they stand. -/
theorem isGapAt_of_blank {gap : List Char}
    (hblank : ∀ c ∈ gap, isLineBreak c = true ∨ isSpace c = true) (pos : Nat) : IsGapAt gap pos :=
  exists_skips_of_blank hblank pos (pos == 0)

/-- Where a state stands in the source. -/
theorem startState_of_skipGap {cs front : List Char} {pos start : Nat} {newline : Bool}
    (hgap : skipGap .blank cs pos (pos == 0) = ⟨front, start, newline, none⟩) :
    (startState cs pos).text = front ∧ (startState cs pos).cur.span.start = start ∧
      (startState cs pos).cur.token = (scanToken front start).1 := by
  rw [startState, scan, hgap]
  exact ⟨rfl, rfl, rfl⟩

/-- Behind a gap the source is read as it would be without it. -/
theorem startState_of_isGapAt {gap z front : List Char} {pos start : Nat} (hgap : IsGapAt gap pos)
    (hz : z.head? ≠ some '/')
    (hskip : ∀ newline, skipGap .blank z (pos + Chars.size gap) newline =
      ⟨front, start, newline, none⟩) :
    (startState (gap ++ z) pos).text = front ∧ (startState (gap ++ z) pos).cur.span.start = start ∧
      (startState (gap ++ z) pos).cur.token = (scanToken front start).1 := by
  obtain ⟨newline, hgap⟩ := hgap
  exact startState_of_skipGap ((hgap z hz).trans (hskip newline))

/-- A token may stand behind a gap. -/
theorem tokenAt_of_isGapAt {gap z : List Char} {pos : Nat} (hgap : IsGapAt gap pos)
    (hz : z.head? ≠ some '/')
    (hskip : ∀ newline, skipGap .blank z (pos + Chars.size gap) newline =
      ⟨z, pos + Chars.size gap, newline, none⟩)
    {t : Token} {rest : List Char} {stop : Nat}
    (htoken : scanToken z (pos + Chars.size gap) = (t, stop, rest)) :
    TokenAt (gap ++ z) pos t rest stop := by
  obtain ⟨newline, hgap⟩ := hgap
  have hscan : scan (gap ++ z) pos =
      (⟨t, ⟨pos + Chars.size gap, stop⟩, newline⟩, z, rest) := by
    rw [scan, hgap z hz, hskip]
    dsimp only
    rw [htoken]
  constructor
  · rw [startState, hscan]
  · rw [startState, hscan]
    rfl

/-- Behind a gap the tokens are those that come up without it. -/
theorem IsGapAt.shows {gap z : List Char} {pos : Nat} (hgap : IsGapAt gap pos)
    (hz : z.head? ≠ some '/')
    (hskip : ∀ newline, skipGap .blank z (pos + Chars.size gap) newline =
      ⟨z, pos + Chars.size gap, newline, none⟩)
    {t : Token} {ts : List Token} {s' : State}
    (hshows : Shows (startState z (pos + Chars.size gap)) (t :: ts) s') :
    Shows (startState (gap ++ z) pos) (t :: ts) s' := by
  cases htoken : scanToken z (pos + Chars.size gap) with
  | mk u found =>
    obtain ⟨stop, rest⟩ := found
    -- the tokens behind the gap are those that stand there without it
    have hbare := tokenAt_of_scan hskip htoken
    obtain _ | ⟨hcur, hshows⟩ := hshows
    rw [hbare.token] at hcur
    rw [hbare.next] at hshows
    subst hcur
    exact (tokenAt_of_isGapAt hgap hz hskip htoken).shows hshows

/-- In front of a word there is a gap. -/
theorem exists_isGapAt {cs : List Char} {pos : Nat}
    (h : isWordToken (startState cs pos).cur.token) :
    ∃ gap, cs = gap ++ (startState cs pos).text ∧ IsGapAt gap pos ∧
      (startState cs pos).cur.span.start = pos + Chars.size gap ∧
      (startState cs pos).cur.token =
        (scanToken (startState cs pos).text (startState cs pos).cur.span.start).1 := by
  obtain ⟨w, hw⟩ := h
  cases hgap : skipGap .blank cs pos (pos == 0) with
  | mk rest start newline unclosed =>
    -- a comment that is not closed leaves an error and no word
    cases unclosed with
    | some comment =>
      rw [startState, scan, hgap] at hw
      cases hw
    | none =>
      obtain ⟨htext, hstart, htoken⟩ := startState_of_skipGap hgap
      have hrest : rest ≠ [] := by
        rintro rfl
        rw [htoken] at hw
        cases hw
      obtain ⟨gap, hcs, hsize, hskips⟩ := startsWithGap_of_skipGap hgap hrest
      rw [htext, hstart, htoken]
      exact ⟨gap, hcs, ⟨newline, hskips⟩, hsize, rfl⟩

end TextHarvest.Script
