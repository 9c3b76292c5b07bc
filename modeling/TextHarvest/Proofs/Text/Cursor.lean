import TextHarvest.Proofs.Patch
import TextHarvest.Text.Cursor

/-!
# Moving a cursor

A cursor only ever moves forward over the characters in front of it. Each movement is described
twice: where it ends up on a text that is written out as what it moves over and what is left, and
that it stays in the text wherever it ends up.

Main results:

* `skipWhile_append`, `seek?_append`, `textTo_append` — movements over a known text.
* `exists_seek?`, `seek?_eq_none_iff` — what a search finds.
* `Ahead` — one cursor stands further on in the text of another.
-/

namespace TextHarvest.Cursor

/-- The character before a place that is reached over some characters. -/
def behind (prev : Option Char) (cs : List Char) : Option Char :=
  cs.getLast?.or prev

@[simp] theorem behind_nil (prev : Option Char) : behind prev [] = prev := rfl

@[simp] theorem behind_cons (prev : Option Char) (ch : Char) (cs : List Char) :
    behind prev (ch :: cs) = behind (some ch) cs := by
  cases cs with
  | nil => rfl
  | cons d cs =>
    rw [behind, behind, List.getLast?_cons_cons, List.getLast?_cons]
    rfl

@[simp] theorem behind_append (prev : Option Char) (cs ds : List Char) :
    behind prev (cs ++ ds) = behind (behind prev cs) ds := by
  induction cs generalizing prev with
  | nil => rfl
  | cons ch cs ih => rw [List.cons_append, behind_cons, ih, behind_cons]

/-- Behind some characters it does not matter what stood before them. -/
theorem behind_eq_of_ne_nil {cs : List Char} (hcs : cs ≠ []) (prev prev' : Option Char) :
    behind prev cs = behind prev' cs := by
  cases cs with
  | nil => exact absurd rfl hcs
  | cons ch cs => rw [behind_cons, behind_cons]

/-- A text that is empty or starts with a character that fails a test. -/
def StopsAt (p : Char → Bool) (rest : List Char) : Prop :=
  ∀ ch ∈ rest.head?, p ch = false

@[simp] theorem stopsAt_nil (p : Char → Bool) : StopsAt p [] := by
  intro ch hch
  cases hch

@[simp] theorem stopsAt_cons {p : Char → Bool} {ch : Char} {cs : List Char} :
    StopsAt p (ch :: cs) ↔ p ch = false := by
  simp [StopsAt]

/-- What is left behind characters of a kind starts with none of them. -/
theorem stopsAt_dropWhile (p : Char → Bool) (cs : List Char) : StopsAt p (cs.dropWhile p) := by
  induction cs with
  | nil => exact stopsAt_nil p
  | cons ch cs ih =>
    rw [List.dropWhile_cons]
    split
    · exact ih
    · rename_i hch
      exact stopsAt_cons.mpr (by simpa using hch)

/-! ## Movements over a known text -/

section Known

variable {rest : List Char} (cs : List Char) (pos : Nat) (prev : Option Char)

@[simp] theorem next_mk (ch : Char) :
    (Cursor.mk (ch :: cs) pos prev).next = ⟨cs, pos + ch.utf8Size, some ch⟩ := rfl

/-- To skip some characters. -/
theorem skip_append (rest : List Char) :
    (Cursor.mk (cs ++ rest) pos prev).skip cs.length =
      ⟨rest, pos + Chars.size cs, behind prev cs⟩ := by
  induction cs generalizing pos prev with
  | nil => rfl
  | cons ch cs ih =>
    rw [List.length_cons, skip, List.cons_append, next_mk, ih, behind_cons, Chars.size_cons,
      Nat.add_assoc]

/-- To skip characters of a kind, up to the first of another one. -/
theorem skipWhileFrom_append {p : Char → Bool} (hcs : ∀ ch ∈ cs, p ch = true)
    (hrest : StopsAt p rest) :
    skipWhileFrom p (cs ++ rest) pos prev = ⟨rest, pos + Chars.size cs, behind prev cs⟩ := by
  induction cs generalizing pos prev with
  | nil =>
    cases rest with
    | nil => rfl
    | cons ch rest =>
      rw [List.nil_append, skipWhileFrom, if_neg (by simp [stopsAt_cons.mp hrest])]
      rfl
  | cons ch cs ih =>
    obtain ⟨hch, hcs⟩ := List.forall_mem_cons.mp hcs
    rw [List.cons_append, skipWhileFrom, if_pos hch, ih _ _ hcs, behind_cons, Chars.size_cons,
      Nat.add_assoc]

/-- Moving over characters that pass a test ends before the first that does not. -/
theorem skipWhile_append {p : Char → Bool} (hcs : ∀ ch ∈ cs, p ch = true)
    (hrest : StopsAt p rest) :
    (Cursor.mk (cs ++ rest) pos prev).skipWhile p =
      ⟨rest, pos + Chars.size cs, behind prev cs⟩ :=
  skipWhileFrom_append cs pos prev hcs hrest

/-- Where none is there none is skipped. -/
theorem skipWhile_of_stopsAt {p : Char → Bool} (hrest : StopsAt p rest) :
    (Cursor.mk rest pos prev).skipWhile p = ⟨rest, pos, prev⟩ :=
  skipWhile_append [] pos prev (by simp) hrest

/-- To skip the rest of a text. -/
theorem toEnd_mk : (Cursor.mk cs pos prev).toEnd = ⟨[], pos + Chars.size cs, behind prev cs⟩ := by
  have hall : (Cursor.mk (cs ++ []) pos prev).skipWhile (fun _ => true) =
      ⟨[], pos + Chars.size cs, behind prev cs⟩ :=
    skipWhile_append cs pos prev (by simp) (stopsAt_nil _)
  rwa [List.append_nil] at hall

/-- To take the characters up to an offset. -/
theorem takeTo_append (rest acc : List Char) :
    takeTo (pos + Chars.size cs) (cs ++ rest) pos acc = acc.reverse ++ cs := by
  induction cs generalizing pos acc with
  | nil =>
    cases rest with
    | nil => simp [takeTo]
    | cons ch rest => simp [takeTo]
  | cons ch cs ih =>
    have hpos := ch.utf8Size_pos
    have hsize : pos + Chars.size (ch :: cs) = (pos + ch.utf8Size) + Chars.size cs := by
      rw [Chars.size_cons, Nat.add_assoc]
    rw [List.cons_append, takeTo, if_pos (by rw [Chars.size_cons]; omega), hsize, ih]
    simp

/-- The text up to a place ahead is what lies between. -/
theorem textTo_append (rest : List Char) :
    (Cursor.mk (cs ++ rest) pos prev).textTo (pos + Chars.size cs) = String.ofList cs := by
  rw [textTo, takeTo_append]
  rfl

end Known

/-! ## Searching -/

/-- A mark is not found just when the text has none. -/
theorem seekFrom_eq_none_iff {mark cs : List Char} {pos : Nat} {prev : Option Char}
    (hmark : mark ≠ []) : seekFrom mark cs pos prev = none ↔ ¬mark <:+: cs := by
  -- by induction on the text: the mark is in front of it or in its rest
  induction cs generalizing pos prev with
  | nil => simp [seekFrom, hmark]
  | cons ch cs ih =>
    rw [seekFrom, List.infix_cons_iff]
    by_cases hstarts : mark.isPrefixOf (ch :: cs) = true
    · simp [hstarts, List.isPrefixOf_iff_prefix.mp hstarts]
    · have hnot : ¬mark <+: ch :: cs := fun hp => hstarts (List.isPrefixOf_iff_prefix.mpr hp)
      rw [if_neg hstarts, ih]
      simp [hnot]

/-- The same for a cursor. -/
theorem seek?_eq_none_iff {c : Cursor} {mark : List Char} (hmark : mark ≠ []) :
    c.seek? mark = none ↔ ¬mark <:+: c.rest :=
  seekFrom_eq_none_iff hmark

/-- A mark that stands at the front of a longer text stands at the front of a text that is as long
as the mark. -/
theorem prefix_append_dropLast {mark body rest : List Char} (hmark : mark ≠ [])
    (hbody : body ≠ []) (hstarts : mark <+: body ++ (mark ++ rest)) :
    mark <+: body ++ mark.dropLast := by
  have hfront : body ++ mark.dropLast <+: body ++ (mark ++ rest) := by
    refine (List.prefix_append_right_inj body).mpr ?_
    exact (List.dropLast_prefix mark).trans (List.prefix_append mark rest)
  refine List.prefix_of_prefix_length_le hstarts hfront ?_
  have hlen := List.length_pos_iff.mpr hbody
  have hlen' := List.length_pos_iff.mpr hmark
  rw [List.length_append, List.length_dropLast]
  omega

/-- The first mark is found, if none reaches over what stands in front of it. -/
theorem seekFrom_append {mark body rest : List Char} (pos : Nat) (prev : Option Char)
    (hmark : mark ≠ []) (hfirst : ¬mark <:+: body ++ mark.dropLast) :
    seekFrom mark (body ++ (mark ++ rest)) pos prev =
      some ⟨mark ++ rest, pos + Chars.size body, behind prev body⟩ := by
  induction body generalizing pos prev with
  | nil =>
    obtain ⟨ch, cs, rfl⟩ := List.exists_cons_of_ne_nil hmark
    rw [List.nil_append, List.cons_append, seekFrom, if_pos]
    · rfl
    · rw [List.isPrefixOf_iff_prefix, ← List.cons_append]
      exact List.prefix_append _ _
  | cons ch body ih =>
    rw [List.cons_append, List.infix_cons_iff, not_or] at hfirst
    rw [List.cons_append, seekFrom, if_neg, ih _ _ hfirst.2, behind_cons, Chars.size_cons,
      Nat.add_assoc]
    intro hstarts
    -- the mark cannot start earlier, not even where the body ends and the mark begins
    have hfront : mark <+: (ch :: body) ++ (mark ++ rest) := List.isPrefixOf_iff_prefix.mp hstarts
    exact hfirst.1 (prefix_append_dropLast hmark (List.cons_ne_nil ch body) hfront)

/-- A search ends at the first place where the mark stands. -/
theorem seek?_append {mark body rest : List Char} (pos : Nat) (prev : Option Char)
    (hmark : mark ≠ []) (hfirst : ¬mark <:+: body ++ mark.dropLast) :
    (Cursor.mk (body ++ (mark ++ rest)) pos prev).seek? mark =
      some ⟨mark ++ rest, pos + Chars.size body, behind prev body⟩ :=
  seekFrom_append pos prev hmark hfirst

/-- A text that holds a mark is cut at the first place where the mark stands. -/
theorem exists_first {mark cs : List Char} (hmark : mark ≠ []) (hholds : mark <:+: cs) :
    ∃ body rest, cs = body ++ (mark ++ rest) ∧ ¬mark <:+: body ++ mark.dropLast := by
  induction cs with
  | nil => exact absurd (List.infix_nil.mp hholds) hmark
  | cons ch cs ih =>
    by_cases hstarts : mark <+: ch :: cs
    · obtain ⟨rest, hrest⟩ := hstarts
      refine ⟨[], rest, hrest.symm, ?_⟩
      intro hholds'
      have hle := hholds'.length_le
      have hpos := List.length_pos_iff.mpr hmark
      rw [List.nil_append, List.length_dropLast] at hle
      omega
    · have htail := (List.infix_cons_iff.mp hholds).resolve_left hstarts
      obtain ⟨body, rest, rfl, hfirst⟩ := ih htail
      refine ⟨ch :: body, rest, rfl, ?_⟩
      rw [List.cons_append, List.infix_cons_iff, not_or]
      refine ⟨?_, hfirst⟩
      -- a mark at the very front would have been found there
      intro hfront
      apply hstarts
      refine hfront.trans ?_
      rw [← List.cons_append, ← List.cons_append]
      refine (List.prefix_append_right_inj (ch :: body)).mpr ?_
      exact (List.dropLast_prefix mark).trans (List.prefix_append mark rest)

/-- What a search finds. -/
theorem exists_seek? {c c' : Cursor} {mark : List Char} (hmark : mark ≠ [])
    (hseek : c.seek? mark = some c') :
    ∃ body rest, c.rest = body ++ (mark ++ rest) ∧ ¬mark <:+: body ++ mark.dropLast ∧
      c' = ⟨mark ++ rest, c.pos + Chars.size body, behind c.prev body⟩ := by
  -- what was found is there, and so is its first occurrence, which is the one that was found
  have hholds : mark <:+: c.rest := by
    refine Classical.byContradiction fun hnot => ?_
    rw [(seek?_eq_none_iff hmark).mpr hnot] at hseek
    cases hseek
  obtain ⟨body, rest, hrest, hfirst⟩ := exists_first hmark hholds
  refine ⟨body, rest, hrest, hfirst, ?_⟩
  obtain ⟨cs, pos, prev⟩ := c
  dsimp only at hrest
  subst hrest
  rw [seek?_append pos prev hmark hfirst] at hseek
  exact (Option.some.inj hseek).symm

/-! ## Cuts -/

/-- A character class cuts a text in two. -/
theorem exists_takeWhile (p : Char → Bool) (cs : List Char) :
    ∃ front rest, cs = front ++ rest ∧ (∀ ch ∈ front, p ch = true) ∧ StopsAt p rest :=
  ⟨cs.takeWhile p, cs.dropWhile p, List.takeWhile_append_dropWhile.symm,
    List.all_eq_true.mp List.all_takeWhile, stopsAt_dropWhile p cs⟩

/-- A text is cut where for the first time the rest passes a test. -/
theorem exists_first_end (ends : List Char → Bool) (hnil : ends [] = true) (cs : List Char) :
    ∃ front rest, cs = front ++ rest ∧ ends rest = true ∧
      ∀ a b, front = a ++ b → b ≠ [] → ends (b ++ rest) = false := by
  induction cs with
  | nil => exact ⟨[], [], rfl, hnil, by simp⟩
  | cons ch cs ih =>
    -- here is the first end, or it is the first one of the rest
    by_cases hends : ends (ch :: cs) = true
    · exact ⟨[], ch :: cs, rfl, hends, by simp⟩
    · obtain ⟨front, rest, rfl, hrest, hinner⟩ := ih
      refine ⟨ch :: front, rest, rfl, hrest, ?_⟩
      intro a b heq hne
      cases a with
      | nil =>
        rw [List.nil_append] at heq
        rw [← heq]
        simpa using hends
      | cons a as =>
        rw [List.cons_append, List.cons.injEq] at heq
        exact hinner as b heq.2 hne

/-! ## Cursors of one text -/

/-- A cursor stands further on in the text of another, or at the same place. -/
def Ahead (c c' : Cursor) : Prop :=
  ∃ cs, c.rest = cs ++ c'.rest ∧ c'.pos = c.pos + Chars.size cs

/-- A cursor is where it is. -/
theorem Ahead.refl (c : Cursor) : c.Ahead c :=
  ⟨[], rfl, rfl⟩

/-- To go ahead twice. -/
theorem Ahead.trans {a b c : Cursor} (hab : a.Ahead b) (hbc : b.Ahead c) : a.Ahead c := by
  obtain ⟨cs, hcs, hpos⟩ := hab
  obtain ⟨ds, hds, hpos'⟩ := hbc
  refine ⟨cs ++ ds, ?_, ?_⟩
  · rw [hcs, hds, List.append_assoc]
  · rw [hpos', hpos, Chars.size_append, Nat.add_assoc]

/-- A cursor ahead is not before. -/
theorem Ahead.pos_le {c c' : Cursor} (h : c.Ahead c') : c.pos ≤ c'.pos := by
  obtain ⟨cs, -, hpos⟩ := h
  omega

/-- Behind some characters. -/
theorem ahead_mk (cs rest : List Char) (pos : Nat) (prev prev' : Option Char) :
    (Cursor.mk (cs ++ rest) pos prev).Ahead ⟨rest, pos + Chars.size cs, prev'⟩ :=
  ⟨cs, rfl, rfl⟩

/-- One character ahead. -/
theorem ahead_next (c : Cursor) : c.Ahead c.next := by
  obtain ⟨cs, pos, prev⟩ := c
  cases cs with
  | nil => exact Ahead.refl _
  | cons ch cs => exact ahead_mk [ch] cs pos prev _

/-- Any number of characters ahead. -/
theorem ahead_skip (c : Cursor) (n : Nat) : c.Ahead (c.skip n) := by
  induction n generalizing c with
  | zero => exact Ahead.refl c
  | succ n ih => exact c.ahead_next.trans (ih c.next)

/-- Behind all characters of a kind. -/
theorem ahead_skipWhile (c : Cursor) (p : Char → Bool) : c.Ahead (c.skipWhile p) := by
  obtain ⟨cs, pos, prev⟩ := c
  have hmove := skipWhile_append (cs.takeWhile p) pos prev
    (List.all_eq_true.mp List.all_takeWhile) (stopsAt_dropWhile p cs)
  rw [List.takeWhile_append_dropWhile] at hmove
  rw [hmove]
  exact ⟨cs.takeWhile p, List.takeWhile_append_dropWhile.symm, rfl⟩

/-- At the end of the text. -/
theorem ahead_toEnd (c : Cursor) : c.Ahead c.toEnd :=
  c.ahead_skipWhile _

/-- At a mark that is found. -/
theorem ahead_of_seek? {c c' : Cursor} {mark : List Char} (hmark : mark ≠ [])
    (hseek : c.seek? mark = some c') : c.Ahead c' := by
  obtain ⟨body, rest, hrest, -, rfl⟩ := exists_seek? hmark hseek
  exact ⟨body, hrest, rfl⟩

/-- The text up to a cursor further on. -/
theorem Ahead.exists_textTo {c c' : Cursor} (h : c.Ahead c') :
    ∃ cs, c.rest = cs ++ c'.rest ∧ c'.pos = c.pos + Chars.size cs ∧
      c.textTo c'.pos = String.ofList cs := by
  obtain ⟨cs, hcs, hpos⟩ := h
  refine ⟨cs, hcs, hpos, ?_⟩
  obtain ⟨rest, pos, prev⟩ := c
  dsimp only at hcs hpos
  subst hcs
  rw [hpos]
  exact textTo_append cs pos prev c'.rest

end TextHarvest.Cursor
