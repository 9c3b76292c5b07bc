import Mathlib.Data.List.TakeDrop
import TextHarvest.Proofs.Patch.Apart
import TextHarvest.Proofs.Script.Chunk
import TextHarvest.Proofs.Script.Gap
import TextHarvest.Proofs.Text.Bytes

/-!
# Where the scanner stands

A reader of scripts goes from one place of a text to a later one: it is at the characters from an
offset on, and what it has passed takes up the offsets in between. This holds of the gaps and tokens
that are read, of the inside of templates and of regular expressions, and also of the places that an
error is reported at. So each offset that a scanner comes to falls between two characters.

Main results:

* `reads_scanToken` and `scanned_scan` — where a token starts and stops.
* `reads_readChunk` — where a chunk of a template stops.
-/

namespace TextHarvest

namespace Chars

/-! ## Places of a text -/

/-- A source goes on with some characters from an offset on. -/
def From (source : List Char) (pos : Nat) (rest : List Char) : Prop :=
  ∃ front, source = front ++ rest ∧ size front = pos

/-- What is left of a source starts between two of its characters. -/
theorem From.between {source : List Char} {pos : Nat} {rest : List Char}
    (h : From source pos rest) : Between source pos := by
  obtain ⟨front, hsource, hsize⟩ := h
  exact ⟨front, rest, hsource, hsize⟩

/-- Between two characters something is left of the source. -/
theorem Between.exists_from {source : List Char} {pos : Nat} (h : Between source pos) :
    ∃ rest, From source pos rest := by
  obtain ⟨front, back, hsource, hsize⟩ := h
  exact ⟨back, front, hsource, hsize⟩

/-- At its start the whole source is left. -/
theorem from_zero (source : List Char) : From source 0 source :=
  ⟨[], rfl, rfl⟩

/-- From the characters `cs` at an offset on, a reader comes to a later place. -/
def Reads (cs : List Char) (pos : Nat) (rest : List Char) (stop : Nat) : Prop :=
  ∃ xs, cs = xs ++ rest ∧ stop = pos + size xs

section Reads

variable {source cs ds rest : List Char} {pos mid stop : Nat}

/-- To read nothing. -/
theorem Reads.refl (cs : List Char) (pos : Nat) : Reads cs pos cs pos :=
  ⟨[], rfl, rfl⟩

/-- To read one part and then the next. -/
theorem Reads.trans (h : Reads cs pos ds mid) (h' : Reads ds mid rest stop) :
    Reads cs pos rest stop := by
  obtain ⟨xs, rfl, rfl⟩ := h
  obtain ⟨ys, rfl, rfl⟩ := h'
  exact ⟨xs ++ ys, (List.append_assoc _ _ _).symm, by rw [size_append, Nat.add_assoc]⟩

/-- To read some characters. -/
theorem reads_append (xs rest : List Char) (pos : Nat) :
    Reads (xs ++ rest) pos rest (pos + size xs) :=
  ⟨xs, rfl, rfl⟩

/-- To read one character. -/
theorem reads_cons (c : Char) (cs : List Char) (pos : Nat) :
    Reads (c :: cs) pos cs (pos + c.utf8Size) :=
  ⟨[c], rfl, by simp⟩

/-- A reader passes one character first. -/
theorem Reads.cons {c : Char} (h : Reads cs (pos + c.utf8Size) rest stop) :
    Reads (c :: cs) pos rest stop :=
  (reads_cons c cs pos).trans h

/-- Reading never goes back. -/
theorem Reads.le (h : Reads cs pos rest stop) : pos ≤ stop := by
  obtain ⟨xs, -, rfl⟩ := h
  exact Nat.le_add_right _ _

/-- What is left behind a part that was read. -/
theorem From.reads (h : From source pos cs) (hreads : Reads cs pos rest stop) :
    From source stop rest := by
  obtain ⟨front, rfl, rfl⟩ := h
  obtain ⟨xs, rfl, rfl⟩ := hreads
  exact ⟨front ++ xs, (List.append_assoc _ _ _).symm, size_append _ _⟩

/-- From a place that is read up to, an offset between two further characters is read up to. -/
theorem Reads.between_add {n : Nat} (h : Reads cs pos rest mid) (hn : Between rest n) :
    ∃ back, Reads cs pos back (mid + n) := by
  obtain ⟨front, back, rfl, rfl⟩ := hn
  exact ⟨back, h.trans (reads_append front back mid)⟩

/-- To read as long as a condition holds. -/
theorem reads_dropWhile (p : Char → Bool) (cs : List Char) (pos : Nat) :
    Reads cs pos (cs.dropWhile p) (pos + size (cs.takeWhile p)) :=
  ⟨cs.takeWhile p, List.takeWhile_append_dropWhile.symm, rfl⟩

/-- Characters that take up one byte each. -/
def Narrow (cs : List Char) : Prop :=
  ∀ c ∈ cs, c.utf8Size = 1

/-- Characters of one byte each are as many as their bytes. -/
theorem Narrow.size {cs : List Char} (h : Narrow cs) : size cs = cs.length := by
  induction cs with
  | nil => rfl
  | cons c cs ih =>
    rw [size_cons, h c List.mem_cons_self, ih fun d hd => h d (List.mem_cons_of_mem _ hd),
      List.length_cons, Nat.add_comm]

/-- Narrow texts one after the other. -/
theorem Narrow.append {cs ds : List Char} (hcs : Narrow cs) (hds : Narrow ds) :
    Narrow (cs ++ ds) := by
  intro c hc
  rcases List.mem_append.mp hc with hc | hc
  · exact hcs c hc
  · exact hds c hc

/-- As many narrow characters are passed as their number says. -/
theorem reads_drop {n : Nat} (hn : n ≤ cs.length) (hnarrow : Narrow (cs.take n)) :
    Reads cs pos (cs.drop n) (pos + n) := by
  refine ⟨cs.take n, (List.take_append_drop n cs).symm, ?_⟩
  rw [hnarrow.size, List.length_take, Nat.min_eq_left hn]

end Reads

end Chars

namespace Script

open Chars

/-! ## Gaps -/

/-- What is known of a gap that is read in a mode: it is passed, and a comment in it that is not
closed is the one that the mode is inside of, or starts within the gap. -/
structure GapRead (mode : GapMode) (cs : List Char) (pos : Nat) (g : Gap) : Prop where
  reads : Reads cs pos g.rest g.pos
  opened : ∀ start, g.unclosed = some start →
    mode = .blockComment start ∨ Between cs (start - pos) ∧ pos ≤ start ∧ start ≤ g.pos
  closed : g.unclosed.isSome = true → g.rest = []

/-- A gap that ends where it starts. -/
theorem GapRead.stop (mode : GapMode) (cs : List Char) (pos : Nat) (newline : Bool) :
    GapRead mode cs pos ⟨cs, pos, newline, none⟩ where
  reads := .refl cs pos
  opened := nofun
  closed := nofun

/-- A gap goes on behind some characters, where a comment of blocks may have been opened. -/
theorem GapRead.behind {mode mode' : GapMode} {cs : List Char} {pos : Nat} {g : Gap}
    (xs : List Char) (h : GapRead mode' cs (pos + size xs) g)
    (hmode : mode' = mode ∨ mode' = .lineComment ∨ mode' = .blank ∨ mode' = .blockComment pos) :
    GapRead mode (xs ++ cs) pos g where
  reads := (reads_append xs cs pos).trans h.reads
  closed := h.closed
  opened := by
    intro start hstart
    have hreads := (reads_append xs cs pos).trans h.reads
    -- a comment is open from before, or it was opened somewhere behind what is read now
    rcases h.opened start hstart with hopen | ⟨hbetween, hle, hle'⟩
    · rcases hmode with rfl | rfl | rfl | rfl
      · exact Or.inl hopen
      · cases hopen
      · cases hopen
      · cases hopen
        exact Or.inr ⟨⟨[], xs ++ cs, rfl, by simp⟩, Nat.le_refl _, hreads.le⟩
    · obtain ⟨front, back, rfl, hsize⟩ := hbetween
      refine Or.inr ⟨⟨xs ++ front, back, by simp, ?_⟩, by omega, hle'⟩
      rw [size_append, hsize]
      omega

/-- A gap is passed, and a comment that is not closed starts inside of it. -/
theorem gapRead_skipGap (mode : GapMode) (cs : List Char) (pos : Nat) (newline : Bool) :
    GapRead mode cs pos (skipGap mode cs pos newline) := by
  -- along the loop: each round reads one of the marks or a single character
  fun_induction skipGap mode cs pos newline with
  | case1 start pos nl => exact ⟨.refl [] pos, fun _ h => Or.inl (by cases h; rfl), fun _ => rfl⟩
  | case2 mode pos nl => exact .stop mode [] pos nl
  | case3 cs pos nl ih => exact .behind ['/', '/'] ih (by simp)
  | case4 cs pos nl ih => exact .behind ['/', '*'] ih (by simp)
  | case5 cs pos nl ih => exact .behind ['<', '!', '-', '-'] ih (by simp)
  | case6 cs pos ih => exact .behind ['-', '-', '>'] ih (by simp)
  | case7 cs pos nl => exact .stop _ _ pos nl
  | case8 c cs pos nl _ _ _ _ _ ih => exact .behind [c] ih (by simp)
  | case9 c cs pos nl _ _ _ _ _ _ ih => exact .behind [c] ih (by simp)
  | case10 c cs pos nl => exact .stop _ _ pos nl
  | case11 c cs pos nl _ ih => exact .behind [c] ih (by simp)
  | case12 c cs pos nl _ ih => exact .behind [c] ih (by simp)
  | case13 start cs pos nl ih => exact .behind ['*', '/'] ih (by simp)
  | case14 start c cs pos nl _ ih => exact .behind [c] ih (by simp)

/-! ## Words -/

/-- A digit of any base takes up one byte. -/
theorem utf8Size_digit {base : Nat} {c : Char} (h : (Text.digitValue? base c).isSome = true) :
    c.utf8Size = 1 := by
  have hascii : c.toNat < 128 := by
    rw [Text.digitValue?] at h
    grind
  exact isAscii_iff_utf8Size.mp hascii

/-- Digits are narrow. -/
theorem narrow_takeWhile_digit (base : Nat) (cs : List Char) :
    Narrow (cs.takeWhile fun c => (Text.digitValue? base c).isSome) := by
  intro c hc
  exact utf8Size_digit (List.all_eq_true.mp List.all_takeWhile c hc)

/-- The well-formed part of an escape that is not well formed. -/
theorem between_badEscapeLength (cs : List Char) : Between cs (badEscapeLength cs) := by
  have hu : 'u'.utf8Size = 1 := by decide
  have hbrace : '\x7b'.utf8Size = 1 := by decide
  rw [badEscapeLength.eq_def]
  -- with braces, with four digits, or neither
  split
  · rename_i cs
    have hdigits := (narrow_takeWhile_digit 16 cs).size
    dsimp only
    split
    · refine ⟨'u' :: '\x7b' :: cs.takeWhile fun c => (Text.digitValue? 16 c).isSome,
        cs.dropWhile fun c => (Text.digitValue? 16 c).isSome, by simp, ?_⟩
      rw [size_cons, size_cons, hdigits, hu, hbrace]
      omega
    · exact ⟨['u', '\x7b'], cs, rfl, by decide⟩
  · rename_i cs _
    have hdigits := (narrow_takeWhile_digit 16 (cs.take 4)).size
    refine ⟨'u' :: (cs.take 4).takeWhile fun c => (Text.digitValue? 16 c).isSome,
      (cs.take 4).dropWhile (fun c => (Text.digitValue? 16 c).isSome) ++ cs.drop 4, ?_, ?_⟩
    · rw [List.cons_append, ← List.append_assoc, List.takeWhile_append_dropWhile,
        List.take_append_drop]
    · rw [size_cons, hdigits, hu]
  · exact ⟨[], cs, rfl, rfl⟩

/-- An escape in a word goes wrong between two characters. -/
theorem between_of_wordEscape {cs : List Char} {n : Nat} (h : wordEscape cs = .error n) :
    Between ('\\' :: cs) n := by
  have hzero : Between ('\\' :: cs) 0 := (from_zero _).between
  -- an escape that is no good is pointed at behind its last digit
  have hbad : Between ('\\' :: cs) (1 + badEscapeLength cs) := by
    obtain ⟨front, back, hcs, hsize⟩ := between_badEscapeLength cs
    refine ⟨'\\' :: front, back, by rw [hcs]; rfl, ?_⟩
    rw [size_cons, hsize]
    rfl
  rw [wordEscape.eq_def] at h
  split at h
  · split at h
    · split at h <;> cases h
      exact hzero
    · cases h
      exact hbad
  · cases h
    exact hzero

/-- What is known of a reader that may fail: it passes something, or reports an offset between two
characters. -/
def ReadsOrFails {α : Type} (cs : List Char) (pos : Nat) :
    Except Nat (α × Nat × List Char) → Prop
  | .ok (_, stop, rest) => Reads cs pos rest stop
  | .error offset => ∃ rest, Reads cs pos rest offset

/-- What is read behind some characters is read from them on. -/
theorem ReadsOrFails.behind {α : Type} {cs : List Char} {pos : Nat}
    {r : Except Nat (α × Nat × List Char)} (xs : List Char)
    (h : ReadsOrFails cs (pos + size xs) r) : ReadsOrFails (xs ++ cs) pos r := by
  have hfront := reads_append xs cs pos
  cases r with
  | ok found => exact hfront.trans h
  | error offset =>
    obtain ⟨rest, hrest⟩ := h
    exact ⟨rest, hfront.trans hrest⟩

/-- A word with escapes is passed, or an offset inside of it is reported. -/
theorem reads_wordFrom (cs : List Char) (pos skip : Nat) (acc : List Char) :
    ReadsOrFails cs pos (wordFrom cs pos skip acc) := by
  -- an escape reads its backslash here, and its digits are skipped in the rounds behind
  fun_induction wordFrom cs pos skip acc with
  | case1 pos skip acc => exact .refl [] pos
  | case2 c cs pos skip acc ih => exact .behind [c] ih
  | case3 c cs pos acc h d len hescape hpart ih =>
    obtain rfl : c = '\\' := by simpa using h
    exact .behind ['\\'] ih
  | case4 c cs pos acc h d len hescape hpart => exact ⟨_, .refl _ pos⟩
  | case5 c cs pos acc h length hescape =>
    obtain rfl : c = '\\' := by simpa using h
    exact (Reads.refl _ pos).between_add (between_of_wordEscape hescape)
  | case6 c cs pos acc h hpart ih => exact .behind [c] ih
  | case7 c cs pos acc h hpart => exact .refl _ pos

/-! ## Strings -/

/-- What is known of a string literal from its inside on. -/
def StringReads (cs : List Char) (pos : Nat) : StringEnd → Prop
  | .closed _ stop rest => Reads cs pos rest stop
  | .badEscape offset => ∃ rest, Reads cs pos rest offset

/-- The same for the end of a string. -/
theorem StringReads.behind {cs : List Char} {pos : Nat} {r : StringEnd} (xs : List Char)
    (h : StringReads cs (pos + size xs) r) : StringReads (xs ++ cs) pos r := by
  have hfront := reads_append xs cs pos
  cases r with
  | closed value stop rest => exact hfront.trans h
  | badEscape offset =>
    obtain ⟨rest, hrest⟩ := h
    exact ⟨rest, hfront.trans hrest⟩

/-- A string literal is passed, or the place of a bad escape is reported. -/
theorem reads_readString {mark : Char} (hmark : mark.utf8Size = 1) (cs : List Char) (pos skip : Nat)
    (codes : List Nat) : StringReads cs pos (readString mark cs pos skip codes) := by
  -- an escape reads its backslash and leaves the rest of it to be skipped
  fun_induction readString mark cs pos skip codes with
  | case1 pos skip codes => exact .refl [] pos
  | case2 c cs pos skip codes ih => exact .behind [c] ih
  | case3 c cs pos codes h =>
    obtain rfl : c = mark := by simpa using h
    exact hmark ▸ reads_cons c cs pos
  | case4 c cs pos codes _ h n len hescape ih =>
    obtain rfl : c = '\\' := by simpa using h
    exact .behind ['\\'] ih
  | case5 c cs pos codes _ h len hescape ih =>
    obtain rfl : c = '\\' := by simpa using h
    exact .behind ['\\'] ih
  | case6 c cs pos codes _ h hescape => exact ⟨_, .refl _ pos⟩
  | case7 c cs pos codes => exact .refl _ pos
  | case8 c cs pos codes _ _ _ ih => exact .behind [c] ih

/-! ## Numbers -/

/-- Some narrow characters are passed. -/
def Passes (cs : List Char) (length : Nat) (rest : List Char) : Prop :=
  ∃ xs, cs = xs ++ rest ∧ Narrow xs ∧ xs.length = length

section Passes

variable {cs ds rest : List Char} {m n : Nat}

/-- To pass nothing. -/
theorem Passes.refl (cs : List Char) : Passes cs 0 cs :=
  ⟨[], rfl, by simp [Narrow], rfl⟩

/-- To pass some characters and then more. -/
theorem Passes.trans (h : Passes cs m ds) (h' : Passes ds n rest) : Passes cs (m + n) rest := by
  obtain ⟨xs, rfl, hxs, rfl⟩ := h
  obtain ⟨ys, rfl, hys, rfl⟩ := h'
  exact ⟨xs ++ ys, (List.append_assoc _ _ _).symm, hxs.append hys, List.length_append⟩

/-- To pass a narrow character first. -/
theorem Passes.cons {c : Char} (hc : c.utf8Size = 1) (h : Passes cs n rest) :
    Passes (c :: cs) (n + 1) rest := by
  rw [Nat.add_comm]
  exact Passes.trans ⟨[c], rfl, by simpa [Narrow] using hc, rfl⟩ h

/-- What is passed is read, one byte for each character. -/
theorem Passes.reads (h : Passes cs n rest) (pos : Nat) : Reads cs pos rest (pos + n) := by
  obtain ⟨xs, rfl, hxs, rfl⟩ := h
  exact ⟨xs, rfl, by rw [hxs.size]⟩

/-- What is left behind the characters that are passed. -/
theorem Passes.drop (h : Passes cs n rest) : cs.drop n = rest := by
  obtain ⟨xs, rfl, -, rfl⟩ := h
  exact List.drop_left

end Passes

/-- What is known of a number: it is passed, or what is well formed of it. -/
def NumberReads (cs : List Char) : NumberEnd → Prop
  | .number _ _ length rest => Passes cs length rest
  | .bad length => ∃ rest, Passes cs length rest

/-- A run of digits is passed, separators included. -/
theorem passes_digitRun {base : Nat} {cs ds rest : List Char} (h : digitRun base cs = (ds, rest)) :
    Passes cs ds.length rest := by
  rw [digitRun, List.span_eq_takeWhile_dropWhile, Prod.mk.injEq] at h
  obtain ⟨rfl, rfl⟩ := h
  refine ⟨_, List.takeWhile_append_dropWhile.symm, ?_, rfl⟩
  intro c hc
  have hdigit := List.all_eq_true.mp List.all_takeWhile c hc
  rcases Bool.or_eq_true_iff.mp hdigit with h | h
  · rw [eq_of_beq h]
    decide
  · exact utf8Size_digit h

/-- A number with a radix ends between two characters. -/
theorem reads_radixNumber (base : Nat) (mark : List Char) {zero letter : Char}
    (hzero : zero.utf8Size = 1) (hletter : letter.utf8Size = 1) (cs : List Char) :
    NumberReads (zero :: letter :: cs) (radixNumber base mark cs) := by
  rw [radixNumber]
  split
  rename_i ds rest hrun
  have hpasses := ((passes_digitRun hrun).cons hletter).cons hzero
  split
  · exact ⟨cs, ((Passes.refl cs).cons hletter).cons hzero⟩
  · split
    · exact hpasses.trans ((Passes.refl _).cons (by decide))
    · exact hpasses

/-- A number with an exponent ends between two characters. -/
theorem reads_exponentNumber {before cs ds : List Char} {mark : Char} (hmark : mark.utf8Size = 1)
    (h : Passes cs before.length (mark :: ds)) :
    NumberReads cs (exponentNumber before ds) := by
  have hletter : Passes cs (before.length + 1) ds := h.trans ((Passes.refl ds).cons hmark)
  rw [exponentNumber.eq_def]
  split
  rename_i sign written behind hsigned
  have hsign : Passes ds written behind := by
    split at hsigned <;> cases hsigned
    · exact (Passes.refl _).cons (by decide)
    · exact (Passes.refl _).cons (by decide)
    · exact Passes.refl _
  split
  rename_i digits rest hrun
  -- the letter, its sign if there is one, and the digits
  have hpasses := (hletter.trans hsign).trans (passes_digitRun hrun)
  dsimp only
  split
  · exact ⟨_, hpasses⟩
  · exact hpasses

/-- Any number ends between two characters. -/
theorem reads_readNumber (cs : List Char) : NumberReads cs (readNumber cs) := by
  rw [readNumber.eq_def]
  -- a radix, a fraction in front, or digits with what follows them
  split
  · exact reads_radixNumber 16 _ (by decide) (by decide) _
  · exact reads_radixNumber 16 _ (by decide) (by decide) _
  · exact reads_radixNumber 8 _ (by decide) (by decide) _
  · exact reads_radixNumber 8 _ (by decide) (by decide) _
  · exact reads_radixNumber 2 _ (by decide) (by decide) _
  · exact reads_radixNumber 2 _ (by decide) (by decide) _
  · split
    rename_i whole rest hwhole
    split
    rename_i fraction behind hfraction
    have hpasses : Passes rest fraction.length behind := by
      split at hfraction
      · split at hfraction
        rename_i hrun
        cases hfraction
        exact (passes_digitRun hrun).cons (by decide)
      · cases hfraction
        exact Passes.refl _
    have hdigits : Passes cs (whole ++ fraction).length behind := by
      rw [List.length_append]
      exact (passes_digitRun hwhole).trans hpasses
    dsimp only
    split
    · exact reads_exponentNumber (by decide) hdigits
    · exact reads_exponentNumber (by decide) hdigits
    · split
      · rename_i hempty
        rw [List.isEmpty_iff.mp hempty, List.append_nil] at hdigits
        exact hdigits.trans ((Passes.refl _).cons (by decide))
      · exact hdigits
    · exact hdigits

/-! ## Tokens -/

/-- What is known of a token: it is passed, and an error that it stands for is reported between two
characters. -/
structure TokenReads (cs : List Char) (pos : Nat) (r : Token × Nat × List Char) : Prop where
  reads : Reads cs pos r.2.2 r.2.1
  error : ∀ offset, r.1 = .error offset → ∃ rest, Reads cs pos rest offset

/-- A token that is no error ends where its text does. -/
theorem tokenReads {cs : List Char} {pos : Nat} {t : Token} {stop : Nat} {rest : List Char}
    (h : Reads cs pos rest stop) (ht : ∀ offset, t ≠ .error offset) :
    TokenReads cs pos (t, stop, rest) where
  reads := h
  error offset he := absurd he (ht offset)

/-- The signs of an operator. -/
theorem passes_take {cs : List Char} {n : Nat} (hn : n ≤ cs.length)
    (hall : (cs.take n).all (fun c => c.utf8Size == 1) = true) : Passes cs n (cs.drop n) := by
  refine ⟨cs.take n, (List.take_append_drop n cs).symm, ?_, by simp [hn]⟩
  intro c hc
  exact eq_of_beq (List.all_eq_true.mp hall c hc)

/-- An operator takes up one byte for each of its signs. -/
theorem passes_punctuation {cs : List Char} {t : Token} {n : Nat}
    (h : punctuation? cs = some (t, n)) :
    (∀ offset, t ≠ .error offset) ∧ Passes cs n (cs.drop n) := by
  unfold punctuation? at h
  split at h
  -- the dot of an optional chain depends on the digit behind it
  case h_18 =>
    split at h <;> cases h
    · exact ⟨nofun, passes_take (by simp) rfl⟩
    · exact ⟨nofun, passes_take (by simp) rfl⟩
  case h_62 => cases h
  all_goals
    cases h
    exact ⟨nofun, passes_take (by simp) rfl⟩

/-- The token of a number ends between two characters. -/
theorem reads_numberToken (cs : List Char) (pos : Nat) :
    TokenReads cs pos (numberToken cs pos) := by
  have hnumber := reads_readNumber cs
  rw [numberToken]
  cases hread : readNumber cs with
  | bad length =>
    rw [hread] at hnumber
    obtain ⟨rest, hpasses⟩ := hnumber
    have hreads := hpasses.reads pos
    rw [← hpasses.drop] at hreads
    exact ⟨hreads, fun offset h => ⟨_, by cases h; exact hreads⟩⟩
  | number raw big length rest =>
    rw [hread] at hnumber
    have hreads := Passes.reads hnumber pos
    -- a letter behind the number is an error, whichever number it is
    have hletter : TokenReads cs pos (.error (pos + length), pos + length, rest) :=
      ⟨hreads, fun offset h => ⟨_, by cases h; exact hreads⟩⟩
    have hbig : TokenReads cs pos (.bigInt (String.ofList raw), pos + length, rest) :=
      tokenReads hreads nofun
    have hplain : TokenReads cs pos (.num (String.ofList raw), pos + length, rest) :=
      tokenReads hreads nofun
    cases rest with
    | nil => cases big <;> assumption
    | cons c rest =>
      dsimp only
      split
      · exact hletter
      · cases big <;> assumption

/-- A word, which may hold escapes; where one goes wrong, something else is passed. -/
theorem tokenReads_word {cs : List Char} {pos stop : Nat} {rest : List Char}
    (h : Reads cs pos rest stop) : TokenReads cs pos
      (match wordFrom cs pos 0 [] with
        | .ok (name, stop, after) => (.word (String.ofList name), stop, after)
        | .error offset => (.error offset, stop, rest)) := by
  have hword := reads_wordFrom cs pos 0 []
  cases hread : wordFrom cs pos 0 [] with
  | ok found =>
    rw [hread] at hword
    exact tokenReads hword (by simp)
  | error offset =>
    rw [hread] at hword
    exact ⟨h, fun offset h => by cases h; exact hword⟩

/-- A token is passed, and the error that it may stand for is reported inside of it. -/
theorem reads_scanToken (cs : List Char) (pos : Nat) : TokenReads cs pos (scanToken cs pos) := by
  cases cs with
  | nil => exact tokenReads (.refl [] pos) (by simp)
  | cons c rest =>
    have hname := reads_dropWhile Text.isIdPart (c :: rest) pos
    rw [scanToken]
    split
    · dsimp only
      split
      · exact tokenReads_word hname
      · exact tokenReads hname (by simp)
    split
    · -- a quote takes up one byte
      rename_i hquote
      have hmark : c.utf8Size = 1 := by
        rcases Bool.or_eq_true_iff.mp hquote with h | h <;> rw [eq_of_beq h] <;> decide
      have hstring := reads_readString hmark rest (pos + 1) 0 []
      have hfront : Reads (c :: rest) pos rest (pos + 1) := hmark ▸ reads_cons c rest pos
      cases hread : readString c rest (pos + 1) 0 [] with
      | closed value stop after =>
        rw [hread] at hstring
        exact tokenReads (hfront.trans hstring) (by simp)
      | badEscape offset =>
        rw [hread] at hstring
        obtain ⟨back, hback⟩ := hstring
        exact ⟨hfront, fun offset h => ⟨back, by cases h; exact hfront.trans hback⟩⟩
    split
    · exact reads_numberToken (c :: rest) pos
    split
    · rename_i hescape
      rw [eq_of_beq hescape]
      exact tokenReads_word (reads_cons '\\' rest pos)
    · cases hread : punctuation? (c :: rest) with
      | none =>
        exact ⟨reads_cons c rest pos, fun offset h => ⟨_, by cases h; exact .refl _ pos⟩⟩
      | some found =>
        obtain ⟨t, n⟩ := found
        obtain ⟨hno, hpasses⟩ := passes_punctuation hread
        exact tokenReads (hpasses.reads pos) hno

/-! ## The scanner -/

/-- What is known of the next token: where it stands, and what is left behind it. An error at its
front is a comment that is not closed. -/
structure Scanned (cs : List Char) (pos : Nat) (r : Lexeme × List Char × List Char) : Prop where
  text : (∃ offset, r.1.token = .error offset) ∧ r.2.1 = [] ∧ (∃ x, Reads cs pos x r.1.span.start) ∨
    Reads cs pos r.2.1 r.1.span.start
  rest : Reads cs pos r.2.2 r.1.span.stop
  order : r.1.span.start ≤ r.1.span.stop
  error : ∀ offset, r.1.token = .error offset → ∃ x, Reads cs pos x offset

/-- A scan ends between two characters, and its span starts between two. -/
theorem scanned_scan (cs : List Char) (pos : Nat) : Scanned cs pos (scan cs pos) := by
  have hgap := gapRead_skipGap .blank cs pos (pos == 0)
  rw [scan]
  generalize skipGap .blank cs pos (pos == 0) = gap at hgap ⊢
  dsimp only
  -- a comment that is not closed takes up the rest of the text
  cases hopen : gap.unclosed with
  | some start =>
    rcases hgap.opened start hopen with h | ⟨hbetween, hle, hle'⟩
    · cases h
    · obtain ⟨x, hx⟩ := (Reads.refl cs pos).between_add hbetween
      rw [Nat.add_sub_cancel' hle] at hx
      have hend : gap.rest = [] := hgap.closed (by rw [hopen]; rfl)
      refine ⟨.inl ⟨⟨start, rfl⟩, rfl, x, hx⟩, hend ▸ hgap.reads, hle', ?_⟩
      intro offset he
      cases he
      exact ⟨x, hx⟩
  | none =>
    have htoken := reads_scanToken gap.rest gap.pos
    generalize scanToken gap.rest gap.pos = r at htoken ⊢
    obtain ⟨t, stop, rest⟩ := r
    refine ⟨.inr hgap.reads, hgap.reads.trans htoken.reads, htoken.reads.le, ?_⟩
    intro offset he
    obtain ⟨x, hx⟩ := htoken.error offset he
    exact ⟨x, hgap.reads.trans hx⟩

/-! ## Templates and regular expressions -/

/-- What is known of a chunk of a template: where it stops, and where a bad escape in it stands. -/
structure ChunkReads (cs : List Char) (pos : Nat) (bad : Option Nat) (r : ChunkRead) : Prop where
  reads : Reads cs pos (r.ending.written ++ r.rest) r.stop
  badAt : ∀ offset, r.badAt = some offset → bad = some offset ∨ ∃ x, Reads cs pos x offset

/-- What is read of a chunk behind some of its characters. -/
theorem ChunkReads.behind {cs : List Char} {pos : Nat} {bad bad' : Option Nat} {r : ChunkRead}
    (xs : List Char) (h : ChunkReads cs (pos + size xs) bad' r)
    (hbad : bad' = bad ∨ bad' = bad.or (some pos)) : ChunkReads (xs ++ cs) pos bad r where
  reads := (reads_append xs cs pos).trans h.reads
  badAt := by
    intro offset hoffset
    rcases h.badAt offset hoffset with hin | ⟨x, hx⟩
    · rcases hbad with rfl | rfl
      · exact Or.inl hin
      · -- the first bad escape is the one that counts, so a later one changes nothing
        cases bad with
        | none =>
          cases hin
          exact Or.inr ⟨_, .refl _ pos⟩
        | some first => exact Or.inl hin
    · exact Or.inr ⟨x, (reads_append xs cs pos).trans hx⟩

/-- A chunk is passed up to what ends it. -/
theorem reads_readChunk (cs : List Char) (pos skip : Nat) (raw : List Char) (codes : List Nat)
    (bad : Option Nat) : ChunkReads cs pos bad (readChunk cs pos skip raw codes bad) := by
  fun_induction readChunk cs pos skip raw codes bad with
  | case1 pos skip raw codes bad => exact ⟨.refl [] pos, fun _ h => Or.inl h⟩
  | case2 c cs pos skip raw codes bad ih => exact .behind [c] ih (Or.inl rfl)
  | case3 c cs pos raw codes bad h =>
    obtain rfl : c = '\x60' := by simpa using h
    exact ⟨.refl _ pos, fun _ h => Or.inl h⟩
  | case4 c cs pos raw codes bad _ h =>
    simp only [Bool.and_eq_true, beq_iff_eq, List.head?_eq_some_iff] at h
    obtain ⟨rfl, rest, rfl⟩ := h
    exact ⟨.refl _ pos, fun _ h => Or.inl h⟩
  -- an escape, read well or badly, leaves its length to be skipped
  | case5 c cs pos raw codes bad _ _ h n len hescape ih =>
    obtain rfl : c = '\\' := by simpa using h
    exact .behind ['\\'] ih (Or.inl rfl)
  | case6 c cs pos raw codes bad _ _ h len hescape ih =>
    obtain rfl : c = '\\' := by simpa using h
    exact .behind ['\\'] ih (Or.inl rfl)
  | case7 c cs pos raw codes bad _ _ h hescape ih =>
    obtain rfl : c = '\\' := by simpa using h
    exact .behind ['\\'] ih (Or.inr rfl)
  | case8 c cs pos raw codes bad _ _ _ h skip ih =>
    obtain rfl : c = '\r' := by simpa using h
    exact .behind ['\r'] ih (Or.inl rfl)
  | case9 c cs pos raw codes bad _ _ _ _ ih => exact .behind [c] ih (Or.inl rfl)

/-- A regular expression is passed with its closing slash. -/
theorem regexBody_eq_some {cs : List Char} {escaped inClass : Bool} {n len : Nat}
    {rest : List Char} (h : regexBody cs escaped inClass n = some (len, rest)) :
    ∃ xs, cs = xs ++ rest ∧ len = n + xs.length := by
  -- every round but the last passes one character
  have hbehind (c : Char) {cs : List Char} {n : Nat}
      (ih : ∃ xs, cs = xs ++ rest ∧ len = n + 1 + xs.length) :
      ∃ xs, c :: cs = xs ++ rest ∧ len = n + xs.length := by
    obtain ⟨xs, rfl, rfl⟩ := ih
    refine ⟨c :: xs, rfl, ?_⟩
    rw [List.length_cons]
    omega
  fun_induction regexBody cs escaped inClass n with
  | case1 => cases h
  | case2 => cases h
  | case3 c cs inClass n _ ih => exact hbehind c (ih h)
  | case4 c cs escaped inClass n _ _ _ ih => exact hbehind c (ih h)
  | case5 c cs escaped inClass n _ _ _ _ ih => exact hbehind c (ih h)
  | case6 c cs escaped inClass n _ _ _ _ _ ih => exact hbehind c (ih h)
  | case7 c cs escaped inClass n =>
    cases h
    exact ⟨[c], rfl, rfl⟩
  | case8 c cs escaped inClass n _ _ _ _ _ _ ih => exact hbehind c (ih h)

end Script

end TextHarvest
