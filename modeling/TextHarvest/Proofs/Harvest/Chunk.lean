import TextHarvest.Harvest.Chunk
import TextHarvest.Proofs.Script.Chunk
import TextHarvest.Proofs.Text.Blank

/-!
# Trimmed chunks

A chunk of a template whose value has blanks at its ends is cut in three: the blanks are left where
they are, and what stands between them is replaced. The cut is made by counting blanks in the value
and taking off as many written ones. That keeps the value of the chunk unless a carriage return and
a line feed were counted twice, or the line break that was taken off at the end belongs to a line
continuation.

Main results:

* `exists_edges` — what is cut off at the ends of a chunk.
* `exists_reading` — what the parts of a chunk come to when it is read.
* `exists_isCut` — the parts of a chunk are chunks, and when they have its value.
-/

namespace TextHarvest.Harvest

open Script

/-! ## Written blanks -/

/-- The blank that an escape stands for. -/
def escapedBlank (c : Char) : Char :=
  if c == 'n' then '\n' else if c == 't' then '\t' else if c == 'r' then '\r'
  else if c == 'v' then '\x0b' else '\x0c'

/-- A carriage return in a template counts as a line feed. -/
def lineEnd (c : Char) : Char :=
  if c == '\r' then '\n' else c

/-- A run of `n` written blanks with its value. A carriage return and a line feed are two written
blanks with the value of one. -/
inductive BlankRun : Nat → List Char → List Char → Prop
  | nil : BlankRun 0 [] []
  | escape {n : Nat} {c : Char} {cs bs : List Char} (hc : c ∈ blankEscapes)
      (hrun : BlankRun n cs bs) : BlankRun (n + 1) ('\\' :: c :: cs) (escapedBlank c :: bs)
  | pair {n : Nat} {cs bs : List Char} (hrun : BlankRun n cs bs) :
      BlankRun (n + 2) ('\r' :: '\n' :: cs) ('\n' :: bs)
  | blank {n : Nat} {c : Char} {cs bs : List Char} (hc : Chars.isBlank c = true)
      (halone : c = '\r' → cs.head? ≠ some '\n') (hrun : BlankRun n cs bs) :
      BlankRun (n + 1) (c :: cs) (lineEnd c :: bs)

namespace BlankRun

variable {m n : Nat} {cs ds bs es tail : List Char}

/-- One more blank in front. -/
theorem cons {c : Char} (hc : Chars.isBlank c = true) (h : BlankRun n cs bs) :
    ∃ bs', BlankRun (n + 1) (c :: cs) bs' := by
  by_cases halone : c = '\r' → cs.head? ≠ some '\n'
  · exact ⟨_, .blank hc halone h⟩
  · rw [Classical.not_imp, not_not, List.head?_eq_some_iff] at halone
    obtain ⟨rfl, ds, rfl⟩ := halone
    cases h with
    | blank hfeed _ hrun => exact ⟨_, .pair hrun⟩

/-- Runs of blanks may be joined. -/
theorem append (h : BlankRun m cs bs) (h' : BlankRun n ds es) :
    ∃ fs, BlankRun (m + n) (cs ++ ds) fs := by
  -- over the run in front, which shifts the one behind by what it takes
  induction h with
  | nil => exact ⟨es, by rwa [Nat.zero_add]⟩
  | escape hc hrun ih =>
    obtain ⟨fs, hfs⟩ := ih
    rw [Nat.add_right_comm]
    exact ⟨_, .escape hc hfs⟩
  | pair hrun ih =>
    obtain ⟨fs, hfs⟩ := ih
    rw [Nat.add_right_comm]
    exact ⟨_, .pair hfs⟩
  | blank hc _ hrun ih =>
    obtain ⟨fs, hfs⟩ := ih
    rw [Nat.add_right_comm]
    exact hfs.cons hc

/-- A run has at most as many characters as signs in the source. -/
theorem length_le (h : BlankRun n cs bs) : bs.length ≤ n := by
  induction h with
  | nil => exact Nat.le_refl 0
  | escape hc hrun ih => exact Nat.succ_le_succ ih
  | pair hrun ih => exact Nat.le_succ_of_le (Nat.succ_le_succ ih)
  | blank hc halone hrun ih => exact Nat.succ_le_succ ih

/-- A run has as many blanks for its value as are written, unless two of them are one line break. -/
theorem length_eq_iff (h : BlankRun n cs bs) : bs.length = n ↔ ¬['\r', '\n'] <:+: cs := by
  induction h with
  | nil => simp
  | @escape n c cs bs hc hrun ih =>
    -- neither the backslash nor a letter is a carriage return
    have hpair : ¬['\r', '\n'] <+: c :: cs := by
      rintro ⟨rest, hrest⟩
      obtain ⟨rfl, -⟩ := List.cons.inj hrest
      exact absurd hc (by decide)
    rw [List.length_cons, Nat.add_right_cancel_iff, ih, List.infix_cons_iff, List.infix_cons_iff]
    simp [hpair]
  | @pair n cs bs hrun ih =>
    have hle := hrun.length_le
    have hpair : ['\r', '\n'] <:+: '\r' :: '\n' :: cs := ⟨[], cs, rfl⟩
    simp only [hpair, not_true_eq_false, iff_false, List.length_cons]
    omega
  | @blank n c cs bs hc halone hrun ih =>
    have hpair : ¬['\r', '\n'] <+: c :: cs := by
      rintro ⟨rest, hrest⟩
      obtain ⟨rfl, rfl⟩ := List.cons.inj hrest
      exact halone rfl rfl
    rw [List.length_cons, Nat.add_right_cancel_iff, ih, List.infix_cons_iff]
    simp [hpair]

end BlankRun

/-! ## Signs of written blanks -/

/-- An escaped blank is one sign of two characters. -/
theorem nextSign?_escape {c : Char} (hc : c ∈ blankEscapes) (rest : List Char) :
    nextSign? ('\\' :: c :: rest) = some (some (escapedBlank c).toNat, 2) := by
  simp only [blankEscapes, List.mem_cons, List.not_mem_nil, or_false] at hc
  rcases hc with rfl | rfl | rfl | rfl | rfl
  all_goals rfl

theorem ne_of_isBlank {c d : Char} (hc : Chars.isBlank c = true) (hd : Chars.isBlank d = false) :
    c ≠ d := by
  rintro rfl
  rw [hc] at hd
  cases hd

/-- A blank is one sign, unless it is half of a line end. -/
theorem nextSign?_blank {c : Char} (hc : Chars.isBlank c = true) {rest : List Char}
    (halone : c = '\r' → rest.head? ≠ some '\n') :
    nextSign? (c :: rest) = some (some (lineEnd c).toNat, 1) := by
  have htick : c ≠ '\x60' := ne_of_isBlank hc rfl
  have hdollar : c ≠ '$' := ne_of_isBlank hc rfl
  have hslash : c ≠ '\\' := ne_of_isBlank hc rfl
  by_cases hreturn : c = '\r'
  · simp [nextSign?, lineEnd, hreturn, halone hreturn]
  · simp [nextSign?, lineEnd, hreturn, htick, hdollar, hslash]

/-- A backslash in front of a line break takes it out of the value. -/
theorem nextSign?_continuation {c : Char} (hc : isLineBreak c = true) {rest : List Char}
    (halone : c = '\r' → rest.head? ≠ some '\n') :
    nextSign? ('\\' :: c :: rest) = some (none, 2) := by
  simp only [isLineBreak, Bool.or_eq_true, beq_iff_eq] at hc
  rcases hc with ((rfl | rfl) | rfl) | rfl
  · rfl
  · have hescape : readEscape true ('\r' :: rest) =
        .code none (if rest.head? == some '\n' then 2 else 1) := rfl
    simp [nextSign?, hescape, halone rfl]
  · rfl
  · rfl

/-- A backslash in front of any other blank is left out. -/
theorem nextSign?_escaped {c : Char} (hc : Chars.isBlank c = true) (hbreak : isLineBreak c = false)
    (rest : List Char) : nextSign? ('\\' :: c :: rest) = some (some c.toNat, 2) := by
  have hdigit : Text.digitValue? 8 c = none := by
    have hc' := hc
    simp only [Chars.isBlank, Bool.or_eq_true, Bool.and_eq_true, decide_eq_true_eq,
      beq_iff_eq] at hc'
    rw [Text.digitValue?]
    grind
  have hescape : readEscape true (c :: rest) = .code (some c.toNat) 1 := by
    have hreturn : c ≠ '\r' := by
      rintro rfl
      cases hbreak
    -- no letter of an escape is a blank, so the blank stands for itself
    have hletters : ∀ d, Chars.isBlank d = false → (c == d) = false :=
      fun d hd => beq_false_of_ne (ne_of_isBlank hc hd)
    rw [readEscape.eq_def]
    dsimp only
    rw [hletters 'n' rfl, hletters 'r' rfl, hletters 't' rfl, hletters 'b' rfl,
      hletters 'v' rfl, hletters 'f' rfl, hletters 'x' rfl, hletters 'u' rfl, hbreak, hdigit]
    simp [hreturn]
  simp [nextSign?, hescape]

variable {n : Nat} {cs bs tail : List Char}

/-- What stands alone in a run of blanks does so in front of another text. -/
theorem alone_append {c : Char} (halone : c = '\r' → cs.head? ≠ some '\n')
    (htail : tail.head? ≠ some '\n') : c = '\r' → (cs ++ tail).head? ≠ some '\n' := by
  intro hreturn
  cases cs with
  | nil => exact htail
  | cons d cs => exact halone hreturn

/-- A run of blanks is read as its value. -/
theorem BlankRun.signs (h : BlankRun n cs bs) (htail : tail.head? ≠ some '\n') :
    Signs tail cs (bs.map Char.toNat) := by
  induction h with
  | nil => exact .nil
  | @escape n c cs bs hc hrun ih => exact .cons ['\\', c] (nextSign?_escape hc _) ih
  | pair hrun ih => exact .cons ['\r', '\n'] rfl ih
  | @blank n c cs bs hc halone hrun ih =>
    have halone' := alone_append halone htail
    exact .cons [c] (nextSign?_blank hc halone') ih

/-! ## What is cut off -/

/-- What is dropped in front is an escaped blank or a written one. -/
theorem dropBlank?_eq_some {cs rest : List Char} (h : dropBlank? cs = some rest) :
    (∃ c ∈ blankEscapes, cs = '\\' :: c :: rest) ∨
      ∃ c, Chars.isBlank c = true ∧ cs = c :: rest := by
  rw [dropBlank?.eq_def] at h
  split at h
  · cases h
  · split at h
    · rename_i hc
      obtain rfl := Option.some.inj h
      exact Or.inl ⟨_, List.contains_iff_mem.mp hc, rfl⟩
    · cases h
  · split at h
    · rename_i hc
      obtain rfl := Option.some.inj h
      exact Or.inr ⟨_, hc, rfl⟩
    · cases h

theorem dropBlank?_of_isBlank {c : Char} (hc : Chars.isBlank c = true) (cs : List Char) :
    dropBlank? (c :: cs) = some cs := by
  have hslash : c ≠ '\\' := ne_of_isBlank hc rfl
  rw [dropBlank?.eq_def]
  simp [hslash, hc]

/-- What is dropped at the end is a written blank or one whose backslash escapes it. -/
theorem dropBlankEnd?_eq_some {cs rest : List Char} (h : dropBlankEnd? cs = some rest) :
    (∃ c ∈ blankEscapes, cs = c :: '\\' :: rest ∧ endsOpen rest.reverse = false) ∨
      ∃ c, Chars.isBlank c = true ∧ cs = c :: rest := by
  rw [dropBlankEnd?.eq_def] at h
  split at h
  · cases h
  · rename_i c cs
    split at h
    · rename_i hc
      obtain rfl := Option.some.inj h
      exact Or.inr ⟨c, hc, rfl⟩
    · split at h
      · rename_i hletter
        obtain ⟨hc, hodd⟩ := Bool.and_eq_true_iff.mp hletter
        -- the characters come from the end, so the backslash is the next one
        have hopen : endsOpen cs.reverse = true := by
          rwa [endsOpen, List.reverse_reverse]
        obtain rfl := Option.some.inj h
        cases cs with
        | nil => cases hopen
        | cons d cs =>
          rw [List.reverse_cons, endsOpen_append_singleton, Bool.and_eq_true, beq_iff_eq,
            Bool.not_eq_true'] at hopen
          obtain ⟨rfl, hclosed⟩ := hopen
          exact Or.inl ⟨c, List.contains_iff_mem.mp hc, rfl, hclosed⟩
      · cases h

/-- What is taken off at the front is a run of blanks. -/
theorem exists_front_of_iterate? {n : Nat} {cs rest : List Char}
    (h : iterate? dropBlank? n cs = some rest) :
    ∃ front bs, cs = front ++ rest ∧ BlankRun n front bs := by
  induction n generalizing cs with
  | zero => exact ⟨[], [], Option.some.inj h, .nil⟩
  | succ n ih =>
    obtain ⟨mid, hmid, hrest⟩ := Option.bind_eq_some_iff.mp h
    obtain ⟨front, bs, rfl, hrun⟩ := ih hrest
    rcases dropBlank?_eq_some hmid with ⟨c, hc, rfl⟩ | ⟨c, hc, rfl⟩
    · exact ⟨'\\' :: c :: front, _, rfl, .escape hc hrun⟩
    · obtain ⟨bs', hrun'⟩ := hrun.cons hc
      exact ⟨c :: front, bs', rfl, hrun'⟩

/-- What is taken off at the end is a run of blanks, and an escape among them is one in the
chunk. -/
theorem exists_back_of_iterate? {n : Nat} {cs rest : List Char}
    (h : iterate? dropBlankEnd? n cs = some rest) :
    ∃ back bs, cs.reverse = rest.reverse ++ back ∧ BlankRun n back bs ∧
      (back.head? = some '\\' → endsOpen rest.reverse = false) := by
  induction n generalizing cs with
  | zero =>
    obtain rfl := Option.some.inj h
    exact ⟨[], [], (List.append_nil _).symm, .nil, fun hhead => nomatch hhead⟩
  | succ n ih =>
    obtain ⟨mid, hmid, hrest⟩ := Option.bind_eq_some_iff.mp h
    obtain ⟨back, bs, hback, hrun, hclosed⟩ := ih hrest
    -- the blank at the very end, and how it starts when it is the only one
    obtain ⟨unit, bs', hcs, hunit, hclosed'⟩ : ∃ unit bs', cs.reverse = mid.reverse ++ unit ∧
        BlankRun 1 unit bs' ∧ (unit.head? = some '\\' → endsOpen mid.reverse = false) := by
      rcases dropBlankEnd?_eq_some hmid with ⟨c, hc, rfl, hclosed⟩ | ⟨c, hc, rfl⟩
      · exact ⟨['\\', c], _, by simp, .escape hc .nil, fun _ => hclosed⟩
      · refine ⟨[c], _, by simp, .blank hc (fun _ hhead => nomatch hhead) .nil, ?_⟩
        rintro hhead
        obtain rfl := Option.some.inj hhead
        cases hc
    obtain ⟨fs, hall⟩ := hrun.append hunit
    refine ⟨back ++ unit, fs, ?_, hall, ?_⟩
    · rw [hcs, hback, List.append_assoc]
    · cases back with
      | nil =>
        rw [List.append_nil] at hback
        rw [List.nil_append, ← hback]
        exact hclosed'
      | cons d back => exact hclosed

/-- The parts in which a chunk is cut: the blanks at its ends, with their values, and what stands
between them. -/
structure Edges (raw value : List Char) (span : Span) (front inner back f b : List Char) :
    Prop where
  written : raw = front ++ (inner ++ back)
  place : span = ⟨Chars.size front, Chars.size front + Chars.size inner⟩
  front_run : BlankRun (value.takeWhile Chars.isBlank).length front f
  back_run : BlankRun (Chars.blankEnd value).length back b
  ne_nil : inner ≠ []
  starts : ∀ c, inner.head? = some c → Chars.isBlank c = false
  ends : ∀ c, inner.getLast? = some c → Chars.isBlank c = false
  closed : back.head? = some '\\' → endsOpen inner = false

/-- What is cut off at the ends of a chunk. -/
theorem exists_edges {raw value : List Char} {span : Span}
    (h : writtenSpan? raw value = some span) :
    ∃ front inner back f b, Edges raw value span front inner back f b := by
  rw [writtenSpan?] at h
  dsimp only at h
  split at h
  · cases h
  · rename_i after hafter
    split at h
    · cases h
    · rename_i innerReversed hinner
      split at h
      · cases h
      · rename_i hclean
        rw [Bool.or_eq_true, Bool.or_eq_true, not_or, not_or] at hclean
        obtain ⟨⟨hne, hstart⟩, hend⟩ := hclean
        obtain ⟨front, f, rfl, hfront⟩ := exists_front_of_iterate? hafter
        obtain ⟨back, b, hback, hbackRun, hclosed⟩ := exists_back_of_iterate? hinner
        rw [List.reverse_reverse] at hback
        have hplace : Chars.size (front ++ after) - Chars.size after = Chars.size front := by
          rw [Chars.size_append, Nat.add_sub_cancel]
        rw [hplace] at h
        -- a blank that is left at either end of the rest would have stopped the search
        refine ⟨front, innerReversed.reverse, back, f, b, by rw [hback], (Option.some.inj h).symm,
          hfront, ?_, by simpa using hne, ?_, ?_, hclosed⟩
        · rwa [Chars.blankEnd, List.length_reverse]
        · intro c hc
          obtain ⟨cs, hcs⟩ := List.head?_eq_some_iff.mp hc
          rw [hcs] at hstart
          exact Bool.eq_false_iff.mpr fun hblank =>
            hstart (Option.isSome_of_eq_some (dropBlank?_of_isBlank hblank cs))
        · intro c hc
          rw [List.getLast?_reverse] at hc
          obtain ⟨cs, rfl⟩ := List.head?_eq_some_iff.mp hc
          exact Bool.eq_false_iff.mpr fun hblank =>
            hend (Option.isSome_of_eq_some (if_pos hblank))

/-! ## How the parts are read -/

/-- The line break that is cut off at the end of a chunk while its backslash is not. -/
def cutBreak? (inner back : List Char) : Option Char :=
  if endsOpen inner then back.head?.filter isLineBreak else none

/-- A run of blanks behind a backslash is read as its value, but a line break is taken out of it. -/
theorem BlankRun.read_behind_slash {w : Char} {codes : List Nat}
    (hrun : BlankRun n (w :: cs) bs) (hw : w ≠ '\\') (htail : tail.head? ≠ some '\n')
    (h : Signs tail ('\\' :: w :: cs) codes) :
    (isLineBreak w = true ∧ ∃ ds, bs = lineEnd w :: ds ∧ codes = ds.map Char.toNat) ∨
      (isLineBreak w = false ∧ codes = bs.map Char.toNat) := by
  cases hrun with
  | escape hc hrun => exact absurd rfl hw
  | @pair n cs bs hrun =>
    have hsign : nextSign? ('\\' :: '\r' :: '\n' :: (cs ++ tail)) = some (none, 3) := rfl
    obtain ⟨codes', rfl, hrest⟩ := h.of_sign ['\\', '\r', '\n'] hsign
    exact Or.inl ⟨rfl, bs, rfl, hrest.unique (hrun.signs htail)⟩
  | @blank n c cs bs hc halone hrun =>
    cases hbreak : isLineBreak w with
    | true =>
      -- a line break behind the backslash continues the line, any other blank is escaped
      have halone' := alone_append halone htail
      obtain ⟨codes', rfl, hrest⟩ := h.of_sign ['\\', w] (nextSign?_continuation hbreak halone')
      exact Or.inl ⟨rfl, bs, rfl, hrest.unique (hrun.signs htail)⟩
    | false =>
      obtain ⟨codes', rfl, hrest⟩ := h.of_sign ['\\', w] (nextSign?_escaped hc hbreak _)
      have hreturn : w ≠ '\r' := by
        rintro rfl
        cases hbreak
      refine Or.inr ⟨rfl, ?_⟩
      rw [hrest.unique (hrun.signs htail), lineEnd, beq_false_of_ne hreturn]
      rfl

/-- A run starts with a blank or a backslash. -/
theorem BlankRun.front_of_cons {w : Char} (hrun : BlankRun n (w :: cs) bs) :
    Chars.isBlank w = true ∨ w = '\\' := by
  cases hrun with
  | escape hc hrun => exact Or.inr rfl
  | pair hrun => exact Or.inl rfl
  | blank hc halone hrun => exact Or.inl hc

/-- What the parts of a chunk come to when it is read: the values of the blanks at its ends, but for
a line break that a backslash takes out. -/
theorem Edges.exists_reading {raw value front inner back f b : List Char} {span : Span}
    (hedges : Edges raw value span front inner back f b) {codes : List Nat}
    (htail : tail.head? ≠ some '\n') (h : Signs tail raw codes) :
    ∃ middle d, codes = f.map Char.toNat ++ (middle ++ d.map Char.toNat) ∧
      ((∃ w, cutBreak? inner back = some w ∧ b = lineEnd w :: d) ∨
        cutBreak? inner back = none ∧ b = d) := by
  -- the blanks in front end before a character that could not complete a line break
  have hfeed : (inner ++ back ++ tail).head? ≠ some '\n' := by
    obtain ⟨c, cs, hinner⟩ := List.exists_cons_of_ne_nil hedges.ne_nil
    have hc := hedges.starts c (by rw [hinner]; rfl)
    rw [hinner]
    rintro hhead
    obtain rfl := Option.some.inj hhead
    cases hc
  rw [hedges.written] at h
  obtain ⟨rest, rfl, hrest⟩ := (hedges.front_run.signs hfeed).of_append h
  -- where the reading gets to the blanks at the end depends on whether it comes out at their start
  have hbackRun := hedges.back_run
  generalize (Chars.blankEnd value).length = count at hbackRun
  cases back with
  | nil =>
    cases hbackRun
    refine ⟨rest, [], by simp, Or.inr ⟨?_, rfl⟩⟩
    rw [cutBreak?]
    split
    · rfl
    · rfl
  | cons w back =>
    cases hopen : endsOpen inner with
    | false =>
      have hbreak : w = '\n' → inner.getLast? ≠ some '\r' := by
        intro _ hlast
        cases hedges.ends '\r' hlast
      obtain ⟨middle, codes', rfl, hback⟩ := hrest.split hbackRun.front_of_cons hopen hbreak
      rw [hback.unique (hbackRun.signs htail)]
      exact ⟨middle, b, rfl, Or.inr ⟨by rw [cutBreak?, hopen]; rfl, rfl⟩⟩
    | true =>
      have hw : w ≠ '\\' := by
        rintro rfl
        rw [hedges.closed rfl] at hopen
        cases hopen
      -- the chunk is cut in front of the backslash that is left behind
      obtain ⟨p, rfl, hp⟩ := exists_of_endsOpen hopen
      rw [List.append_assoc, List.singleton_append] at hrest
      obtain ⟨middle, codes', rfl, hback⟩ :=
        hrest.split (Or.inr rfl) hp (fun hfeed => by cases hfeed)
      rcases hbackRun.read_behind_slash hw htail hback with ⟨hbreak, d, rfl, rfl⟩ | ⟨hbreak, rfl⟩
      · refine ⟨middle, d, rfl, Or.inl ⟨w, ?_, rfl⟩⟩
        rw [cutBreak?, if_pos hopen]
        simp [hbreak]
      · refine ⟨middle, b, rfl, Or.inr ⟨?_, rfl⟩⟩
        rw [cutBreak?, if_pos hopen]
        simp [hbreak]

/-! ## What the cut keeps -/

/-- Something short around a trimmed text gives the text just when it is its blanks. -/
theorem append_trim_eq_iff {value f b : List Char} (hvalue : Chars.trim value ≠ [])
    (hf : f.length ≤ (value.takeWhile Chars.isBlank).length)
    (hb : b.length ≤ (Chars.blankEnd value).length) :
    f ++ (Chars.trim value ++ b) = value ↔
      f = value.takeWhile Chars.isBlank ∧ b = Chars.blankEnd value := by
  have haround : value.takeWhile Chars.isBlank ++ (Chars.trim value ++ Chars.blankEnd value) =
      value := Chars.around_trim hvalue
  constructor
  · intro h
    -- neither end has a character to spare, so the three parts fall together
    have happend := h.trans haround.symm
    have hlength := congrArg List.length happend
    simp only [List.length_append] at hlength
    obtain ⟨hfront, hrest⟩ := List.append_inj happend (by omega)
    exact ⟨hfront, List.append_cancel_left hrest⟩
  · rintro ⟨rfl, rfl⟩
    exact haround

/-- What starts a text is its blanks just when it is as long. -/
theorem eq_takeWhile_iff {value f : List Char} (hf : f <+: value) :
    f = value.takeWhile Chars.isBlank ↔ f.length = (value.takeWhile Chars.isBlank).length := by
  constructor
  · exact congrArg List.length
  · intro hlength
    have hprefix := List.prefix_of_prefix_length_le hf (List.takeWhile_prefix Chars.isBlank)
      (Nat.le_of_eq hlength)
    exact hprefix.eq_of_length hlength

theorem blankEnd_suffix (value : List Char) : Chars.blankEnd value <:+ value :=
  ⟨Chars.trimEnd value, Chars.trimEnd_append_blankEnd value⟩

/-- What ends a text is its blanks just when it is as long. -/
theorem eq_blankEnd_iff {value d : List Char} (hd : d <:+ value) :
    d = Chars.blankEnd value ↔ d.length = (Chars.blankEnd value).length := by
  constructor
  · exact congrArg List.length
  · intro hlength
    have hsuffix := List.suffix_of_suffix_length_le hd (blankEnd_suffix value)
      (Nat.le_of_eq hlength)
    exact hsuffix.eq_of_length hlength

/-- One more blank has to be the one that stands there. -/
theorem cons_eq_blankEnd_iff {value d : List Char} (hd : d <:+ value) (x : Char) :
    x :: d = Chars.blankEnd value ↔ (x :: d).length = (Chars.blankEnd value).length ∧
      (Chars.blankEnd value).head? = some x := by
  constructor
  · intro h
    rw [← h]
    exact ⟨rfl, rfl⟩
  · rintro ⟨hlength, hhead⟩
    obtain ⟨ds, hds⟩ := List.head?_eq_some_iff.mp hhead
    have hds' : ds <:+ value := (List.suffix_cons x ds).trans (hds ▸ blankEnd_suffix value)
    rw [hds, List.length_cons, List.length_cons] at hlength
    have hlength := Nat.succ.inj hlength
    -- two ends of one text that are equally long are the same
    have hsuffix := List.suffix_of_suffix_length_le hd hds' (Nat.le_of_eq hlength)
    rw [hds, hsuffix.eq_of_length hlength]

/-- A chunk that is cut in three: the outer parts are chunks with values of their own. -/
structure IsCut (raw : List Char) (span : Span) (front inner back : List Char) (f b : String) :
    Prop where
  written : raw = front ++ (inner ++ back)
  place : span = ⟨Chars.size front, Chars.size front + Chars.size inner⟩
  front_value : HasValue front f
  back_value : HasValue back b

/-- A chunk keeps its value when its trimmed value takes the place of a range of it. -/
def KeepsValue (raw : List Char) (value : String) (span : Span) : Prop :=
  ∃ front inner back f b, IsCut raw span front inner back f b ∧ f ++ Text.trim value ++ b = value

/-- What ends a chunk is not the second half of a line end. -/
theorem head?_written_append {ending : ChunkEnd} (hend : ending ≠ .missing) (rest : List Char) :
    (ending.written ++ rest).head? ≠ some '\n' := by
  cases ending with
  | close => simp [ChunkEnd.written]
  | substitution => simp [ChunkEnd.written]
  | missing => exact absurd rfl hend

/-- A run of blanks is a chunk. -/
theorem BlankRun.hasValue (h : BlankRun n cs bs) : HasValue cs (String.ofList bs) :=
  hasValue_of_signs fun _ rest hend => h.signs (head?_written_append hend rest)

/-- Where the trimmed value of a chunk is found in it, the chunk is cut in three. The parts have its
value together unless a line break of two characters was counted as two blanks, or a line break
that a backslash takes out of the value was taken for another blank. -/
theorem exists_isCut {cs : List Char} {pos : Nat} {r : ChunkRead} {value : String}
    {span : Span} (hr : readChunk cs pos 0 [] [] none = r) (hgood : r.badAt = none)
    (hend : r.ending ≠ .missing) (hvalue : textOfCodes? r.codes = some value)
    (htext : Text.trim value ≠ "") (hspan : writtenSpan? r.raw value.toList = some span) :
    ∃ front inner back f b, IsCut r.raw span front inner back f b ∧
      (f ++ Text.trim value ++ b = value ↔
        ¬['\r', '\n'] <:+: front ∧ ¬['\r', '\n'] <:+: back ∧
          ∀ w, cutBreak? inner back = some w →
            (Chars.blankEnd value.toList).head? = some (lineEnd w)) := by
  obtain ⟨front, inner, back, f, b, hedges⟩ := exists_edges hspan
  obtain ⟨raw, codes, hraw, hcodes, -, hsigns⟩ := exists_signs_of_readChunk hr hgood hend
  rw [hraw, List.reverse_nil, List.nil_append] at hedges ⊢
  obtain ⟨middle, d, rfl, hd⟩ :=
    hedges.exists_reading (head?_written_append hend _) hsigns
  rw [hcodes] at hvalue
  obtain ⟨ms, hlist⟩ := exists_middle_of_textOfCodes? hvalue
  refine ⟨front, inner, back, String.ofList f, String.ofList b, ⟨hedges.written, hedges.place,
    hedges.front_run.hasValue, hedges.back_run.hasValue⟩, ?_⟩
  have htrim : Chars.trim value.toList ≠ [] := by
    intro hnil
    rw [Text.trim, hnil] at htext
    exact htext rfl
  -- the two ends are settled apart from each other
  have hprefix : f <+: value.toList := ⟨ms ++ d, hlist.symm⟩
  have hsuffix : d <:+ value.toList := ⟨f ++ ms, by rw [hlist, List.append_assoc]⟩
  rw [← String.toList_inj, String.toList_append, String.toList_append, String.toList_ofList,
    String.toList_ofList, Text.trim, String.toList_ofList, List.append_assoc,
    append_trim_eq_iff htrim hedges.front_run.length_le hedges.back_run.length_le,
    eq_takeWhile_iff hprefix, hedges.front_run.length_eq_iff]
  refine and_congr_right fun _ => ?_
  rcases hd with ⟨w, hw, rfl⟩ | ⟨hnone, rfl⟩
  · rw [cons_eq_blankEnd_iff hsuffix, hedges.back_run.length_eq_iff]
    simp [hw]
  · rw [eq_blankEnd_iff hsuffix, hedges.back_run.length_eq_iff]
    simp [hnone]

/-- Escapes at the ends of a chunk stay where they are. -/
theorem exists_isCut_escapes :
    ∃ front inner back f b, IsCut "\\t你好\\n".toList ⟨2, 8⟩ front inner back f b ∧
      (f ++ Text.trim "\t你好\n" ++ b = "\t你好\n" ↔
        ¬['\r', '\n'] <:+: front ∧ ¬['\r', '\n'] <:+: back ∧
          ∀ w, cutBreak? inner back = some w →
            (Chars.blankEnd "\t你好\n".toList).head? = some (lineEnd w)) :=
  exists_isCut (r := readChunk "\\t你好\\n`".toList 0 0 [] [] none)
    rfl rfl (by decide) rfl (by decide) (by decide)

/-- A chunk that ends in a line continuation behind a blank is cut in the middle of the
continuation, and the blank gives way to a line feed. -/
theorem not_keepsValue_continuation :
    ¬∀ (cs : List Char) (pos : Nat) (r : ChunkRead) (value : String) (span : Span),
      readChunk cs pos 0 [] [] none = r → r.badAt = none → r.ending ≠ .missing →
      textOfCodes? r.codes = some value → Text.trim value ≠ "" →
      writtenSpan? r.raw value.toList = some span → KeepsValue r.raw value span := by
  intro hall
  obtain ⟨front, inner, back, f, b, hcut, hvalue⟩ := hall "你好 \\\n`".toList 0 _ "你好 " ⟨0, 8⟩ rfl
    rfl (by decide) rfl (by decide) (by decide)
  obtain ⟨hstart, hstop⟩ := Span.mk.inj hcut.place
  rw [← hstart, Nat.zero_add] at hstop
  obtain rfl : front = [] := Chars.eq_nil_of_size_eq_zero hstart.symm
  have hsplit : some (inner, back) = some ("你好 \\".toList, ['\n']) := by
    rw [← Chars.splitAt?_append inner back, ← hstop, ← List.nil_append (inner ++ back),
      ← hcut.written]
    decide
  obtain ⟨rfl, rfl⟩ := Prod.mk.inj (Option.some.inj hsplit)
  -- nothing stands in front, and a line feed behind
  obtain ⟨codes, hfront, hf⟩ := hcut.front_value .close [] 0 (by decide)
  obtain ⟨codes', hback, hb⟩ := hcut.back_value .close [] 0 (by decide)
  obtain rfl : [] = codes := congrArg ChunkRead.codes hfront
  obtain rfl : [10] = codes' := congrArg ChunkRead.codes hback
  obtain rfl : "" = f := Option.some.inj hf
  obtain rfl : "\n" = b := Option.some.inj hb
  revert hvalue
  decide

end TextHarvest.Harvest
