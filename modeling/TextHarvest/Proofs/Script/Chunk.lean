import Mathlib.Data.List.Induction
import Mathlib.Tactic.SplitIfs
import TextHarvest.Proofs.Script.Literal

/-!
# Signs of template chunks

A chunk of a template is a sequence of signs: characters, line breaks and escapes. Which sign comes
next, and how long it is, depends on the text behind it, so signs are read in front of what follows
them. A chunk can be cut between two signs, and a blank or a backslash starts a sign of its own
unless a backslash in front of it takes it.

Main results:

* `exists_signs_of_readChunk`, `readChunk_of_signs` — what is read of a chunk are its signs.
* `Signs.of_append` — the signs at the front of a chunk are read first.
* `Signs.split` — a chunk can be cut in front of a blank or a backslash.
-/

namespace TextHarvest.Script

/-! ## Escapes -/

/-- A digit of a code is neither a blank nor a backslash. -/
theorem digit_solid {c : Char} {n : Nat} (h : Text.digitValue? 16 c = some n) :
    Chars.isBlank c = false ∧ c ≠ '\\' := by
  have hrange : (48 ≤ c.toNat ∧ c.toNat ≤ 57) ∨ (97 ≤ c.toNat ∧ c.toNat ≤ 102) ∨
      (65 ≤ c.toNat ∧ c.toNat ≤ 70) := by
    rw [Text.digitValue?] at h
    grind
  constructor
  · simp [Chars.isBlank]
    omega
  · rintro rfl
    simp at hrange

/-- Digits are neither blanks nor backslashes. -/
theorem digits_solid {cs : List Char} {m n : Nat} (h : Text.digitsValue? 16 cs m = some n) :
    ∀ d ∈ cs, Chars.isBlank d = false ∧ d ≠ '\\' := by
  induction cs generalizing m with
  | nil => simp
  | cons c cs ih =>
    rw [Text.digitsValue?] at h
    split at h
    · rename_i v hv
      exact List.forall_mem_cons.mpr ⟨digit_solid hv, ih h⟩
    · cases h

/-- The characters of an escape are there, and none but the first is a blank or a backslash, apart
from the second half of a line break. -/
structure EscapeFits (cs : List Char) (n : Nat) : Prop where
  pos : cs ≠ [] → 0 < n
  length_le : n ≤ cs.length
  solid : (∃ rest, cs = '\r' :: '\n' :: rest ∧ n = 2) ∨
    ∀ d ∈ (cs.take n).tail, Chars.isBlank d = false ∧ d ≠ '\\'

/-- An escape of one character fits. -/
theorem escapeFits_one (c : Char) (cs : List Char) : EscapeFits (c :: cs) 1 where
  pos _ := Nat.one_pos
  length_le := by simp
  solid := by simp

/-- An escape with braces fits. -/
theorem escapeFits_braced {c : Char} {cs : List Char} {value : Option Nat} {n : Nat}
    (h : bracedCode cs = .code value n) : EscapeFits (c :: '\x7b' :: cs) n := by
  rw [bracedCode] at h
  split at h
  · cases h
  · rename_i hlength
    split at h
    · rename_i m hdigits
      split at h
      · cases h
      · injection h with hvalue hn
        -- the digits are followed by the closing brace, or there would be nothing but digits
        generalize hds : cs.takeWhile (· != '\x7d') = ds at hlength hdigits hn
        have happend : ds ++ cs.dropWhile (· != '\x7d') = cs :=
          hds ▸ List.takeWhile_append_dropWhile
        have hhead := List.head?_dropWhile_not (· != '\x7d') cs
        cases hrest : cs.dropWhile (· != '\x7d') with
        | nil =>
          rw [hrest, List.append_nil] at happend
          rw [happend, beq_self_eq_true] at hlength
          exact absurd rfl hlength
        | cons d rest =>
          rw [hrest] at happend hhead
          obtain rfl : d = '\x7d' := by simpa using hhead
          subst hn happend
          refine ⟨fun _ => Nat.succ_pos _, by simp, Or.inr ?_⟩
          have htake : ((c :: '\x7b' :: (ds ++ '\x7d' :: rest)).take (ds.length + 3)).tail =
              '\x7b' :: (ds ++ ['\x7d']) := by
            simp [List.take_append, List.take_of_length_le]
          rw [htake]
          simp only [List.mem_cons, List.mem_append, List.not_mem_nil, or_false]
          rintro d (rfl | hd | rfl)
          · decide
          · exact digits_solid hdigits d hd
          · decide
    · cases h

/-- Every escape that is read fits. -/
theorem readEscape_fits {cs : List Char} {value : Option Nat} {n : Nat}
    (h : readEscape true cs = .code value n) : EscapeFits cs n := by
  cases cs with
  | nil =>
    cases h
    exact ⟨fun h => absurd rfl h, Nat.le_refl 0, Or.inr (by simp)⟩
  | cons c cs =>
    -- most escapes take one character, which says all about them
    have hone : ∀ v, Escape.code v 1 = .code value n → EscapeFits (c :: cs) n := by
      rintro v hv
      cases hv
      exact escapeFits_one c cs
    rw [readEscape.eq_def] at h
    dsimp only at h
    -- the letters that stand for a control character
    iterate 6
      rw [ite_eq_iff] at h
      rcases h with ⟨-, h⟩ | ⟨-, h⟩
      · exact hone _ h
    -- line breaks, of which one is two characters long
    rw [ite_eq_iff] at h
    rcases h with ⟨hreturn, h⟩ | ⟨-, h⟩
    · rw [beq_iff_eq] at hreturn
      split at h
      · rename_i hfeed
        cases h
        rw [beq_iff_eq, List.head?_eq_some_iff] at hfeed
        obtain ⟨rest, rfl⟩ := hfeed
        exact ⟨fun _ => Nat.two_pos, by simp, Or.inl ⟨rest, by rw [hreturn], rfl⟩⟩
      · exact hone _ h
    rw [ite_eq_iff] at h
    rcases h with ⟨-, h⟩ | ⟨-, h⟩
    · exact hone _ h
    -- codes of two digits
    rw [ite_eq_iff] at h
    rcases h with ⟨-, h⟩ | ⟨-, h⟩
    · split at h
      · rename_i m hdigits
        split at h
        · rename_i hlength
          cases h
          exact ⟨fun _ => Nat.succ_pos _, by simpa using hlength,
            Or.inr (by simpa using digits_solid hdigits)⟩
        · cases h
      · cases h
    -- codes in braces and of four digits
    rw [ite_eq_iff] at h
    rcases h with ⟨-, h⟩ | ⟨-, h⟩
    · split at h
      · exact escapeFits_braced h
      · split at h
        · rename_i hdigits
          cases h
          exact ⟨fun _ => Nat.succ_pos _, by simp, Or.inr (digits_solid hdigits)⟩
        · cases h
      · cases h
    -- any other character, and the digit zero
    split at h
    · exact hone _ h
    · split at h
      · exact hone _ h
      · cases h

/-! ## One sign -/

/-- The sign at the front of a text: the code point it stands for, if it stands for one, and the
number of its characters; `none` at the end of a chunk and at an escape that is not one. -/
def nextSign? : List Char → Option (Option Nat × Nat)
  | [] => none
  | c :: cs =>
    if c == '\x60' || c == '$' && cs.head? == some '\x7b' then none
    else if c == '\\' then
      match readEscape true cs with
      | .code value length => some (value, length + 1)
      | .bad => none
    else if c == '\r' then some (some 10, if cs.head? == some '\n' then 2 else 1)
    else some (some c.toNat, 1)

/-- The three kinds of signs. -/
theorem nextSign?_cases {cs : List Char} {value : Option Nat} {n : Nat}
    (h : nextSign? cs = some (value, n)) :
    (∃ c rest, cs = c :: rest ∧ n = 1 ∧ c ≠ '\\') ∨
    (∃ rest, cs = '\r' :: '\n' :: rest ∧ n = 2) ∨
    (∃ e rest, cs = '\\' :: (e ++ rest) ∧ n = e.length + 1 ∧
      readEscape true (e ++ rest) = .code value e.length) := by
  rw [nextSign?.eq_def] at h
  split at h
  · cases h
  · rename_i c cs
    -- a backslash starts an escape, and a return takes a line feed behind it along
    split_ifs at h with hend hslash hreturn hfeed
    · split at h
      · rename_i value length hescape
        cases h
        rw [beq_iff_eq] at hslash
        have hlength := (readEscape_fits hescape).length_le
        refine Or.inr (Or.inr ⟨cs.take length, cs.drop length, ?_, ?_, ?_⟩)
        · rw [hslash, List.take_append_drop]
        · rw [List.length_take, Nat.min_eq_left hlength]
        · rw [List.take_append_drop, List.length_take, Nat.min_eq_left hlength, hescape]
      · cases h
    · cases h
      rw [beq_iff_eq] at hreturn
      rw [beq_iff_eq, List.head?_eq_some_iff] at hfeed
      obtain ⟨rest, rfl⟩ := hfeed
      exact Or.inr (Or.inl ⟨rest, by rw [hreturn], rfl⟩)
    · cases h
      exact Or.inl ⟨c, cs, rfl, rfl, by simpa using hslash⟩
    · cases h
      exact Or.inl ⟨c, cs, rfl, rfl, by simpa using hslash⟩

/-- A sign takes up characters of the text. -/
theorem exists_sign {cs : List Char} {value : Option Nat} {n : Nat}
    (h : nextSign? cs = some (value, n)) :
    ∃ c e rest, cs = c :: e ++ rest ∧ n = (c :: e).length := by
  rcases nextSign?_cases h with ⟨c, rest, rfl, rfl, -⟩ | ⟨rest, rfl, rfl⟩ | ⟨e, rest, rfl, rfl, -⟩
  · exact ⟨c, [], rest, rfl, rfl⟩
  · exact ⟨'\r', ['\n'], rest, rfl, rfl⟩
  · exact ⟨'\\', e, rest, rfl, rfl⟩

/-- A sign has a character. -/
theorem sign_ne_nil {sign cs : List Char} {value : Option Nat}
    (h : nextSign? cs = some (value, sign.length)) : sign ≠ [] := by
  rintro rfl
  obtain ⟨c, e, rest, -, hlength⟩ := exists_sign h
  cases hlength

/-- The three kinds of signs, by their characters. None but the first character of an escape is a
blank or a backslash, apart from the second half of a line break. -/
theorem sign_cases {sign rest : List Char} {value : Option Nat}
    (h : nextSign? (sign ++ rest) = some (value, sign.length)) :
    (∃ c, sign = [c] ∧ c ≠ '\\') ∨ sign = ['\r', '\n'] ∨
    (∃ e, sign = '\\' :: e ∧ (rest ≠ [] → e ≠ []) ∧
      (e = ['\r', '\n'] ∨ ∀ d ∈ e.tail, Chars.isBlank d = false ∧ d ≠ '\\')) := by
  rcases nextSign?_cases h with ⟨c, rest', happend, hlength, hslash⟩ |
      ⟨rest', happend, hlength⟩ | ⟨e, rest', happend, hlength, hescape⟩
  · have happend : sign ++ rest = [c] ++ rest' := happend
    obtain ⟨rfl, -⟩ := List.append_inj happend hlength
    exact Or.inl ⟨c, rfl, hslash⟩
  · have happend : sign ++ rest = ['\r', '\n'] ++ rest' := happend
    obtain ⟨rfl, -⟩ := List.append_inj happend hlength
    exact Or.inr (Or.inl rfl)
  · rw [← List.cons_append] at happend
    obtain ⟨rfl, rfl⟩ := List.append_inj happend hlength
    -- an escape takes up what its reader took
    have hfits := readEscape_fits hescape
    refine Or.inr (Or.inr ⟨e, rfl, ?_, ?_⟩)
    · rintro hrest rfl
      exact absurd (hfits.pos hrest) (Nat.lt_irrefl 0)
    · rcases hfits.solid with ⟨rest', hpair, hlength⟩ | hsolid
      · have hpair : e ++ rest = ['\r', '\n'] ++ rest' := hpair
        exact Or.inl (List.append_inj hpair hlength).1
      · rw [List.take_left] at hsolid
        exact Or.inr hsolid

/-! ## Reading signs -/

/-- Adds code points to a reversed value, in their order. -/
def pushAll (codes acc : List Nat) : List Nat :=
  codes.foldl (fun acc code => pushCode code acc) acc

/-- The characters of an escape are passed over. -/
theorem readChunk_skip (e rest : List Char) (pos : Nat) (raw : List Char) (acc : List Nat)
    (bad : Option Nat) : readChunk (e ++ rest) pos e.length raw acc bad =
      readChunk rest (pos + Chars.size e) 0 (e.reverse ++ raw) acc bad := by
  induction e generalizing pos raw with
  | nil => rfl
  | cons c e ih =>
    rw [List.cons_append, List.length_cons, readChunk, ih, Chars.size_cons, Nat.add_assoc,
      List.reverse_cons, List.append_assoc, List.singleton_append]

/-- A sign is read as one. -/
theorem readChunk_sign {sign rest : List Char} {value : Option Nat}
    (h : nextSign? (sign ++ rest) = some (value, sign.length)) (pos : Nat) (raw : List Char)
    (acc : List Nat) (bad : Option Nat) : readChunk (sign ++ rest) pos 0 raw acc bad =
      readChunk rest (pos + Chars.size sign) 0 (sign.reverse ++ raw) (pushAll value.toList acc)
        bad := by
  obtain ⟨c, e, rfl⟩ := List.exists_cons_of_ne_nil (sign_ne_nil h)
  -- behind its first character a sign is skipped over
  have hskip : ∀ acc, readChunk (e ++ rest) (pos + c.utf8Size) e.length (c :: raw) acc bad =
      readChunk rest (pos + Chars.size (c :: e)) 0 ((c :: e).reverse ++ raw) acc bad := by
    intro acc
    rw [readChunk_skip, Chars.size_cons, Nat.add_assoc, List.reverse_cons, List.append_assoc,
      List.singleton_append]
  rw [List.cons_append, nextSign?] at h
  rw [← hskip, List.cons_append, readChunk]
  split_ifs at h with hend hslash hreturn hfeed
  -- both readings ask the same questions, so each branch of the one is that of the other
  all_goals
    obtain ⟨htick, hdollar⟩ := not_or.mp (mt Bool.or_eq_true_iff.mpr hend)
    rw [if_neg htick, if_neg hdollar]
  · rw [if_pos hslash]
    rw [beq_iff_eq] at hslash
    split at h
    · rename_i value' n hescape
      cases h
      rw [hescape, hslash]
      cases value with
      | none => rfl
      | some n => rfl
    · cases h
  · rw [if_neg hslash, if_pos hreturn, if_pos hfeed]
    rw [beq_iff_eq] at hreturn
    obtain ⟨rfl, hlength⟩ := Prod.mk.inj (Option.some.inj h)
    have hlength : 1 = e.length := Nat.succ.inj hlength
    rw [← hlength, hreturn]
    rfl
  · rw [if_neg hslash, if_pos hreturn, if_neg hfeed]
    rw [beq_iff_eq] at hreturn
    obtain ⟨rfl, hlength⟩ := Prod.mk.inj (Option.some.inj h)
    have hlength : 0 = e.length := Nat.succ.inj hlength
    rw [← hlength, hreturn]
    rfl
  · rw [if_neg hslash, if_neg hreturn]
    obtain ⟨rfl, hlength⟩ := Prod.mk.inj (Option.some.inj h)
    have hlength : 0 = e.length := Nat.succ.inj hlength
    rw [← hlength]
    rfl

/-! ## Signs in a row -/

/-- A chunk that is read sign by sign in front of `tail`, with the code points of its signs. -/
inductive Signs (tail : List Char) : List Char → List Nat → Prop
  | nil : Signs tail [] []
  | cons (sign : List Char) {cs : List Char} {value : Option Nat} {codes : List Nat}
      (hsign : nextSign? (sign ++ (cs ++ tail)) = some (value, sign.length))
      (hrest : Signs tail cs codes) : Signs tail (sign ++ cs) (value.toList ++ codes)

/-- How what ends a chunk is written. -/
def ChunkEnd.written : ChunkEnd → List Char
  | .close => ['\x60']
  | .substitution => ['$', '\x7b']
  | .missing => []

/-- Codes are pushed one list after the other. -/
theorem pushAll_append (xs ys acc : List Nat) :
    pushAll (xs ++ ys) acc = pushAll ys (pushAll xs acc) :=
  List.foldl_append

variable {tail raw : List Char} {codes : List Nat}

/-- Signs are read one after the other. -/
theorem Signs.readChunk (h : Signs tail raw codes) (pos : Nat) (before : List Char)
    (acc : List Nat) (bad : Option Nat) : readChunk (raw ++ tail) pos 0 before acc bad =
      Script.readChunk tail (pos + Chars.size raw) 0 (raw.reverse ++ before) (pushAll codes acc)
        bad := by
  induction h generalizing pos before acc with
  | nil => rfl
  | @cons sign cs value codes hsign hrest ih =>
    rw [List.append_assoc, readChunk_sign hsign, ih, pushAll_append, Chars.size_append,
      Nat.add_assoc, List.reverse_append, List.append_assoc]

/-- Signs in front of the end of a chunk are read up to it. -/
theorem readChunk_of_signs {ending : ChunkEnd} {rest : List Char}
    (h : Signs (ending.written ++ rest) raw codes) (hend : ending ≠ .missing) (pos : Nat)
    (acc : List Nat) : readChunk (raw ++ (ending.written ++ rest)) pos 0 [] acc none =
      ⟨raw, pushAll codes acc, none, pos + Chars.size raw, ending, rest⟩ := by
  rw [h.readChunk, List.append_nil]
  cases ending with
  | close => rw [ChunkEnd.written, List.singleton_append, readChunk]; simp
  | substitution => rw [ChunkEnd.written, List.cons_append, readChunk]; simp
  | missing => exact absurd rfl hend

/-- A chunk without a fault had none at its start. -/
theorem bad_eq_none_of_readChunk {cs : List Char} {pos skip : Nat} {acc : List Nat}
    {bad : Option Nat} (h : (readChunk cs pos skip raw acc bad).badAt = none) : bad = none := by
  induction cs generalizing pos skip raw acc bad with
  | nil => exact h
  | cons c cs ih =>
    cases skip with
    | succ skip => exact ih h
    | zero =>
      rw [readChunk] at h
      split_ifs at h
      · exact h
      · exact h
      · split at h
        · exact ih h
        · exact ih h
        · -- a bad escape is noted, and an earlier note is kept
          have hbad := ih h
          cases bad with
          | none => cases hbad
          | some offset => exact hbad
      · exact ih h
      · exact ih h
      · exact ih h

/-- What is read of a chunk without a bad escape are its signs up to its end. -/
theorem exists_signs_of_readChunk {cs : List Char} {pos : Nat} {before : List Char}
    {acc : List Nat} {r : ChunkRead} (hr : readChunk cs pos 0 before acc none = r)
    (hgood : r.badAt = none) (hend : r.ending ≠ .missing) :
    ∃ raw codes, r.raw = before.reverse ++ raw ∧ r.codes = pushAll codes acc ∧
      cs = raw ++ (r.ending.written ++ r.rest) ∧ Signs (r.ending.written ++ r.rest) raw codes := by
  -- one sign after the other is taken off, and each has at least one character
  induction hn : cs.length using Nat.strongRecOn generalizing cs pos before acc with
  | ind n ih =>
    cases hsign : nextSign? cs with
    | some found =>
      obtain ⟨value, length⟩ := found
      obtain ⟨c, e, rest, rfl, rfl⟩ := exists_sign hsign
      rw [readChunk_sign hsign] at hr
      have hshort : rest.length < n := by
        rw [← hn, List.length_append]
        exact Nat.lt_add_of_pos_left (Nat.succ_pos _)
      obtain ⟨raw, codes, hraw, hcodes, hrest, hsigns⟩ := ih _ hshort hr rfl
      refine ⟨c :: e ++ raw, value.toList ++ codes, ?_, ?_, ?_, .cons _ ?_ hsigns⟩
      · rw [hraw, List.reverse_append, List.reverse_reverse, List.append_assoc]
      · rw [hcodes, pushAll_append]
      · rw [List.append_assoc, ← hrest]
      · rw [← hrest, hsign]
    | none =>
      refine ⟨[], [], ?_⟩
      cases cs with
      | nil =>
        subst hr
        exact absurd rfl hend
      | cons c cs =>
        rw [nextSign?] at hsign
        rw [readChunk] at hr
        split at hr
        · rename_i hclose
          subst hr
          rw [beq_iff_eq.mp hclose]
          exact ⟨(List.append_nil _).symm, rfl, rfl, .nil⟩
        split at hr
        · rename_i hopen
          rw [Bool.and_eq_true, beq_iff_eq, beq_iff_eq, List.head?_eq_some_iff] at hopen
          obtain ⟨rfl, rest, rfl⟩ := hopen
          subst hr
          exact ⟨(List.append_nil _).symm, rfl, rfl, .nil⟩
        · rename_i hclose hopen
          -- what is neither the end nor a sign is an escape that is not one
          rw [if_neg (by simpa [hclose] using hopen)] at hsign
          split_ifs at hsign with hslash
          split at hsign
          · cases hsign
          · rename_i hescape
            rw [if_pos hslash, hescape] at hr
            subst hr
            cases bad_eq_none_of_readChunk hgood

/-! ## Cutting a chunk -/

/-- No characters are no codes. -/
theorem Signs.eq_nil (h : Signs tail [] codes) : codes = [] := by
  generalize hraw : [] = raw at h
  cases h with
  | nil => rfl
  | cons sign hsign hrest =>
    exact absurd (List.append_eq_nil_iff.mp hraw.symm).1 (sign_ne_nil hsign)

/-- The sign at the front of a chunk is its first. -/
theorem Signs.of_sign (sign : List Char) {cs : List Char} {value : Option Nat}
    (hsign : nextSign? (sign ++ (cs ++ tail)) = some (value, sign.length))
    (h : Signs tail (sign ++ cs) codes) :
    ∃ codes', codes = value.toList ++ codes' ∧ Signs tail cs codes' := by
  generalize hraw : sign ++ cs = raw at h
  cases h with
  | nil => exact absurd (List.append_eq_nil_iff.mp hraw).1 (sign_ne_nil hsign)
  | @cons sign' cs' value' codes' hsign' hrest =>
    -- both signs are the one that the same text starts with
    have happend : sign ++ (cs ++ tail) = sign' ++ (cs' ++ tail) := by
      rw [← List.append_assoc, hraw, List.append_assoc]
    rw [← happend, hsign] at hsign'
    obtain ⟨rfl, hlength⟩ := Prod.mk.inj (Option.some.inj hsign')
    obtain ⟨rfl, rfl⟩ := List.append_inj hraw hlength
    exact ⟨codes', rfl, hrest⟩

/-- Signs at the front of a chunk are its first. -/
theorem Signs.of_append {front : List Char} {codes' : List Nat}
    (hfront : Signs (raw ++ tail) front codes') (h : Signs tail (front ++ raw) codes) :
    ∃ codes'', codes = codes' ++ codes'' ∧ Signs tail raw codes'' := by
  generalize hback : raw ++ tail = back at hfront
  induction hfront generalizing codes with
  | nil => exact ⟨codes, rfl, h⟩
  | @cons sign cs value codes' hsign hrest ih =>
    subst hback
    rw [List.append_assoc] at h
    rw [← List.append_assoc cs] at hsign
    obtain ⟨codes₁, hcodes, hcs⟩ := h.of_sign sign hsign
    obtain ⟨codes₂, rfl, hraw⟩ := ih hcs
    exact ⟨codes₂, hcodes.trans (List.append_assoc _ _ _).symm, hraw⟩

/-- A chunk is read in one way. -/
theorem Signs.unique {codes' : List Nat} (h : Signs tail raw codes) (h' : Signs tail raw codes') :
    codes = codes' := by
  have hfront : Signs ([] ++ tail) raw codes' := h'
  have happend : Signs tail (raw ++ []) codes := (List.append_nil raw).symm ▸ h
  obtain ⟨codes'', rfl, hnil⟩ := hfront.of_append happend
  rw [hnil.eq_nil, List.append_nil]

/-! ## Blanks and backslashes -/

/-- Whether a text ends in the middle of an escape: with an odd number of backslashes. -/
def endsOpen (cs : List Char) : Bool :=
  (cs.reverse.takeWhile (· == '\\')).length % 2 == 1

/-- A text ends open when its last character is a backslash that is not escaped itself. -/
theorem endsOpen_append_singleton (cs : List Char) (c : Char) :
    endsOpen (cs ++ [c]) = (c == '\\' && !endsOpen cs) := by
  rw [endsOpen, List.reverse_append, List.reverse_singleton, List.singleton_append,
    List.takeWhile_cons]
  by_cases hc : c == '\\'
  · rw [if_pos hc, hc, List.length_cons, endsOpen]
    rcases Nat.mod_two_eq_zero_or_one (cs.reverse.takeWhile (· == '\\')).length with h | h
    · simp [Nat.add_mod, h]
    · simp [Nat.add_mod, h]
  · rw [if_neg hc, Bool.eq_false_iff.mpr hc]
    rfl

/-- An open end is a backslash that no other takes. -/
theorem exists_of_endsOpen {cs : List Char} (h : endsOpen cs = true) :
    ∃ ds, cs = ds ++ ['\\'] ∧ endsOpen ds = false := by
  rcases List.eq_nil_or_concat cs with rfl | ⟨ds, c, rfl⟩
  · cases h
  · rw [List.concat_eq_append, endsOpen_append_singleton, Bool.and_eq_true, beq_iff_eq,
      Bool.not_eq_true'] at h
    exact ⟨ds, by rw [List.concat_eq_append, h.1], h.2⟩

/-- A text that does not end in an escape has no say in how what follows ends. -/
theorem endsOpen_append {cs : List Char} (h : endsOpen cs = false) (ds : List Char) :
    endsOpen (cs ++ ds) = endsOpen ds := by
  induction ds using List.reverseRecOn with
  | nil => rw [List.append_nil, h]; rfl
  | append_singleton ds d ih =>
    rw [← List.append_assoc, endsOpen_append_singleton, endsOpen_append_singleton, ih]

/-- No sign ends in the middle of an escape. -/
theorem endsOpen_sign {sign rest : List Char} {value : Option Nat}
    (h : nextSign? (sign ++ rest) = some (value, sign.length)) (hrest : rest ≠ []) :
    endsOpen sign = false := by
  rcases sign_cases h with ⟨c, rfl, hslash⟩ | rfl | ⟨e, rfl, hne, hsolid⟩
  · rw [← List.nil_append [c], endsOpen_append_singleton, beq_false_of_ne hslash]
    rfl
  · rfl
  · -- behind its backslash an escape has a character, and then no further backslash
    obtain ⟨d, e, rfl⟩ := List.exists_cons_of_ne_nil (hne hrest)
    have hslash : ∀ x ∈ e, x ≠ '\\' := by
      rcases hsolid with hpair | hsolid
      · rw [(List.cons.inj hpair).2, List.forall_mem_singleton]
        decide
      · exact fun x hx => (hsolid x hx).2
    rcases List.eq_nil_or_concat e with rfl | ⟨e, x, rfl⟩
    · rw [← List.singleton_append, endsOpen_append_singleton]
      exact Bool.and_false _
    · rw [List.concat_eq_append, ← List.cons_append, ← List.cons_append, endsOpen_append_singleton,
        beq_false_of_ne (hslash x (by simp))]
      rfl

/-- A blank or a backslash in a sign stands at its front, right behind a backslash, or at the end
of a line break. -/
theorem front_of_sign {front back rest : List Char} {c : Char} {value : Option Nat}
    (h : nextSign? (front ++ c :: back ++ rest) = some (value, (front ++ c :: back).length))
    (hc : Chars.isBlank c = true ∨ c = '\\') :
    front = [] ∨ front = ['\\'] ∨ c = '\n' ∧ front.getLast? = some '\r' := by
  cases front with
  | nil => exact Or.inl rfl
  | cons f front =>
    refine Or.inr ?_
    rcases sign_cases h with ⟨d, hsign, -⟩ | hsign | ⟨e, hsign, -, hsolid⟩
    · simp at hsign
    · obtain ⟨rfl, hlast⟩ := List.cons.inj hsign
      rcases List.append_eq_singleton_iff.mp hlast with ⟨rfl, hback⟩ | ⟨-, hback⟩
      · exact Or.inr ⟨(List.cons.inj hback).1, rfl⟩
      · cases hback
    · obtain ⟨rfl, rfl⟩ := List.cons.inj hsign
      cases front with
      | nil => exact Or.inl rfl
      | cons g front =>
        rcases hsolid with hpair | hsolid
        · obtain ⟨rfl, hlast⟩ := List.cons.inj hpair
          rcases List.append_eq_singleton_iff.mp hlast with ⟨rfl, hback⟩ | ⟨-, hback⟩
          · exact Or.inr ⟨(List.cons.inj hback).1, rfl⟩
          · cases hback
        · -- further back an escape has only digits and braces
          obtain ⟨hblank, hslash⟩ := hsolid c (by simp)
          rcases hc with hc | hc
          · rw [hc] at hblank
            cases hblank
          · exact absurd hc hslash

/-- A chunk can be cut in front of a blank or a backslash, unless a backslash before takes it or it
is the end of a line break. -/
theorem Signs.split {front back : List Char} {c : Char}
    (h : Signs tail (front ++ c :: back) codes) (hc : Chars.isBlank c = true ∨ c = '\\')
    (hopen : endsOpen front = false) (hbreak : c = '\n' → front.getLast? ≠ some '\r') :
    ∃ codes₁ codes₂, codes = codes₁ ++ codes₂ ∧ Signs tail (c :: back) codes₂ := by
  generalize hraw : front ++ c :: back = raw at h
  -- signs are taken off while they end in the front; none can reach over its end
  induction h generalizing front with
  | nil => cases front <;> cases hraw
  | @cons sign cs value codes hsign hrest ih =>
    rcases List.append_eq_append_iff.mp hraw with ⟨x, rfl, hcs⟩ | ⟨x, rfl, rfl⟩
    · -- the last sign of the front, if it ends with the front, or one that starts at the cut
      cases x with
      | nil =>
        rw [List.nil_append] at hcs
        exact ⟨value.toList, codes, rfl, hcs ▸ hrest⟩
      | cons d x =>
        obtain ⟨rfl, rfl⟩ := List.cons.inj hcs
        rcases front_of_sign hsign hc with rfl | rfl | ⟨hfeed, hreturn⟩
        · exact ⟨[], _, rfl, .cons _ hsign hrest⟩
        · cases hopen
        · exact absurd hreturn (hbreak hfeed)
    · have hopen' : endsOpen x = false := by
        rwa [endsOpen_append (endsOpen_sign hsign (by simp))] at hopen
      have hbreak' : c = '\n' → x.getLast? ≠ some '\r' := by
        intro hfeed hreturn
        apply hbreak hfeed
        rw [List.getLast?_append, hreturn]
        rfl
      obtain ⟨codes₁, codes₂, rfl, hsigns⟩ := ih hopen' hbreak' rfl
      exact ⟨value.toList ++ codes₁, codes₂, (List.append_assoc _ _ _).symm, hsigns⟩

/-! ## Values -/

/-- Characters are added to a value as they are. -/
theorem pushAll_toNat (cs : List Char) (acc : List Nat) :
    pushAll (cs.map Char.toNat) acc = (cs.map Char.toNat).reverse ++ acc := by
  induction cs generalizing acc with
  | nil => rfl
  | cons c cs ih =>
    rw [List.map_cons, pushAll, List.foldl_cons, pushCode_toNat, ← pushAll, ih, List.reverse_cons,
      List.append_assoc, List.singleton_append]

/-- Characters behind a code are kept when it is pushed. -/
theorem pushCode_behind (code : Nat) (codes : List Nat) (cs : List Char) :
    pushCode code (codes ++ cs.map Char.toNat) = pushCode code codes ++ cs.map Char.toNat := by
  cases codes with
  | cons last codes =>
    rw [List.cons_append, pushCode, pushCode]
    split
    · rfl
    · rfl
  | nil =>
    cases cs with
    | nil => rfl
    | cons c cs =>
      -- a character is no first half that a later code could complete
      have hc := toNat_not_surrogate c
      have hpair : ¬(0xdc00 ≤ code && code ≤ 0xdfff && 0xd800 ≤ c.toNat && c.toNat ≤ 0xdbff) := by
        simp only [Bool.and_eq_true, decide_eq_true_eq]
        omega
      rw [List.nil_append, List.map_cons, pushCode.eq_def]
      dsimp only
      rw [if_neg hpair]
      rfl

/-- Characters at the front of a value stay there. -/
theorem pushAll_behind (codes acc : List Nat) (cs : List Char) :
    pushAll codes (acc ++ cs.map Char.toNat) = pushAll codes acc ++ cs.map Char.toNat := by
  induction codes generalizing acc with
  | nil => rfl
  | cons code codes ih =>
    rw [pushAll, pushAll, List.foldl_cons, List.foldl_cons, pushCode_behind]
    exact ih (pushCode code acc)

/-- Characters at the ends of a chunk are at the ends of its value. -/
theorem exists_middle_of_textOfCodes? {front back : List Char} {middle : List Nat} {value : String}
    (h : textOfCodes? (pushAll (front.map Char.toNat ++ (middle ++ back.map Char.toNat)) []) =
      some value) : ∃ cs, value.toList = front ++ (cs ++ back) := by
  -- the characters around the middle are no surrogates and pair with nothing in it
  have hcodes : pushAll (front.map Char.toNat ++ (middle ++ back.map Char.toNat)) [] =
      (back.map Char.toNat).reverse ++ (pushAll middle [] ++ (front.map Char.toNat).reverse) := by
    have hbehind := pushAll_behind middle [] front.reverse
    rw [List.nil_append, List.map_reverse] at hbehind
    rw [pushAll_append, pushAll_append, pushAll_toNat, pushAll_toNat, List.append_nil, hbehind]
  rw [hcodes, textOfCodes?] at h
  obtain ⟨all, hall, rfl⟩ := Option.map_eq_some_iff.mp h
  rw [List.reverse_append, List.reverse_append, List.reverse_reverse, List.reverse_reverse,
    List.append_assoc, List.mapM_append, List.mapM_append, mapM_charOfCode?_toNat,
    mapM_charOfCode?_toNat] at hall
  cases hmiddle : (pushAll middle []).reverse.mapM Text.charOfCode? with
  | none => rw [hmiddle] at hall; cases hall
  | some cs =>
    rw [hmiddle] at hall
    obtain rfl := Option.some.inj hall
    exact ⟨cs, String.toList_ofList⟩

/-- A chunk that is read up to whatever ends it, and its value. -/
def HasValue (raw : List Char) (value : String) : Prop :=
  ∀ (ending : ChunkEnd) (rest : List Char) (pos : Nat), ending ≠ .missing → ∃ codes,
    readChunk (raw ++ (ending.written ++ rest)) pos 0 [] [] none =
      ⟨raw, codes, none, pos + Chars.size raw, ending, rest⟩ ∧ textOfCodes? codes = some value

/-- A chunk of characters has these for its value. -/
theorem hasValue_of_signs {cs : List Char} (h : ∀ (ending : ChunkEnd) (rest : List Char),
    ending ≠ .missing → Signs (ending.written ++ rest) raw (cs.map Char.toNat)) :
    HasValue raw (String.ofList cs) := by
  intro ending rest pos hend
  refine ⟨_, readChunk_of_signs (h ending rest hend) hend pos [], ?_⟩
  rw [pushAll_toNat, List.append_nil, textOfCodes?_toNat]

end TextHarvest.Script
