import TextHarvest.Proofs.Files.Absolute
import TextHarvest.Proofs.Files.Glob

/-!
# Patterns and their components

A pattern is read twice: as a whole, and piece by piece between its slashes. Pieces that can be
read make a whole that can be read, since neither a set of characters nor two stars reach over a
slash. A piece without special signs is read as its own characters and matches itself only.

Main results:

* `parse?_isSome_of_splitText` — a pattern whose pieces can be read can be read.
* `parse?_literal` and `isMatch_literal` — pieces without special signs.
* `ordinary_of_parse?` — the components that a walk passes by names alone.
-/

namespace TextHarvest.Glob

/-! ## Reading step by step -/

section Steps

variable (fuel pos : Nat) (prev : Option Char) (cs : List Char) (acc : List GlobToken)

/-- At the end the tokens are handed out. -/
theorem readTokens_nil : readTokens (fuel + 1) pos prev [] acc = .ok acc.reverse := by
  simp [readTokens]

/-- A character that is no special sign stands for itself. -/
theorem readTokens_char {c : Char} (h : c ≠ '*' ∧ c ≠ '?' ∧ c ≠ '[') :
    readTokens (fuel + 1) pos prev (c :: cs) acc =
      readTokens fuel (pos + 1) (some c) cs (.char c :: acc) := by
  rw [readTokens.eq_def]
  simp [h]

/-- A question mark stands for one character. -/
theorem readTokens_anyChar :
    readTokens (fuel + 1) pos prev ('?' :: cs) acc =
      readTokens fuel (pos + 1) (some '?') cs (.anyChar :: acc) := by
  rw [readTokens.eq_def]
  simp

/-- A single star stands for any characters. -/
theorem readTokens_star {cs : List Char} (h : cs.head? ≠ some '*') :
    readTokens (fuel + 1) pos prev ('*' :: cs) acc =
      readTokens fuel (pos + 1) (some '*') cs (.anySequence :: acc) := by
  rw [readTokens.eq_def]
  cases cs with
  | nil => simp
  | cons c cs =>
    have hc : c ≠ '*' := by simpa using h
    simp [hc]

/-- The tokens read so far with two stars behind them; two stars are not noted twice. -/
def addStars (acc : List GlobToken) : List GlobToken :=
  if 1 < acc.length && acc.head? == some .anyComponents then acc else .anyComponents :: acc

/-- Two stars at the end of a pattern, behind a slash or nothing. -/
theorem readTokens_stars {prev : Option Char} (h : prev.all (· == '/') = true) :
    readTokens (fuel + 1) pos prev ['*', '*'] acc = .ok (addStars acc).reverse := by
  rw [readTokens.eq_def]
  simp [h, addStars]

/-- Two stars between slashes. -/
theorem readTokens_stars_slash {prev : Option Char} (h : prev.all (· == '/') = true) :
    readTokens (fuel + 1) pos prev ('*' :: '*' :: '/' :: cs) acc =
      readTokens fuel (pos + 3) (some '/') cs (addStars acc) := by
  rw [readTokens.eq_def]
  simp [h, addStars]

/-- A set of characters that are left out. -/
theorem readTokens_except {body set rest : List Char} (h : setBody? body = some (set, rest)) :
    readTokens (fuel + 1) pos prev ('[' :: '!' :: body) acc =
      readTokens fuel (pos + set.length + 3) (some ']') rest
        (.except (ranges set.length set) :: acc) := by
  rw [readTokens.eq_def]
  simp [h]

/-- A set of characters that are let through. -/
theorem readTokens_within {body set rest : List Char} (hbody : body.head? ≠ some '!')
    (h : setBody? body = some (set, rest)) :
    readTokens (fuel + 1) pos prev ('[' :: body) acc =
      readTokens fuel (pos + set.length + 2) (some ']') rest
        (.within (ranges set.length set) :: acc) := by
  rw [readTokens.eq_def]
  cases body with
  | nil => cases h
  | cons c body =>
    have hc : c ≠ '!' := by simpa using hbody
    simp [hc, h]

end Steps

/-! ## Pieces without special signs -/

/-- The pattern that spells a text and nothing else. -/
def literal (s : String) : Glob :=
  ⟨s.toList.map GlobToken.char⟩

/-- Characters in front of a pattern that are no special signs stand for themselves. -/
theorem readTokens_append {cs : List Char} (h : ∀ c ∈ cs, c ≠ '*' ∧ c ≠ '?' ∧ c ≠ '[')
    (fuel pos : Nat) (prev : Option Char) (rest : List Char) (acc : List GlobToken) :
    readTokens (cs.length + fuel) pos prev (cs ++ rest) acc =
      readTokens fuel (pos + cs.length) (cs.getLast?.or prev) rest
        ((cs.map GlobToken.char).reverse ++ acc) := by
  induction cs generalizing pos prev acc with
  | nil => simp
  | cons c cs ih =>
    have hfuel : (c :: cs).length + fuel = cs.length + fuel + 1 := by
      rw [List.length_cons]
      omega
    -- the character before the rest is the last of those in front
    have hlast : (c :: cs).getLast?.or prev = cs.getLast?.or (some c) := by
      rw [List.getLast?_cons]
      cases cs.getLast? <;> rfl
    rw [hfuel, hlast, List.cons_append, readTokens_char _ _ _ _ _ (h c List.mem_cons_self),
      ih fun d hd => h d (List.mem_cons_of_mem _ hd)]
    simp [Nat.add_comm, Nat.add_left_comm]

/-- Without special signs a text has none of them. -/
theorem ne_special_of_not_isPattern {s : String} (h : isPattern s = false) :
    ∀ c ∈ s.toList, c ≠ '*' ∧ c ≠ '?' ∧ c ≠ '[' := by
  intro c hc
  rw [isPattern, List.any_eq_false] at h
  simpa [and_assoc] using h c hc

/-- A text without special signs is read character by character. -/
theorem parse?_literal {s : String} (h : isPattern s = false) : parse? s = some (literal s) := by
  have hread := readTokens_append (ne_special_of_not_isPattern h) 1 0 none [] []
  rw [List.append_nil, String.length_toList, readTokens_nil, List.append_nil,
    List.reverse_reverse] at hread
  rw [parse?, parse, hread]
  rfl

/-- Tokens that are all characters spell a text. -/
theorem mapM_char?_eq_some {ts : List GlobToken} {cs : List Char}
    (h : ts.mapM (fun | .char c => some c | _ => none : GlobToken → Option Char) = some cs) :
    ts = cs.map GlobToken.char := by
  induction ts generalizing cs with
  | nil =>
    cases h
    rfl
  | cons token ts ih =>
    simp only [List.mapM_cons, Option.bind_eq_bind, Option.bind_eq_some_iff] at h
    obtain ⟨c, hc, more, hmore, heq⟩ := h
    cases heq
    cases token with
    | char d =>
      cases hc
      rw [ih hmore, List.map_cons]
    | _ => cases hc

/-- A pattern without special signs spells its text. -/
theorem plain?_eq_some {g : Glob} {s : String} (h : g.plain? = some s) : g = literal s := by
  obtain ⟨cs, hcs, rfl⟩ := Option.map_eq_some_iff.mp h
  rw [literal, String.toList_ofList, ← mapM_char?_eq_some hcs]

/-- A literal piece spells itself. -/
theorem plain?_literal (s : String) : (literal s).plain? = some s := by
  have hchars : ∀ cs : List Char, (cs.map GlobToken.char).mapM
      (fun | .char c => some c | _ => none : GlobToken → Option Char) = some cs := by
    intro cs
    induction cs with
    | nil => rfl
    | cons c cs ih => simp [List.mapM_cons, ih]
  have hplain : (literal s).plain? = some (String.ofList s.toList) :=
    congrArg (Option.map String.ofList) (hchars s.toList)
  rw [hplain, String.ofList_toList]

/-- Characters in front of a pattern are found in front of the text. -/
theorem matchTokens_append (cs : List Char) (ts : List GlobToken) (text : List Char) :
    matchTokens (cs.map GlobToken.char ++ ts) text = .hit ↔
      ∃ rest, text = cs ++ rest ∧ matchTokens ts rest = .hit := by
  induction cs generalizing text with
  | nil => simp
  | cons c cs ih =>
    cases text with
    | nil => simp [matchTokens]
    | cons d text =>
      rw [List.map_cons, List.cons_append, matchTokens]
      by_cases hd : d = c
      · simp [hd, ih]
      · simp [hd]

/-- Without tokens only the empty text is met. -/
theorem matchTokens_nil (text : List Char) : matchTokens [] text = .hit ↔ text = [] := by
  cases text <;> simp [matchTokens]

/-- Such a pattern matches its text only. -/
theorem isMatch_literal {s name : String} : (literal s).isMatch name = true ↔ name = s := by
  rw [isMatch, beq_iff_eq, literal, ← List.append_nil (s.toList.map _), matchTokens_append]
  simp [matchTokens_nil, String.toList_inj]

/-- A literal piece does not stand for several components. -/
theorem isRecursive_literal (s : String) : (literal s).isRecursive = false := by
  simp [isRecursive, literal]

/-! ## Components that are passed by names -/

/-- A component that is a name, or a pattern that is not tried on the two dots. -/
structure Ordinary (g : Glob) : Prop where
  isName : ∀ s, g.plain? = some s → Path.IsName s
  undotted : g.plain? = none → g.tokens.head? ≠ some (.char '.')

/-- A sequence of stars is added once. -/
theorem prefix_addStars (acc : List GlobToken) : acc.reverse <+: (addStars acc).reverse := by
  rw [addStars]
  split
  · exact List.prefix_rfl
  · rw [List.reverse_cons]
    exact List.prefix_append _ _

/-- What was read stays in front. -/
theorem reverse_prefix_of_readTokens {fuel pos : Nat} {prev : Option Char} {cs : List Char}
    {acc ts : List GlobToken} (h : readTokens fuel pos prev cs acc = .ok ts) :
    acc.reverse <+: ts := by
  have hcons : ∀ (token : GlobToken) (acc : List GlobToken),
      acc.reverse <+: (token :: acc).reverse := by
    intro token acc
    rw [List.reverse_cons]
    exact List.prefix_append _ _
  -- a step of the reader only puts tokens in front of `acc`
  fun_induction readTokens fuel pos prev cs acc generalizing ts with
  | case1 => cases h
  | case2 =>
    cases h
    exact List.prefix_rfl
  | case3 fuel pos prev c cs acc hany ih => exact (hcons _ acc).trans (ih h)
  | case4 => cases h
  | case5 =>
    cases h
    exact prefix_addStars _
  | case6 =>
    rename_i ih
    exact (prefix_addStars _).trans (ih h)
  | case7 => cases h
  | case8 => cases h
  | case9 =>
    rename_i ih
    exact (hcons _ _).trans (ih h)
  | case10 =>
    rename_i ih
    exact (hcons _ _).trans (ih h)
  | case11 => cases h
  | case12 =>
    rename_i ih
    exact (hcons _ _).trans (ih h)
  | case13 => cases h
  | case14 =>
    rename_i ih
    exact (hcons _ _).trans (ih h)

/-- A piece that is read has the tokens of its text. -/
theorem exists_readTokens_of_parse? {s : String} {g : Glob} (h : parse? s = some g) :
    readTokens (s.length + 1) 0 none s.toList [] = .ok g.tokens := by
  have hparse := eq_ok_of_toOption h
  rw [parse] at hparse
  cases hread : readTokens (s.length + 1) 0 none s.toList [] with
  | error e => simp [hread, Except.map] at hparse
  | ok ts =>
    rw [hread, Except.map, Except.ok.injEq] at hparse
    rw [← hparse]

/-- The first token comes from the first character: a special sign is not read as a character. -/
theorem exists_head?_of_readTokens {fuel pos : Nat} {prev : Option Char} {text : List Char}
    {acc ts : List GlobToken} (h : readTokens fuel pos prev text acc = .ok ts) (hacc : acc = [])
    (htext : text ≠ []) :
    ∃ token, ts.head? = some token ∧ ∀ c, token = .char c → text.head? = some c := by
  -- what was read first stays in front
  have hfront : ∀ {fuel pos : Nat} {prev : Option Char} {cs : List Char} {token : GlobToken},
      readTokens fuel pos prev cs [token] = .ok ts → ts.head? = some token := by
    intro fuel pos prev cs token hread
    obtain ⟨more, rfl⟩ := reverse_prefix_of_readTokens hread
    rfl
  fun_induction readTokens fuel pos prev text acc with
  | case1 => cases h
  | case2 => exact absurd rfl htext
  | case3 fuel pos prev c cs acc hany =>
    subst hacc
    exact ⟨.anyChar, hfront h, by simp⟩
  | case4 => cases h
  | case5 =>
    subst hacc
    cases h
    exact ⟨.anyComponents, rfl, by simp⟩
  | case6 =>
    subst hacc
    exact ⟨.anyComponents, hfront h, by simp⟩
  | case7 => cases h
  | case8 => cases h
  | case9 =>
    subst hacc
    exact ⟨.anySequence, hfront h, by simp⟩
  | case10 =>
    subst hacc
    exact ⟨_, hfront h, by simp⟩
  | case11 => cases h
  | case12 =>
    subst hacc
    exact ⟨_, hfront h, by simp⟩
  | case13 => cases h
  | case14 =>
    subst hacc
    exact ⟨_, hfront h, by simp⟩

/-- A piece that is not empty and does not begin with a point is passed by names. -/
theorem ordinary_of_parse? {piece : String} {g : Glob} (hslash : '/' ∉ piece.toList)
    (hne : piece ≠ "") (hdot : piece.toList.head? ≠ some '.') (h : parse? piece = some g) :
    g.Ordinary := by
  have hread := exists_readTokens_of_parse? h
  cases hcs : piece.toList with
  | nil => exact absurd (String.toList_eq_nil_iff.mp hcs) hne
  | cons c cs =>
    rw [hcs] at hread hdot
    obtain ⟨token, hhead, hchar⟩ := exists_head?_of_readTokens hread rfl (by simp)
    have hundotted : g.tokens.head? ≠ some (.char '.') := by
      rw [hhead]
      intro hpoint
      exact hdot (hchar '.' (Option.some.inj hpoint))
    refine ⟨?_, fun _ => hundotted⟩
    -- a text that is spelled here is not empty and not one of the two dots
    intro s hplain
    have hsingle := (single_of_parse? hslash h).slash_not_mem hplain
    rw [plain?_eq_some hplain] at hhead hundotted
    refine ⟨?_, ?_, ?_, hsingle⟩
    · rintro rfl
      cases hhead
    · rintro rfl
      exact hundotted rfl
    · rintro rfl
      exact hundotted rfl

/-- A name is an ordinary piece. -/
theorem ordinary_literal {name : String} (h : Path.IsName name) : (literal name).Ordinary := by
  refine ⟨?_, ?_⟩
  · intro s hplain
    rw [plain?_literal, Option.some.injEq] at hplain
    exact hplain ▸ h
  · intro hplain
    rw [plain?_literal] at hplain
    cases hplain

/-! ## Patterns of several components -/

/-- A text that can be read at the front of a pattern or behind a slash. -/
def Readable (cs : List Char) : Prop :=
  ∀ fuel pos prev acc, prev.all (· == '/') = true → cs.length < fuel →
    ∃ ts, readTokens fuel pos prev cs acc = .ok ts

/-- A set is closed by the first bracket behind its first character. -/
theorem setBody?_eq_some {cs set rest : List Char} (h : setBody? cs = some (set, rest)) :
    ∃ c body, set = c :: body ∧ cs = c :: (body ++ ']' :: rest) ∧ ']' ∉ body := by
  cases cs with
  | nil => cases h
  | cons c cs =>
    rw [setBody?] at h
    cases hdrop : cs.dropWhile (· != ']') with
    | nil => simp [hdrop] at h
    | cons d more =>
      simp only [hdrop, Option.some.injEq, Prod.mk.injEq] at h
      obtain ⟨rfl, rfl⟩ := h
      have hcut := List.takeWhile_append_dropWhile (p := (· != ']')) (l := cs)
      have hd := List.head?_dropWhile_not (· != ']') cs
      rw [hdrop] at hcut hd
      -- what the dropping stops at is the closing bracket
      have hclose : d = ']' := by simpa using hd
      rw [hclose] at hcut
      refine ⟨c, _, rfl, by rw [hcut], ?_⟩
      intro hmem
      have hopen := List.all_eq_true.mp (List.all_takeWhile (p := (· != ']')) (l := cs)) _ hmem
      simp at hopen

/-- A set goes up to the first closing bracket behind its first character. -/
theorem setBody?_cons {c : Char} {body : List Char} (h : ']' ∉ body) (rest : List Char) :
    setBody? (c :: (body ++ ']' :: rest)) = some (c :: body, rest) := by
  have hall : ∀ d ∈ body, (d != ']') = true := by
    intro d hd
    rw [bne_iff_ne]
    rintro rfl
    exact h hd
  rw [setBody?, List.takeWhile_append_of_pos hall, List.dropWhile_append_of_pos hall]
  simp

/-- What stands behind a set does not change it. -/
theorem setBody?_append {cs set rest : List Char} (h : setBody? cs = some (set, rest))
    (more : List Char) : setBody? (cs ++ more) = some (set, rest ++ more) := by
  obtain ⟨c, body, rfl, rfl, hbody⟩ := setBody?_eq_some h
  rw [← setBody?_cons hbody]
  simp

/-- A set takes up some of the text. -/
theorem length_of_setBody? {cs set rest : List Char} (h : setBody? cs = some (set, rest)) :
    rest.length < cs.length := by
  obtain ⟨c, body, -, rfl, -⟩ := setBody?_eq_some h
  simp
  omega

/-- A piece is read in the same way when a slash and a readable text follow it. -/
theorem exists_readTokens_append {fuel pos : Nat} {prev : Option Char} {cs : List Char}
    {acc ts : List GlobToken} (h : readTokens fuel pos prev cs acc = .ok ts) (hslash : '/' ∉ cs)
    {tail : List Char} (htail : tail = [] ∨ ∃ more, tail = '/' :: more ∧ Readable more)
    {fuel' pos' : Nat} {prev' : Option Char} (acc' : List GlobToken)
    (hprev : prev.all (· == '/') = true → prev'.all (· == '/') = true)
    (hfuel : (cs ++ tail).length < fuel') :
    ∃ ts', readTokens fuel' pos' prev' (cs ++ tail) acc' = .ok ts' := by
  have hbehind : ∀ {c : Char} {cs : List Char}, '/' ∉ c :: cs → '/' ∉ cs :=
    fun hc hmem => hc (List.mem_cons_of_mem _ hmem)
  fun_induction readTokens fuel pos prev cs acc generalizing ts fuel' pos' prev' acc' with
  | case1 => cases h
  | case2 =>
    obtain ⟨fuel', rfl⟩ := Nat.exists_eq_add_one.mpr (Nat.zero_lt_of_lt hfuel)
    -- the piece ends here: a slash leads to the text behind it
    rcases htail with rfl | ⟨more, rfl, hmore⟩
    · exact ⟨_, readTokens_nil _ _ _ _⟩
    · rw [List.nil_append, readTokens_char _ _ _ _ _ (by decide)]
      exact hmore _ _ _ _ rfl (by simpa using hfuel)
  | case3 fuel pos prev c cs acc hany ih =>
    obtain ⟨fuel', rfl⟩ := Nat.exists_eq_add_one.mpr (Nat.zero_lt_of_lt hfuel)
    rw [List.cons_append, beq_iff_eq.mp hany, readTokens_anyChar]
    exact ih h (hbehind hslash) _ (by simp [beq_iff_eq.mp hany]) (by simpa using hfuel)
  | case4 => cases h
  | case5 fuel pos prev c acc hany hstar hcomponent add =>
    obtain ⟨fuel', rfl⟩ := Nat.exists_eq_add_one.mpr (Nat.zero_lt_of_lt hfuel)
    rw [beq_iff_eq.mp hstar]
    -- two stars are a whole component, whether the pattern ends or a slash follows
    rcases htail with rfl | ⟨more, rfl, hmore⟩
    · exact ⟨_, readTokens_stars _ _ _ (hprev hcomponent)⟩
    · rw [List.cons_append, List.cons_append, List.nil_append,
        readTokens_stars_slash _ _ _ _ (hprev hcomponent)]
      exact hmore _ _ _ _ rfl (by simp at hfuel; omega)
  | case6 => simp at hslash
  | case7 => cases h
  | case8 => cases h
  | case9 fuel pos prev c acc hany hstar rest htwo hone ih =>
    obtain ⟨fuel', rfl⟩ := Nat.exists_eq_add_one.mpr (Nat.zero_lt_of_lt hfuel)
    -- a star that is alone in its piece stays alone, since the tail does not begin with one
    have hnext : (rest ++ tail).head? ≠ some '*' := by
      cases rest with
      | nil => rcases htail with rfl | ⟨more, rfl, -⟩ <;> simp
      | cons d rest =>
        rw [List.cons_append, List.head?_cons]
        rintro hd
        cases hd
        exact hone rest rfl
    rw [List.cons_append, beq_iff_eq.mp hstar, readTokens_star _ _ _ _ hnext]
    exact ih h (hbehind hslash) _ (by simp [beq_iff_eq.mp hstar]) (by simpa using hfuel)
  | case10 fuel pos prev c acc hany hstar hset body set rest hbody ih =>
    obtain ⟨fuel', rfl⟩ := Nat.exists_eq_add_one.mpr (Nat.zero_lt_of_lt hfuel)
    have hlength := length_of_setBody? hbody
    -- the set is closed within the piece, and what follows does not change it
    rw [List.cons_append, List.cons_append, beq_iff_eq.mp hset,
      readTokens_except _ _ _ _ (setBody?_append hbody tail)]
    refine ih h (fun hmem => hslash ?_) _ (by simp) (by simp at hfuel ⊢; omega)
    simp [mem_of_setBody? hbody hmem]
  | case11 => cases h
  | case12 fuel pos prev c acc hany hstar hset body hbang set rest hbody ih =>
    obtain ⟨fuel', rfl⟩ := Nat.exists_eq_add_one.mpr (Nat.zero_lt_of_lt hfuel)
    have hlength := length_of_setBody? hbody
    have hfirst : (body ++ tail).head? ≠ some '!' := by
      cases body with
      | nil => cases hbody
      | cons d body =>
        rw [List.cons_append, List.head?_cons]
        rintro hd
        cases hd
        exact hbang body rfl
    rw [List.cons_append, beq_iff_eq.mp hset,
      readTokens_within _ _ _ _ hfirst (setBody?_append hbody tail)]
    refine ih h (fun hmem => hslash ?_) _ (by simp) (by simp at hfuel ⊢; omega)
    exact List.mem_cons_of_mem _ (mem_of_setBody? hbody hmem)
  | case13 => cases h
  | case14 fuel pos prev c cs acc hany hstar hset ih =>
    obtain ⟨fuel', rfl⟩ := Nat.exists_eq_add_one.mpr (Nat.zero_lt_of_lt hfuel)
    rw [List.cons_append, readTokens_char _ _ _ _ _ (by simp_all)]
    exact ih h (hbehind hslash) _ id (by simpa using hfuel)

/-- Pieces that can be read make a text that can be read. -/
theorem readable_intercalate {pieces : List String}
    (h : ∀ piece ∈ pieces, '/' ∉ piece.toList ∧ (parse? piece).isSome = true) :
    Readable ("/".intercalate pieces).toList := by
  induction pieces with
  | nil =>
    intro fuel pos prev acc _ hfuel
    obtain ⟨fuel, rfl⟩ := Nat.exists_eq_add_one.mpr (Nat.zero_lt_of_lt hfuel)
    exact ⟨_, readTokens_nil _ _ _ _⟩
  | cons piece pieces ih =>
    have ih := ih fun p hp => h p (List.mem_cons_of_mem _ hp)
    obtain ⟨hslash, hparse⟩ := h piece List.mem_cons_self
    obtain ⟨g, hg⟩ := Option.isSome_iff_exists.mp hparse
    have hread := exists_readTokens_of_parse? hg
    intro fuel pos prev acc hprev hfuel
    -- behind the piece stands nothing, or a slash and the other pieces
    have hchars : ∃ tail, ("/".intercalate (piece :: pieces)).toList = piece.toList ++ tail ∧
        (tail = [] ∨ ∃ more, tail = '/' :: more ∧ Readable more) := by
      cases pieces with
      | nil => exact ⟨[], by simp, Or.inl rfl⟩
      | cons next pieces =>
        exact ⟨'/' :: ("/".intercalate (next :: pieces)).toList,
          by simp [String.intercalate_cons_cons], Or.inr ⟨_, rfl, ih⟩⟩
    obtain ⟨tail, htext, htail⟩ := hchars
    rw [htext] at hfuel ⊢
    exact exists_readTokens_append hread hslash htail acc (fun _ => hprev) hfuel

/-- The pieces of a path, joined again. -/
theorem intercalate_splitText (s : String) : "/".intercalate (Path.splitText '/' s) = s := by
  rw [← String.toList_inj, String.toList_intercalate, Path.splitText, List.map_map,
    Path.splitChars_eq_splitOn]
  simp

/-- A pattern whose pieces can be read can be read. -/
theorem parse?_isSome_of_splitText {s : String}
    (h : ∀ piece ∈ Path.splitText '/' s, (parse? piece).isSome = true) :
    (parse? s).isSome = true := by
  have hreadable := readable_intercalate fun piece hpiece =>
    ⟨Path.not_mem_of_mem_splitText hpiece, h piece hpiece⟩
  rw [intercalate_splitText] at hreadable
  obtain ⟨ts, hts⟩ := hreadable (s.length + 1) 0 none [] rfl
    (by rw [String.length_toList]; exact Nat.lt_succ_self _)
  rw [parse?, parse, hts]
  rfl

/-! ## Patterns below a directory -/

/-- A pattern below a directory has the pieces of both. -/
theorem splitText_join {base : Place} (hbase : Path.AreNames base) {inc : String}
    (hinc : Path.isAbsolute inc = false) :
    Path.splitText '/' (Path.join (Path.absolute base) inc) =
      "" :: (base ++ Path.splitText '/' inc) := by
  have hroot : Path.splitText '/' ("/" ++ inc) = "" :: Path.splitText '/' inc := by
    have hsplit := Path.splitText_slash "" inc
    rwa [String.empty_append] at hsplit
  rw [Path.join, hinc, Bool.false_or, if_neg (by simp [Path.absolute])]
  by_cases hne : base = []
  · subst hne
    exact hroot
  · rw [if_neg (by simpa using Path.getLast?_absolute hbase hne), Path.splitText_slash,
      Path.splitText_absolute hbase hne, List.cons_append]

/-- An empty last piece is left out. -/
theorem pieces_eq {path last : String} {front : List String}
    (h : Path.splitText '/' path = front ++ [last]) :
    pieces path = if last = "" then front else front ++ [last] := by
  rw [pieces, h, List.reverse_append, List.reverse_singleton, List.singleton_append]
  by_cases hlast : last = ""
  · simp [hlast]
  · simp [hlast]

/-- A path has a last piece. -/
theorem exists_splitText_eq (path : String) :
    ∃ front last, Path.splitText '/' path = front ++ [last] := by
  obtain hnil | ⟨front, last, h⟩ := List.eq_nil_or_concat (Path.splitText '/' path)
  · exact absurd hnil (Path.splitText_ne_nil '/' path)
  · exact ⟨front, last, by rw [h, List.concat_eq_append]⟩

/-- The pieces of a pattern below a directory are the names of the directory and its own. -/
theorem pieces_join {base : Place} (hbase : Path.AreNames base) {inc : String}
    (hinc : Path.isAbsolute inc = false) :
    pieces (Path.join (Path.absolute base) inc) = "" :: (base ++ pieces inc) := by
  obtain ⟨front, last, hsplit⟩ := exists_splitText_eq inc
  have hjoin : Path.splitText '/' (Path.join (Path.absolute base) inc) =
      ("" :: (base ++ front)) ++ [last] := by
    rw [splitText_join hbase hinc, hsplit]
    simp
  rw [pieces_eq hjoin, pieces_eq hsplit]
  split <;> simp

/-- Only an empty piece is left out. -/
theorem mem_splitText {path piece : String} (h : piece ∈ Path.splitText '/' path) :
    piece ∈ pieces path ∨ piece = "" := by
  obtain ⟨front, last, hsplit⟩ := exists_splitText_eq path
  rw [hsplit, List.mem_append, List.mem_singleton] at h
  rw [pieces_eq hsplit]
  split
  · rename_i hlast
    exact h.imp_right fun heq => heq.trans hlast
  · exact Or.inl (by simpa using h)

/-- No piece is added. -/
theorem pieces_subset (path : String) : pieces path ⊆ Path.splitText '/' path := by
  obtain ⟨front, last, hsplit⟩ := exists_splitText_eq path
  rw [pieces_eq hsplit, hsplit]
  split
  · exact List.subset_append_left _ _
  · exact List.Subset.refl _

/-- A pattern has a piece, as its signs stand in one. -/
theorem pieces_ne_nil {path : String} (h : isPattern path = true) : pieces path ≠ [] := by
  obtain ⟨front, last, hsplit⟩ := exists_splitText_eq path
  rw [pieces_eq hsplit]
  split
  · -- one empty piece is the empty path, which is no pattern
    rename_i hlast
    rintro rfl
    rw [hlast, List.nil_append, Path.splitText_eq_singleton_iff] at hsplit
    rw [hsplit] at h
    cases h
  · simp

/-- An absolute path has an empty piece before its first slash. -/
theorem isAbsolute_of_pieces {path : String} (h : "" ∉ pieces path) :
    Path.isAbsolute path = false := by
  rw [Bool.eq_false_iff]
  intro habsolute
  rw [Path.isAbsolute, beq_iff_eq] at habsolute
  obtain ⟨cs, hcs⟩ := List.head?_eq_some_iff.mp habsolute
  have hpath : path = "/" ++ String.ofList cs := by
    rw [← String.toList_inj, hcs]
    simp
  obtain ⟨front, last, hsplit⟩ := exists_splitText_eq (String.ofList cs)
  -- an absolute path has an empty piece in front
  have hall := Path.splitText_slash "" (String.ofList cs)
  rw [String.empty_append, ← hpath, hsplit, ← List.append_assoc] at hall
  refine h ?_
  rw [pieces_eq hall, show Path.splitText '/' "" = [""] from rfl]
  split <;> simp

/-- The components of a path whose pieces are names. -/
theorem componentsOf_splitText {path : String} (h : Path.AreNames (pieces path)) :
    Path.componentsOf (Path.splitText '/' path) = (pieces path).map Path.Component.name := by
  obtain ⟨front, last, hsplit⟩ := exists_splitText_eq path
  rw [pieces_eq hsplit] at h ⊢
  rw [hsplit]
  split
  · -- an empty last piece is no component
    rename_i hlast
    rw [if_pos hlast] at h
    subst hlast
    rw [Path.componentsOf_append, Path.componentsOf_names h]
    simp [Path.componentsOf, Path.componentOf?]
  · rename_i hlast
    rw [if_neg hlast] at h
    exact Path.componentsOf_names h

/-- A pattern of names does not start with a dot. -/
theorem head?_splitText {path : String} (h : Path.AreNames (pieces path)) :
    (Path.splitText '/' path).head? ≠ some "." := by
  intro hdot
  rcases mem_splitText (List.mem_of_mem_head? hdot) with hmem | hempty
  · exact (h "." hmem).ne_current rfl
  · exact absurd hempty (by decide)

end TextHarvest.Glob
