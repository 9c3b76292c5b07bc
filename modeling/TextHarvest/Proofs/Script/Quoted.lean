import TextHarvest.Harvest.Script
import TextHarvest.Proofs.Patch
import TextHarvest.Proofs.Script.Literal

/-!
# Reading back generated literals

A text that goes into markup or a script is written as a string literal. Every character is written
as itself or by an escape that stands for it, so the literal has no line break or control character
in it, and reading it gives the text again. As an expression of its own it is one token, and a
harvest of it takes the text or leaves the literal alone.

Main results:

* `Text.escapeChar_cases` — how a character is written, and that it is read back.
* `Script.readString_written` — the inside of a generated literal is read as its text.
* `Script.parseExpr_quoted` — a generated literal is an expression.
* `Harvester.readsAsText_quoted` — what a generated literal looks like, is read as and comes to.
-/

namespace TextHarvest

open Script

/-! ## Written characters -/

namespace Text

/-- Whether a character is no control character and does not end a line. -/
def isPrintable (d : Char) : Bool :=
  0x20 ≤ d.toNat && !isLineBreak d

theorem isPrintable_iff {d : Char} :
    isPrintable d = true ↔ 0x20 ≤ d.toNat ∧ isLineBreak d = false := by
  rw [isPrintable, Bool.and_eq_true, decide_eq_true_eq, Bool.not_eq_true']

/-- The rest of an escape for `c`, behind its backslash. -/
structure IsEscape (q : Quote) (c : Char) (e : List Char) : Prop where
  reads : ∀ rest, readEscape false (e ++ rest) = .code (some c.toNat) e.length
  printable : e.all isPrintable = true
  unquoted : q = .single → '\x22' ∉ e

theorem hex4_control : ∀ n < 32, ∃ a b, hex4 n = ['0', '0', a, b] := by
  intro n hn
  refine ⟨hexDigit (n / 16 % 16), hexDigit (n % 16), ?_⟩
  revert n
  decide

/-- Other control characters are written by their code. -/
theorem isEscape_hex4 (q : Quote) {c : Char} (h : c.toNat < 0x20) :
    IsEscape q c ('u' :: hex4 c.toNat) where
  reads rest := by
    have hvalue := digitsValue?_hex4 c.toNat h
    obtain ⟨a, b, hdigits⟩ := hex4_control c.toNat h
    rw [hdigits] at hvalue ⊢
    rw [List.cons_append, readEscape.eq_def]
    dsimp only [List.cons_append, List.nil_append]
    -- none of the nine other kinds of escapes starts with this letter
    iterate 9 rw [if_neg (by decide)]
    rw [if_pos (by decide)]
    simp [hvalue]
  printable := by
    have hdigits : ∀ n < 32, ('u' :: hex4 n).all isPrintable = true := by decide
    exact hdigits c.toNat h
  unquoted _ := by
    have hdigits : ∀ n < 32, '\x22' ∉ 'u' :: hex4 n := by decide
    exact hdigits c.toNat h

/-- Every written form but that of a plain character is a backslash and an escape. -/
theorem escapeChar_cases (q : Quote) (c : Char) :
    (∃ e, escapeChar q c = '\\' :: e ∧ IsEscape q c e) ∨
    (escapeChar q c = [c] ∧ c ≠ q.mark ∧ c ≠ '\\' ∧ c ≠ '\x22' ∧
      isLineBreak c = false ∧ 0x20 ≤ c.toNat) := by
  rw [escapeChar.eq_def]
  -- a few characters have an escape of their own
  by_cases hslash : c == '\\'
  · rw [if_pos hslash]
    rw [beq_iff_eq] at hslash
    exact Or.inl ⟨_, rfl, fun rest => by rw [hslash]; rfl, rfl, fun _ => by decide⟩
  rw [if_neg hslash]
  by_cases hfeed : c == '\n'
  · rw [if_pos hfeed]
    rw [beq_iff_eq] at hfeed
    exact Or.inl ⟨_, rfl, fun rest => by rw [hfeed]; rfl, rfl, fun _ => by decide⟩
  rw [if_neg hfeed]
  by_cases hreturn : c == '\r'
  · rw [if_pos hreturn]
    rw [beq_iff_eq] at hreturn
    exact Or.inl ⟨_, rfl, fun rest => by rw [hreturn]; rfl, rfl, fun _ => by decide⟩
  rw [if_neg hreturn]
  by_cases htab : c == '\t'
  · rw [if_pos htab]
    rw [beq_iff_eq] at htab
    exact Or.inl ⟨_, rfl, fun rest => by rw [htab]; rfl, rfl, fun _ => by decide⟩
  rw [if_neg htab]
  by_cases hline : c == '\u2028'
  · rw [if_pos hline]
    rw [beq_iff_eq] at hline
    exact Or.inl ⟨_, rfl, fun rest => by rw [hline]; rfl, rfl, fun _ => by decide⟩
  rw [if_neg hline]
  by_cases hparagraph : c == '\u2029'
  · rw [if_pos hparagraph]
    rw [beq_iff_eq] at hparagraph
    exact Or.inl ⟨_, rfl, fun rest => by rw [hparagraph]; rfl, rfl, fun _ => by decide⟩
  rw [if_neg hparagraph]
  by_cases hdouble : c == '\x22'
  · rw [if_pos hdouble]
    rw [beq_iff_eq] at hdouble
    cases q with
    | double => exact Or.inl ⟨_, rfl, fun rest => by rw [hdouble]; rfl, rfl, by decide⟩
    | single => exact Or.inl ⟨_, rfl, fun rest => by rw [hdouble]; rfl, rfl, by decide⟩
  rw [if_neg hdouble]
  by_cases hsingle : c == '\x27' && q == .single
  · rw [if_pos hsingle]
    rw [Bool.and_eq_true, beq_iff_eq] at hsingle
    exact Or.inl ⟨_, rfl, fun rest => by rw [hsingle.1]; rfl, rfl, fun _ => by decide⟩
  rw [if_neg hsingle]
  by_cases hlow : c.toNat < 0x20
  · rw [if_pos hlow]
    exact Or.inl ⟨_, rfl, isEscape_hex4 q hlow⟩
  rw [if_neg hlow]
  -- any other is written as itself
  refine Or.inr ⟨rfl, ?_, by simpa using hslash, by simpa using hdouble, ?_, Nat.le_of_not_lt hlow⟩
  · cases q with
    | double => simpa [Quote.mark] using hdouble
    | single => simpa [Quote.mark] using hsingle
  · rw [isLineBreak, Bool.eq_false_iff.mpr hfeed, Bool.eq_false_iff.mpr hreturn,
      Bool.eq_false_iff.mpr hline, Bool.eq_false_iff.mpr hparagraph]
    rfl

/-- No line break and no control character stands in a generated literal. -/
theorem printable_of_mem_quoted {text : String} {q : Quote} {d : Char}
    (hd : d ∈ (quoted text q).toList) : 0x20 ≤ d.toNat ∧ isLineBreak d = false := by
  have hmark : 0x20 ≤ q.mark.toNat ∧ isLineBreak q.mark = false := by cases q <;> decide
  rw [quoted, String.toList_ofList, List.mem_cons, List.mem_append, List.mem_flatMap,
    List.mem_singleton] at hd
  rcases hd with rfl | ⟨c, -, hd⟩ | rfl
  · exact hmark
  · -- an escape is printable in all its characters, and the others stand as they are
    rcases escapeChar_cases q c with ⟨e, he, hescape⟩ | ⟨hc, -, -, -, hbreak, hlow⟩
    · rw [he] at hd
      rcases List.mem_cons.mp hd with rfl | hd
      · decide
      · exact isPrintable_iff.mp (List.all_eq_true.mp hescape.printable d hd)
    · rw [hc, List.mem_singleton] at hd
      subst hd
      exact ⟨hlow, hbreak⟩
  · exact hmark

/-- A literal in single quotes holds no double quote. -/
theorem not_mem_quoted_single (text : String) : '\x22' ∉ (quoted text .single).toList := by
  intro hd
  rw [quoted, String.toList_ofList, List.mem_cons, List.mem_append, List.mem_flatMap,
    List.mem_singleton] at hd
  rcases hd with hd | ⟨c, -, hd⟩ | hd
  · exact absurd hd (by decide)
  · -- a single mark is escaped between single quotes, and no escape has one in it
    rcases escapeChar_cases .single c with ⟨e, he, hescape⟩ | ⟨hc, -, -, hquote, -⟩
    · rw [he] at hd
      rcases List.mem_cons.mp hd with hd | hd
      · exact absurd hd (by decide)
      · exact hescape.unquoted rfl hd
    · rw [hc, List.mem_singleton] at hd
      exact hquote hd.symm
  · exact absurd hd (by decide)

end Text

/-! ## Reading the literal -/

namespace Script

/-- Reading takes one character of the text after the other, however it is written. -/
theorem readString_escapeChar (q : Quote) (c : Char) (rest : List Char) (pos : Nat)
    (codes : List Nat) : readString q.mark (Text.escapeChar q c ++ rest) pos 0 codes =
      readString q.mark rest (pos + Chars.size (Text.escapeChar q c)) 0 (c.toNat :: codes) := by
  rcases Text.escapeChar_cases q c with ⟨e, he, hescape⟩ | ⟨hc, hmark, hslash, -, hbreak, -⟩
  · have hmark : ('\\' == q.mark) = false := by cases q <;> rfl
    have hsize : pos + 1 + Chars.size e = pos + Chars.size ('\\' :: e) :=
      Nat.add_assoc pos 1 (Chars.size e)
    rw [he, List.cons_append, readString, hmark, hescape.reads]
    simp only [readString_skip, pushCode_toNat, hsize]
    rfl
  · rw [isLineBreak, Bool.or_eq_false_iff, Bool.or_eq_false_iff, Bool.or_eq_false_iff] at hbreak
    rw [hc, List.singleton_append, readString]
    simp [hmark, hslash, hbreak.1.1.1, hbreak.1.1.2, pushCode_toNat]

/-- The inside of a generated literal is read as its text. -/
theorem readString_written (q : Quote) (cs rest : List Char) (pos : Nat) (codes : List Nat) :
    readString q.mark (cs.flatMap (Text.escapeChar q) ++ q.mark :: rest) pos 0 codes =
      .closed (textOfCodes? ((cs.map Char.toNat).reverse ++ codes))
        (pos + Chars.size (cs.flatMap (Text.escapeChar q)) + 1) rest := by
  induction cs generalizing pos codes with
  | nil => simp [readString]
  | cons c cs ih =>
    rw [List.flatMap_cons, List.append_assoc, readString_escapeChar, ih]
    simp [Nat.add_assoc]

/-- No gap starts with a quote. -/
theorem skipGap_mark (q : Quote) (cs : List Char) (pos : Nat) (newline : Bool) :
    skipGap .blank (q.mark :: cs) pos newline = ⟨q.mark :: cs, pos, newline, none⟩ := by
  cases q <;> rfl

/-- A quote starts a string literal. -/
theorem scanToken_mark (q : Quote) (cs : List Char) (pos : Nat) :
    scanToken (q.mark :: cs) pos =
      match readString q.mark cs (pos + 1) 0 [] with
      | .closed value stop after => (.str value, stop, after)
      | .badEscape offset => (.error offset, pos + 1, cs) := by
  have hstart : Text.isIdStart q.mark = false := by cases q <;> rfl
  have hmark : (q.mark == '\x22' || q.mark == '\x27') = true := by cases q <;> rfl
  rw [scanToken, hstart, hmark]
  rfl

/-- The size of a generated literal. -/
theorem size_quoted (text : String) (q : Quote) : Chars.size (Text.quoted text q).toList =
    Chars.size (text.toList.flatMap (Text.escapeChar q)) + 1 + 1 := by
  have hmark : q.mark.utf8Size = 1 := by cases q <;> rfl
  rw [Text.quoted, String.toList_ofList, Chars.size_cons, Chars.size_append, Chars.size_cons,
    Chars.size_nil, hmark]
  omega

/-- A generated literal is one token that takes up the whole text. -/
theorem scan_quoted (text : String) (q : Quote) :
    scan (Text.quoted text q).toList 0 =
      (⟨.str (some text), ⟨0, Chars.size (Text.quoted text q).toList⟩, true⟩,
        (Text.quoted text q).toList, []) := by
  have hread := readString_written q text.toList [] (0 + 1) []
  have hstop : 0 + 1 + Chars.size (text.toList.flatMap (Text.escapeChar q)) =
      Chars.size (text.toList.flatMap (Text.escapeChar q)) + 1 := by omega
  rw [List.append_nil, textOfCodes?_toNat, String.ofList_toList, hstop] at hread
  rw [size_quoted, Text.quoted, String.toList_ofList, scan, skipGap_mark]
  dsimp only
  rw [scanToken_mark, hread]
  rfl

end Script

namespace Script.Grammar

/-- The state behind the last token of a text. -/
def stateBehind (stop : Nat) : State :=
  ⟨⟨.eof, ⟨stop, stop⟩, stop == 0⟩, [], [], stop, []⟩

/-- A string literal that no token follows is an expression. -/
theorem parser_literal (fuel bound stop : Nat) (value : Option String) (cs : List Char) :
    parser (fuel + 3) .expr { dialect := .ts, bound := bound + 1, allowIn := false }
        ⟨⟨.str value, ⟨0, stop + 1⟩, true⟩, cs, [], 0, cs⟩ =
      .ok (.leaf (.strLit value) ⟨0, stop + 1⟩) (stateBehind (stop + 1)) :=
  rfl

end Script.Grammar

namespace Script

/-- A generated literal is an expression. -/
theorem parseExpr_quoted (text : String) (q : Quote) :
    parseExpr (Text.quoted text q) = .ok (.leaf (.strLit (some text))
      ⟨0, Chars.size (Text.quoted text q).toList⟩) := by
  have hdrop : dropMark (Text.quoted text q).toList = (Text.quoted text q).toList := by
    apply dropMark_of_head?_ne
    rw [Text.quoted, String.toList_ofList]
    cases q <;> simp [Quote.mark]
  -- the quoted text ends in its mark, so nothing is trimmed at the end
  have hend : Chars.trimEnd (Text.quoted text q).toList = (Text.quoted text q).toList := by
    have hmark : Chars.isBlank q.mark = false := by cases q <;> rfl
    rw [Text.quoted, String.toList_ofList, Chars.trimEnd, ← List.cons_append, List.reverse_append]
    simp [hmark]
  obtain ⟨fuel, hfuel⟩ : ∃ fuel, fuelFor (Text.quoted text q).toList = fuel + 3 :=
    ⟨16 * (Text.quoted text q).toList.length + 61, rfl⟩
  have hparse := Grammar.parser_literal fuel (fuel + 2)
    (Chars.size (text.toList.flatMap (Text.escapeChar q)) + 1) (some text)
    (Text.quoted text q).toList
  rw [← size_quoted] at hparse
  rw [parseExpr, hdrop, hfuel, startState, scan_quoted]
  dsimp only
  rw [hparse]
  simp [Tree.leaf, Tree.span, hend]

end Script

/-! ## Harvesting the literal -/

namespace Harvester

open Harvest

/-- A harvest of a generated literal takes the actions for one literal outside all calls. -/
theorem harvestExpr_quoted (h : Harvester) (text : String) (q quote : Quote) :
    h.harvestExpr (Text.quoted text q) quote =
      .ok (ofActions (Site.literal
        { harvester := h, source := (Text.quoted text q).toList, quote }
        ⟨0, Chars.size (Text.quoted text q).toList⟩ (some text) .plain)) := by
  rw [harvestExpr, parseExpr_quoted, Except.map, Tree.leaf, Role.plain, walk]
  simp only [enter, visits, walkAll, leave, List.append_nil]

/-- What becomes of a text that is written as a literal. -/
structure ReadsAsText (h : Harvester) (text : String) (q : Quote) : Prop where
  /-- The literal is an expression that takes up the whole code and has the text for its value. -/
  parsed : parseExpr (Text.quoted text q) = .ok (.leaf (.strLit (some text))
    ⟨0, Chars.size (Text.quoted text q).toList⟩)
  /-- No line terminator and no control character stands in it. -/
  printable : ∀ d ∈ (Text.quoted text q).toList, 0x20 ≤ d.toNat ∧ isLineBreak d = false
  /-- In single quotes there is no double quote either. -/
  unquoted : q = .single → '\x22' ∉ (Text.quoted text q).toList
  /-- A text that is taken is filed under its key, and the code comes to its call. -/
  taken : ∀ quote : Quote, h.options.extractFromText = true →
    h.accepts (Text.trim text) = true →
    ∃ out, h.harvestExpr (Text.quoted text q) quote = .ok out ∧
      out.catalog.entries = [(h.keyFor (Text.trim text), Text.trim text)] ∧
      out.findings = [⟨Text.trim text, .stringLiteral, false⟩] ∧
      out.patch.apply (Text.quoted text q) =
        h.callText (h.keyFor (Text.trim text)) (Text.trim text) quote false
  /-- Any other text leaves the code alone. -/
  left : ∀ quote : Quote, ¬(h.options.extractFromText = true ∧
      h.accepts (Text.trim text) = true) →
    ∃ out, h.harvestExpr (Text.quoted text q) quote = .ok out ∧
      out.patch.edits = [] ∧ out.catalog.entries = [] ∧ out.findings = []

/-- A text that is written as a literal is read back as it was, and a harvest of the literal takes
the text whenever its options ask for it. -/
theorem readsAsText_quoted (h : Harvester) (text : String) (q : Quote) : ReadsAsText h text q where
  parsed := parseExpr_quoted text q
  printable _ := Text.printable_of_mem_quoted
  unquoted hsingle := by
    subst hsingle
    exact Text.not_mem_quoted_single text
  taken quote htexts haccepts := by
    refine ⟨_, harvestExpr_quoted h text q quote, ?_⟩
    -- outside a frame nothing is excluded, so only the options and the classifier decide
    have htakes : Site.takesLiteral { harvester := h, source := (Text.quoted text q).toList, quote }
        text = true := by
      simp [Site.takesLiteral, Site.takesTexts, Site.options, htexts, haccepts,
        Exclusion.isExcluded]
    rw [Site.literal]
    dsimp only
    rw [if_pos htakes]
    exact ⟨rfl, rfl, Patch.apply_whole _ _⟩
  left quote hleft := by
    refine ⟨_, harvestExpr_quoted h text q quote, ?_⟩
    have htakes : Site.takesLiteral { harvester := h, source := (Text.quoted text q).toList, quote }
        text ≠ true := by
      intro htakes
      simp [Site.takesLiteral, Site.takesTexts, Site.options] at htakes
      exact hleft ⟨htakes.1.1, htakes.2⟩
    rw [Site.literal]
    dsimp only
    rw [if_neg htakes]
    exact ⟨rfl, rfl, rfl⟩

end Harvester

end TextHarvest
