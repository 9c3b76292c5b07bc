import Mathlib.Tactic.Tauto
import TextHarvest.Proofs.Harvest.Adjacent
import TextHarvest.Proofs.Script.Quoted

/-!
# The tokens of a call

What the scanner finds at the parts of a generated call: words and dots, the parentheses, commas,
and literals. A state shows some tokens when they come up one after the other.

Main results:

* `tokenAt_word`, `tokenAt_dot`, `tokenAt_quoted` — the token at the front, and where the scan goes
  on.
* `shows_call` — the tokens of a call of a dotted path with literals for its arguments.
-/

namespace TextHarvest.Script

open Grammar Parse

/-! ## Words and literals -/

/-- The code points of the blanks and line breaks of scripts. -/
def gapCodes : List Nat :=
  [9, 0xa, 0xb, 0xc, 0xd, 0x20, 0xa0, 0x1680, 0x2000, 0x2001, 0x2002, 0x2003, 0x2004, 0x2005,
    0x2006, 0x2007, 0x2008, 0x2009, 0x200a, 0x2028, 0x2029, 0x202f, 0x205f, 0x3000, 0xfeff]

/-- What starts a word may stand in one. -/
theorem isIdPart_of_isIdStart {c : Char} (h : Text.isIdStart c = true) :
    Text.isIdPart c = true := by
  rw [Text.isIdStart] at h
  rw [Text.isIdPart]
  split at h
  · rename_i hlow
    rw [if_pos hlow, Char.isAlphanum]
    simp only [Bool.or_eq_true] at h ⊢
    tauto
  · rename_i hlow
    rw [if_neg hlow, h]
    simp

/-- No blank is a part of a word. -/
theorem not_isIdPart_gap : ∀ n ∈ gapCodes, Text.isIdPart (Char.ofNat n) = false := by
  decide +kernel

/-- Blanks and line breaks are among these characters. -/
theorem mem_gapCodes {c : Char} (h : isLineBreak c = true ∨ isSpace c = true) :
    c.toNat ∈ gapCodes := by
  rcases h with h | h
  · simp only [isLineBreak, Bool.or_eq_true, beq_iff_eq] at h
    rcases h with ((rfl | rfl) | rfl) | rfl <;> decide
  · have hlow : ∀ n ∈ [0x20, 9, 0xb, 0xc, 0xa0, 0xfeff, 0x1680], n ∈ gapCodes := by decide
    have hrow : ∀ k < 11, 0x2000 + k ∈ gapCodes := by decide
    have hhigh : ∀ n ∈ [0x202f, 0x205f, 0x3000], n ∈ gapCodes := by decide
    simp only [isSpace, Bool.or_eq_true, beq_iff_eq, Bool.and_eq_true, decide_eq_true_eq] at h
    -- the codes come in three groups, the middle one a range
    obtain ((h | ⟨hstart, hstop⟩) | h) :
        ((c.toNat ∈ [0x20, 9, 0xb, 0xc, 0xa0, 0xfeff, 0x1680] ∨
          0x2000 ≤ c.toNat ∧ c.toNat ≤ 0x200a) ∨ c.toNat ∈ [0x202f, 0x205f, 0x3000]) := by
      simpa [or_assoc] using h
    · exact hlow _ h
    · obtain ⟨k, hk⟩ := Nat.exists_eq_add_of_le hstart
      rw [hk]
      exact hrow k (by omega)
    · exact hhigh _ h

/-- A character that starts a word is no blank and ends no line. -/
theorem not_gap_of_isIdStart {c : Char} (h : Text.isIdStart c = true) :
    isLineBreak c = false ∧ isSpace c = false := by
  have hout : c.toNat ∉ gapCodes := by
    intro hmem
    have hnot := not_isIdPart_gap c.toNat hmem
    rw [Char.ofNat_toNat, isIdPart_of_isIdStart h] at hnot
    exact Bool.noConfusion hnot
  constructor
  · exact Bool.eq_false_iff.mpr fun hbreak => hout (mem_gapCodes (Or.inl hbreak))
  · exact Bool.eq_false_iff.mpr fun hspace => hout (mem_gapCodes (Or.inr hspace))

/-- No gap starts with a letter. -/
theorem skipGap_isIdStart {c : Char} (h : Text.isIdStart c = true) (cs : List Char) (pos : Nat)
    (newline : Bool) : skipGap .blank (c :: cs) pos newline = ⟨c :: cs, pos, newline, none⟩ := by
  have hne : ∀ d : Char, Text.isIdStart d = false → c ≠ d := by
    intro d hd hcd
    rw [hcd, hd] at h
    exact Bool.false_ne_true h
  have hslash : c ≠ '/' := hne '/' (by decide)
  have hless : c ≠ '<' := hne '<' (by decide)
  have hdash : c ≠ '-' := hne '-' (by decide)
  obtain ⟨hbreak, hspace⟩ := not_gap_of_isIdStart h
  unfold skipGap
  split <;> simp_all

/-- A blank is skipped. -/
theorem skipGap_blank (cs : List Char) (pos : Nat) (newline : Bool) :
    skipGap .blank (' ' :: cs) pos newline = skipGap .blank cs (pos + 1) newline := rfl

/-- Where the scan goes on behind the current token. -/
def State.next (s : State) : State :=
  startState s.rest s.cur.span.stop

/-- At a place of the source a token stands, and the scan goes on at another place. -/
structure TokenAt (cs : List Char) (pos : Nat) (t : Token) (rest : List Char) (stop : Nat) :
    Prop where
  token : (startState cs pos).cur.token = t
  next : (startState cs pos).next = startState rest stop

/-- A token is scanned behind the gap in front of it. -/
theorem tokenAt_of_scan {cs front : List Char} {pos start : Nat} {t : Token} {rest : List Char}
    {stop : Nat}
    (hgap : ∀ newline, skipGap .blank cs pos newline = ⟨front, start, newline, none⟩)
    (htoken : scanToken front start = (t, stop, rest)) : TokenAt cs pos t rest stop := by
  have hscan : scan cs pos = (⟨t, ⟨start, stop⟩, pos == 0⟩, front, rest) := by
    rw [scan, hgap]
    dsimp only
    rw [htoken]
  constructor
  · rw [startState, hscan]
  · rw [startState, hscan]
    rfl

/-- A word goes up to a character that is no part of words. -/
theorem scanToken_word {w : List Char} (hw : IsWord w) {d : Char} (hd : Text.isIdPart d = false)
    (hslash : d ≠ '\\') (x : List Char) (pos : Nat) :
    scanToken (w ++ d :: x) pos = (.word (String.ofList w), pos + Chars.size w, d :: x) := by
  have htake : (w ++ d :: x).takeWhile Text.isIdPart = w := by
    rw [List.takeWhile_append_of_pos hw.parts, List.takeWhile_cons_of_neg (by simp [hd]),
      List.append_nil]
  have hdrop : (w ++ d :: x).dropWhile Text.isIdPart = d :: x := by
    rw [List.dropWhile_append_of_pos hw.parts, List.dropWhile_cons_of_neg (by simp [hd])]
  obtain ⟨c, cs, rfl, hstart⟩ := hw.start
  rw [List.cons_append] at htake hdrop ⊢
  rw [scanToken, if_pos hstart]
  simp only [htake, hdrop, List.head?_cons, beq_iff_eq, Option.some.injEq, hslash, if_false]

/-- In front of a word there is no gap. -/
theorem skipGap_word {w : List Char} (hw : IsWord w) (x : List Char) (pos : Nat) (newline : Bool) :
    skipGap .blank (w ++ x) pos newline = ⟨w ++ x, pos, newline, none⟩ := by
  obtain ⟨c, cs, rfl, hstart⟩ := hw.start
  exact skipGap_isIdStart hstart _ _ _

/-- A word is a token up to what is no part of words. -/
theorem tokenAt_word {w : List Char} (hw : IsWord w) {d : Char} (hd : Text.isIdPart d = false)
    (hslash : d ≠ '\\') (x : List Char) (pos : Nat) :
    TokenAt (w ++ d :: x) pos (.word (String.ofList w)) (d :: x) (pos + Chars.size w) :=
  tokenAt_of_scan (skipGap_word hw _ pos) (scanToken_word hw hd hslash x pos)

/-- A word may stand behind a blank. -/
theorem tokenAt_blank_word {w : List Char} (hw : IsWord w) {d : Char}
    (hd : Text.isIdPart d = false) (hslash : d ≠ '\\') (x : List Char) (pos : Nat) :
    TokenAt (' ' :: (w ++ d :: x)) pos (.word (String.ofList w)) (d :: x)
      (pos + 1 + Chars.size w) :=
  tokenAt_of_scan
    (fun newline => (skipGap_blank _ pos newline).trans (skipGap_word hw _ (pos + 1) newline))
    (scanToken_word hw hd hslash x (pos + 1))

/-- A generated literal is one token. -/
theorem scanToken_quoted (text : String) (q : Quote) (x : List Char) (pos : Nat) :
    scanToken ((Text.quoted text q).toList ++ x) pos =
      (.str (some text), pos + Chars.size (Text.quoted text q).toList, x) := by
  have hread := readString_written q text.toList x (pos + 1) []
  rw [List.append_nil, textOfCodes?_toNat, String.ofList_toList] at hread
  have hlist : (Text.quoted text q).toList ++ x =
      q.mark :: (text.toList.flatMap (Text.escapeChar q) ++ q.mark :: x) := by
    rw [Text.quoted, String.toList_ofList]
    simp
  rw [size_quoted, hlist, scanToken_mark, hread]
  simp only [Prod.mk.injEq, true_and, and_true]
  omega

/-- In front of a literal there is no gap. -/
theorem skipGap_quoted (text : String) (q : Quote) (x : List Char) (pos : Nat) (newline : Bool) :
    skipGap .blank ((Text.quoted text q).toList ++ x) pos newline =
      ⟨(Text.quoted text q).toList ++ x, pos, newline, none⟩ := by
  rw [Text.quoted, String.toList_ofList, List.cons_append]
  exact skipGap_mark q _ pos newline

/-- A literal as it is written is the token of its text. -/
theorem tokenAt_quoted (text : String) (q : Quote) (x : List Char) (pos : Nat) :
    TokenAt ((Text.quoted text q).toList ++ x) pos (.str (some text)) x
      (pos + Chars.size (Text.quoted text q).toList) :=
  tokenAt_of_scan (skipGap_quoted text q x pos) (scanToken_quoted text q x pos)

/-- A literal may stand behind a blank. -/
theorem tokenAt_blank_quoted (text : String) (q : Quote) (x : List Char) (pos : Nat) :
    TokenAt (' ' :: ((Text.quoted text q).toList ++ x)) pos (.str (some text)) x
      (pos + 1 + Chars.size (Text.quoted text q).toList) :=
  tokenAt_of_scan
    (fun newline => (skipGap_blank _ pos newline).trans (skipGap_quoted text q x (pos + 1) newline))
    (scanToken_quoted text q x (pos + 1))

/-- A single dot. -/
theorem punctuation?_dot {c : Char} (hdot : c ≠ '.') (cs : List Char) :
    punctuation? ('.' :: c :: cs) = some (.mark .dot, 1) := by
  unfold punctuation?
  split
  case h_14 heq => exact absurd (List.cons.inj (List.cons.inj heq).2).1 hdot
  case h_15 => rfl
  case h_62 => exact (‹∀ tail, '.' :: c :: cs = '.' :: tail → False› _ rfl).elim
  -- all other rows of the table are for a mark that starts with another character
  all_goals exact absurd (List.cons.inj ‹_ = _›).1 (by decide)

/-- A dot in front of a word is a token of its own. -/
theorem tokenAt_dot {w : List Char} (hw : IsWord w) (x : List Char) (pos : Nat) :
    TokenAt ('.' :: (w ++ x)) pos (.mark .dot) (w ++ x) (pos + 1) := by
  obtain ⟨c, cs, rfl, hstart⟩ := hw.start
  -- a digit behind the dot would make it a number
  have hdigit : c.isDigit = false := by
    have hdigits : ∀ n < 58, 48 ≤ n → Text.isIdStart (Char.ofNat n) = false := by decide
    rw [Bool.eq_false_iff]
    intro hdigit
    have hrange : 48 ≤ c.toNat ∧ c.toNat ≤ 57 := by
      simpa [Char.isDigit, UInt32.le_iff_toNat_le] using hdigit
    have hnot := hdigits c.toNat (by omega) hrange.1
    rw [Char.ofNat_toNat, hstart] at hnot
    exact Bool.noConfusion hnot
  have hdot : c ≠ '.' := by
    rintro rfl
    exact absurd hstart (by decide)
  rw [List.cons_append]
  apply tokenAt_of_scan (fun _ => rfl)
  have hpunctuation := punctuation?_dot hdot (cs ++ x)
  have hletter : Text.isIdStart '.' = false := by decide
  have hnumber : (('.' : Char).isDigit ||
      ('.' == '.' && (c :: (cs ++ x)).head?.any Char.isDigit)) = false := by
    rw [List.head?_cons, Option.any_some, hdigit]
    rfl
  rw [scanToken, hletter, hnumber, hpunctuation]
  rfl

/-- An opening parenthesis. -/
theorem tokenAt_lparen (x : List Char) (pos : Nat) :
    TokenAt ('(' :: x) pos (.mark .lparen) x (pos + 1) :=
  tokenAt_of_scan (fun _ => rfl) rfl

/-- A closing parenthesis. -/
theorem tokenAt_rparen (x : List Char) (pos : Nat) :
    TokenAt (')' :: x) pos (.mark .rparen) x (pos + 1) :=
  tokenAt_of_scan (fun _ => rfl) rfl

/-- A comma. -/
theorem tokenAt_comma (x : List Char) (pos : Nat) :
    TokenAt (',' :: x) pos (.mark .comma) x (pos + 1) :=
  tokenAt_of_scan (fun _ => rfl) rfl

/-- The end of a text is a token too. -/
theorem tokenAt_end (pos : Nat) : TokenAt [] pos .eof [] pos :=
  tokenAt_of_scan (fun _ => rfl) rfl

/-! ## Runs of tokens -/

/-- The tokens from a state on, and the state behind them. -/
inductive Shows : State → List Token → State → Prop
  | done (s : State) : Shows s [] s
  | token {s s' : State} {t : Token} {ts : List Token} :
      s.cur.token = t → Shows s.next ts s' → Shows s (t :: ts) s'

/-- Runs of tokens one after the other. -/
theorem Shows.append {s m s' : State} {ts us : List Token} (h : Shows s ts m) (h' : Shows m us s') :
    Shows s (ts ++ us) s' := by
  induction h with
  | done s => exact h'
  | token hcur _ ih => exact .token hcur (ih h')

/-- A run of tokens in two parts. -/
theorem Shows.split {s s' : State} {ts us : List Token} (h : Shows s (ts ++ us) s') :
    ∃ m, Shows s ts m ∧ Shows m us s' := by
  induction ts generalizing s with
  | nil => exact ⟨s, .done s, h⟩
  | cons t ts ih =>
    obtain _ | ⟨hcur, h⟩ := h
    obtain ⟨m, hts, hus⟩ := ih h
    exact ⟨m, .token hcur hts, hus⟩

/-- A token in front of a run. -/
theorem TokenAt.shows {cs : List Char} {pos : Nat} {t : Token} {rest : List Char} {stop : Nat}
    (h : TokenAt cs pos t rest stop) {ts : List Token} {s' : State}
    (hrest : Shows (startState rest stop) ts s') : Shows (startState cs pos) (t :: ts) s' := by
  refine .token h.token ?_
  rw [h.next]
  exact hrest

/-- The tokens of the segments behind the first one. -/
def segmentTokens (more : List String) : List Token :=
  more.flatMap fun w => [.mark .dot, .word w]

/-- Further tokens of a list, each behind a comma. -/
def behindCommas (ts : List Token) : List Token :=
  ts.flatMap fun t => [.mark .comma, t]

/-- The tokens of a call of a dotted path with literals, up to the closing parenthesis. -/
def callTokens (first : String) (more : List String) (value : Option String)
    (values : List (Option String)) : List Token :=
  .word first ::
    (segmentTokens more ++ .mark .lparen :: .str value :: behindCommas (values.map .str))

/-- Further segments as they are written. -/
def segmentText (more : List String) : List Char :=
  more.flatMap fun w => '.' :: w.toList

/-- Further literals as they are written. -/
def furtherText (q : Quote) (texts : List String) : List Char :=
  texts.flatMap fun text => ',' :: ' ' :: (Text.quoted text q).toList

/-- Behind a segment stands a dot or the opening parenthesis. -/
theorem exists_head_segmentText (more : List String) (x : List Char) :
    ∃ d z, segmentText more ++ '(' :: x = d :: z ∧ Text.isIdPart d = false ∧ d ≠ '\\' := by
  cases more with
  | nil => exact ⟨'(', x, rfl, by decide, by decide⟩
  | cons w more =>
    exact ⟨'.', w.toList ++ segmentText more ++ '(' :: x, by simp [segmentText], by decide,
      by decide⟩

/-- The tokens of further segments of a path, up to the parenthesis behind them. -/
theorem shows_segmentText {more : List String} (hwords : ∀ w ∈ more, IsWord w.toList)
    (x : List Char) (pos : Nat) : Shows (startState (segmentText more ++ '(' :: x) pos)
      (segmentTokens more) (startState ('(' :: x) (pos + Chars.size (segmentText more))) := by
  induction more generalizing pos with
  | nil => exact .done _
  | cons w more ih =>
    have hw : IsWord w.toList := hwords w List.mem_cons_self
    have hrest := ih (fun v hv => hwords v (List.mem_cons_of_mem w hv))
      (pos + 1 + Chars.size w.toList)
    -- behind a word stands a dot or the parenthesis, and either ends it
    obtain ⟨d, z, hhead, hd, hslash⟩ := exists_head_segmentText more x
    have hsize : Chars.size (segmentText (w :: more)) =
        1 + Chars.size w.toList + Chars.size (segmentText more) := by
      have hdot : '.'.utf8Size = 1 := rfl
      simp [segmentText, hdot, Nat.add_assoc]
    have htext : segmentText (w :: more) ++ '(' :: x =
        '.' :: (w.toList ++ (segmentText more ++ '(' :: x)) := by
      simp [segmentText]
    rw [htext, hsize, ← Nat.add_assoc, ← Nat.add_assoc]
    have hword := tokenAt_word hw hd hslash z (pos + 1)
    rw [← hhead, String.ofList_toList] at hword
    exact (tokenAt_dot hw _ pos).shows (hword.shows hrest)

/-- The tokens of further literals of a call. -/
theorem shows_furtherText (q : Quote) (texts : List String) (x : List Char) (pos : Nat) :
    Shows (startState (furtherText q texts ++ x) pos) (behindCommas ((texts.map some).map .str))
      (startState x (pos + Chars.size (furtherText q texts))) := by
  induction texts generalizing pos with
  | nil => exact .done _
  | cons text texts ih =>
    have hrest := ih (pos + 1 + 1 + Chars.size (Text.quoted text q).toList)
    have hsize : Chars.size (furtherText q (text :: texts)) =
        1 + 1 + Chars.size (Text.quoted text q).toList + Chars.size (furtherText q texts) := by
      have hcomma : ','.utf8Size = 1 := rfl
      have hblank : ' '.utf8Size = 1 := rfl
      simp [furtherText, hcomma, hblank]
      omega
    -- each further text stands behind a comma and a blank
    have htext : furtherText q (text :: texts) ++ x =
        ',' :: ' ' :: ((Text.quoted text q).toList ++ (furtherText q texts ++ x)) := by
      simp [furtherText]
    rw [htext, hsize, ← Nat.add_assoc, ← Nat.add_assoc, ← Nat.add_assoc]
    exact (tokenAt_comma _ pos).shows ((tokenAt_blank_quoted text q _ (pos + 1)).shows hrest)

/-- A call of a dotted path with literals, up to the closing parenthesis. -/
def callChars (q : Quote) (first : String) (more : List String) (text : String)
    (texts : List String) : List Char :=
  first.toList ++
    (segmentText more ++ '(' :: ((Text.quoted text q).toList ++ furtherText q texts))

/-- The tokens of a call, up to the closing parenthesis. -/
theorem shows_callChars {first : String} {more : List String}
    (hwords : ∀ w ∈ first :: more, IsWord w.toList) (q : Quote) (text : String)
    (texts : List String) (x : List Char) (pos : Nat) :
    Shows (startState (callChars q first more text texts ++ ')' :: x) pos)
      (callTokens first more (some text) (texts.map some))
      (startState (')' :: x) (pos + Chars.size (callChars q first more text texts))) := by
  -- the path, the first argument and the further ones
  have htext : callChars q first more text texts ++ ')' :: x =
      first.toList ++ (segmentText more ++
        '(' :: ((Text.quoted text q).toList ++ (furtherText q texts ++ ')' :: x))) := by
    simp [callChars]
  have hsize : pos + Chars.size (callChars q first more text texts) =
      pos + Chars.size first.toList + Chars.size (segmentText more) + 1 +
        Chars.size (Text.quoted text q).toList + Chars.size (furtherText q texts) := by
    have hparen : '('.utf8Size = 1 := rfl
    simp [callChars, hparen, Nat.add_assoc]
  obtain ⟨d, z, hhead, hd, hslash⟩ := exists_head_segmentText more
    ((Text.quoted text q).toList ++ (furtherText q texts ++ ')' :: x))
  have hfirst := tokenAt_word (hwords first List.mem_cons_self) hd hslash z pos
  have hmore := shows_segmentText (fun w hw => hwords w (List.mem_cons_of_mem first hw))
    ((Text.quoted text q).toList ++ (furtherText q texts ++ ')' :: x))
    (pos + Chars.size first.toList)
  rw [← hhead, String.ofList_toList] at hfirst
  rw [htext, hsize]
  exact hfirst.shows (hmore.append ((tokenAt_lparen _ _).shows ((tokenAt_quoted text q _ _).shows
    (shows_furtherText q texts _ _))))

end TextHarvest.Script
