import TextHarvest.Proofs.Script.Attribute

/-!
# Opening tags

What the grammar makes of the opening tag of an element: its name, what is left to its attributes,
and what follows it. Only a name that is one word is read as it is written.

Main results:

* `openingTag_iff` and `openingTag_inv` — the name of a tag, and what is left to its attributes.
* `element_eq` and `element_inv` — an element is its opening tag and what follows it.
* `exists_isTagGap` and `isTagWord_of_openingTag` — where the name of a tag stands, and what it is.
-/

namespace TextHarvest.Script

open Grammar Parse

variable {c : Context} {s : State}

/-! ## Opening tags -/

/-- An opening tag: its name and its attributes, up to the sign that ends it. -/
def openingTag (self : Parser) : Parse (TagName × List Tree) := do
  unless ← eatLess do failHere
  let tag ← tagName
  if ← typed then typeArguments? self
  let attrs ← markupAttributes self
  return (tag, attrs)

/-- What follows the opening tag of an element. -/
def elementRest (self : Parser) (start : Nat) (tag : TagName) (attrs : List Tree) : Parse Tree := do
  if ← startsWith '/' then
    advance
    expectGreater
    node (.element tag) start attrs
  else
    expectGreater
    let children ← markupChildren self
    let place ← here
    let closing ← tagName
    expectGreater
    unless sameTag tag closing do failAt place
    node (.element tag) start (attrs ++ children)

/-- An opening sign is taken from the text, whatever operator it starts. -/
theorem eatLess_eq {t : String} {cs : List Char} (htoken : s.cur.token = .op t)
    (htext : s.text = '<' :: cs) :
    eatLess c s = .ok true (startState cs (s.cur.span.start + 1)) := by
  unfold eatLess
  rw [htoken, htext]
  rfl

/-- So is a closing sign. -/
theorem eatGreater_eq {t : String} {cs : List Char} (htoken : s.cur.token = .op t)
    (htext : s.text = '>' :: cs) :
    eatGreater c s = .ok true (startState cs (s.cur.span.start + 1)) := by
  unfold eatGreater
  rw [htoken, htext]
  rfl

/-- At a word there is none. -/
theorem eatGreater_of_word (h : isWordToken s.cur.token) : eatGreater c s = .ok false s := by
  obtain ⟨w, hw⟩ := h
  unfold eatGreater
  rw [hw]

/-- An element that is no fragment is its opening tag and what follows it. -/
theorem element_of_openingTag {self : Parser} {s₁ : State} (hless : eatLess c s = .ok true s₁)
    (hname : eatGreater c s₁ = .ok false s₁) : element self c s =
      match openingTag self c s with
      | .ok (tag, attrs) s' => elementRest self s.cur.span.start tag attrs c s'
      | .error e s' => .error e s' := by
  unfold element openingTag
  simp only [bind_eq, here_eq, hless, if_true, hname, Bool.false_eq_true, if_false]
  -- the two read alike up to the end of the opening tag
  cases tagName c s₁ with
  | error e s' => rfl
  | ok tag s₂ =>
    simp only [typed_eq]
    split
    · simp only [bind_eq]
      cases typeArguments? self c s₂ with
      | error e s' => rfl
      | ok _ s₃ =>
        cases hattrs : markupAttributes self c s₃ with
        | error e s' => simp only [hattrs]
        | ok attrs s' => simp only [hattrs, pure_eq, elementRest, bind_eq]
    · simp only [bind_eq]
      cases markupAttributes self c s₂ with
      | error e s' => rfl
      | ok attrs s' => simp only [pure_eq, elementRest, bind_eq]

/-- A step that succeeds takes its first part and then the rest. -/
theorem bind_inv {α β : Type} {p : Parse α} {f : α → Parse β} {b : β} {s' : State}
    (h : (p >>= f) c s = .ok b s') : ∃ a s₁, p c s = .ok a s₁ ∧ f a c s₁ = .ok b s' := by
  rw [bind_eq] at h
  cases hp : p c s with
  | error e s₁ =>
    rw [hp] at h
    cases h
  | ok a s₁ =>
    rw [hp] at h
    exact ⟨a, s₁, rfl, h⟩

/-- An element keeps its name and its attributes. -/
theorem elementRest_inv {self : Parser} {start : Nat} {tag tag' : TagName} {span : Span}
    {attrs ts : List Tree} {s' : State}
    (h : elementRest self start tag attrs c s = .ok (.node (.element tag') span ts) s') :
    tag' = tag ∧ ∃ more, ts = attrs ++ more := by
  -- a slash closes the element at once; otherwise children follow up to the closing name
  obtain ⟨slash, s₁, -, h⟩ := bind_inv h
  split at h
  · obtain ⟨-, s₂, -, h⟩ := bind_inv h
    obtain ⟨-, s₃, -, h⟩ := bind_inv h
    cases h
    exact ⟨rfl, [], (List.append_nil _).symm⟩
  · obtain ⟨-, s₂, -, h⟩ := bind_inv h
    obtain ⟨children, s₃, -, h⟩ := bind_inv h
    obtain ⟨place, s₄, -, h⟩ := bind_inv h
    obtain ⟨closing, s₅, -, h⟩ := bind_inv h
    obtain ⟨-, s₆, -, h⟩ := bind_inv h
    split at h
    · cases h
      exact ⟨rfl, children, rfl⟩
    · dsimp only at h
      obtain ⟨_, s₇, hfail, -⟩ := bind_inv h
      cases hfail

/-- Where a sign is asked for in vain, nothing is taken. -/
theorem eatGreater_false {s' : State} (h : eatGreater c s = .ok false s') : s' = s := by
  unfold eatGreater at h
  split at h
  · cases h
  · cases h
    rfl

/-- An element begins with its opening tag. -/
theorem element_inv {self : Parser} {tag : TagName} {span : Span} {ts : List Tree} {s' : State}
    (h : element self c s = .ok (.node (.element tag) span ts) s') :
    ∃ attrs more s₁, openingTag self c s = .ok (tag, attrs) s₁ ∧ ts = attrs ++ more := by
  have helement := h
  obtain ⟨start, s₀, hstart, h⟩ := bind_inv h
  cases hstart
  obtain ⟨less, s₁, hless, h⟩ := bind_inv h
  cases less with
  | false =>
    obtain ⟨e, hfail⟩ := failHere_eq PUnit c s₁
    simp only [Bool.false_eq_true, if_false] at h
    obtain ⟨_, s₂, hfail', -⟩ := bind_inv h
    cases hfail.symm.trans hfail'
  | true =>
    obtain ⟨greater, s₂, hgreater, h⟩ := bind_inv h
    cases greater with
    | true =>
      -- a fragment is no element
      obtain ⟨children, s₃, -, h⟩ := bind_inv h
      obtain ⟨-, s₄, -, h⟩ := bind_inv h
      cases h
    | false =>
      obtain rfl := eatGreater_false hgreater
      rw [element_of_openingTag hless hgreater] at helement
      cases hopening : openingTag self c s with
      | error e s₃ =>
        rw [hopening] at helement
        cases helement
      | ok result s₃ =>
        rw [hopening] at helement
        obtain ⟨tag₀, attrs⟩ := result
        obtain ⟨rfl, more, rfl⟩ := elementRest_inv helement
        exact ⟨attrs, more, s₃, rfl, rfl⟩

/-- A name that is one word, and where it stands. -/
theorem tagName_inv {w : String} {place : Span} {s' : State}
    (h : tagName c s = .ok (.plain w place) s') :
    isWordToken s.cur.token ∧ w = String.ofList (s.text.takeWhile isTagPart) ∧
      place = ⟨s.cur.span.start, s.cur.span.start + Chars.size w.toList⟩ := by
  obtain ⟨start, s₀, hstart, h⟩ := bind_inv h
  cases hstart
  obtain ⟨first, s₁, hfirst, h⟩ := bind_inv h
  obtain ⟨stop, s₂, hstop, h⟩ := bind_inv h
  cases hstop
  obtain ⟨colon, s₃, -, h⟩ := bind_inv h
  -- a colon or a dot would have made another kind of name
  have hplain : TagName.plain first ⟨s.cur.span.start, s₁.prevStop⟩ = .plain w place := by
    split at h
    · obtain ⟨second, s₄, -, h⟩ := bind_inv h
      cases h
    · obtain ⟨dot, s₄, -, h⟩ := bind_inv h
      split at h
      · obtain ⟨path, s₅, -, h⟩ := bind_inv h
        cases h
      · cases h
        rfl
  obtain ⟨rfl, rfl⟩ := TagName.plain.inj hplain
  obtain ⟨hword, rfl, rfl⟩ := markupWord_inv hfirst
  refine ⟨hword, rfl, ?_⟩
  rw [String.toList_ofList]
  rfl

/-- The name of an opening tag that is one word. -/
theorem openingTag_inv {self : Parser} {w : String} {place : Span} {attrs : List Tree} {s' : State}
    (h : openingTag self c s = .ok (.plain w place, attrs) s') :
    ∃ s₁ s₂, eatLess c s = .ok true s₁ ∧ tagName c s₁ = .ok (.plain w place) s₂ := by
  obtain ⟨less, s₁, hless, h⟩ := bind_inv h
  cases less with
  | false =>
    obtain ⟨e, hfail⟩ := failHere_eq PUnit c s₁
    simp only [Bool.false_eq_true, if_false] at h
    obtain ⟨_, s₂, hfail', -⟩ := bind_inv h
    cases hfail.symm.trans hfail'
  | true =>
    obtain ⟨tag, s₂, htag, h⟩ := bind_inv h
    obtain ⟨isTyped, s₃, -, h⟩ := bind_inv h
    -- type arguments and attributes do not change the name
    have hname : tag = .plain w place := by
      dsimp only at h
      split at h
      · obtain ⟨-, s₄, -, h⟩ := bind_inv h
        obtain ⟨attrs', s₅, -, h⟩ := bind_inv h
        cases h
        rfl
      · obtain ⟨attrs', s₅, -, h⟩ := bind_inv h
        cases h
        rfl
    subst hname
    exact ⟨s₁, s₂, hless, htag⟩

/-! ## The name of a tag -/

/-- An angle bracket begins an operator. -/
theorem punctuation?_angle {sign : Char} (hsign : sign = '<' ∨ sign = '>') (y : List Char) :
    ∃ t n, punctuation? (sign :: y) = some (.op t, n) := by
  unfold punctuation?
  split
  -- the last row is for what starts with no sign of the table
  case h_62 =>
    rcases hsign with rfl | rfl
    · exact (‹∀ tail, '<' :: y = '<' :: tail → False› _ rfl).elim
    · exact (‹∀ tail, '>' :: y = '>' :: tail → False› _ rfl).elim
  all_goals
    first
    | exact ⟨_, _, rfl⟩
    | rcases hsign with rfl | rfl <;> exact absurd (List.cons.inj ‹_ = _›).1 (by decide)

/-- An angle is part of an operator. -/
theorem scanToken_angle {sign : Char} (hsign : sign = '<' ∨ sign = '>') (y : List Char)
    (pos : Nat) : ∃ t, (scanToken (sign :: y) pos).1 = .op t := by
  obtain ⟨t, n, hpunctuation⟩ := punctuation?_angle hsign y
  have hletter : Text.isIdStart sign = false := by rcases hsign with rfl | rfl <;> decide
  refine ⟨t, ?_⟩
  rw [scanToken, hletter, hpunctuation]
  rcases hsign with rfl | rfl <;> rfl

/-- A less-than sign that begins no comment is taken alone. -/
theorem eatLess_startState {y : List Char} (hy : y.head? ≠ some '!') (pos : Nat) :
    (startState ('<' :: y) pos).cur.span.start = pos ∧
      eatLess c (startState ('<' :: y) pos) = .ok true (startState y (pos + 1)) := by
  -- an angle is not skipped, unless it begins a comment
  have hgap : skipGap .blank ('<' :: y) pos (pos == 0) = ⟨'<' :: y, pos, pos == 0, none⟩ := by
    unfold skipGap
    split
    case h_7 heq =>
      obtain ⟨rfl, rfl⟩ := List.cons.inj heq
      rfl
    all_goals simp_all
  obtain ⟨htext, hplace, htoken⟩ := startState_of_skipGap hgap
  obtain ⟨t, hop⟩ := scanToken_angle (Or.inl rfl) y pos
  have hless := eatLess_eq (c := c) (htoken.trans hop) htext
  rw [hplace] at hless
  exact ⟨hplace, hless⟩

/-- A greater-than sign is taken alone. -/
theorem eatGreater_startState (y : List Char) (pos : Nat) :
    eatGreater c (startState ('>' :: y) pos) = .ok true (startState y (pos + 1)) := by
  have hgap : skipGap .blank ('>' :: y) pos (pos == 0) = ⟨'>' :: y, pos, pos == 0, none⟩ := rfl
  obtain ⟨htext, hplace, htoken⟩ := startState_of_skipGap hgap
  obtain ⟨t, hop⟩ := scanToken_angle (Or.inr rfl) y pos
  have hgreater := eatGreater_eq (c := c) (htoken.trans hop) htext
  rwa [hplace] at hgreater

/-- A name that is one word is read as it is written. -/
theorem tagName_eq {w : List Char} (hw : IsTagWord w) {d : Char} {x : List Char} {start : Nat}
    (hd : isTagPart d = false) (h : NameAt s w (d :: x) start)
    (hnext : isWordToken (startState (d :: x) (start + Chars.size w)).cur.token) :
    tagName c s = .ok (.plain (String.ofList w) ⟨start, start + Chars.size w⟩)
      (startState (d :: x) (start + Chars.size w)) := by
  obtain ⟨word, hword⟩ := hnext
  -- what stands behind belongs to no name: it is another word
  have hcolon : (startState (d :: x) (start + Chars.size w)).cur.token ≠ .mark .colon := by
    rw [hword]
    exact Token.noConfusion
  have hdot : ((startState (d :: x) (start + Chars.size w)).cur.token == .mark .dot) = false := by
    rw [hword]
    rfl
  unfold tagName
  simp only [bind_eq, here_eq, h.markupWord hw hd, prevStop_eq, eatMark, eat_ne c _ hcolon,
    Bool.false_eq_true, if_false, isMark_eq, hdot, h.start]
  rfl

/-- At a word there are no type arguments. -/
theorem typeArguments?_of_word {self : Parser} (h : isWordToken s.cur.token) :
    typeArguments? self c s = .ok () s := by
  obtain ⟨word, hword⟩ := h
  unfold typeArguments?
  simp only [bind_eq, newline_eq]
  cases s.cur.newline <;> simp [bind_eq, token_eq, hword, pure_eq]

/-- A gap behind the opening sign of a tag, with which it begins no comment. -/
structure IsTagGap (gap : List Char) (pos : Nat) : Prop where
  skipped : IsGapAt gap (pos + 1)
  sign : gap.head? ≠ some '!'

/-- No gap at all. -/
theorem isTagGap_nil (pos : Nat) : IsTagGap [] pos :=
  ⟨isGapAt_nil _, by simp⟩

/-- Behind a gap no comment of markup starts. -/
theorem IsTagGap.head?_ne {gap z : List Char} {pos : Nat} (h : IsTagGap gap pos)
    (hz : z.head? ≠ some '!') : (gap ++ z).head? ≠ some '!' := by
  cases gap with
  | nil => exact hz
  | cons ch gap => exact h.sign

/-- The opening sign of a tag is taken. -/
theorem IsTagGap.eatLess {gap z : List Char} {pos : Nat} (h : IsTagGap gap pos)
    (hz : z.head? ≠ some '!') : eatLess c (startState ('<' :: (gap ++ z)) pos) =
      .ok true (startState (gap ++ z) (pos + 1)) :=
  (eatLess_startState (h.head?_ne hz) pos).2

/-- An opening tag with a name that is one word: the name, and the attributes behind it. -/
theorem openingTag_eq (self : Parser) {gap : List Char} {pos : Nat} (hgap : IsTagGap gap pos)
    {w : List Char} (hw : IsTagWord w) {x : List Char}
    (hnext : isWordToken
      (startState (' ' :: x) (pos + 1 + Chars.size gap + Chars.size w)).cur.token) :
    openingTag self c (startState ('<' :: (gap ++ (w ++ ' ' :: x))) pos) =
      match markupAttributes self c
        (startState (' ' :: x) (pos + 1 + Chars.size gap + Chars.size w)) with
      | .ok attrs s' =>
        .ok (.plain (String.ofList w)
          ⟨pos + 1 + Chars.size gap, pos + 1 + Chars.size gap + Chars.size w⟩, attrs) s'
      | .error e s' => .error e s' := by
  have hless := hgap.eatLess (c := c) (hw.head?_ne (by decide) (' ' :: x))
  have htag := tagName_eq (c := c) hw (by decide)
    (nameAt hgap.skipped hw (d := ' ') (by decide) (by decide) x) hnext
  unfold openingTag
  simp only [bind_eq, hless, if_true, htag, typed_eq]
  -- a word behind the name is no type argument
  cases c.dialect.typed with
  | true =>
    simp only [if_true, bind_eq, typeArguments?_of_word hnext]
    cases markupAttributes self c
      (startState (' ' :: x) (pos + 1 + Chars.size gap + Chars.size w)) <;> rfl
  | false =>
    simp only [Bool.false_eq_true, if_false, bind_eq]
    cases markupAttributes self c
      (startState (' ' :: x) (pos + 1 + Chars.size gap + Chars.size w)) <;> rfl

/-- An opening tag with a name that is one word is read when its attributes are. -/
theorem openingTag_iff {self : Parser} {gap : List Char} {pos : Nat} (hgap : IsTagGap gap pos)
    {w : List Char} (hw : IsTagWord w) {x : List Char} {attrs : List Tree} {s' : State}
    (hnext : isWordToken
      (startState (' ' :: x) (pos + 1 + Chars.size gap + Chars.size w)).cur.token) :
    (∃ place, openingTag self c (startState ('<' :: (gap ++ (w ++ ' ' :: x))) pos) =
        .ok (.plain (String.ofList w) place, attrs) s') ↔
      markupAttributes self c (startState (' ' :: x) (pos + 1 + Chars.size gap + Chars.size w)) =
        .ok attrs s' := by
  rw [openingTag_eq self hgap hw hnext]
  cases markupAttributes self c
      (startState (' ' :: x) (pos + 1 + Chars.size gap + Chars.size w)) with
  | error e s₁ => simp
  | ok attrs₁ s₁ => simp

/-- An element whose name is one word is its opening tag and what follows it. -/
theorem element_eq (self : Parser) {gap : List Char} {pos : Nat} (hgap : IsTagGap gap pos)
    {w : List Char} (hw : IsTagWord w) (x : List Char) :
    element self c (startState ('<' :: (gap ++ (w ++ ' ' :: x))) pos) =
      match openingTag self c (startState ('<' :: (gap ++ (w ++ ' ' :: x))) pos) with
      | .ok (tag, attrs) s' => elementRest self pos tag attrs c s'
      | .error e s' => .error e s' := by
  have hless := hgap.eatLess (c := c) (hw.head?_ne (by decide) (' ' :: x))
  have hname := (nameAt hgap.skipped hw (d := ' ') (by decide) (by decide) x).word
  have hplace : (startState ('<' :: (gap ++ (w ++ ' ' :: x))) pos).cur.span.start = pos :=
    (eatLess_startState (c := c) (hgap.head?_ne (hw.head?_ne (by decide) _)) pos).1
  rw [element_of_openingTag hless (eatGreater_of_word hname), hplace]

/-- What may stand in a name is not skipped, unless it begins the end of a comment. -/
theorem skipGap_isTagPart {ch : Char} (h : isTagPart ch = true) {x : List Char}
    (hx : x.take 2 ≠ ['-', '>']) (pos : Nat) (newline : Bool) :
    skipGap .blank (ch :: x) pos newline = ⟨ch :: x, pos, newline, none⟩ := by
  -- a character of tags is no gap, and starts a comment only as an arrow
  have hgap := not_mem_gapCodes_of_isTagPart h
  have hbreak : isLineBreak ch = false :=
    Bool.eq_false_iff.mpr fun hbreak => hgap (mem_gapCodes (Or.inl hbreak))
  have hspace : isSpace ch = false :=
    Bool.eq_false_iff.mpr fun hspace => hgap (mem_gapCodes (Or.inr hspace))
  have hne : ∀ d : Char, isTagPart d = false → ch ≠ d := by
    rintro d hd rfl
    rw [hd] at h
    cases h
  have hslash : ch ≠ '/' := hne '/' (by decide)
  have hless : ch ≠ '<' := hne '<' (by decide)
  unfold skipGap
  split <;> simp_all

/-- No sign of the table is a word. -/
theorem not_isWordToken_punctuation {cs : List Char} {t : Token} {n : Nat}
    (h : punctuation? cs = some (t, n)) : ¬isWordToken t := by
  rintro ⟨w, rfl⟩
  unfold punctuation? at h
  split at h <;> first | cases h | (split at h <;> cases h)

/-- A number is no word. -/
theorem not_isWordToken_number (cs : List Char) (pos : Nat) :
    ¬isWordToken (numberToken cs pos).1 := by
  rintro ⟨w, hw⟩
  rw [numberToken] at hw
  split at hw
  · cases hw
  · dsimp only at hw
    -- a letter behind the number is an error
    repeat' split at hw
    all_goals cases hw

/-- A word begins with a letter or with an escape. -/
theorem isIdStart_of_word {ch : Char} {x : List Char} {pos : Nat}
    (h : isWordToken (scanToken (ch :: x) pos).1) (hslash : ch ≠ '\\') :
    Text.isIdStart ch = true := by
  cases hstart : Text.isIdStart ch with
  | true => rfl
  | false =>
    exfalso
    rw [scanToken, hstart] at h
    simp only [Bool.false_eq_true, if_false] at h
    split at h
    · -- a string
      obtain ⟨w, hw⟩ := h
      split at hw <;> cases hw
    · split at h
      · exact not_isWordToken_number _ _ h
      · rw [if_neg (by simpa using hslash)] at h
        split at h
        · rename_i hsign
          exact not_isWordToken_punctuation hsign h
        · obtain ⟨w, hw⟩ := h
          cases hw

/-- Behind the opening sign of a tag a gap and the name stand. -/
theorem exists_isTagGap {self : Parser} {body : List Char} {pos : Nat}
    (hbody : body.head? ≠ some '!') {w : String} (hw : w ≠ "") {place : Span} {attrs : List Tree}
    {s' : State}
    (h : openingTag self c (startState ('<' :: body) pos) = .ok (.plain w place, attrs) s') :
    ∃ gap tail, body = gap ++ (w.toList ++ tail) ∧ IsTagGap gap pos ∧ IsTagWord w.toList ∧
      place.stop = pos + 1 + Chars.size gap + Chars.size w.toList := by
  obtain ⟨s₁, s₂, hless, htag⟩ := openingTag_inv h
  cases hless.symm.trans (eatLess_startState hbody pos).2
  obtain ⟨hword, hname, hplace⟩ := tagName_inv htag
  obtain ⟨gap, hgap, hat, hstart, htoken⟩ := exists_isGapAt hword
  generalize htext : (startState body (pos + 1)).text = text at hgap hname htoken
  -- the name is the longest run of name characters behind the gap
  have hcut : w.toList = text.takeWhile isTagPart := by rw [hname, String.toList_ofList]
  refine ⟨gap, text.dropWhile isTagPart, ?_, ⟨hat, ?_⟩, ⟨?_, ?_⟩, ?_⟩
  · rw [hcut, List.takeWhile_append_dropWhile]
    exact hgap
  · intro hsign
    rw [hgap] at hbody
    cases gap with
    | nil => cases hsign
    | cons ch gap => exact hbody hsign
  · cases text with
    | nil => exact absurd (String.toList_eq_nil_iff.mp hcut) hw
    | cons ch cs =>
      by_cases hpart : isTagPart ch = true
      · rw [htoken] at hword
        rw [List.takeWhile_cons_of_pos hpart] at hcut
        exact ⟨ch, _, hcut, isIdStart_of_word hword (ne_backslash_of_isTagPart hpart)⟩
      · rw [List.takeWhile_cons_of_neg hpart] at hcut
        exact absurd (String.toList_eq_nil_iff.mp hcut) hw
  · intro ch hch
    rw [hcut] at hch
    exact List.all_eq_true.mp List.all_takeWhile ch hch
  · rw [hplace, hstart]

/-- Only a name that is one word is read as it is written. -/
theorem isTagWord_of_openingTag {self : Parser} {gap : List Char} {pos : Nat}
    (hgap : IsTagGap gap pos) {w y : List Char} {place : Span} {attrs : List Tree} {s' : State}
    (h : openingTag self c
        (startState ('<' :: (gap ++ (w ++ ' ' :: 'i' :: 'd' :: '=' :: y))) pos) =
      .ok (.plain (String.ofList w) place, attrs) s') : IsTagWord w := by
  obtain ⟨s₁, s₂, hless, htag⟩ := openingTag_inv h
  obtain ⟨hword, hw, -⟩ := tagName_inv htag
  rw [String.ofList_inj] at hw
  have hparts : ∀ ch ∈ w, isTagPart ch = true := by
    intro ch hch
    rw [hw] at hch
    exact List.all_eq_true.mp List.all_takeWhile ch hch
  cases w with
  | nil =>
    -- the first attribute would be taken for the name
    have hless' := hgap.eatLess (c := c) (z := ' ' :: 'i' :: 'd' :: '=' :: y) (by simp)
    cases hless.symm.trans hless'
    have hskip := startState_of_isGapAt hgap.skipped (z := ' ' :: 'i' :: 'd' :: '=' :: y) (by simp)
      fun newline => (skipGap_blank _ _ newline).trans
        (skipGap_isIdStart (c := 'i') (by decide) _ _ newline)
    rw [hskip.1, List.takeWhile_cons_of_pos (by decide)] at hw
    cases hw
  | cons ch cs =>
    rw [List.forall_mem_cons] at hparts
    have hne : ∀ d : Char, isTagPart d = false → ch ≠ d := by
      rintro d hd rfl
      rw [hd] at hparts
      cases hparts.1
    have hless' := hgap.eatLess (c := c) (z := (ch :: cs) ++ ' ' :: 'i' :: 'd' :: '=' :: y)
      (by simpa using hne '!' (by decide))
    cases hless.symm.trans hless'
    have hcomment : (cs ++ ' ' :: 'i' :: 'd' :: '=' :: y).take 2 ≠ ['-', '>'] := by
      match cs with
      | [] => simp
      | [_] => simp
      | _ :: ch' :: _ =>
        have hangle : ch' ≠ '>' := by
          rintro rfl
          exact absurd (hparts.2 '>' (by simp)) (by decide)
        simp [hangle]
    have hskip := startState_of_isGapAt hgap.skipped
      (z := (ch :: cs) ++ ' ' :: 'i' :: 'd' :: '=' :: y) (by simpa using hne '/' (by decide))
      fun newline => skipGap_isTagPart hparts.1 hcomment _ newline
    rw [hskip.2.2] at hword
    have hstart := isIdStart_of_word hword (ne_backslash_of_isTagPart hparts.1)
    exact ⟨⟨ch, cs, rfl, hstart⟩, List.forall_mem_cons.mpr hparts⟩

/-! ## The end of a tag -/

/-- The slash of a tag that closes itself. -/
theorem tokenAt_slash (rest : List Char) (pos : Nat) :
    TokenAt (' ' :: '/' :: '>' :: rest) pos (.op "/") ('>' :: rest) (pos + 2) :=
  tokenAt_of_scan (fun _ => rfl) rfl

/-- It ends the tag. -/
theorem endsTag_slash (rest : List Char) (pos : Nat) :
    (startState (' ' :: '/' :: '>' :: rest) pos).endsTag = true := rfl

/-- An element without children ends with its opening tag. -/
theorem elementRest_slash (self : Parser) (start : Nat) (tag : TagName) (attrs : List Tree)
    (rest : List Char) (pos : Nat) :
    elementRest self start tag attrs c (startState (' ' :: '/' :: '>' :: rest) pos) =
      .ok (.node (.element tag) ⟨start, pos + 3⟩ attrs) (startState rest (pos + 3)) := by
  have hopens : (startState (' ' :: '/' :: '>' :: rest) pos).opens '/' = true := rfl
  have hnext := (tokenAt_slash rest pos).next
  have hgreater := eatGreater_startState (c := c) rest (pos + 2)
  unfold elementRest
  simp only [bind_eq, startsWith_eq, hopens, if_true, advance_eq, hnext, expectGreater, hgreater,
    pure_eq, node_eq]
  rfl

end TextHarvest.Script
