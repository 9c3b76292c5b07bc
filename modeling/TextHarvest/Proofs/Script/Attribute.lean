import TextHarvest.Proofs.Script.Gap
import TextHarvest.Proofs.Script.Operand
import TextHarvest.Proofs.Text.AttributeString

/-!
# Attributes of elements

What the grammar makes of the attributes of an opening tag: their names, which may hold hyphens, and
their values, a string or a literal in braces. A tag is read attribute by attribute, so how it
begins and how it goes on can be told apart.

Main results:

* `nameAt` — a name stands behind a gap.
* `markupAttributes_iff` — the attributes of a tag, one after the other.
* `markupAttribute_string` and `markupAttribute_literal` — attributes as they are generated.
-/

namespace TextHarvest.Script

open Grammar Parse

/-! ## Names -/

/-- Whether a character may stand in a name of markup. -/
def isTagPart (c : Char) : Bool :=
  Text.isIdPart c || c == '-'

/-- The names of markup that are one word, which may hold hyphens. -/
structure IsTagWord (w : List Char) : Prop where
  start : ∃ c cs, w = c :: cs ∧ Text.isIdStart c = true
  parts : ∀ c ∈ w, isTagPart c = true

instance (w : List Char) : Decidable (IsTagWord w) :=
  decidable_of_iff (w.head?.any Text.isIdStart = true ∧ w.all isTagPart = true) <| by
    rw [List.all_eq_true]
    constructor
    · rintro ⟨hstart, hparts⟩
      refine ⟨?_, hparts⟩
      cases w with
      | nil => cases hstart
      | cons c cs => exact ⟨c, cs, rfl, hstart⟩
    · rintro ⟨⟨c, cs, rfl, hstart⟩, hparts⟩
      exact ⟨hstart, hparts⟩

/-- What may stand in a name of markup is no blank and ends no line. -/
theorem not_mem_gapCodes_of_isTagPart {c : Char} (h : isTagPart c = true) :
    c.toNat ∉ gapCodes := by
  intro hmem
  have hnot := not_isIdPart_gap c.toNat hmem
  rw [Char.ofNat_toNat] at hnot
  -- that leaves the hyphen
  rw [isTagPart, hnot, Bool.false_or, beq_iff_eq] at h
  rw [h] at hmem
  exact absurd hmem (by decide)

/-- No backslash stands in a name of markup. -/
theorem ne_backslash_of_isTagPart {c : Char} (h : isTagPart c = true) : c ≠ '\\' := by
  rintro rfl
  exact absurd h (by decide)

/-- What stops a word inside or behind a name is no escape. -/
theorem head?_dropWhile_name {cs : List Char} (hcs : ∀ c ∈ cs, isTagPart c = true) {d : Char}
    (hd : isTagPart d = false) (hslash : d ≠ '\\') (x : List Char) :
    ((cs ++ d :: x).dropWhile Text.isIdPart).head? ≠ some '\\' := by
  -- where the name ends there stands no backslash, which would go on with it
  induction cs with
  | nil =>
    have hpart : Text.isIdPart d = false := (Bool.or_eq_false_iff.mp hd).1
    rw [List.nil_append, List.dropWhile_cons_of_neg (by simp [hpart])]
    simpa using hslash
  | cons c cs ih =>
    rw [List.forall_mem_cons] at hcs
    rw [List.cons_append, List.dropWhile_cons]
    split
    · exact ih hcs.2
    · simpa using ne_backslash_of_isTagPart hcs.1

/-- A name of markup is not empty. -/
theorem IsTagWord.ne_nil {w : List Char} (hw : IsTagWord w) : w ≠ [] := by
  obtain ⟨ch, cs, rfl, -⟩ := hw.start
  exact List.cons_ne_nil ch cs

/-- A name begins with no sign. -/
theorem IsTagWord.head?_ne {w : List Char} (hw : IsTagWord w) {d : Char}
    (hd : Text.isIdStart d = false) (x : List Char) : (w ++ x).head? ≠ some d := by
  obtain ⟨ch, cs, rfl, hstart⟩ := hw.start
  rw [List.cons_append, List.head?_cons, Option.some_inj.ne]
  rintro rfl
  exact Bool.noConfusion (hstart.symm.trans hd)

/-- A name begins with a word. -/
theorem scanToken_name {w : List Char} (hw : IsTagWord w) {d : Char} (hd : isTagPart d = false)
    (hslash : d ≠ '\\') (x : List Char) (pos : Nat) :
    isWordToken (scanToken (w ++ d :: x) pos).1 := by
  obtain ⟨c, cs, rfl, hstart⟩ := hw.start
  have hletter : IsWord [c] := by
    refine ⟨⟨c, [], rfl, hstart⟩, ?_⟩
    intro c' hc'
    rw [List.mem_singleton.mp hc']
    exact isIdPart_of_isIdStart hstart
  have hword := scanToken_word_append hletter (x := cs ++ d :: x)
    (head?_dropWhile_name (fun c' hc' => hw.parts c' (List.mem_cons_of_mem c hc')) hd hslash x) pos
  exact ⟨_, hword⟩

/-- A name goes up to the first character that is no part of names. -/
theorem takeWhile_name {w : List Char} (hw : ∀ c ∈ w, isTagPart c = true) {d : Char}
    (hd : isTagPart d = false) (x : List Char) : (w ++ d :: x).takeWhile isTagPart = w := by
  rw [List.takeWhile_append_of_pos hw, List.takeWhile_cons_of_neg (by simp [hd]), List.append_nil]

/-- What is left behind a name. -/
theorem dropWhile_name {w : List Char} (hw : ∀ c ∈ w, isTagPart c = true) {d : Char}
    (hd : isTagPart d = false) (x : List Char) : (w ++ d :: x).dropWhile isTagPart = d :: x := by
  rw [List.dropWhile_append_of_pos hw, List.dropWhile_cons_of_neg (by simp [hd])]

variable {c : Context} {s : State}

theorem get_eq (c : Context) (s : State) : (get : Parse State) c s = .ok s s := rfl

theorem prevStop_eq (c : Context) (s : State) : prevStop c s = .ok s.prevStop s := rfl

/-- A name goes up to the first character that may not stand in one. -/
theorem markupWord_eq (h : isWordToken s.cur.token) : markupWord c s =
    .ok (String.ofList (s.text.takeWhile isTagPart))
      (startState (s.text.dropWhile isTagPart)
        (s.cur.span.start + Chars.size (s.text.takeWhile isTagPart))) := by
  obtain ⟨w, hw⟩ := h
  unfold markupWord
  rw [bind_eq, get_eq]
  dsimp only
  rw [hw]
  rfl

/-- A name that was read: the characters of names at the current token, and nothing else. -/
theorem markupWord_inv {w : String} {s' : State} (h : markupWord c s = .ok w s') :
    isWordToken s.cur.token ∧ w = String.ofList (s.text.takeWhile isTagPart) ∧
      s' = startState (s.text.dropWhile isTagPart)
        (s.cur.span.start + Chars.size (s.text.takeWhile isTagPart)) := by
  -- any other token fails
  have hword : isWordToken s.cur.token := by
    obtain ⟨e, hfail⟩ := failHere_eq String c s
    unfold markupWord at h
    rw [bind_eq, get_eq] at h
    cases htoken : s.cur.token with
    | word w' => exact ⟨w', rfl⟩
    | _ =>
      simp only [htoken] at h
      rw [hfail] at h
      cases h
  rw [markupWord_eq hword] at h
  cases h
  exact ⟨hword, rfl, rfl⟩

/-- A name stands at a place of the source, with a sign behind it that ends it. -/
structure NameAt (s : State) (w rest : List Char) (start : Nat) : Prop where
  word : isWordToken s.cur.token
  text : s.text = w ++ rest
  start : s.cur.span.start = start

/-- A name may stand behind a gap. -/
theorem nameAt {gap : List Char} {pos : Nat} (hgap : IsGapAt gap pos) {w : List Char}
    (hw : IsTagWord w) {d : Char} (hd : isTagPart d = false) (hslash : d ≠ '\\') (x : List Char) :
    NameAt (startState (gap ++ (w ++ d :: x)) pos) w (d :: x) (pos + Chars.size gap) := by
  have hhead := hw.head?_ne (d := '/') (by decide) (d :: x)
  have hname := scanToken_name hw hd hslash x
  obtain ⟨ch, cs, rfl, hstart⟩ := hw.start
  obtain ⟨htext, hplace, htoken⟩ := startState_of_isGapAt hgap hhead
    fun newline => skipGap_isIdStart hstart _ _ newline
  exact ⟨by rw [htoken]; exact hname _, htext, hplace⟩

/-- A name may stand behind a blank. -/
theorem nameAt_blank {w : List Char} (hw : IsTagWord w) {d : Char} (hd : isTagPart d = false)
    (hslash : d ≠ '\\') (x : List Char) (pos : Nat) :
    NameAt (startState (' ' :: (w ++ d :: x)) pos) w (d :: x) (pos + 1) :=
  nameAt (isGapAt_blank pos) hw hd hslash x

/-- A name that stands in the text is read. -/
theorem NameAt.markupWord {w : List Char} (hw : IsTagWord w) {d : Char} {x : List Char}
    {start : Nat} (hd : isTagPart d = false) (h : NameAt s w (d :: x) start) :
    markupWord c s = .ok (String.ofList w) (startState (d :: x) (start + Chars.size w)) := by
  rw [markupWord_eq h.word, h.text, h.start, takeWhile_name hw.parts hd, dropWhile_name hw.parts hd]

/-! ## Attributes -/

/-- Whether an operator that begins with a sign stands at a state. -/
def State.opens (s : State) (sign : Char) : Bool :=
  match s.cur.token with
  | .op _ => s.text.head? == some sign
  | _ => false

/-- Whether an opening tag ends at a state. -/
def State.endsTag (s : State) : Bool :=
  s.opens '/' || s.opens '>'

/-- Whether the text goes on with a sign. -/
theorem startsWith_eq (sign : Char) : startsWith sign c s = .ok (s.opens sign) s := by
  unfold startsWith State.opens
  rw [bind_eq, token_eq]
  cases s.cur.token <;> rfl

/-- A tag does not end at a word. -/
theorem endsTag_of_word (h : isWordToken s.cur.token) : s.endsTag = false := by
  obtain ⟨w, hw⟩ := h
  rw [State.endsTag, State.opens, State.opens, hw]
  rfl

/-- The attributes from a state on, and the state at the end of the tag. -/
inductive Attributes (self : Parser) (c : Context) : State → List Tree → State → Prop
  | done {s : State} : s.endsTag = true → Attributes self c s [] s
  | next {s s₁ s' : State} {t : Tree} {ts : List Tree} :
      s.endsTag = false → markupAttribute self c s = .ok t s₁ → Attributes self c s₁ ts s' →
      Attributes self c s (t :: ts) s'

/-- One round of the loop over attributes. -/
def attributeRound (self : Parser) (acc : List Tree) : Parse (List Tree ⊕ List Tree) := do
  if (← startsWith '/') || (← startsWith '>') then return .inr acc.reverse
  return .inl ((← markupAttribute self) :: acc)

/-- A round over the attributes of a tag takes one, up to the end of the tag. -/
theorem attributeRound_eq (self : Parser) (acc : List Tree) : attributeRound self acc c s =
    if s.endsTag then .ok (.inr acc.reverse) s
    else
      match markupAttribute self c s with
      | .ok t s₁ => .ok (.inl (t :: acc)) s₁
      | .error e s₁ => .error e s₁ := by
  unfold attributeRound
  simp only [bind_eq, startsWith_eq]
  show _ = if (s.opens '/' || s.opens '>') = true then _ else _
  split
  · rfl
  · rw [bind_eq]
    cases markupAttribute self c s <;> rfl

/-- The loop over the attributes reads what stands there, as long as its bound allows. -/
theorem rounds_attributes {self : Parser} {attrs : List Tree} {s' : State} (n : Nat)
    (acc : List Tree) : rounds (attributeRound self) n acc c s = .ok attrs s' ↔
      ∃ more, attrs = acc.reverse ++ more ∧ Attributes self c s more s' ∧ more.length < n := by
  -- the loop stops where the tag ends and goes on behind each attribute
  induction n generalizing acc s with
  | zero =>
    obtain ⟨e, hfail⟩ := failHere_eq (List Tree) c s
    rw [rounds, hfail]
    simp
  | succ n ih =>
    rw [rounds, bind_eq, attributeRound_eq]
    cases hend : s.endsTag with
    | true =>
      constructor
      · intro h
        cases h
        exact ⟨[], (List.append_nil _).symm, .done hend, Nat.succ_pos n⟩
      · rintro ⟨more, rfl, hmore, -⟩
        cases hmore with
        | done => rw [List.append_nil]; rfl
        | next hgoes => cases hend.symm.trans hgoes
    | false =>
      cases hattr : markupAttribute self c s with
      | error e s₁ =>
        constructor
        · intro h
          cases h
        · rintro ⟨more, rfl, hmore, -⟩
          cases hmore with
          | done hdone => cases hend.symm.trans hdone
          | next _ hnext => cases hattr.symm.trans hnext
      | ok t s₁ =>
        have hih := ih (s := s₁) (t :: acc)
        constructor
        · intro h
          obtain ⟨more, rfl, hmore, hlength⟩ := hih.mp h
          refine ⟨t :: more, by simp, .next hend hattr hmore, ?_⟩
          rw [List.length_cons]
          omega
        · rintro ⟨more, rfl, hmore, hlength⟩
          cases hmore with
          | done hdone => cases hend.symm.trans hdone
          | @next _ _ _ t' ts _ hnext hrest =>
            cases hattr.symm.trans hnext
            rw [List.length_cons] at hlength
            exact hih.mpr ⟨ts, by simp, hrest, by omega⟩

/-- The attributes of a tag are read one after the other. -/
theorem markupAttributes_iff {self : Parser} {attrs : List Tree} {s' : State} :
    markupAttributes self c s = .ok attrs s' ↔
      Attributes self c s attrs s' ∧ attrs.length < c.bound := by
  have hrounds : markupAttributes self c s = rounds (attributeRound self) c.bound [] c s := rfl
  rw [hrounds, rounds_attributes]
  simp

/-- Where an attribute is read, the others are read behind it. -/
theorem markupAttributes_cons_iff {self : Parser} {s₁ : State} {t : Tree}
    (hgoes : s.endsTag = false) (ht : markupAttribute self c s = .ok t s₁) {attrs : List Tree}
    {s' : State} : markupAttributes self c s = .ok attrs s' ↔
      ∃ more, attrs = t :: more ∧ Attributes self c s₁ more s' ∧ more.length + 1 < c.bound := by
  rw [markupAttributes_iff]
  constructor
  · rintro ⟨hattrs, hlength⟩
    cases hattrs with
    | done hdone => cases hgoes.symm.trans hdone
    | next _ hnext hmore =>
      cases ht.symm.trans hnext
      exact ⟨_, rfl, hmore, hlength⟩
  · rintro ⟨more, rfl, hmore, hlength⟩
    exact ⟨.next hgoes ht hmore, hlength⟩

/-! ## Attributes with a value -/

/-- A string goes up to the quote that opened it. -/
theorem markupString_eq {inside rest : List Char} (hinside : '\x22' ∉ inside)
    (htext : s.text = '\x22' :: (inside ++ '\x22' :: rest)) : markupString c s =
      .ok (.node (.markupString (String.ofList (Text.decodeNamedFrom inside 0)))
          ⟨s.cur.span.start, s.cur.span.start + Chars.size inside + 2⟩ [])
        (startState rest (s.cur.span.start + Chars.size inside + 2)) := by
  -- the string goes up to the first double mark, which is not inside
  have hpos : ∀ d ∈ inside, (d != '\x22') = true := by
    intro d hd
    simpa using fun heq : d = '\x22' => hinside (heq ▸ hd)
  have htake : (inside ++ '\x22' :: rest).takeWhile (· != '\x22') = inside := by
    rw [List.takeWhile_append_of_pos hpos, List.takeWhile_cons_of_neg (by simp), List.append_nil]
  have hdrop : (inside ++ '\x22' :: rest).dropWhile (· != '\x22') = '\x22' :: rest := by
    rw [List.dropWhile_append_of_pos hpos, List.dropWhile_cons_of_neg (by simp)]
  unfold markupString
  rw [bind_eq, get_eq]
  simp only [htext, htake, hdrop]
  rfl

/-! ## Literals in braces -/

/-- A literal stands at a state, and a closing brace behind it. -/
structure LiteralBeforeBrace (s : State) (value : Option String) : Prop where
  literal : s.cur.token = .str value
  brace : s.next.cur.token = .mark .rbrace

namespace LiteralBeforeBrace

variable {self : Parser} {value : Option String}

/-- The literal as a tree. -/
def tree (s : State) (value : Option String) : Tree :=
  .node (.strLit value) ⟨s.cur.span.start, s.next.prevStop⟩ []

/-- A literal in braces starts an operand. -/
theorem startsOperand (h : LiteralBeforeBrace s value) : startsOperand s.cur.token :=
  Or.inl ⟨value, h.literal⟩

/-- In braces a literal is read by the goal of calls. -/
theorem callExpr (h : LiteralBeforeBrace s value) (hbound : 0 < c.bound) (start : Nat) :
    callExpr self start c s = .ok (tree s value) s.next := by
  -- behind the literal stands a brace, so nothing is linked to it
  have hlinks : links self s.cur.span.start true (tree s value) c s.next =
      .ok (tree s value) s.next := by
    obtain ⟨n, hn⟩ : ∃ n, c.bound = n + 1 := ⟨c.bound - 1, by omega⟩
    have hlink : link? self s.cur.span.start true (tree s value) c s.next = .ok none s.next := by
      unfold link?
      simp [bind_eq, typed_eq, newline_eq, isOp_eq, token_eq, pure_eq, h.brace]
    unfold links
    rw [iterate_ok, hn]
    unfold rounds
    simp [bind_eq, hlink, pure_eq]
  have hcallee :=
    calleeExpr_of_primary h.startsOperand (primary_str h.literal) (.literal _ _) hlinks
  unfold Grammar.callExpr
  rw [bind_eq, hcallee]
  simp [tree, Tree.kind, bind_eq, typed_eq, isOp_eq, isMark_eq, pure_eq, h.brace]

/-- It has no operator in front. -/
theorem unaryExpr (h : LiteralBeforeBrace s value) (hbound : 0 < c.bound) :
    unaryExpr self c s = .ok (tree s value) s.next := by
  have hlhs : lhsExpr self c s = .ok (tree s value) s.next :=
    lhsExpr_of_callExpr h.startsOperand (h.callExpr hbound s.cur.span.start)
  have hop (text : String) : s.next.cur.token ≠ .op text := by
    rw [h.brace]
    exact Token.noConfusion
  unfold Grammar.unaryExpr
  simp only [bind_eq, here_eq, dialect_eq, token_eq]
  cases hline : s.next.cur.newline <;>
    simp [h.literal, bind_eq, hlhs, tree, Tree.kind, newline_eq, hline, pure_eq, eatOp,
      eat_ne c s.next (hop _)]

/-- Nor one behind. -/
theorem conditionalExpr (h : LiteralBeforeBrace s value)
    (hunary : self .unary c s = .ok (tree s value) s.next) (hbound : 0 < c.bound) :
    conditionalExpr self c s = .ok (tree s value) s.next := by
  -- a brace is no operator and no question mark, so the literal is the whole expression
  have htail : binaryTail self c.bound (tree s value) 0 c s.next =
      .ok (tree s value) s.next := by
    obtain ⟨n, hn⟩ : ∃ n, c.bound = n + 1 := ⟨c.bound - 1, by omega⟩
    rw [hn]
    unfold binaryTail
    simp [bind_eq, map_eq, typed_eq, token_eq, newline_eq, read_eq, h.brace, binaryOp?]
  have hbinary : binaryExpr self c s = .ok (tree s value) s.next := by
    unfold binaryExpr
    rw [bind_eq, orStay_ok c s hunary]
    simpa [tree, Tree.kind, bind_eq, read_eq] using htail
  have hquestion : s.next.cur.token ≠ .mark .question := by
    rw [h.brace]
    decide
  unfold Grammar.conditionalExpr
  simp only [bind_eq, here_eq, hbinary]
  simp [tree, Tree.kind, bind_eq, eatMark, eat_ne c s.next hquestion, pure_eq]

/-- The literal is an expression. -/
theorem parser_expr (h : LiteralBeforeBrace s value) (fuel : Nat) (hbound : 0 < c.bound) :
    parser (fuel + 3) .expr c s = .ok (tree s value) s.next := by
  have hassign : parser (fuel + 2) .assign c s = .ok (tree s value) s.next := by
    have hunary : parser (fuel + 1) .unary { c with arrowAt := some s.cur.span.start } s =
        .ok (tree s value) s.next := h.unaryExpr hbound
    have hcond := h.conditionalExpr hunary hbound
    have hless : (s.cur.token == .op "<") = false := by
      rw [h.literal]
      rfl
    have hyield : (c.generator && (s.cur.token == .word "yield")) = false := by
      rw [h.literal]
      exact Bool.and_false _
    -- the brace behind the literal is no operator
    have hassign : assignOp? s.next.cur.token = none := by
      rw [h.brace]
      rfl
    show assignExpr (parser (fuel + 1)) c s = _
    unfold assignExpr assignBase
    simp only [bind_eq, dialect_eq, isOp_eq, hless, Bool.and_false, Bool.false_eq_true, if_false,
      here_eq, read_eq, isWord, token_eq, hyield, pure_eq, withReader_eq, hcond]
    simp [tree, Tree.kind, assignTail, bind_eq, token_eq, hassign, pure_eq]
  show expr (parser (fuel + 2)) c s = _
  unfold expr
  simp [bind_eq, here_eq, hassign, isMark_eq, h.brace, pure_eq]

end LiteralBeforeBrace

/-! ## Attributes as they are generated -/

/-- The opening signs of values. -/
def isValueSign (v : Char) : Prop :=
  v = '\x22' ∨ v = '\x7b'

/-- The sign between a name and its value. -/
theorem tokenAt_equals {v : Char} (hv : isValueSign v) (y : List Char) (pos : Nat) :
    TokenAt ('=' :: v :: y) pos (.op "=") (v :: y) (pos + 1) := by
  rcases hv with rfl | rfl <;> exact tokenAt_of_scan (fun _ => rfl) rfl

/-- An attribute with a value is its name and what the value is read as. -/
theorem markupAttribute_eq (self : Parser) {w : List Char} (hw : IsTagWord w) {v : Char}
    (hv : isValueSign v) {y : List Char} {start : Nat} (h : NameAt s w ('=' :: v :: y) start) :
    markupAttribute self c s =
      match attributeValue self c (startState (v :: y) (start + Chars.size w + 1)) with
      | .ok t s' => .ok (.node (.attribute (.plain (String.ofList w))) ⟨start, s'.prevStop⟩ [t]) s'
      | .error e s' => .error e s' := by
  obtain ⟨word, hword⟩ := h.word
  have hbrace : s.cur.token ≠ .mark .lbrace := by
    rw [hword]
    exact Token.noConfusion
  have hequals := tokenAt_equals hv y (start + Chars.size w)
  -- the sign follows the name at once: there is no name space
  have hcolon : (startState ('=' :: v :: y) (start + Chars.size w)).cur.token ≠ .mark .colon := by
    rw [hequals.token]
    exact Token.noConfusion
  unfold markupAttribute
  simp only [bind_eq, here_eq, eatMark, eat_ne c s hbrace, Bool.false_eq_true, if_false,
    h.markupWord hw (by decide), eat_ne c _ hcolon, pure_eq, eatOp, eat_eq c _ hequals.token,
    hequals.next, if_true, h.start]
  cases attributeValue self c (startState (v :: y) (start + Chars.size w + 1)) <;> rfl

/-- A value in quotes goes up to the next quote, with its references decoded. -/
theorem attributeValue_string (self : Parser) {inside rest : List Char}
    (hinside : '\x22' ∉ inside) (htext : s.text = '\x22' :: (inside ++ '\x22' :: rest)) :
    attributeValue self c s =
      .ok (.node (.markupString (String.ofList (Text.decodeNamedFrom inside 0)))
          ⟨s.cur.span.start, s.cur.span.start + Chars.size inside + 2⟩ [])
        (startState rest (s.cur.span.start + Chars.size inside + 2)) := by
  unfold attributeValue
  simp only [bind_eq, get_eq, here_eq, htext]
  exact markupString_eq hinside htext

/-- A value in braces is the literal between them. -/
theorem attributeValue_literal {value : Option String} (h : LiteralBeforeBrace s.next value)
    {y : List Char} (htext : s.text = '\x7b' :: y) (fuel : Nat) (hbound : 0 < c.bound) :
    attributeValue (parser (fuel + 3)) c s =
      .ok (.node .container ⟨s.cur.span.start, s.next.next.next.prevStop⟩
        [LiteralBeforeBrace.tree s.next value]) s.next.next.next := by
  have hclose : s.next.cur.token ≠ .mark .rbrace := by
    rw [h.literal]
    exact Token.noConfusion
  have hexpr := h.parser_expr (c := { c with allowIn := true }) fuel hbound
  unfold attributeValue
  simp [bind_eq, get_eq, here_eq, htext, advance_eq, isMark_eq, hclose, withIn, withReader_eq,
    hexpr, expectMark, expect_eq c _ h.brace, node_eq, LiteralBeforeBrace.tree]

/-- An attribute of a name with a constant text. -/
def IsAttribute (name text : String) (t : Tree) : Prop :=
  ∃ span value, t = .node (.attribute (.plain name)) span value ∧
    Harvest.Site.attributeText? value = some text

/-- An opening brace. -/
theorem tokenAt_lbrace (x : List Char) (pos : Nat) :
    TokenAt ('\x7b' :: x) pos (.mark .lbrace) x (pos + 1) :=
  tokenAt_of_scan (fun _ => rfl) rfl

/-- A closing brace. -/
theorem tokenAt_rbrace (x : List Char) (pos : Nat) :
    TokenAt ('\x7d' :: x) pos (.mark .rbrace) x (pos + 1) :=
  tokenAt_of_scan (fun _ => rfl) rfl

/-- No gap starts with the opening sign of a value. -/
theorem startState_valueSign {v : Char} (hv : isValueSign v) (y : List Char) (pos : Nat) :
    (startState (v :: y) pos).text = v :: y ∧ (startState (v :: y) pos).cur.span.start = pos := by
  have hgap : skipGap .blank (v :: y) pos (pos == 0) = ⟨v :: y, pos, pos == 0, none⟩ := by
    rcases hv with rfl | rfl <;> rfl
  obtain ⟨htext, hplace, -⟩ := startState_of_skipGap hgap
  exact ⟨htext, hplace⟩

/-- An attribute with a string for its value. -/
theorem markupAttribute_string (self : Parser) {w : List Char} (hw : IsTagWord w)
    {inside : List Char} (hinside : '\x22' ∉ inside) (rest : List Char) (pos : Nat) :
    ∃ t, markupAttribute self c
        (startState (' ' :: (w ++ '=' :: '\x22' :: (inside ++ '\x22' :: rest))) pos) =
        .ok t (startState rest (pos + 1 + Chars.size w + 1 + Chars.size inside + 2)) ∧
      IsAttribute (String.ofList w) (String.ofList (Text.decodeNamedFrom inside 0)) t := by
  have hname := nameAt_blank hw (d := '=') (by decide) (by decide)
    ('\x22' :: (inside ++ '\x22' :: rest)) pos
  obtain ⟨htext, hplace⟩ := startState_valueSign (Or.inl rfl) (inside ++ '\x22' :: rest)
    (pos + 1 + Chars.size w + 1)
  have hattribute := markupAttribute_eq (c := c) self hw (Or.inl rfl) hname
  rw [attributeValue_string self hinside htext, hplace] at hattribute
  exact ⟨_, hattribute, _, _, rfl, rfl⟩

/-- An attribute with a literal in braces for its value. -/
theorem markupAttribute_literal {w : List Char} (hw : IsTagWord w) (fuel : Nat) (text : String)
    (rest : List Char) (pos : Nat) (hbound : 0 < c.bound) :
    ∃ t, markupAttribute (parser (fuel + 3)) c
        (startState (' ' :: (w ++ '=' :: '\x7b' ::
          ((Text.quoted text .double).toList ++ '\x7d' :: rest))) pos) =
        .ok t (startState rest (pos + 1 + Chars.size w + 1 + 1 +
          Chars.size (Text.quoted text .double).toList + 1)) ∧
      IsAttribute (String.ofList w) text t := by
  have hname := nameAt_blank hw (d := '=') (by decide) (by decide)
    ('\x7b' :: ((Text.quoted text .double).toList ++ '\x7d' :: rest)) pos
  have hopen := tokenAt_lbrace ((Text.quoted text .double).toList ++ '\x7d' :: rest)
    (pos + 1 + Chars.size w + 1)
  have hliteral := tokenAt_quoted text .double ('\x7d' :: rest) (pos + 1 + Chars.size w + 1 + 1)
  have hclose := tokenAt_rbrace rest (pos + 1 + Chars.size w + 1 + 1 +
    Chars.size (Text.quoted text .double).toList)
  obtain ⟨htext, -⟩ := startState_valueSign (Or.inr rfl)
    ((Text.quoted text .double).toList ++ '\x7d' :: rest) (pos + 1 + Chars.size w + 1)
  have hbefore : LiteralBeforeBrace (startState ('\x7b' ::
      ((Text.quoted text .double).toList ++ '\x7d' :: rest)) (pos + 1 + Chars.size w + 1)).next
      (some text) := by
    rw [hopen.next]
    exact ⟨hliteral.token, by rw [hliteral.next, hclose.token]⟩
  -- the value is a literal between braces and nothing else
  have hvalue := attributeValue_literal (c := c) hbefore htext fuel hbound
  rw [hopen.next, hliteral.next, hclose.next] at hvalue
  have hattribute := markupAttribute_eq (c := c) (parser (fuel + 3)) hw (Or.inr rfl) hname
  rw [hvalue] at hattribute
  exact ⟨_, hattribute, _, _, rfl, rfl⟩

end TextHarvest.Script
