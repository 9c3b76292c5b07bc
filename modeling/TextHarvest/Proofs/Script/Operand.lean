import TextHarvest.Proofs.Script.Tokens

/-!
# Operands

What the grammar makes of a name, a dotted path or a literal that is followed by the end of an
argument. Each step of the grammar is evaluated at a state of which only the coming tokens are
known; the goals that lead to an operand then hand it on as it is.

Main results:

* `rounds_items` — a list of items of one token each.
* `rounds_link_dotted` — the links of a dotted path.
* `parser_assign_of_callExpr` — an operand is what the goals above it come to.
-/

namespace TextHarvest.Script

open Grammar Parse

/-! ## Steps -/

namespace Parse

section Steps

variable {α β : Type} (c : Context) (s : State)

/-! A step is evaluated by the equations of this section, from the outside to the inside. -/

/-- A sequence of steps ends where its first failing step does. -/
theorem bind_eq (p : Parse α) (f : α → Parse β) : (p >>= f) c s =
    match p c s with
    | .ok a s' => f a c s'
    | .error e s' => .error e s' := by
  show EStateM.bind (p c) (fun a => f a c) s = _
  unfold EStateM.bind
  cases p c s <;> rfl

variable {c s} in
/-- A step that succeeds hands its answer on, whatever comes behind it. -/
theorem bind_ok {p : Parse α} {f : α → Parse β} {a : α} {s' : State} (h : p c s = .ok a s') :
    (p >>= f) c s = f a c s' := by
  rw [bind_eq, h]

/-- A result is changed without a step. -/
theorem map_eq (f : α → β) (p : Parse α) : (f <$> p) c s =
    match p c s with
    | .ok a s' => .ok (f a) s'
    | .error e s' => .error e s' := by
  show EStateM.map f (p c) s = _
  unfold EStateM.map
  cases p c s <;> rfl

theorem pure_eq (a : α) : (pure a : Parse α) c s = .ok a s := rfl

theorem read_eq : (read : Parse Context) c s = .ok c s := rfl

/-- A step in another context. -/
theorem withReader_eq (f : Context → Context) (p : Parse α) :
    (withReader f p : Parse α) c s = p (f c) s := rfl

/-- An advance takes one token. -/
theorem advance_eq : advance c s = .ok () s.next := rfl

theorem token_eq : token c s = .ok s.cur.token s := rfl

theorem here_eq : here c s = .ok s.cur.span.start s := rfl

theorem newline_eq : newline c s = .ok s.cur.newline s := rfl

theorem typed_eq : typed c s = .ok c.dialect.typed s := rfl

theorem isMark_eq (m : Mark) : isMark m c s = .ok (s.cur.token == .mark m) s := rfl

theorem isOp_eq (text : String) : isOp text c s = .ok (s.cur.token == .op text) s := rfl

theorem cur_eq : cur c s = .ok s.cur s := rfl

theorem peek_eq : peek c s = .ok s.next.cur s := rfl

theorem dialect_eq : dialect c s = .ok c.dialect s := rfl

/-- A node ends where the last token that was taken does. -/
theorem node_eq (kind : Kind) (start : Nat) (children : List Tree) :
    node kind start children c s = .ok (.node kind ⟨start, s.prevStop⟩ children) s := rfl

/-- A token that is there is taken. -/
theorem eat_eq {t : Token} (h : s.cur.token = t) : eat t c s = .ok true s.next := by
  unfold eat
  simp [bind_eq, token_eq, h, advance_eq, map_eq]

/-- A token that is not there is not taken. -/
theorem eat_ne {t : Token} (h : s.cur.token ≠ t) : eat t c s = .ok false s := by
  unfold eat
  simp [bind_eq, token_eq, h, pure_eq]

/-- A token that is expected and there is taken. -/
theorem expect_eq {t : Token} (h : s.cur.token = t) : expect t c s = .ok () s.next := by
  unfold expect
  simp [bind_eq, eat_eq c s h, pure_eq]

/-- A step that succeeds is not taken back. -/
theorem orStay_ok {p : Parse α} {a : α} {s' : State} (h : p c s = .ok a s') :
    orStay p c s = .ok (.ok a) s' := by
  unfold orStay
  rw [h]

/-- A round that goes on. -/
theorem rounds_inl {σ : Type} {step : σ → Parse (σ ⊕ β)} {a a' : σ} {s' : State} (n : Nat)
    (h : step a c s = .ok (.inl a') s') : rounds step (n + 1) a c s = rounds step n a' c s' := by
  rw [rounds, bind_eq, h]

/-- A round that ends the loop. -/
theorem rounds_inr {σ : Type} {step : σ → Parse (σ ⊕ β)} {a : σ} {b : β} {s' : State} (n : Nat)
    (h : step a c s = .ok (.inr b) s') : rounds step (n + 1) a c s = .ok b s' := by
  rw [rounds, bind_eq, h]
  rfl

theorem iterate_ok {σ : Type} {init : σ} {step : σ → Parse (σ ⊕ β)} :
    iterate init step c s = rounds step c.bound init c s := rfl

end Steps

/-- A failure has an offset, whatever it was to give. -/
theorem failHere_eq (α : Type) (c : Context) (s : State) :
    ∃ e, (failHere : Parse α) c s = .error e s := by
  obtain ⟨⟨token, span, newline⟩, text, rest, stop, after⟩ := s
  cases token <;> exact ⟨_, rfl⟩

section Lists

variable {α : Type} {c : Context} {round : List α → Parse (List α ⊕ List α)}
  {isItem : Token → Prop} (close : Mark) (item : State → α)

/-- A loop that takes items of one token and commas up to a closing mark takes them all. -/
theorem rounds_items
    (hclose : ∀ acc s, s.cur.token = .mark close → round acc c s = .ok (.inr acc.reverse) s.next)
    (hitem : ∀ acc s, isItem s.cur.token →
      (s.next.cur.token = .mark close ∨ s.next.cur.token = .mark .comma) →
      round acc c s = .ok (.inl (item s :: acc))
        (if s.next.cur.token = .mark .comma then s.next.next else s.next))
    (hne : close ≠ .comma) {s' : State} (hend : s'.cur.token = .mark close) (ts : List Token)
    {t : Token} (hts : ∀ u ∈ t :: ts, isItem u) (acc : List α) {s : State} {n : Nat}
    (hshows : Shows s (t :: behindCommas ts) s') (hn : ts.length + 1 < n) :
    ∃ states : List State, rounds round n acc c s = .ok (acc.reverse ++ states.map item) s'.next ∧
      states.map (·.cur.token) = t :: ts := by
  -- each round takes an item and the comma behind it, the last one has none
  induction ts generalizing t acc s n with
  | nil =>
    obtain ⟨n, rfl⟩ : ∃ m, n = m + 2 := ⟨n - 2, by simp at hn; omega⟩
    obtain _ | ⟨hcur, hshows⟩ := hshows
    obtain _ | _ := hshows
    have hround := hitem acc s (hcur ▸ hts t List.mem_cons_self) (Or.inl hend)
    rw [if_neg (by rw [hend]; simpa using hne)] at hround
    refine ⟨[s], ?_, by rw [List.map_singleton, hcur]⟩
    rw [rounds_inl _ _ _ hround, rounds_inr _ _ _ (hclose _ _ hend), List.reverse_cons]
    rfl
  | cons u ts ih =>
    obtain ⟨n, rfl⟩ : ∃ m, n = m + 1 := ⟨n - 1, by simp at hn; omega⟩
    obtain _ | ⟨hcur, hshows⟩ := hshows
    obtain _ | ⟨hcomma, hshows⟩ := hshows
    have hround := hitem acc s (hcur ▸ hts t List.mem_cons_self) (Or.inr hcomma)
    rw [if_pos hcomma] at hround
    obtain ⟨states, hrounds, htokens⟩ := ih (fun v hv => hts v (List.mem_cons_of_mem t hv))
      (item s :: acc) (n := n) hshows (by simp at hn; omega)
    refine ⟨s :: states, ?_, by rw [List.map_cons, hcur, htokens]⟩
    rw [rounds_inl _ _ _ hround, hrounds, List.reverse_cons, List.append_assoc,
      List.singleton_append, List.map_cons]

end Lists

end Parse

/-! ## Links -/

/-- Whether a token ends an operand: an argument, or the whole text. -/
def endsOperand (t : Token) : Prop :=
  t = .eof ∨ t = .mark .comma ∨ t = .mark .rparen

/-- No link follows where the operand ends, nor where it is called but may not be. -/
theorem link?_none {self : Parser} {start : Nat} {noCall : Bool} {e : Tree} {c : Context}
    {s : State}
    (h : endsOperand s.cur.token ∨ (s.cur.token = .mark .lparen ∧ noCall = true)) :
    link? self start noCall e c s = .ok none s := by
  unfold link?
  rcases h with (h | h | h) | ⟨h, rfl⟩ <;>
    simp [bind_eq, typed_eq, newline_eq, isOp_eq, token_eq, pure_eq, h]

/-- A dot and a word behind an expression are a member of it. -/
theorem link?_dot {self : Parser} {start : Nat} {noCall : Bool} {e : Tree} {w : String}
    {c : Context} {s : State} (hdot : s.cur.token = .mark .dot)
    (hword : s.next.cur.token = .word w) :
    link? self start noCall e c s =
      .ok (some (.node (.member (isChained e) (.named w)) ⟨start, s.next.next.prevStop⟩ [e]))
        s.next.next := by
  unfold link? memberAfterDot eatMark eat anyWord
  simp [bind_eq, typed_eq, newline_eq, isOp_eq, token_eq, pure_eq, hdot, advance_eq, hword, map_eq,
    node_eq]

/-- A dotted path, as a tree of accesses to members. -/
inductive IsDotted : Tree → String → Prop
  | head (n : String) (span : Span) : IsDotted (.node (.ident n) span []) n
  | member {e : Tree} {p : String} (n : String) (span : Span) :
      IsDotted e p → IsDotted (.node (.member false (.named n)) span [e]) (p ++ "." ++ n)

/-- A dotted path has no optional link. -/
theorem IsDotted.isChained {e : Tree} {p : String} (h : IsDotted e p) : isChained e = false := by
  cases h <;> rfl

/-- A dotted path is the path of its tree. -/
theorem IsDotted.path? {e : Tree} {p : String} (h : IsDotted e p) : e.path? = some p := by
  -- by induction on the segments, the first of which is a name
  induction h with
  | head n span => rfl
  | member n span _ ih =>
    unfold Tree.path?
    rw [ih]
    rfl

/-- The path of a first segment and further ones. -/
def joinDots (first : String) (more : List String) : String :=
  more.foldl (fun p w => p ++ "." ++ w) first

/-- The links of a dotted path are taken one after the other. -/
theorem rounds_link_dotted (self : Parser) (start : Nat) (noCall : Bool) (c : Context) {s' : State}
    (hend : endsOperand s'.cur.token ∨ (s'.cur.token = .mark .lparen ∧ noCall = true))
    (more : List String) {e : Tree} {p : String} {s : State} {n : Nat} (he : IsDotted e p)
    (hshows : Shows s (segmentTokens more) s') (hn : more.length < n) :
    ∃ e', rounds (fun e => do
        match ← link? self start noCall e with
        | some e => return .inl e
        | none => return .inr e) n e c s = .ok e' s' ∧ IsDotted e' (joinDots p more) := by
  -- by induction on the segments, one round each
  induction more generalizing e p s n with
  | nil =>
    obtain ⟨n, rfl⟩ : ∃ m, n = m + 1 := ⟨n - 1, by simp at hn; omega⟩
    cases hshows
    refine ⟨e, ?_, he⟩
    unfold rounds
    simp [bind_eq, link?_none hend, pure_eq]
  | cons w more ih =>
    obtain ⟨n, rfl⟩ : ∃ m, n = m + 1 := ⟨n - 1, by simp at hn; omega⟩
    obtain _ | ⟨hdot, hshows⟩ := hshows
    obtain _ | ⟨hword, hshows⟩ := hshows
    obtain ⟨e', hrounds, he'⟩ := ih (.member w ⟨start, s.next.next.prevStop⟩ he) hshows
      (by simp at hn; omega)
    refine ⟨e', ?_, he'⟩
    unfold rounds
    simp [bind_eq, link?_dot hdot hword, pure_eq, he.isChained]
    exact hrounds

/-! ## Names and literals -/

/-- A word that is not reserved is a name. -/
theorem name_word {w : String} {c : Context} {s : State} (hcur : s.cur.token = .word w)
    (hw : w ∉ reserved) : name c s = .ok w s.next := by
  unfold name
  simp [bind_eq, token_eq, hcur, hw, typed_eq, advance_eq, map_eq]

/-- Without an arrow behind it a word is a name and no parameter. -/
theorem nameOrArrow_word (self : Parser) (start : Nat) (canArrow : Bool) {w : String}
    {c : Context} {s : State} (hcur : s.cur.token = .word w)
    (hw : w ∉ reserved) (hnext : s.next.cur.token ≠ .mark .arrow) :
    nameOrArrow self start canArrow c s =
      .ok (.node (.ident w) ⟨start, s.next.prevStop⟩ []) s.next := by
  unfold nameOrArrow
  simp [bind_eq, name_word hcur hw, node_eq, isMark_eq, hnext, newline_eq, pure_eq]

/-- The word `async` is a name when no parenthesis follows it on its line. -/
theorem asyncExpr_name {self : Parser} {c : Context} {s : State} {start : Nat} {canArrow : Bool}
    (hcur : s.cur.token = .word "async")
    (hnext : s.next.cur.token = .mark .dot ∨
      s.next.cur.token = .mark .lparen ∧ s.next.cur.newline = true) :
    asyncExpr self start canArrow c s =
      .ok (.node (.ident "async") ⟨start, s.next.prevStop⟩ []) s.next := by
  have harrow : s.next.cur.token ≠ .mark .arrow := by
    rcases hnext with h | ⟨h, -⟩ <;> simp [h]
  have hname := nameOrArrow_word self start canArrow (c := c) hcur (by decide) harrow
  unfold asyncExpr
  rcases hnext with h | ⟨h, hline⟩
  · simp [bind_eq, cur_eq, peek_eq, h, typed_eq, hname, isName]
  · simp [bind_eq, cur_eq, peek_eq, h, hline, typed_eq, hname, isName]

/-- A word that is not reserved is a name where no arrow follows it. -/
theorem primary_word {self : Parser} {w : String} {c : Context} {s : State}
    (hcur : s.cur.token = .word w) (hw : w ∉ reserved)
    (hnext : s.next.cur.token = .mark .dot ∨
      s.next.cur.token = .mark .lparen ∧ (w ≠ "async" ∨ s.next.cur.newline = true)) :
    primary self c s = .ok (.node (.ident w) ⟨s.cur.span.start, s.next.prevStop⟩ []) s.next := by
  have harrow : s.next.cur.token ≠ .mark .arrow := by
    rcases hnext with h | ⟨h, -⟩ <;> simp [h]
  have hname := nameOrArrow_word self s.cur.span.start
    (c.arrowAt == some s.cur.span.start) (c := c) hcur hw harrow
  unfold primary
  rw [bind_ok (here_eq c s), bind_ok (read_eq c s)]
  dsimp only
  rw [bind_ok (token_eq c s), hcur]
  -- one word can begin a function, and here no function follows it
  by_cases hasync : w = "async"
  · subst hasync
    exact asyncExpr_name hcur (hnext.imp_right fun h => ⟨h.1, h.2.resolve_left fun h => h rfl⟩)
  · simp only [reserved, List.mem_cons, List.not_mem_nil, or_false, not_or] at hw
    simp [hw, hname]

/-- A literal is an operand. -/
theorem primary_str {self : Parser} {value : Option String} {c : Context} {s : State}
    (hcur : s.cur.token = .str value) :
    primary self c s =
      .ok (.node (.strLit value) ⟨s.cur.span.start, s.next.prevStop⟩ []) s.next := by
  unfold primary
  simp [bind_eq, here_eq, read_eq, token_eq, hcur, advance_eq, node_eq]

/-! ## From an operand to the goals above it -/

/-- Whether an operand starts with a token that is a literal or the name of a variable. -/
def startsOperand (t : Token) : Prop :=
  (∃ value, t = .str value) ∨ ∃ w, t = .word w ∧ w ∉ reserved ∧ w ≠ "await"

/-- The operands that a generated call is made of. -/
inductive IsOperand : Tree → Prop
  | ident (n : String) (span : Span) : IsOperand (.node (.ident n) span [])
  | member (n : String) (span : Span) (e : Tree) :
      IsOperand (.node (.member false (.named n)) span [e])
  | literal (value : Option String) (span : Span) : IsOperand (.node (.strLit value) span [])
  | call (span : Span) (es : List Tree) : IsOperand (.node (.call false) span es)

/-- A dotted path is an operand. -/
theorem IsDotted.isOperand {e : Tree} {p : String} (h : IsDotted e p) : IsOperand e := by
  cases h with
  | head => exact .ident _ _
  | member => exact .member _ _ _

/-- An operand with its links is what may be called. -/
theorem calleeExpr_of_primary {self : Parser} {c : Context} {s s₁ s₂ : State} {e e' : Tree}
    (hstart : startsOperand s.cur.token) (hprimary : primary self c s = .ok e s₁)
    (he : IsOperand e)
    (hlinks : links self s.cur.span.start true e c s₁ = .ok e' s₂) :
    calleeExpr self c s = .ok e' s₂ := by
  unfold calleeExpr
  simp only [bind_eq, here_eq, token_eq]
  rcases hstart with ⟨value, hcur⟩ | ⟨w, hcur, hw, -⟩
  · cases he <;> simpa [hcur, bind_eq, hprimary, Tree.kind] using hlinks
  · simp only [reserved, List.mem_cons, List.not_mem_nil, or_false, not_or] at hw
    cases he <;> simpa [hcur, hw, bind_eq, hprimary, Tree.kind] using hlinks

/-- Where an operand ends there is no link. -/
theorem links_end {self : Parser} {start : Nat} {noCall : Bool} {e : Tree} {c : Context} {s : State}
    (h : endsOperand s.cur.token) (hbound : 0 < c.bound) :
    links self start noCall e c s = .ok e s := by
  obtain ⟨n, hn⟩ : ∃ n, c.bound = n + 1 := ⟨c.bound - 1, by omega⟩
  unfold links
  rw [iterate_ok, hn]
  unfold rounds
  simp [bind_eq, link?_none (Or.inl h), pure_eq]

/-- What no arguments follow is no call. -/
theorem callExpr_end {self : Parser} {start : Nat} {c : Context} {s s' : State} {e : Tree}
    (hcallee : calleeExpr self c s = .ok e s') (he : IsOperand e)
    (hend : endsOperand s'.cur.token) : callExpr self start c s = .ok e s' := by
  unfold callExpr
  rw [bind_eq, hcallee]
  cases he <;> rcases hend with h | h | h <;>
    simp [Tree.kind, bind_eq, typed_eq, isOp_eq, isMark_eq, pure_eq, h]

/-- A path that arguments follow is called. -/
theorem callExpr_call {self : Parser} {start : Nat} {c : Context} {s s₁ s₂ : State} {e : Tree}
    {p : String} {args : List Tree} (hcallee : calleeExpr self c s = .ok e s₁) (he : IsDotted e p)
    (hparen : s₁.cur.token = .mark .lparen) (hargs : arguments self c s₁ = .ok args s₂)
    (hend : endsOperand s₂.cur.token) (hbound : 0 < c.bound) :
    callExpr self start c s = .ok (.node (.call false) ⟨start, s₂.prevStop⟩ (e :: args)) s₂ := by
  have hlinks : links self start false (.node (.call false) ⟨start, s₂.prevStop⟩ (e :: args)) c
      s₂ = .ok _ s₂ := links_end hend hbound
  have hchained := he.isChained
  unfold callExpr
  rw [bind_eq, hcallee]
  cases he <;>
    simp [Tree.kind, bind_eq, typed_eq, isOp_eq, isMark_eq, hparen, hargs, node_eq, hlinks,
      hchained]

/-- A call is what may stand on the left of an assignment. -/
theorem lhsExpr_of_callExpr {self : Parser} {c : Context} {s s' : State} {e : Tree}
    (hstart : startsOperand s.cur.token)
    (hcall : callExpr self s.cur.span.start c s = .ok e s') : lhsExpr self c s = .ok e s' := by
  unfold lhsExpr
  simp only [bind_eq, here_eq, token_eq]
  rcases hstart with ⟨value, hcur⟩ | ⟨w, hcur, hw, -⟩
  · simpa [hcur] using hcall
  · simp only [reserved, List.mem_cons, List.not_mem_nil, or_false, not_or] at hw
    simpa [hcur, hw] using hcall

/-- A token that ends an operand is no operator. -/
theorem endsOperand.ne_op {t : Token} (h : endsOperand t) (text : String) : t ≠ .op text := by
  rcases h with h | h | h <;> rw [h] <;> exact Token.noConfusion

/-- An operand without an operator in front or behind. -/
theorem unaryExpr_of_lhsExpr {self : Parser} {c : Context} {s s' : State} {e : Tree}
    (hstart : startsOperand s.cur.token) (hlhs : lhsExpr self c s = .ok e s')
    (he : IsOperand e) (hend : endsOperand s'.cur.token) : unaryExpr self c s = .ok e s' := by
  have hplus := eat_ne c s' (hend.ne_op "++")
  have hminus := eat_ne c s' (hend.ne_op "--")
  unfold unaryExpr
  rw [bind_ok (here_eq c s)]
  dsimp only
  rw [bind_ok (dialect_eq c s), bind_ok (token_eq c s)]
  -- a literal or a name is no operator in front, and none stands behind either
  rcases hstart with ⟨value, hcur⟩ | ⟨w, hcur, hw, hawait⟩
  · simp only [hcur]
    rw [bind_ok hlhs]
    cases hline : s'.cur.newline <;> cases he <;>
      simp [bind_eq, Tree.kind, newline_eq, hline, pure_eq, eatOp, hplus, hminus]
  · simp only [reserved, List.mem_cons, List.not_mem_nil, or_false, not_or] at hw
    simp only [hcur, hw, hawait, Token.word.injEq, imp_self]
    rw [bind_ok hlhs]
    cases hline : s'.cur.newline <;> cases he <;>
      simp [bind_eq, Tree.kind, newline_eq, hline, pure_eq, eatOp, hplus, hminus]

/-- Where an operand ends there is no binary operator. -/
theorem binaryTail_end {self : Parser} {c : Context} {s : State} {e : Tree} {n least : Nat}
    (hend : endsOperand s.cur.token) (hn : 0 < n) :
    binaryTail self n e least c s = .ok e s := by
  obtain ⟨n, rfl⟩ : ∃ m, n = m + 1 := ⟨n - 1, by omega⟩
  unfold binaryTail
  rcases hend with h | h | h <;>
    simp [bind_eq, map_eq, typed_eq, token_eq, newline_eq, read_eq, h, binaryOp?]

/-- An operand is a binary expression without operators. -/
theorem binaryExpr_of_unary {self : Parser} {c : Context} {s s' : State} {e : Tree}
    (hunary : self .unary c s = .ok e s') (he : IsOperand e) (hend : endsOperand s'.cur.token)
    (hbound : 0 < c.bound) : binaryExpr self c s = .ok e s' := by
  have htail : binaryTail self c.bound e 0 c s' = .ok e s' := binaryTail_end hend hbound
  unfold binaryExpr
  rw [bind_eq, orStay_ok c s hunary]
  cases he <;> simp [Tree.kind, bind_eq, read_eq, htail]

/-- An operand is a conditional expression without a condition. -/
theorem conditionalExpr_of_unary {self : Parser} {c : Context} {s s' : State} {e : Tree}
    (hunary : self .unary c s = .ok e s') (he : IsOperand e) (hend : endsOperand s'.cur.token)
    (hbound : 0 < c.bound) : conditionalExpr self c s = .ok e s' := by
  have hquestion : s'.cur.token ≠ .mark .question := by
    rcases hend with h | h | h <;> rw [h] <;> decide
  have hbinary := binaryExpr_of_unary hunary he hend hbound
  have hnone := eat_ne c s' hquestion
  unfold conditionalExpr
  simp only [bind_eq, here_eq, hbinary]
  cases he <;> simp [Tree.kind, bind_eq, eatMark, hnone, pure_eq]

/-- Nothing is assigned to an operand that ends. -/
theorem assignExpr_of_unary {self : Parser} {c : Context} {s s' : State} {e : Tree}
    (hstart : startsOperand s.cur.token)
    (hunary : self .unary { c with arrowAt := some s.cur.span.start } s = .ok e s')
    (he : IsOperand e) (hend : endsOperand s'.cur.token) (hbound : 0 < c.bound)
    (hgenerator : c.generator = false) : assignExpr self c s = .ok e s' := by
  have hcond := conditionalExpr_of_unary hunary he hend hbound
  have hless : (s.cur.token == .op "<") = false := by
    rcases hstart with ⟨value, hcur⟩ | ⟨w, hcur, -⟩ <;> rw [hcur] <;> rfl
  -- what ends the operand is no sign of an assignment
  have hassign : assignOp? s'.cur.token = none := by
    rcases hend with h | h | h <;> rw [h] <;> rfl
  have hyield : (c.generator && (s.cur.token == .word "yield")) = false := by
    rw [hgenerator, Bool.false_and]
  unfold assignExpr assignBase
  simp only [bind_eq, dialect_eq, isOp_eq, hless, Bool.and_false, Bool.false_eq_true, if_false,
    here_eq, read_eq, isWord, token_eq, hyield, pure_eq, withReader_eq, hcond]
  cases he <;> simp [Tree.kind, assignTail, bind_eq, token_eq, hassign, pure_eq]


/-- What an operand comes to, as the goals of the grammar that lead to it. -/
theorem parser_assign_of_callExpr {fuel : Nat} {c : Context} {s s' : State} {e : Tree}
    (hstart : startsOperand s.cur.token)
    (hcall : callExpr (parser fuel) s.cur.span.start
      { c with arrowAt := some s.cur.span.start } s = .ok e s')
    (he : IsOperand e) (hend : endsOperand s'.cur.token) (hbound : 0 < c.bound)
    (hgenerator : c.generator = false) : parser (fuel + 2) .assign c s = .ok e s' := by
  have hunary : parser (fuel + 1) .unary { c with arrowAt := some s.cur.span.start } s =
      .ok e s' :=
    unaryExpr_of_lhsExpr hstart (lhsExpr_of_callExpr hstart hcall) he hend
  exact assignExpr_of_unary hstart hunary he hend hbound hgenerator

end TextHarvest.Script
