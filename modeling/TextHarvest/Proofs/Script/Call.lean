import Mathlib.Data.List.Forall2
import TextHarvest.Proofs.Script.Operand

/-!
# Reading back generated calls

A text is replaced by a call of the lookup function with a literal for its key, and possibly one
for the text. When the name of the function is a dotted path of identifiers, the call is an
expression with that path for its callee and the literals for its arguments.

Main results:

* `arguments_literals` — literals with commas between them are the arguments of a call.
* `parser_expr_call` — the tokens of a call are read as the call.
* `parseExpr_call` — the text of a call is an expression.
-/

namespace TextHarvest.Script

open Grammar Parse

/-! ## Literals between parentheses -/

/-- A literal that ends is what the goals above it come to. -/
theorem parser_assign_literal (fuel : Nat) {c : Context} {s : State} {value : Option String}
    (hcur : s.cur.token = .str value) (hend : endsOperand s.next.cur.token) (hbound : 0 < c.bound)
    (hgenerator : c.generator = false) :
    parser (fuel + 2) .assign c s =
      .ok (.node (.strLit value) ⟨s.cur.span.start, s.next.prevStop⟩ []) s.next := by
  have hstart : startsOperand s.cur.token := Or.inl ⟨value, hcur⟩
  have he : IsOperand (.node (.strLit value) ⟨s.cur.span.start, s.next.prevStop⟩ []) :=
    .literal value _
  have hcallee : calleeExpr (parser fuel) { c with arrowAt := some s.cur.span.start } s =
      .ok _ s.next := calleeExpr_of_primary hstart (primary_str hcur) he (links_end hend hbound)
  exact parser_assign_of_callExpr hstart (callExpr_end hcallee he hend) he hend hbound hgenerator

/-- A literal up to a comma or a parenthesis is an argument. -/
theorem argument_literal (fuel : Nat) {c : Context} {s : State} {value : Option String}
    (hcur : s.cur.token = .str value) (hend : endsOperand s.next.cur.token) (hbound : 0 < c.bound)
    (hgenerator : c.generator = false) :
    argument (parser (fuel + 2)) c s =
      .ok (.node (.strLit value) ⟨s.cur.span.start, s.next.prevStop⟩ []) s.next := by
  have hellipsis : s.cur.token ≠ .mark .ellipsis := by
    rw [hcur]
    exact Token.noConfusion
  have hassign := parser_assign_literal fuel hcur hend hbound hgenerator
  unfold argument
  simp [bind_eq, here_eq, eatMark, eat_ne c s hellipsis, hassign]

/-- A string literal, as a tree. -/
def IsLiteral (t : Tree) (value : Option String) : Prop :=
  ∃ span, t = .node (.strLit value) span []

/-- The literal at the current token. -/
def literalOf (s : State) : Tree :=
  match s.cur.token with
  | .str value => .node (.strLit value) ⟨s.cur.span.start, s.next.prevStop⟩ []
  | _ => .node .invalid s.cur.span []

/-- At a literal, the tree of the literal. -/
theorem literalOf_eq {s : State} {value : Option String} (hcur : s.cur.token = .str value) :
    literalOf s = .node (.strLit value) ⟨s.cur.span.start, s.next.prevStop⟩ [] := by
  unfold literalOf
  rw [hcur]

/-- One round of a list of arguments. -/
def argumentRound (self : Parser) (acc : List Tree) : Parse (List Tree ⊕ List Tree) := do
  if ← eatMark .rparen then return .inr acc.reverse
  let t ← argument self
  if ← isMark .rparen then return .inl (t :: acc)
  expectMark .comma
  return .inl (t :: acc)

/-- The end of a list in parentheses. -/
theorem argumentRound_close (self : Parser) {c : Context} {s : State} {acc : List Tree}
    (hparen : s.cur.token = .mark .rparen) :
    argumentRound self acc c s = .ok (.inr acc.reverse) s.next := by
  unfold argumentRound
  simp [bind_eq, eatMark, eat_eq c s hparen, pure_eq]

/-- A round over a list of arguments takes a literal, and the comma behind it if there is one. -/
theorem argumentRound_literal (fuel : Nat) {c : Context} {s : State} {acc : List Tree}
    (hcur : ∃ value, s.cur.token = .str value)
    (hend : s.next.cur.token = .mark .rparen ∨ s.next.cur.token = .mark .comma)
    (hbound : 0 < c.bound) (hgenerator : c.generator = false) :
    argumentRound (parser (fuel + 2)) acc c s =
      .ok (.inl (literalOf s :: acc))
        (if s.next.cur.token = .mark .comma then s.next.next else s.next) := by
  obtain ⟨value, hcur⟩ := hcur
  rw [literalOf_eq hcur]
  have hopen : s.cur.token ≠ .mark .rparen := by
    rw [hcur]
    exact Token.noConfusion
  unfold argumentRound
  -- behind the literal the list ends or goes on
  rcases hend with hparen | hcomma
  · have hargument := argument_literal fuel hcur (Or.inr (Or.inr hparen)) hbound
      hgenerator
    simp [bind_eq, eatMark, eat_ne c s hopen, hargument, isMark_eq, hparen, pure_eq]
  · have hargument := argument_literal fuel hcur (Or.inr (Or.inl hcomma)) hbound
      hgenerator
    simp [bind_eq, eatMark, eat_ne c s hopen, hargument, isMark_eq, hcomma, map_eq, expectMark,
      expect_eq c s.next hcomma]

/-- The trees at some literals hold their values. -/
theorem forall₂_literalOf {states : List State} {values : List (Option String)}
    (h : states.map (·.cur.token) = values.map .str) :
    List.Forall₂ IsLiteral (states.map literalOf) values := by
  induction values generalizing states with
  | nil =>
    rw [List.map_eq_nil_iff.mp h]
    exact .nil
  | cons value values ih =>
    obtain ⟨s, states, rfl, hcur, hstates⟩ := List.map_eq_cons_iff.mp h
    exact .cons ⟨_, literalOf_eq hcur⟩ (ih hstates)

/-- The tokens of some literals are those of literals. -/
theorem isLiteral_tokens (value : Option String) (values : List (Option String)) :
    ∀ t ∈ Token.str value :: values.map .str, ∃ v, t = .str v := by
  intro t ht
  rw [← List.map_cons] at ht
  obtain ⟨v, -, rfl⟩ := List.mem_map.mp ht
  exact ⟨v, rfl⟩

/-- The arguments of a call that are literals. -/
theorem arguments_literals (fuel : Nat) {c : Context} {s s' : State} {value : Option String}
    {values : List (Option String)}
    (hshows : Shows s (.mark .lparen :: .str value :: behindCommas (values.map .str)) s')
    (hparen : s'.cur.token = .mark .rparen) (hbound : values.length + 1 < c.bound)
    (hgenerator : c.generator = false) :
    ∃ ts, arguments (parser (fuel + 2)) c s = .ok ts s'.next ∧
      List.Forall₂ IsLiteral ts (value :: values) := by
  obtain _ | ⟨hlparen, hshows⟩ := hshows
  -- one round for each literal, and one for the closing parenthesis
  obtain ⟨states, hrounds, htokens⟩ := rounds_items .rparen literalOf (n := c.bound)
    (c := { c with beforeColon := false, allowIn := true })
    (fun acc s => argumentRound_close (parser (fuel + 2)))
    (fun acc s hcur hnext => argumentRound_literal fuel hcur hnext (by dsimp only; omega) hgenerator)
    (by decide) hparen (values.map .str) (isLiteral_tokens value values) [] hshows
    (by rw [List.length_map]; exact hbound)
  refine ⟨_, ?_, forall₂_literalOf htokens⟩
  unfold arguments
  simp only [bind_eq, expectMark, expect_eq c s hlparen, withReader_eq]
  exact hrounds

/-! ## The name `async`

With parentheses behind it this word is read as the start of a function first. What stands in the
parentheses is the same in both readings. -/

/-- One round of what stands between parentheses. -/
def parenRound (self : Parser) (acc : List ParenItem) :
    Parse (List ParenItem ⊕ List ParenItem) := do
  if ← eatMark .rparen then return .inr acc.reverse
  let start ← here
  let item ← parenItem self
  let item ← if (← isMark .arrow) && item.isName then do
      advance
      let body ← arrowBody self
      pure ⟨← node (.arrow false) start [asPattern item.tree, body], false⟩
    else pure item
  unless ← isMark .rparen do expectMark .comma
  return .inl (item :: acc)

/-- A literal between parentheses is an item without a pattern. -/
theorem parenItem_literal (fuel : Nat) {c : Context} {s : State} {value : Option String}
    (hcur : s.cur.token = .str value) (hend : endsOperand s.next.cur.token) (hbound : 0 < c.bound)
    (hgenerator : c.generator = false) :
    parenItem (parser (fuel + 2)) c s =
      .ok ⟨.node (.strLit value) ⟨s.cur.span.start, s.next.prevStop⟩ [], false⟩ s.next := by
  have hargument := argument_literal fuel (c := { c with allowIn := true }) hcur hend
    hbound hgenerator
  -- neither a mark of an optional name nor one of a type stands behind it
  have hquestion : (s.next.cur.token == .mark .question) = false := by
    rcases hend with h | h | h <;> rw [h] <;> rfl
  have hcolon : (s.next.cur.token == .mark .colon) = false := by
    rcases hend with h | h | h <;> rw [h] <;> rfl
  have hmodifier : eatModifier c s = .ok () s := by
    unfold eatModifier
    cases htyped : c.dialect.typed <;> simp [bind_eq, typed_eq, token_eq, pure_eq, hcur, htyped]
  have hoperand : parenOperand (parser (fuel + 2)) c s =
      .ok (.node (.strLit value) ⟨s.cur.span.start, s.next.prevStop⟩ []) s.next := by
    unfold parenOperand
    simp [bind_eq, here_eq, token_eq, typed_eq, hcur, isName, withIn, withReader_eq,
      hargument]
  unfold parenItem
  simp [bind_eq, here_eq, hmodifier, hoperand, typed_eq, isMark_eq, hquestion, hcolon, pure_eq]


/-- The end of what stands between parentheses. -/
theorem parenRound_close (self : Parser) {c : Context} {s : State} {acc : List ParenItem}
    (hparen : s.cur.token = .mark .rparen) :
    parenRound self acc c s = .ok (.inr acc.reverse) s.next := by
  unfold parenRound
  simp [bind_eq, eatMark, eat_eq c s hparen, pure_eq]

/-- A round over what stands between parentheses takes a literal, and the comma behind it if there
is one. -/
theorem parenRound_literal (fuel : Nat) {c : Context} {s : State} {acc : List ParenItem}
    (hcur : ∃ value, s.cur.token = .str value)
    (hend : s.next.cur.token = .mark .rparen ∨ s.next.cur.token = .mark .comma)
    (hbound : 0 < c.bound) (hgenerator : c.generator = false) :
    parenRound (parser (fuel + 2)) acc c s =
      .ok (.inl (⟨literalOf s, false⟩ :: acc))
        (if s.next.cur.token = .mark .comma then s.next.next else s.next) := by
  obtain ⟨value, hcur⟩ := hcur
  rw [literalOf_eq hcur]
  have hopen : s.cur.token ≠ .mark .rparen := by
    rw [hcur]
    exact Token.noConfusion
  unfold parenRound
  -- the last argument stands before the parenthesis, any other before a comma
  rcases hend with hparen | hcomma
  · have hitem := parenItem_literal fuel hcur (Or.inr (Or.inr hparen)) hbound hgenerator
    simp [bind_eq, here_eq, eatMark, eat_ne c s hopen, hitem, isMark_eq, hparen, pure_eq]
  · have hitem := parenItem_literal fuel hcur (Or.inr (Or.inl hcomma)) hbound hgenerator
    simp [bind_eq, here_eq, eatMark, eat_ne c s hopen, hitem, isMark_eq, hcomma, map_eq,
      expectMark, expect_eq c s.next hcomma]

/-- The literals between parentheses, read as what may become the head of a function. -/
theorem parenItems_literals (fuel : Nat) {c : Context} {s s' : State} {value : Option String}
    {values : List (Option String)}
    (hshows : Shows s (.mark .lparen :: .str value :: behindCommas (values.map .str)) s')
    (hparen : s'.cur.token = .mark .rparen) (hbound : values.length + 1 < c.bound)
    (hgenerator : c.generator = false) :
    ∃ ts, parenItems (parser (fuel + 2)) c s =
        .ok (ts.map fun t => ⟨t, false⟩) s'.next ∧
      List.Forall₂ IsLiteral ts (value :: values) := by
  obtain _ | ⟨hlparen, hshows⟩ := hshows
  obtain ⟨states, hrounds, htokens⟩ := rounds_items .rparen
    (fun s => ParenItem.mk (literalOf s) false) (n := c.bound) (c := { c with beforeColon := false })
    (fun acc s => parenRound_close (parser (fuel + 2)))
    (fun acc s hcur hnext => parenRound_literal fuel hcur hnext (by dsimp only; omega) hgenerator)
    (by decide) hparen (values.map .str) (isLiteral_tokens value values) [] hshows
    (by rw [List.length_map]; exact hbound)
  -- the items are the literals with nothing added
  refine ⟨states.map literalOf, ?_, forall₂_literalOf htokens⟩
  rw [List.map_map]
  unfold parenItems
  simp only [bind_eq, expectMark, expect_eq c s hlparen, withReader_eq]
  exact hrounds

/-- The word `async` with arguments is the name of the function that is called. -/
theorem parenOrArrow_async (fuel : Nat) (word : Span) (canArrow : Bool) {c : Context} {s s' : State}
    {value : Option String} {values : List (Option String)}
    (hshows : Shows s (.mark .lparen :: .str value :: behindCommas (values.map .str)) s')
    (hparen : s'.cur.token = .mark .rparen) (hend : endsOperand s'.next.cur.token)
    (hbound : values.length + 1 < c.bound) (hgenerator : c.generator = false) :
    ∃ ts, parenOrArrow (parser (fuel + 2)) canArrow (some word) c s =
        .ok (.node (.call false) ⟨word.start, s'.next.prevStop⟩
          (.node (.ident "async") word [] :: ts)) s'.next ∧
      List.Forall₂ IsLiteral ts (value :: values) := by
  obtain ⟨ts, hitems, hts⟩ := parenItems_literals fuel hshows hparen hbound hgenerator
  refine ⟨ts, ?_, hts⟩
  -- no arrow and no result type follows, so the parentheses are those of a call
  have hcolon : (s'.next.cur.token == .mark .colon) = false := by
    rcases hend with h | h | h <;> rw [h] <;> rfl
  have harrow : (s'.next.cur.token == .mark .arrow) = false := by
    rcases hend with h | h | h <;> rw [h] <;> rfl
  unfold parenOrArrow
  simp [bind_eq, here_eq, hitems, read_eq, isMark_eq, hcolon, harrow, node_eq,
    Function.comp_def, Tree.leaf]

/-- The word `async` with its arguments is an operand. -/
theorem primary_async (fuel : Nat) {c : Context} {s s' : State}
    {value : Option String} {values : List (Option String)} (hcur : s.cur.token = .word "async")
    (hshows : Shows s.next (.mark .lparen :: .str value :: behindCommas (values.map .str)) s')
    (hline : s.next.cur.newline = false)
    (hparen : s'.cur.token = .mark .rparen) (hend : endsOperand s'.next.cur.token)
    (hbound : values.length + 1 < c.bound) (hgenerator : c.generator = false)
    (harrowAt : c.arrowAt = some s.cur.span.start) :
    ∃ ts, primary (parser (fuel + 2)) c s =
        .ok (.node (.call false) ⟨s.cur.span.start, s'.next.prevStop⟩
          (.node (.ident "async") s.cur.span [] :: ts)) s'.next ∧
      List.Forall₂ IsLiteral ts (value :: values) := by
  obtain ⟨ts, hcall, hts⟩ := parenOrArrow_async fuel s.cur.span true hshows hparen hend hbound hgenerator
  refine ⟨ts, ?_, hts⟩
  obtain _ | ⟨hlparen, -⟩ := hshows
  -- the parenthesis stands on the same line, so the word may start a function
  have hasync : asyncExpr (parser (fuel + 2)) s.cur.span.start true c s = .ok
      (.node (.call false) ⟨s.cur.span.start, s'.next.prevStop⟩
        (.node (.ident "async") s.cur.span [] :: ts)) s'.next := by
    unfold asyncExpr
    simp [bind_eq, cur_eq, peek_eq, hlparen, hline, advance_eq, hcall]
  unfold primary
  simp [bind_eq, here_eq, read_eq, token_eq, hcur, harrowAt, hasync]

/-! ## The call -/

/-- A call of a dotted path with literals for its arguments, as a tree that ends at an offset. -/
inductive IsCall : Tree → String → List (Option String) → Nat → Prop
  | mk {callee : Tree} {path : String} {args : List Tree} {values : List (Option String)}
      (start stop : Nat) : IsDotted callee path → List.Forall₂ IsLiteral args values →
      IsCall (.node (.call false) ⟨start, stop⟩ (callee :: args)) path values stop

/-- A call is an operand. -/
theorem IsCall.isOperand {t : Tree} {path : String} {values : List (Option String)} {stop : Nat}
    (h : IsCall t path values stop) : IsOperand t := by
  cases h
  exact .call _ _

/-- A call ends where its closing parenthesis does. -/
theorem IsCall.span_stop {t : Tree} {path : String} {values : List (Option String)} {stop : Nat}
    (h : IsCall t path values stop) : t.span.stop = stop := by
  cases h
  rfl

/-- Where the first word of a path stands, it is taken as a name. -/
theorem callExpr_named {fuel start : Nat} {c : Context} {s s' : State} {first : String}
    {more : List String} {value : Option String} {values : List (Option String)}
    (hfirst : first ∉ reserved) (hawait : first ≠ "await")
    (hshows : Shows s (callTokens first more value values) s')
    (hname : s.next.cur.token = .mark .dot ∨
      s.next.cur.token = .mark .lparen ∧ (first ≠ "async" ∨ s.next.cur.newline = true))
    (hparen : s'.cur.token = .mark .rparen) (hend : endsOperand s'.next.cur.token)
    (hbound : more.length + values.length + 1 < c.bound) (hgenerator : c.generator = false) :
    ∃ t, callExpr (parser (fuel + 2)) start c s = .ok t s'.next ∧
      IsCall t (joinDots first more) (value :: values) s'.next.prevStop := by
  obtain _ | ⟨hcur, hshows⟩ := hshows
  -- the tokens of the path, then those of the arguments
  obtain ⟨m, hsegments, hargs⟩ := hshows.split
  obtain ⟨args, harguments, hargs'⟩ := arguments_literals fuel hargs hparen (by omega)
    hgenerator
  obtain _ | ⟨hlparen, -⟩ := hargs
  have hprimary : primary (parser (fuel + 2)) c s = .ok _ s.next :=
    primary_word hcur hfirst hname
  obtain ⟨callee, hlinks, hcallee⟩ := rounds_link_dotted (parser (fuel + 2)) s.cur.span.start true
    c (n := c.bound) (Or.inr ⟨hlparen, rfl⟩) more (.head first ⟨s.cur.span.start, s.next.prevStop⟩) hsegments
    (by omega)
  have hstart : startsOperand s.cur.token := Or.inr ⟨first, hcur, hfirst, hawait⟩
  have hexpr := calleeExpr_of_primary hstart hprimary (.ident _ _) hlinks
  exact ⟨_, callExpr_call hexpr hcallee hlparen harguments hend (by omega),
    .mk _ _ hcallee hargs'⟩

/-- A call of `async`, whose name is a function's first word too. -/
theorem callExpr_async {fuel start : Nat} {c : Context} {s s' : State}
    {value : Option String} {values : List (Option String)}
    (hshows : Shows s (callTokens "async" [] value values) s')
    (hline : s.next.cur.newline = false)
    (hparen : s'.cur.token = .mark .rparen) (hend : endsOperand s'.next.cur.token)
    (hbound : values.length + 1 < c.bound) (hgenerator : c.generator = false)
    (harrowAt : c.arrowAt = some s.cur.span.start) :
    ∃ t, callExpr (parser (fuel + 2)) start c s = .ok t s'.next ∧
      IsCall t "async" (value :: values) s'.next.prevStop := by
  obtain _ | ⟨hcur, hshows⟩ := hshows
  obtain ⟨args, hprimary, hargs⟩ := primary_async fuel hcur hshows hline hparen hend
    hbound hgenerator harrowAt
  -- the call is an operand as a whole, so no link of a chain follows
  have hstart : startsOperand s.cur.token := Or.inr ⟨"async", hcur, by decide, by decide⟩
  have he : IsOperand (.node (.call false) ⟨s.cur.span.start, s'.next.prevStop⟩
      (.node (.ident "async") s.cur.span [] :: args)) := .call _ _
  have hexpr := calleeExpr_of_primary hstart hprimary he (links_end hend (by omega))
  exact ⟨_, callExpr_end hexpr he hend, .mk _ _ (.head "async" _) hargs⟩

/-- A call of a dotted path with literals is read as such. -/
theorem callExpr_call_tokens (fuel start : Nat) {c : Context} {s s' : State} {first : String}
    {more : List String} {value : Option String} {values : List (Option String)}
    (hfirst : first ∉ reserved) (hawait : first ≠ "await")
    (hshows : Shows s (callTokens first more value values) s')
    (hparen : s'.cur.token = .mark .rparen) (hend : endsOperand s'.next.cur.token)
    (hbound : more.length + values.length + 1 < c.bound) (hgenerator : c.generator = false)
    (harrowAt : c.arrowAt = some s.cur.span.start) :
    ∃ t, callExpr (parser (fuel + 2)) start c s = .ok t s'.next ∧
      IsCall t (joinDots first more) (value :: values) s'.next.prevStop := by
  cases more with
  | cons w more =>
    have hdot : s.next.cur.token = .mark .dot := by
      obtain _ | ⟨-, _ | ⟨hdot, -⟩⟩ := hshows
      exact hdot
    exact callExpr_named hfirst hawait hshows (Or.inl hdot) hparen hend hbound hgenerator
  | nil =>
    have hlparen : s.next.cur.token = .mark .lparen := by
      obtain _ | ⟨-, _ | ⟨hlparen, -⟩⟩ := hshows
      exact hlparen
    -- `async` before a parenthesis may start an arrow function, which has a rule of its own
    by_cases hasync : first = "async" ∧ s.next.cur.newline = false
    · obtain ⟨rfl, hline⟩ := hasync
      exact callExpr_async hshows hline hparen hend (by simpa using hbound) hgenerator harrowAt
    · have hname : first ≠ "async" ∨ s.next.cur.newline = true := by
        rw [not_and_or, Bool.not_eq_false] at hasync
        exact hasync
      exact callExpr_named hfirst hawait hshows (Or.inr ⟨hlparen, hname⟩) hparen hend hbound
        hgenerator

/-- A call up to the end of the text is a whole expression. -/
theorem parser_expr_call (fuel : Nat) {c : Context} {s s' : State} {first : String}
    {more : List String} {value : Option String} {values : List (Option String)}
    (hfirst : first ∉ reserved) (hawait : first ≠ "await")
    (hshows : Shows s (callTokens first more value values) s')
    (hparen : s'.cur.token = .mark .rparen) (hend : s'.next.cur.token = .eof)
    (hbound : more.length + values.length + 1 < c.bound) (hgenerator : c.generator = false) :
    ∃ t, parser (fuel + 5) .expr c s = .ok t s'.next ∧
      IsCall t (joinDots first more) (value :: values) s'.next.prevStop := by
  have hstart : startsOperand s.cur.token := by
    obtain _ | ⟨hcur, -⟩ := hshows
    exact Or.inr ⟨first, hcur, hfirst, hawait⟩
  obtain ⟨t, hcall, ht⟩ := callExpr_call_tokens fuel s.cur.span.start
    (c := { c with arrowAt := some s.cur.span.start }) hfirst hawait hshows hparen (Or.inl hend)
    hbound hgenerator rfl
  refine ⟨t, ?_, ht⟩
  -- behind the call stands the end, so no operator and no comma go on with it
  have hassign := parser_assign_of_callExpr hstart hcall ht.isOperand (Or.inl hend)
    (by omega) hgenerator
  show expr (parser (fuel + 4)) c s = _
  unfold expr
  simp [bind_eq, here_eq, hassign, isMark_eq, hend, pure_eq]

/-! ## The call as an expression -/

/-- Every segment takes up a character. -/
theorem length_le_segmentText (more : List String) : more.length ≤ (segmentText more).length := by
  induction more with
  | nil => exact Nat.le_refl 0
  | cons w more ih =>
    have hcons : segmentText (w :: more) = '.' :: (w.toList ++ segmentText more) := rfl
    rw [hcons, List.length_cons, List.length_cons, List.length_append]
    omega

/-- The bound on a parse is beyond the number of tokens of a call. -/
theorem lt_fuelFor_callChars (q : Quote) (first : String) (more : List String) (text : String)
    (texts : List String) (x : List Char) :
    more.length + texts.length + 1 < fuelFor (callChars q first more text texts ++ x) := by
  have hmore := length_le_segmentText more
  -- each further text takes some characters, so there are fewer texts than characters
  have htexts : texts.length ≤ (furtherText q texts).length := by
    induction texts with
    | nil => exact Nat.le_refl 0
    | cons text texts ih =>
      have hcons : furtherText q (text :: texts) =
          ',' :: ' ' :: ((Text.quoted text q).toList ++ furtherText q texts) := rfl
      rw [hcons, List.length_cons, List.length_cons, List.length_cons, List.length_append]
      omega
  unfold fuelFor callChars
  simp only [List.length_append, List.length_cons]
  omega

/-- The text of a call of a dotted path of words with literals is a call expression with the path
for its callee and the literals for its arguments. -/
theorem parseExpr_call {first : String} {more : List String}
    (hwords : ∀ w ∈ first :: more, IsWord w.toList) (hfirst : first ∉ reserved)
    (hawait : first ≠ "await") (q : Quote) (text : String) (texts : List String) {code : String}
    (hcode : code.toList = callChars q first more text texts ++ [')']) :
    ∃ t, parseExpr code = .ok t ∧
      IsCall t (joinDots first more) (some text :: texts.map some) (Chars.size code.toList) := by
  -- the call starts with a letter and ends with a parenthesis, so nothing is cut off
  have hdrop : dropMark code.toList = code.toList := by
    obtain ⟨c, cs, hword, hstart⟩ := (hwords first List.mem_cons_self).start
    have hmark : c ≠ '\ufeff' := by
      rintro rfl
      exact absurd hstart (by decide +kernel)
    apply dropMark_of_head?_ne
    rw [hcode, callChars, hword]
    simpa using hmark
  have hend : Chars.trimEnd code.toList = code.toList := by
    have hparen : Chars.isBlank ')' = false := rfl
    rw [hcode, Chars.trimEnd, List.reverse_append]
    simp [hparen]
  have hsize : Chars.size code.toList = 0 + Chars.size (callChars q first more text texts) + 1 := by
    have hparen : ')'.utf8Size = 1 := rfl
    rw [hcode, Chars.size_append, Chars.size_cons, Chars.size_nil, hparen]
    omega
  have hshows := shows_callChars hwords q text texts [] 0
  rw [← hcode] at hshows
  have hclose := tokenAt_rparen [] (0 + Chars.size (callChars q first more text texts))
  obtain ⟨fuel, hfuel⟩ : ∃ fuel, fuelFor code.toList = fuel + 5 :=
    ⟨16 * code.toList.length + 59, rfl⟩
  have hbound := lt_fuelFor_callChars q first more text texts [')']
  rw [← hcode] at hbound
  obtain ⟨t, hparse, ht⟩ := parser_expr_call fuel
    (c := { dialect := .ts, bound := fuelFor code.toList, allowIn := false }) hfirst hawait hshows
    hclose.token (by rw [hclose.next]; exact (tokenAt_end _).token)
    (by rw [List.length_map]; exact hbound) rfl
  rw [hclose.next] at ht
  have hstop : (startState [] (0 + Chars.size (callChars q first more text texts) + 1)).prevStop =
      Chars.size code.toList := hsize.symm
  rw [hstop] at ht
  refine ⟨t, ?_, ht⟩
  rw [parseExpr, hdrop]
  dsimp only
  rw [hfuel] at hparse ⊢
  rw [hparse]
  simp [ht.span_stop, hend]

end TextHarvest.Script
