import TextHarvest.Proofs.Script.Grammar.Parts
import TextHarvest.Script.Grammar.Expr

/-!
# Expressions keep to their source

Markup and expressions. Names, strings and text of markup are read from the source anew, from where
the current token starts or the last one stopped, and so is a regular expression; the rest is made
of steps that keep to the source.

Main results:

* `steady_markupChildren` — what stands between the tags of an element.
* `steady_parenOrArrow` — what stands in parentheses, be it parameters or an expression.
-/

namespace TextHarvest.Script.Grammar

open Parse Chars

variable {source : List Char} {self : Parser}

/-! ## Markup -/

instance : Pointing TagName := .silent _
instance : Pointing AttrName := .silent _

@[grind ←] theorem fits_tagName (tag : TagName) : fits source tag := trivial
@[grind ←] theorem fits_attrName (attrName : AttrName) : fits source attrName := trivial

@[grind ←] theorem steady_markupWord : Steady source markupWord := by
  intro c s hs
  unfold markupWord
  refine kept_get_bind ?_
  cases hcur : s.cur.token with
  | word w =>
    refine kept_bind (kept_jump ((hs.from_word hcur).reads (reads_dropWhile _ _ _)) ?_) ?_
    · exact Nat.le_trans hs.behind (Nat.le_add_right _ _)
    · exact fun _ s' hmoves _ => kept_pure hmoves.standsIn trivial
  | _ => exact kept_failHere hs

@[grind ←] theorem steady_tagName : Steady source tagName := by
  unfold tagName
  with_reducible repeat' first
    | refine steady_bind ?_ fun _ _ => ?_
    | refine steady_iterate ?_ fun _ _ => ?_
    | split
  all_goals grind

/-- A string of an attribute keeps to the source when a quote stands at its front. -/
theorem kept_markupString {quote : Char} {cs : List Char} {c : Context} {s : State}
    (hs : s.StandsIn source) (hquote : quote.utf8Size = 1) (htext : s.text = quote :: cs) :
    Kept source s (fun t _ => fits source t) (markupString c s) := by
  unfold markupString
  refine kept_get_bind ?_
  have hinside := reads_dropWhile (· != quote) cs (s.cur.span.start + 1)
  have hclosing := List.head?_dropWhile_not (· != quote) cs
  rw [htext]
  dsimp only
  cases hrest : cs.dropWhile (· != quote) with
  | nil => exact kept_failAt hs hs.start
  | cons closing rest =>
    rw [hrest] at hinside hclosing
    obtain rfl : closing = quote := by simpa using hclosing
    have hreads := (Reads.cons (hquote ▸ hinside)).trans (hquote ▸ reads_cons closing rest _)
    -- behind the closing quote
    have hstop : s.cur.span.start + closing.utf8Size + size (cs.takeWhile (· != closing)) + 1 =
        s.cur.span.start + size (cs.takeWhile (· != closing)) + 2 := by
      omega
    rw [hstop] at hreads
    refine kept_bind (kept_jump ((hs.from_text htext).reads hreads) ?_) ?_
    · exact Nat.le_trans hs.behind (by omega)
    · intro _ s' hmoves _
      exact steady_node _ hs.start fits_nil c s' hmoves.standsIn

@[grind ←] theorem steady_attributeValue (h : ∀ goal, Steady source (self goal)) :
    Steady source (attributeValue self) := by
  intro c s hs
  unfold attributeValue
  refine kept_get_bind ?_
  split
  · -- a string is read from the text itself, so its end has to be found there
    rename_i htext
    exact kept_markupString hs (by decide) htext
  · rename_i htext
    exact kept_markupString hs (by decide) htext
  · refine steady_bind steady_here (fun start hstart => ?_) c s hs
    grind
  · exact steady_bind steady_here (fun _ _ => h .markup) c s hs
  · exact kept_failHere hs

@[grind ←] theorem steady_markupAttribute (h : ∀ goal, Steady source (self goal)) :
    Steady source (markupAttribute self) := by
  unfold markupAttribute
  with_reducible repeat' first
    | refine steady_bind ?_ fun _ _ => ?_
    | split
  all_goals grind

@[grind ←] theorem steady_startsWith (sign : Char) : Steady source (startsWith sign) := by
  unfold startsWith
  grind

@[grind ←] theorem steady_markupAttributes (h : ∀ goal, Steady source (self goal)) :
    Steady source (markupAttributes self) := by
  unfold markupAttributes
  grind

@[grind ←] theorem steady_markupChildren (h : ∀ goal, Steady source (self goal)) :
    Steady source (markupChildren self) := by
  unfold markupChildren
  refine steady_iterate fits_nil fun acc hacc c s hs => ?_
  refine kept_get_bind ?_
  have htext := hs.prev.reads
    (reads_dropWhile (fun c => c != '\x7b' && c != '<') s.prevRest s.prevStop)
  generalize s.prevRest.takeWhile (fun c => c != '\x7b' && c != '<') = text at htext ⊢
  generalize s.prevRest.dropWhile (fun c => c != '\x7b' && c != '<') = rest at htext ⊢
  -- text up to the next brace or tag, or what stands there
  cases text with
  | cons ch text =>
    refine kept_bind (kept_jump htext (Nat.le_add_right _ _)) fun _ s' hmoves _ => ?_
    have hleaf : fits source
        (Tree.leaf .markupText ⟨s.prevStop, s.prevStop + size (ch :: text)⟩) :=
      (fits_leaf ..).mpr ⟨hs.prev.between, htext.between⟩
    exact kept_pure hmoves.standsIn ((fits_cons _ acc).mpr ⟨hleaf, hacc⟩)
  | nil =>
    have hstart : fits source s.prevStop := hs.prev.between
    rw [size_nil, Nat.add_zero] at htext
    rw [List.isEmpty_nil, Bool.not_true, if_neg Bool.false_ne_true, size_nil, Nat.add_zero]
    split
    · rename_i cs
      refine kept_bind (kept_jump (htext.reads (reads_append ['<', '/'] cs _)) ?_) ?_
      · exact Nat.le_add_right _ _
      · exact fun _ s' hmoves _ => kept_pure hmoves.standsIn ((fits_reverse acc).mpr hacc)
    · refine kept_bind (kept_jump htext (Nat.le_refl _)) fun _ s' hmoves _ => ?_
      refine steady_bind (h .markup) (fun e he => ?_) c s' hmoves.standsIn
      exact steady_pure ((fits_cons e acc).mpr ⟨he, hacc⟩)
    · refine kept_bind (kept_jump htext (Nat.le_refl _)) fun _ s' hmoves _ => ?_
      refine steady_bind steady_advance (fun _ _ => ?_) c s' hmoves.standsIn
      with_reducible repeat' first
        | refine steady_bind ?_ fun _ _ => ?_
        | split
      all_goals grind
    · exact kept_failAt hs hstart

@[grind ←] theorem steady_element (h : ∀ goal, Steady source (self goal)) :
    Steady source (element self) := by
  unfold element
  with_reducible repeat' first
    | refine steady_bind ?_ fun _ _ => ?_
    | split
  all_goals grind

/-! ## Patterns from expressions -/

mutual

/-- A pattern is made of nodes of the expression that it is read from. -/
@[grind ←]
theorem fits_asPattern : ∀ {t : Tree}, fits source t → fits source (asPattern t)
  | .node kind span children, h => by
    obtain ⟨hstart, hstop, hchildren⟩ := (fits_node ..).mp h
    have hall := fits_asPatterns hchildren
    have hproperty := fits_asPropertyPattern hchildren
    have hfirst := fits_asFirstPattern hchildren
    rw [asPattern.eq_def]
    dsimp only
    split <;> exact (fits_node ..).mpr ⟨hstart, hstop, by first | assumption | exact fits_nil⟩

theorem fits_asPatterns : ∀ {ts : List Tree}, fits source ts → fits source (asPatterns ts)
  | [], h => h
  | _ :: _, h =>
    have ⟨ht, hts⟩ := (fits_cons ..).mp h
    (fits_cons ..).mpr ⟨fits_asPattern ht, fits_asPatterns hts⟩

theorem fits_asPropertyPattern :
    ∀ {ts : List Tree}, fits source ts → fits source (asPropertyPattern ts)
  | [_, _], h =>
    have ⟨hkey, hvalue⟩ := (fits_two ..).mp h
    (fits_two ..).mpr ⟨hkey, fits_asPattern hvalue⟩
  | [], h | [_], h | _ :: _ :: _ :: _, h => h

theorem fits_asFirstPattern : ∀ {ts : List Tree}, fits source ts → fits source (asFirstPattern ts)
  | [_, _], h =>
    have ⟨htarget, hvalue⟩ := (fits_two ..).mp h
    (fits_two ..).mpr ⟨fits_asPattern htarget, hvalue⟩
  | [], h | [_], h | _ :: _ :: _ :: _, h => h

end

/-! ## Assignments and parentheses -/

@[grind ←] theorem steady_assignTail {start : Nat} {target : Tree}
    (h : ∀ goal, Steady source (self goal)) (hstart : fits source start)
    (htarget : fits source target) : Steady source (assignTail self start target) := by
  unfold assignTail
  with_reducible repeat' first
    | refine steady_bind ?_ fun _ _ => ?_
    | refine steady_iterate ?_ fun _ _ => ?_
    | refine steady_ite ?_ ?_
    | split
  all_goals grind

instance : Pointing ParenItem := ⟨fun source item => fits source item.tree⟩

@[grind =] theorem fits_item (t : Tree) (isPattern : Bool) :
    fits source (ParenItem.mk t isPattern) ↔ fits source t := Iff.rfl

@[grind →] theorem fits_tree {item : ParenItem} (h : fits source item) : fits source item.tree := h

@[grind ←] theorem steady_parenOperand (h : ∀ goal, Steady source (self goal)) :
    Steady source (parenOperand self) := by
  unfold parenOperand
  with_reducible repeat' first
    | refine steady_bind ?_ fun _ _ => ?_
    | refine steady_ite ?_ ?_
  all_goals grind

@[grind ←] theorem steady_conditionalTail {start : Nat} {test : Tree}
    (h : ∀ goal, Steady source (self goal)) (hstart : fits source start)
    (htest : fits source test) : Steady source (conditionalTail self start test) := by
  unfold conditionalTail
  grind

@[grind ←] theorem steady_parenItem (h : ∀ goal, Steady source (self goal)) :
    Steady source (parenItem self) := by
  unfold parenItem
  refine steady_bind steady_here fun start hstart => ?_
  refine steady_bind steady_eatModifier fun _ _ => ?_
  refine steady_bind (steady_parenOperand h) fun e he => ?_
  refine steady_bind steady_typed fun isTyped _ => ?_
  refine steady_bind (steady_isMark _) fun _ _ => ?_
  extract_lets finish
  -- the tail that several branches share is settled once
  have hfinish (found : Tree × Bool) (h : fits source found) : Steady source (finish found) := by
    obtain ⟨t, isOptional⟩ := found
    dsimp only [finish]
    with_reducible repeat' first
      | refine steady_bind ?_ fun _ _ => ?_
      | split
    all_goals grind
  clear_value finish
  with_reducible repeat' first
    | refine steady_bind ?_ fun _ _ => ?_
    | split
  all_goals grind

@[grind ←] theorem steady_parenItems (h : ∀ goal, Steady source (self goal)) :
    Steady source (parenItems self) := by
  unfold parenItems
  with_reducible repeat' first
    | refine steady_bind ?_ fun _ _ => ?_
    | refine steady_iterate ?_ fun _ _ => ?_
    | refine steady_ite ?_ ?_
    | refine steady_withReader _ ?_
  all_goals grind

@[grind →] theorem fits_of_firstSpread? {items : List Tree} {offset : Nat} (h : fits source items)
    (hfirst : firstSpread? items = some offset) : fits source offset := by
  obtain ⟨t, ht, rfl⟩ := Option.map_eq_some_iff.mp hfirst
  have hfits := fits_of_mem h (List.mem_of_find?_eq_some ht)
  split
  · rename_i e _ hchildren
    exact fits_start (fits_of_mem (fits_children hfits) (by rw [hchildren]; exact List.mem_cons_self))
  · exact fits_start hfits

@[grind ←] theorem steady_parenOrArrow {asyncAt : Option Span}
    (h : ∀ goal, Steady source (self goal)) (canArrow : Bool) (hasyncAt : fits source asyncAt) :
    Steady source (parenOrArrow self canArrow asyncAt) := by
  unfold parenOrArrow
  refine steady_bind steady_here fun inner hinner => ?_
  extract_lets start
  -- the expression starts at the parenthesis, or at the word in front of it
  have hstart : fits source start := by
    cases asyncAt with
    | none => exact hinner
    | some word => exact fits_span_start (hasyncAt word rfl)
  clear_value start
  refine steady_bind (steady_parenItems h) fun items hitems => ?_
  extract_lets finish function arrow trees plain
  have hfinish (isAsync : Bool) : Steady source (finish isAsync) :=
    have hparams : fits source (items.map (asPattern ·.tree)) :=
      fits_map hitems fun _ h => fits_asPattern (fits_tree h)
    steady_bind (steady_arrowBody h) fun body hbody =>
      steady_node _ hstart ((fits_append ..).mpr ⟨hparams, (fits_cons ..).mpr ⟨hbody, fits_nil⟩⟩)
  have harrow : Steady source (arrow ()) := by
    dsimp only [arrow, function]
    grind
  have htrees : fits source trees := fits_map hitems fun _ => fits_tree
  have hlast (first : Tree) (h : fits source first) :
      fits source (trees.getLast?.getD first).span.stop :=
    fits_stop (fits_getLastD htrees h)
  -- a list that is no list of parameters is a sequence or a call
  have hplain (hasReturn : Option Unit) : Steady source (plain hasReturn) := by
    dsimp only [plain]
    clear_value finish function arrow trees plain
    with_reducible repeat' first
      | refine steady_bind ?_ fun _ _ => ?_
      | split
    all_goals grind
  clear_value finish function arrow trees plain
  refine steady_bind steady_read fun ctx _ => ?_
  extract_lets behindCond
  have hbehindCond (viaCond : Option Tree) (h : fits source viaCond) :
      Steady source (behindCond viaCond) := by
    dsimp only [behindCond]
    with_reducible repeat' first
      | refine steady_bind ?_ fun _ _ => ?_
      | refine steady_attempt ?_
      | split
    all_goals grind
  clear_value behindCond
  with_reducible repeat' first
    | refine steady_bind ?_ fun _ _ => ?_
    | refine steady_attempt ?_
    | split
  all_goals grind

/-! ## Names and literals -/

@[grind ←] theorem steady_nameOrArrow {start : Nat} (h : ∀ goal, Steady source (self goal))
    (canArrow : Bool) (hstart : fits source start) :
    Steady source (nameOrArrow self start canArrow) := by
  unfold nameOrArrow
  with_reducible repeat' refine steady_bind ?_ fun _ _ => ?_
  all_goals grind

@[grind ←] theorem steady_asyncExpr {start : Nat} (h : ∀ goal, Steady source (self goal))
    (canArrow : Bool) (hstart : fits source start) :
    Steady source (asyncExpr self start canArrow) := by
  unfold asyncExpr
  with_reducible repeat' first
    | refine steady_bind ?_ fun _ _ => ?_
    | refine steady_ite ?_ ?_
  all_goals grind

/-- A regular expression keeps to the source; where it is not closed, its slash is no token any
more. -/
@[grind ←] theorem steady_regexLiteral : Steady source regexLiteral := by
  intro c s hs
  unfold regexLiteral
  refine kept_get_bind ?_
  have herror : { s with cur := { s.cur with token := .error s.cur.span.start } }.StandsIn source :=
    ⟨hs.prev, hs.text.imp_left fun h => ⟨⟨_, rfl⟩, h.2⟩, hs.start, hs.rest, hs.behind, hs.order,
      fun _ h => by cases h; exact hs.start⟩
  -- a literal that is not closed is reported at its start
  have hunclosed : Kept source s (fun t _ => fits source t) ((do
      set { s with cur := { s.cur with token := .error s.cur.span.start } }
      failAt s.cur.span.start : Parse Tree) c s) :=
    ⟨⟨herror, Nat.le_refl _⟩, hs.start⟩
  obtain ⟨cur, text, behind, stop, front⟩ := s
  cases text with
  | nil => exact hunclosed
  | cons ch cs =>
    dsimp only at hunclosed ⊢
    cases hbody : regexBody cs false false 1 with
    | none => exact hunclosed
    | some found =>
      obtain ⟨len, rest⟩ := found
      obtain ⟨xs, rfl, rfl⟩ := regexBody_eq_some hbody
      have hpieces : ch :: (xs ++ rest) =
          (ch :: xs ++ rest.takeWhile Text.isIdPart) ++ rest.dropWhile Text.isIdPart := by
        rw [List.append_assoc, List.takeWhile_append_dropWhile]
        rfl
      have hraw : (ch :: (xs ++ rest)).take (1 + xs.length + (rest.takeWhile Text.isIdPart).length) =
          ch :: xs ++ rest.takeWhile Text.isIdPart := by
        rw [hpieces]
        apply List.take_left'
        simp only [List.length_append, List.length_cons]
        omega
      dsimp only
      rw [hraw]
      refine kept_bind (kept_jump ((hs.from_text rfl).reads ?_) ?_) ?_
      · rw [hpieces]
        exact reads_append _ _ _
      · exact Nat.le_trans hs.behind (Nat.le_add_right _ _)
      · intro _ s' hmoves _
        exact steady_node _ hs.start fits_nil c s' hmoves.standsIn

@[grind ←] theorem steady_primary (h : ∀ goal, Steady source (self goal)) :
    Steady source (primary self) := by
  unfold primary
  grind

/-! ## Members and calls -/

@[grind ←] theorem steady_typeArgumentsMayEnd : Steady source typeArgumentsMayEnd := by
  unfold typeArgumentsMayEnd
  grind

@[grind ←] theorem steady_typedTail {start : Nat} {e : Tree}
    (h : ∀ goal, Steady source (self goal)) (noCall : Bool) (hstart : fits source start)
    (he : fits source e) : Steady source (typedTail self start noCall e) := by
  unfold typedTail
  grind

@[grind ←] theorem steady_memberAfterDot {start : Nat} {e : Tree} (chained : Bool)
    (hstart : fits source start) (he : fits source e) :
    Steady source (memberAfterDot start chained e) := by
  unfold memberAfterDot
  grind

@[grind ←] theorem steady_link? {start : Nat} {e : Tree} (h : ∀ goal, Steady source (self goal))
    (noCall : Bool) (hstart : fits source start) (he : fits source e) :
    Steady source (link? self start noCall e) := by
  unfold link?
  refine steady_bind steady_typed fun isTyped _ => ?_
  refine steady_bind steady_newline fun _ _ => ?_
  refine steady_bind (steady_isOp _) fun _ _ => ?_
  split
  · grind
  refine steady_bind (steady_isOp _) fun _ _ => ?_
  refine steady_bind (steady_isOp _) fun _ _ => ?_
  extract_lets untyped
  -- the same for the links that take no types
  have huntyped (typedLink : Option Tree) (h : fits source typedLink) :
      Steady source (untyped typedLink) := by
    dsimp only [untyped]
    with_reducible repeat' first
      | refine steady_bind ?_ fun _ _ => ?_
      | split
    all_goals grind
  clear_value untyped
  grind

@[grind ←] theorem steady_links {start : Nat} {e : Tree} (h : ∀ goal, Steady source (self goal))
    (noCall : Bool) (hstart : fits source start) (he : fits source e) :
    Steady source (links self start noCall e) := by
  unfold links
  refine steady_iterate he fun e he => ?_
  refine steady_bind (steady_link? h noCall hstart he) fun _ _ => ?_
  grind

@[grind ←] theorem steady_superExpr (h : ∀ goal, Steady source (self goal)) (noCall : Bool) :
    Steady source (superExpr self noCall) := by
  unfold superExpr
  with_reducible repeat' first
    | refine steady_bind ?_ fun _ _ => ?_
    | refine steady_links h _ ?_ ?_
    | split
  all_goals grind

@[grind ←] theorem steady_importExpr (h : ∀ goal, Steady source (self goal)) (noCall : Bool) :
    Steady source (importExpr self noCall) := by
  unfold importExpr
  with_reducible repeat' first
    | refine steady_bind ?_ fun _ _ => ?_
    | refine steady_ite ?_ ?_
    | refine steady_links h _ ?_ ?_
  all_goals grind

@[grind ←] theorem steady_calleeExpr (h : ∀ goal, Steady source (self goal)) :
    Steady source (calleeExpr self) := by
  unfold calleeExpr
  with_reducible repeat' first
    | exact steady_primary h
    | exact steady_superExpr h _
    | exact steady_importExpr h _
    | refine steady_links h _ ?_ ?_
    | refine steady_bind ?_ fun _ _ => ?_
    | refine steady_ite ?_ ?_
    | split
  all_goals grind

@[grind ←] theorem steady_callExpr {start : Nat} (h : ∀ goal, Steady source (self goal))
    (hstart : fits source start) : Steady source (callExpr self start) := by
  unfold callExpr
  with_reducible repeat' first
    | exact steady_calleeExpr h
    | refine steady_links h _ ?_ ?_
    | refine steady_bind ?_ fun _ _ => ?_
    | refine steady_ite ?_ ?_
    | split
  all_goals grind

@[grind ←] theorem steady_lhsExpr (h : ∀ goal, Steady source (self goal)) :
    Steady source (lhsExpr self) := by
  unfold lhsExpr
  refine steady_bind steady_here fun _ hstart => ?_
  have hcall := steady_callExpr h hstart
  with_reducible repeat' first
    | exact hcall
    | exact steady_superExpr h _
    | exact steady_importExpr h _
    | refine steady_bind ?_ fun _ _ => ?_
    | refine steady_ite ?_ ?_
    | split
  all_goals grind

/-! ## Operators -/

@[grind ←] theorem steady_awaitExpr (h : ∀ goal, Steady source (self goal)) :
    Steady source (awaitExpr self) := by
  unfold awaitExpr
  grind

@[grind ←] theorem steady_unaryExpr (h : ∀ goal, Steady source (self goal)) :
    Steady source (unaryExpr self) := by
  unfold unaryExpr
  with_reducible repeat' first
    | exact steady_awaitExpr h
    | exact steady_lhsExpr h
    | refine steady_bind ?_ fun _ _ => ?_
    | refine steady_ite ?_ ?_
    | split
  all_goals grind

@[grind ←] theorem steady_binaryTail {left : Tree} (h : ∀ goal, Steady source (self goal))
    (fuel least : Nat) (hleft : fits source left) :
    Steady source (binaryTail self fuel left least) := by
  -- on the fuel, which each operator uses up
  induction fuel generalizing left least with
  | zero => exact steady_failHere
  | succ fuel ih =>
    unfold binaryTail
    with_reducible repeat' first
      | refine steady_bind ?_ fun _ _ => ?_
      | refine steady_iterate ?_ fun _ _ => ?_
      | refine steady_forIn ?_ fun _ _ _ => ?_
      | refine steady_withReader _ ?_
      | refine steady_attempt ?_
      | split
      | dsimp only
    all_goals grind

@[grind ←] theorem steady_binaryExpr (h : ∀ goal, Steady source (self goal)) :
    Steady source (binaryExpr self) := by
  unfold binaryExpr
  with_reducible repeat' first
    | refine steady_binaryTail h _ _ ?_
    | refine steady_bind ?_ fun _ _ => ?_
    | split
  all_goals grind

@[grind ←] theorem steady_conditionalExpr (h : ∀ goal, Steady source (self goal)) :
    Steady source (conditionalExpr self) := by
  unfold conditionalExpr
  refine steady_bind steady_here fun _ hstart => ?_
  refine steady_bind (steady_binaryExpr h) fun _ htest => ?_
  have htail := steady_conditionalTail h hstart htest
  grind

@[grind ←] theorem steady_yieldExpr (h : ∀ goal, Steady source (self goal)) :
    Steady source (yieldExpr self) := by
  unfold yieldExpr
  with_reducible repeat' refine steady_bind ?_ fun _ _ => ?_
  all_goals grind

@[grind ←] theorem steady_assignBase (h : ∀ goal, Steady source (self goal)) :
    Steady source (assignBase self) := by
  unfold assignBase
  refine steady_bind steady_here fun _ hstart => ?_
  with_reducible repeat' first
    | exact steady_yieldExpr h
    | exact steady_withReader _ (steady_conditionalExpr h)
    | refine steady_assignTail h hstart ?_
    | refine steady_bind ?_ fun _ _ => ?_
    | refine steady_ite ?_ ?_
    | split
  all_goals grind

@[grind ←] theorem steady_genericArrow (h : ∀ goal, Steady source (self goal)) :
    Steady source (genericArrow self) := by
  unfold genericArrow
  refine steady_bind (steady_typeParameters h) fun _ _ => ?_
  refine steady_bind (steady_assignBase h) fun _ _ => ?_
  grind

@[grind ←] theorem steady_assignExpr (h : ∀ goal, Steady source (self goal)) :
    Steady source (assignExpr self) := by
  unfold assignExpr
  have hbase := steady_assignBase h
  with_reducible repeat' first
    | exact hbase
    | exact steady_attempt hbase
    | exact steady_attempt (steady_genericArrow h)
    | refine steady_bind ?_ fun _ _ => ?_
    | refine steady_ite ?_ ?_
    | split
  all_goals grind

@[grind ←] theorem steady_expr (h : ∀ goal, Steady source (self goal)) :
    Steady source (expr self) := by
  unfold expr
  with_reducible repeat' refine steady_bind ?_ fun _ _ => ?_
  all_goals grind

end TextHarvest.Script.Grammar
