import TextHarvest.Proofs.Script.Call
import TextHarvest.Proofs.Script.Gap
import TextHarvest.Proofs.Script.Import

/-!
# Reading default exports

A default export is the shortest statement in which an operand may stand right behind a keyword, so
it shows what becomes of a script when the operand is exchanged. With a blank between the keyword
and the operand any operand will do. Without one a name runs into the keyword, and no statement
starts with the word that comes out.

Main results:

* `moduleItem_exportDefault` — an operand that is exported by default.
* `parseModule_exportLiteral` — a script that exports a literal.
* `parseModule_exportCall` — one that exports a call behind an import.
* `exists_parseModule_exportCall_error` — without a blank the call makes no script.
-/

namespace TextHarvest.Script

open Grammar Parse

/-! ## Default exports -/

/-- The words that start the other forms of exports, names apart. -/
def exportWords : List String :=
  ["declare", "abstract", "enum", "interface", "namespace", "module", "type", "import", "as",
    "class", "function", "async", "const", "var", "let"]

section Exports

variable {fuel : Nat} {c : Context} {s m s' : State}

/-- What is only tried in typed scripts. -/
theorem typed_and_eq (p : Parse Bool) : (typed <&&> p : Parse Bool) c s =
    if c.dialect.typed then p c s else .ok false s := by
  cases htyped : c.dialect.typed <;> simp [andM, bind_eq, typed_eq, htyped, pure_eq, toBool]

/-- What does not hold is not found in typed scripts either. -/
theorem typed_and_ne {p : Parse Bool} (h : p c s = .ok false s) :
    (typed <&&> p : Parse Bool) c s = .ok false s := by
  rw [typed_and_eq, h, ite_self]

/-- An export whose second token is a word that starts none of its other forms is one of a default
or of names. -/
theorem exportDecl_word (self : Parser) {w : String} (hexport : s.cur.token = .word "export")
    (hcur : s.next.cur.token = .word w)
    (hw : w ∉ exportWords) :
    exportDecl self [] c s =
      if w = "default" then exportDefault self s.cur.span.start [] c s.next.next
      else exportNames self s.cur.span.start c s.next := by
  simp only [exportWords, List.mem_cons, List.not_mem_nil, or_false, not_or] at hw
  have hassign : eatOp "=" c s.next = .ok false s.next := by
    apply eat_ne
    rw [hcur]
    exact Token.noConfusion
  have hother : ∀ v, w ≠ v → eatWord v c s.next = .ok false s.next := by
    intro v hv
    apply eat_ne
    rw [hcur]
    simpa using hv
  -- a word that declares nothing starts no declaration, typed or not
  have hnone : exportedWordDecl? self [] c s.next = .ok none s.next := by
    unfold exportedWordDecl?
    cases htyped : c.dialect.typed <;>
      simp [bind_eq, typed_eq, here_eq, token_eq, hcur, peek_eq, htyped, pure_eq, hw]
  unfold exportDecl
  rw [bind_ok (here_eq c s), expectWord, bind_ok (expect_eq c s hexport),
    bind_ok (typed_eq c s.next)]
  dsimp only
  rw [bind_ok (here_eq c s.next), bind_ok (typed_and_ne (hother "declare" hw.1)),
    if_neg Bool.false_ne_true, bind_ok (pure_eq c s.next none)]
  dsimp only
  rw [bind_ok hnone]
  dsimp only
  -- none of the forms of typed scripts begins here
  rw [bind_ok (typed_and_ne (hother "import" (by simp [hw]))), if_neg Bool.false_ne_true,
    bind_ok (typed_and_ne hassign), if_neg Bool.false_ne_true,
    bind_ok (typed_and_ne (hother "as" (by simp [hw]))), if_neg Bool.false_ne_true,
    bind_ok (typed_and_ne (hother "type" (by simp [hw]))), if_neg Bool.false_ne_true]
  by_cases hdefault : w = "default"
  · rw [eatWord, bind_ok (eat_eq c s.next (hcur.trans (congrArg Token.word hdefault))),
      if_pos rfl, if_pos hdefault]
  · rw [bind_ok (hother "default" hdefault), if_neg Bool.false_ne_true,
      bind_ok (peek_eq c s.next), bind_ok (token_eq c s.next), hcur, if_neg hdefault]
    simp [hw]

/-- An operand that is exported by default. -/
theorem exportDefault_operand {start : Nat} {e : Tree} (hstart : startsOperand s.cur.token)
    (hnext : ∀ w, s.next.cur.token ≠ .word w)
    (hassign : parser fuel .assign { c with allowIn := true } s = .ok e s')
    (hend : s'.cur.token = .eof) :
    exportDefault (parser fuel) start [] c s =
      .ok (.node .exportDefault ⟨start, s'.prevStop⟩ [e]) s' := by
  -- the end of the text ends the statement
  have hclosed : expectEnd c s' = .ok () s' := by
    have hsemicolon : s'.cur.token ≠ .mark .semicolon := by
      rw [hend]
      exact Token.noConfusion
    unfold expectEnd eatEnd
    simp [bind_eq, map_eq, eatMark, eat_ne c s' hsemicolon, cur_eq, hend, pure_eq]
  have hname : isName s.next.cur.token = false := by
    unfold isName
    split
    · next w heq => exact absurd heq (hnext w)
    · rfl
  unfold exportDefault
  rcases hstart with ⟨value, hcur⟩ | ⟨w, hcur, hw, -⟩
  · simp [bind_eq, here_eq, peek_eq, typed_eq, token_eq, hcur, withIn, withReader_eq, hassign,
      hclosed, node_eq]
  · simp only [reserved, List.mem_cons, List.not_mem_nil, or_false, not_or] at hw
    simp [bind_eq, here_eq, peek_eq, typed_eq, token_eq, hcur, hw, hnext, hname, withIn,
      withReader_eq, hassign, hclosed, node_eq]

/-- A module item that starts with its keyword is an export. -/
theorem moduleItem_export (self : Parser) (hexport : s.cur.token = .word "export")
    (hbound : 0 < c.bound) : moduleItem self c s = exportDecl self [] c s := by
  have hsign : s.cur.token ≠ .mark .sign := by
    rw [hexport]
    exact Token.noConfusion
  unfold moduleItem
  simp [bind_eq, here_eq, decorators_none hsign hbound, token_eq, hexport]

/-- The keywords of a default export and an operand are an item. -/
theorem moduleItem_exportDefault {e : Tree}
    (hshows : Shows s [.word "export", .word "default"] m) (hstart : startsOperand m.cur.token)
    (hnext : ∀ w, m.next.cur.token ≠ .word w)
    (hassign : parser fuel .assign { c with allowIn := true } m = .ok e s')
    (hend : s'.cur.token = .eof) (hbound : 0 < c.bound) :
    moduleItem (parser fuel) c s =
      .ok (.node .exportDefault ⟨s.cur.span.start, s'.prevStop⟩ [e]) s' := by
  obtain _ | ⟨hexport, hshows⟩ := hshows
  obtain _ | ⟨hdefault, hshows⟩ := hshows
  obtain _ | _ := hshows
  rw [moduleItem_export _ hexport hbound, exportDecl_word _ hexport hdefault (by decide),
    if_pos rfl, exportDefault_operand hstart hnext hassign hend]

/-- A word that goes on behind a keyword of exports, and is no keyword any more, exports nothing. -/
theorem exists_moduleItem_error (self : Parser) {w : String}
    (hexport : s.cur.token = .word "export") (hcur : s.next.cur.token = .word w)
    (hw : w ∉ exportWords) (hdefault : w ≠ "default")
    (hbound : 0 < c.bound) : ∃ e, moduleItem self c s = .error e s.next := by
  have hstar : s.next.cur.token ≠ .op "*" := by
    rw [hcur]
    exact Token.noConfusion
  have hbrace : s.next.cur.token ≠ .mark .lbrace := by
    rw [hcur]
    exact Token.noConfusion
  -- neither a star nor a brace stands behind the word, so nothing can be exported
  obtain ⟨e, hfail⟩ := failHere_eq PUnit c s.next
  refine ⟨e, ?_⟩
  rw [moduleItem_export _ hexport hbound, exportDecl_word _ hexport hcur hw, if_neg hdefault]
  unfold exportNames
  simp [bind_eq, eatOp, eat_ne c s.next hstar, expectMark, expect, eat_ne c s.next hbrace, hfail]

end Exports

/-! ## The tokens of a default export -/

theorem isWord_export : IsWord "export".toList :=
  ⟨⟨'e', "xport".toList, rfl, by decide⟩, List.all_eq_true.mp (by decide)⟩

theorem isWord_default : IsWord "default".toList :=
  ⟨⟨'d', "efault".toList, rfl, by decide⟩, List.all_eq_true.mp (by decide)⟩

/-- The keywords of a default export. -/
def exportChars : List Char := "export default".toList

/-- The two keywords stand behind each other. -/
theorem exportChars_append (x : List Char) :
    exportChars ++ x = "export".toList ++ ' ' :: ("default".toList ++ x) := by
  have hchars : exportChars = "export".toList ++ ' ' :: "default".toList := by decide +kernel
  rw [hchars, List.append_assoc, List.cons_append]

/-- The keyword of an export is a token. -/
theorem tokenAt_export {lead : List Char} {pos : Nat} (hlead : IsGapAt lead pos) (x : List Char) :
    TokenAt (lead ++ ("export".toList ++ ' ' :: x)) pos (.word "export") (' ' :: x)
      (pos + Chars.size lead + 6) := by
  have hscan := scanToken_word isWord_export (d := ' ') (by decide) (by decide) x
    (pos + Chars.size lead)
  rw [String.ofList_toList] at hscan
  refine tokenAt_of_isGapAt hlead ?_ (skipGap_word isWord_export _ _) hscan
  exact fun h => absurd (Option.some.inj h) (by decide)

/-- What stands behind a blank or starts with no letter leaves a keyword in front of it as it is. -/
def EndsWords (gap operand : List Char) : Prop :=
  gap = [] → ∃ d x, operand = d :: x ∧ Text.isIdPart d = false ∧ d ≠ '\\'

/-- The keywords in front of what is exported. -/
theorem shows_exportChars {lead gap operand : List Char} {pos : Nat} (hlead : IsGapAt lead pos)
    (hblank : ∀ c ∈ gap, isLineBreak c = true ∨ isSpace c = true) (hends : EndsWords gap operand) :
    Shows (startState (lead ++ (exportChars ++ (gap ++ operand))) pos)
      [.word "export", .word "default"]
      (startState (gap ++ operand) (pos + Chars.size lead + 14)) := by
  -- the keyword ends at a blank, or at an operand that cannot go on with it
  obtain ⟨d, x, htext, hd, hslash⟩ :
      ∃ d x, gap ++ operand = d :: x ∧ Text.isIdPart d = false ∧ d ≠ '\\' := by
    cases gap with
    | nil => exact hends rfl
    | cons d gap =>
      have hmem := mem_gapCodes (hblank d List.mem_cons_self)
      have hletter := not_isIdPart_gap d.toNat hmem
      rw [Char.ofNat_toNat] at hletter
      refine ⟨d, gap ++ operand, rfl, hletter, ?_⟩
      rintro rfl
      exact absurd hmem (by decide)
  have hdefault := tokenAt_blank_word isWord_default hd hslash x (pos + Chars.size lead + 6)
  rw [String.ofList_toList] at hdefault
  rw [htext, exportChars_append]
  exact (tokenAt_export hlead _).shows (hdefault.shows (.done _))

/-- A quoted text ends the word in front of it. -/
theorem endsWords_quoted (gap : List Char) (text : String) (q : Quote) :
    EndsWords gap (Text.quoted text q).toList := by
  intro _
  rw [Text.quoted, String.toList_ofList]
  exact ⟨q.mark, _, rfl, not_isIdPart_mark q, by cases q <;> decide⟩

section Operands

variable {c : Context} {gap : List Char}

/-- A literal that is exported by default. -/
theorem moduleItem_exportLiteral (fuel : Nat) (hbound : 0 < c.bound)
    (hgenerator : c.generator = false)
    (hblank : ∀ c ∈ gap, isLineBreak c = true ∨ isSpace c = true) (text : String) (q : Quote)
    {s : State} {pos : Nat} (hkeywords : Shows s [.word "export", .word "default"]
      (startState (gap ++ (Text.quoted text q).toList) pos)) :
    ∃ span, moduleItem (parser (fuel + 2)) c s =
      .ok (.node .exportDefault span [.node (.strLit (some text)) ⟨pos + Chars.size gap,
          pos + Chars.size gap + Chars.size (Text.quoted text q).toList⟩ []])
        (startState [] (pos + Chars.size gap + Chars.size (Text.quoted text q).toList)) := by
  have hgap := isGapAt_of_blank hblank pos
  have hfirst : (Text.quoted text q).toList.head? ≠ some '/' := by
    rw [Text.quoted, String.toList_ofList]
    cases q <;> exact fun h => absurd (Option.some.inj h) (by decide)
  have hskip := skipGap_quoted text q [] (pos + Chars.size gap)
  have hscan := scanToken_quoted text q [] (pos + Chars.size gap)
  rw [List.append_nil] at hskip hscan
  have htoken := tokenAt_of_isGapAt hgap hfirst hskip hscan
  have hstart := (startState_of_isGapAt hgap hfirst hskip).2.1
  -- nothing follows the literal
  have hend : (startState (gap ++ (Text.quoted text q).toList) pos).next.cur.token = .eof := by
    rw [htoken.next]
    exact (tokenAt_end _).token
  have hassign := parser_assign_literal fuel (c := { c with allowIn := true }) htoken.token
    (Or.inl hend) hbound hgenerator
  have hitem := moduleItem_exportDefault hkeywords (Or.inl ⟨_, htoken.token⟩)
    (by simp [hend]) hassign hend hbound
  rw [htoken.next, hstart] at hitem
  exact ⟨_, hitem⟩

/-- The tokens of a call that is exported by default. -/
theorem moduleItem_exportCall_tokens (fuel : Nat) {s m s' : State} {first : String}
    {more : List String} {value : Option String} {values : List (Option String)}
    (hfirst : first ∉ reserved) (hawait : first ≠ "await")
    (hkeywords : Shows s [.word "export", .word "default"] m)
    (hshows : Shows m (callTokens first more value values) s')
    (hparen : s'.cur.token = .mark .rparen) (hend : s'.next.cur.token = .eof)
    (hbound : more.length + values.length + 1 < c.bound) (hgenerator : c.generator = false) :
    ∃ span t, moduleItem (parser (fuel + 4)) c s = .ok (.node .exportDefault span [t]) s'.next ∧
      IsCall t (joinDots first more) (value :: values) s'.next.prevStop := by
  have hstart : startsOperand m.cur.token := by
    obtain _ | ⟨hcur, -⟩ := hshows
    exact Or.inr ⟨first, hcur, hfirst, hawait⟩
  -- behind the name stands a dot or the opening parenthesis
  have hnext : ∀ w, m.next.cur.token ≠ .word w := by
    obtain _ | ⟨-, hshows⟩ := hshows
    cases more with
    | nil =>
      obtain _ | ⟨hlparen, -⟩ := hshows
      rw [hlparen]
      exact nofun
    | cons w more =>
      obtain _ | ⟨hdot, -⟩ := hshows
      rw [hdot]
      exact nofun
  obtain ⟨t, hcall, ht⟩ := callExpr_call_tokens fuel m.cur.span.start
    (c := { c with allowIn := true, arrowAt := some m.cur.span.start }) hfirst hawait hshows hparen
    (Or.inl hend) hbound hgenerator rfl
  have hassign := parser_assign_of_callExpr (c := { c with allowIn := true }) hstart hcall
    ht.isOperand (Or.inl hend) (by dsimp only; omega) hgenerator
  exact ⟨_, t, moduleItem_exportDefault hkeywords hstart hnext hassign hend (by omega), ht⟩

/-- The tokens of a call behind a gap. -/
theorem shows_callChars_gap {first : String} {more : List String}
    (hwords : ∀ w ∈ first :: more, IsWord w.toList) (q : Quote) (text : String)
    (texts : List String) {pos : Nat} (hgap : IsGapAt gap pos) :
    Shows (startState (gap ++ (callChars q first more text texts ++ [')'])) pos)
      (callTokens first more (some text) (texts.map some)) (startState [')']
        (pos + Chars.size gap + Chars.size (callChars q first more text texts))) := by
  have hword := hwords first List.mem_cons_self
  have htext : callChars q first more text texts ++ [')'] = first.toList ++ (segmentText more ++
      '(' :: ((Text.quoted text q).toList ++ furtherText q texts) ++ [')']) := by
    simp [callChars]
  -- the call begins with a word, and a word neither is skipped nor makes a comment of the gap
  refine hgap.shows ?_ ?_ (shows_callChars hwords q text texts [] (pos + Chars.size gap))
  · obtain ⟨d, ds, hd, hstart⟩ := hword.start
    rw [htext, hd]
    rintro heq
    obtain rfl := Option.some.inj heq
    exact absurd hstart (by decide)
  · rw [htext]
    exact skipGap_word hword _ _

/-- A call that is exported by default. -/
theorem moduleItem_exportCall (fuel : Nat) {first : String} {more : List String}
    (hwords : ∀ w ∈ first :: more, IsWord w.toList) (hfirst : first ∉ reserved)
    (hawait : first ≠ "await") (q : Quote) (text : String) (texts : List String)
    (hbound : more.length + texts.length + 1 < c.bound) (hgenerator : c.generator = false)
    (hblank : ∀ c ∈ gap, isLineBreak c = true ∨ isSpace c = true) {s : State} {pos : Nat}
    (hkeywords : Shows s [.word "export", .word "default"]
      (startState (gap ++ (callChars q first more text texts ++ [')'])) pos)) :
    ∃ span t stop, moduleItem (parser (fuel + 4)) c s =
        .ok (.node .exportDefault span [t]) (startState [] stop) ∧
      IsCall t (joinDots first more) (some text :: texts.map some) stop := by
  have hcall := shows_callChars_gap hwords q text texts (isGapAt_of_blank hblank pos)
  have hclose := tokenAt_rparen [] (pos + Chars.size gap +
    Chars.size (callChars q first more text texts))
  obtain ⟨span, t, hitem, ht⟩ := moduleItem_exportCall_tokens fuel hfirst hawait hkeywords hcall
    hclose.token (by rw [hclose.next]; exact (tokenAt_end _).token)
    (by rw [List.length_map]; exact hbound) hgenerator
  rw [hclose.next] at hitem ht
  exact ⟨span, t, _, hitem, ht⟩

/-- A keyword that goes on is no keyword. -/
theorem not_mem_exportWords {w : String} (hw : w.toList ≠ []) :
    String.ofList ("default".toList ++ w.toList) ∉ "default" :: exportWords := by
  -- by evaluation over the words: none of them is longer and begins this way
  have hnone : ∀ v ∈ "default" :: exportWords,
      ¬("default".toList <+: v.toList ∧ 7 < v.toList.length) := by decide
  have htext : (String.ofList ("default".toList ++ w.toList)).toList =
      "default".toList ++ w.toList := String.toList_ofList
  intro hmem
  refine hnone _ hmem ?_
  rw [htext]
  refine ⟨List.prefix_append _ _, ?_⟩
  have hlength := List.length_pos_iff.mpr hw
  have hseven : "default".toList.length = 7 := rfl
  rw [List.length_append]
  omega

/-- A call starts with the first word of its name, and then something else. -/
theorem exists_head_callChars (q : Quote) (first : String) (more : List String) (text : String)
    (texts : List String) : ∃ d z, callChars q first more text texts ++ [')'] =
      first.toList ++ d :: z ∧ Text.isIdPart d = false ∧ d ≠ '\\' := by
  obtain ⟨d, z, hhead, hd, hslash⟩ := exists_head_segmentText more
    ((Text.quoted text q).toList ++ furtherText q texts ++ [')'])
  refine ⟨d, z, ?_, hd, hslash⟩
  rw [← hhead]
  simp [callChars]

/-- A keyword and a word right behind it are one word. -/
theorem isWord_default_append {w : List Char} (hw : IsWord w) : IsWord ("default".toList ++ w) :=
  ⟨⟨'d', _, rfl, by decide⟩, List.forall_mem_append.mpr ⟨isWord_default.parts, hw.parts⟩⟩

/-- A call right behind the keywords makes one word of the second keyword and its own name. -/
theorem exists_moduleItem_exportCall_error (self : Parser) {first : String} {more : List String}
    (hwords : ∀ w ∈ first :: more, IsWord w.toList) (q : Quote) (text : String)
    (texts : List String) (hbound : 0 < c.bound) {lead : List Char} {pos : Nat}
    (hlead : IsGapAt lead pos) : ∃ e s', moduleItem self c (startState
      (lead ++ (exportChars ++ (callChars q first more text texts ++ [')']))) pos) =
        .error e s' := by
  have hfirst := hwords first List.mem_cons_self
  have hother := not_mem_exportWords hfirst.ne_nil
  rw [List.mem_cons, not_or] at hother
  obtain ⟨d, z, hcall, hd, hslash⟩ := exists_head_callChars q first more text texts
  have htext : exportChars ++ (callChars q first more text texts ++ [')']) =
      "export".toList ++ ' ' :: ("default".toList ++ first.toList ++ d :: z) := by
    rw [hcall, exportChars_append, List.append_assoc]
  have hexport := tokenAt_export hlead ("default".toList ++ first.toList ++ d :: z)
  -- without a gap the keyword and the name are one word, which declares nothing
  have hjoined := tokenAt_blank_word (isWord_default_append hfirst) hd hslash z
    (pos + Chars.size lead + 6)
  have hcur := hjoined.token
  rw [← hexport.next] at hcur
  rw [htext]
  obtain ⟨e, herror⟩ := exists_moduleItem_error self hexport.token hcur hother.2 hother.1 hbound
  exact ⟨e, _, herror⟩

end Operands

/-! ## Scripts -/

/-- An import of a name in front of a script, or nothing. -/
def importFront : Option (String × String) → List Char
  | none => []
  | some (name, path) => importChars name [] path ++ [';', '\n']

/-- The items of such a front. -/
def ImportsFront : Option (String × String) → List Tree → Prop
  | none, items => items = []
  | some (name, path), items => ∃ specifiers span,
      items = [.node (.importDecl ⟨some path, false, specifiers⟩) span []] ∧
        BindNames specifiers [name]

/-- What stands between a front and the next item. -/
def frontGap : Option (String × String) → List Char
  | none => []
  | some _ => ['\n']

/-- What stands between an import and the export is a gap. -/
theorem isGapAt_frontGap (front : Option (String × String)) (pos : Nat) :
    IsGapAt (frontGap front) pos := by
  apply isGapAt_of_blank
  cases front with
  | none => exact nofun
  | some _ =>
    intro c hc
    rw [List.mem_singleton.mp hc]
    exact Or.inl rfl

/-- A front is read before what follows it. -/
theorem exists_items_importFront (fuel : Nat) {c : Context} (hbound : 1 < c.bound)
    {front : Option (String × String)} (hwords : ∀ n p, front = some (n, p) → IsWord n.toList)
    (x : List Char) :
    ∃ items pos, Items (parser (fuel + 1)) c (startState (importFront front ++ x) 0) items
      (startState (frontGap front ++ x) pos) ∧ ImportsFront front items ∧ items.length ≤ 1 := by
  cases front with
  | none => exact ⟨[], 0, .done _, rfl, Nat.zero_le 1⟩
  | some found =>
    obtain ⟨name, path⟩ := found
    have hname : ∀ n ∈ [name], IsWord n.toList := by
      intro n hn
      rw [List.mem_singleton.mp hn]
      exact hwords name path rfl
    obtain ⟨stop, hshows⟩ := shows_importChars hname path ('\n' :: x) 0
    have hsemicolon := tokenAt_semicolon ('\n' :: x) stop
    obtain ⟨specifiers, hitem, hbind⟩ := moduleItem_import (parser fuel) hshows hsemicolon.token
      hbound
    rw [hsemicolon.next] at hitem
    -- an import in front is one item of the module
    have hstart :
        (startState (importChars name [] path ++ ';' :: '\n' :: x) 0).cur.token ≠ .eof := by
      obtain _ | ⟨himport, -⟩ := hshows
      rw [himport]
      exact Token.noConfusion
    have htext : importFront (some (name, path)) ++ x =
        importChars name [] path ++ ';' :: '\n' :: x := by
      simp [importFront]
    rw [htext]
    exact ⟨_, stop + 1, .item hstart hitem (.done _), ⟨_, _, rfl, hbind⟩, Nat.le_refl 1⟩

/-- A bound that no parse reaches grows with the text. -/
theorem fuelFor_append_le (xs ys : List Char) : fuelFor ys ≤ fuelFor (xs ++ ys) := by
  unfold fuelFor
  rw [List.length_append]
  omega

/-- A front or the first keyword starts with a letter. -/
theorem exists_first_importFront (front : Option (String × String)) (x : List Char) :
    ∃ d cs, importFront front ++ (exportChars ++ x) = d :: cs ∧ Text.isIdStart d = true := by
  cases front with
  | none => exact ⟨'e', _, rfl, by decide⟩
  | some found => exact ⟨'i', _, rfl, by decide⟩

section Scripts

variable {gap : List Char} {code : String}

/-- A script that exports a literal by default. -/
theorem parseModule_exportLiteral
    (hblank : ∀ c ∈ gap, isLineBreak c = true ∨ isSpace c = true) (text : String) (q : Quote)
    (hcode : code.toList = exportChars ++ (gap ++ (Text.quoted text q).toList))
    (dialect : Dialect) :
    ∃ whole span, parseModule code dialect = .ok (.node .module whole [.node .exportDefault span
      [.node (.strLit (some text)) ⟨14 + Chars.size gap,
        14 + Chars.size gap + Chars.size (Text.quoted text q).toList⟩ []]]) := by
  obtain ⟨d, cs, hfirst, hletter⟩ := exists_first_importFront none
    (gap ++ (Text.quoted text q).toList)
  have hlist : code.toList = d :: cs := hcode.trans hfirst
  rw [parseModule_eq hlist hletter]
  obtain ⟨fuel, hfuel⟩ : ∃ fuel, fuelFor code.toList = fuel + 3 :=
    ⟨16 * code.toList.length + 61, rfl⟩
  have hkeywords := shows_exportChars (isGapAt_nil 0) hblank (endsWords_quoted gap text q)
  obtain ⟨span, hitem⟩ := moduleItem_exportLiteral fuel (c := { dialect, bound := fuel + 3 })
    (by dsimp only; omega) rfl hblank text q hkeywords
  have hstart : (startState ([] ++ (exportChars ++ (gap ++ (Text.quoted text q).toList)))
      0).cur.token ≠ .eof := by
    obtain _ | ⟨hexport, -⟩ := hkeywords
    rw [hexport]
    exact Token.noConfusion
  -- the export is the only item
  have hitems : Items (parser (fuel + 3)) { dialect, bound := fuel + 3 } _ _ _ :=
    .item hstart hitem (.done _)
  have hwhole := wholeModule_items hitems (tokenAt_end _).token (by dsimp only [List.length]; omega)
  rw [hfuel, hcode]
  rw [List.nil_append] at hwhole
  rw [hwhole]
  simp

variable {first : String} {more : List String} {front : Option (String × String)}

/-- A script that exports a call by default, behind an import or not. -/
theorem parseModule_exportCall (hfront : ∀ n p, front = some (n, p) → IsWord n.toList)
    (hwords : ∀ w ∈ first :: more, IsWord w.toList) (hfirst : first ∉ reserved)
    (hawait : first ≠ "await") (q : Quote) (text : String) (texts : List String)
    (hblank : ∀ c ∈ gap, isLineBreak c = true ∨ isSpace c = true) (hgap : gap ≠ [])
    (hcode : code.toList = importFront front ++
      (exportChars ++ (gap ++ (callChars q first more text texts ++ [')'])))) (dialect : Dialect) :
    ∃ whole items span t stop, parseModule code dialect =
        .ok (.node .module whole (items ++ [Tree.node .exportDefault span [t]])) ∧
      ImportsFront front items ∧
      IsCall t (joinDots first more) (some text :: texts.map some) stop := by
  obtain ⟨d, cs, hlist, hletter⟩ := exists_first_importFront front
    (gap ++ (callChars q first more text texts ++ [')']))
  rw [parseModule_eq (hcode.trans hlist) hletter]
  obtain ⟨fuel, hfuel⟩ : ∃ fuel, fuelFor code.toList = fuel + 5 :=
    ⟨16 * code.toList.length + 59, rfl⟩
  -- the bound is large enough for the names and the arguments of the call
  have hbound : more.length + texts.length + 1 < fuel + 5 := by
    have hcall := lt_fuelFor_callChars q first more text texts [')']
    have hgrows := fuelFor_append_le (importFront front ++ (exportChars ++ gap))
      (callChars q first more text texts ++ [')'])
    rw [← hfuel, hcode]
    simp only [List.append_assoc] at hgrows
    exact Nat.lt_of_lt_of_le hcall hgrows
  obtain ⟨items, pos, hitems, himports, hlength⟩ := exists_items_importFront (fuel + 4)
    (c := { dialect, bound := fuel + 5 }) (by dsimp only; omega) hfront
    (exportChars ++ (gap ++ (callChars q first more text texts ++ [')'])))
  have hends : EndsWords gap (callChars q first more text texts ++ [')']) :=
    fun hnil => absurd hnil hgap
  have hkeywords := shows_exportChars (isGapAt_frontGap front pos) hblank hends
  obtain ⟨span, t, stop, hitem, ht⟩ := moduleItem_exportCall fuel
    (c := { dialect, bound := fuel + 5 }) hwords hfirst hawait q text texts hbound rfl hblank
    hkeywords
  have hstart : (startState (frontGap front ++ (exportChars ++ (gap ++
      (callChars q first more text texts ++ [')'])))) pos).cur.token ≠ .eof := by
    obtain _ | ⟨hexport, -⟩ := hkeywords
    rw [hexport]
    exact Token.noConfusion
  have hall := hitems.append (.item hstart hitem (.done _))
  have hwhole := wholeModule_items hall (tokenAt_end _).token (by
    rw [List.length_append, List.length_singleton]
    dsimp only
    omega)
  rw [hfuel, hcode, hwhole]
  exact ⟨_, items, span, t, stop, rfl, himports, ht⟩

/-- A script in which a call stands right behind the keywords does not parse. -/
theorem exists_parseModule_exportCall_error
    (hfront : ∀ n p, front = some (n, p) → IsWord n.toList)
    (hwords : ∀ w ∈ first :: more, IsWord w.toList) (q : Quote) (text : String)
    (texts : List String) (hcode : code.toList = importFront front ++
      (exportChars ++ (callChars q first more text texts ++ [')']))) (dialect : Dialect) :
    ∃ e, parseModule code dialect = .error e := by
  obtain ⟨d, cs, hlist, hletter⟩ := exists_first_importFront front
    (callChars q first more text texts ++ [')'])
  rw [parseModule_eq (hcode.trans hlist) hletter]
  obtain ⟨fuel, hfuel⟩ : ∃ fuel, fuelFor code.toList = fuel + 5 :=
    ⟨16 * code.toList.length + 59, rfl⟩
  obtain ⟨items, pos, hitems, -, hlength⟩ := exists_items_importFront (fuel + 4)
    (c := { dialect, bound := fuel + 5 }) (by dsimp only; omega) hfront
    (exportChars ++ (callChars q first more text texts ++ [')']))
  have hlead := isGapAt_frontGap front pos
  obtain ⟨e, s', herror⟩ := exists_moduleItem_exportCall_error (parser (fuel + 4))
    (c := { dialect, bound := fuel + 5 }) hwords q text texts (by dsimp only; omega) hlead
  have hstart : (startState (frontGap front ++ (exportChars ++
      (callChars q first more text texts ++ [')']))) pos).cur.token ≠ .eof := by
    rw [exportChars_append, (tokenAt_export hlead _).token]
    exact Token.noConfusion
  -- the import is read, then the module fails
  have hwhole := wholeModule_error hitems hstart herror (by dsimp only; omega)
  rw [hfuel, hcode, hwhole]
  exact ⟨_, rfl⟩

end Scripts

end TextHarvest.Script
