import Mathlib.Data.List.Forall2
import TextHarvest.Proofs.Script.Operand

/-!
# Reading back generated imports

A new import lists its names between braces and quotes its path. When the names are words and
nothing in the path needs an escape, the statement is a script of one import: it is no import of
types, and it binds each of the names as a value.

Main results:

* `importDecl_names` — the tokens of the statement are read as the import.
* `wholeModule_items` — a script is its items, one after the other.
* `parseModule_import` — the statement is a script of one import.
-/

namespace TextHarvest.Script

open Grammar Parse

/-! ## The tokens of the statement -/

/-- The first word of an import. -/
theorem isWord_import : IsWord "import".toList :=
  ⟨⟨'i', "mport".toList, rfl, by decide⟩, List.all_eq_true.mp (by decide)⟩

/-- The word in front of its path. -/
theorem isWord_from : IsWord "from".toList :=
  ⟨⟨'f', "rom".toList, rfl, by decide⟩, List.all_eq_true.mp (by decide)⟩

/-- An opening brace behind a blank. -/
theorem tokenAt_blank_lbrace (x : List Char) (pos : Nat) :
    TokenAt (' ' :: '\x7b' :: x) pos (.mark .lbrace) x (pos + 2) :=
  tokenAt_of_scan (fun _ => rfl) rfl

/-- A closing brace behind a blank. -/
theorem tokenAt_blank_rbrace (x : List Char) (pos : Nat) :
    TokenAt (' ' :: '\x7d' :: x) pos (.mark .rbrace) x (pos + 2) :=
  tokenAt_of_scan (fun _ => rfl) rfl

/-- A semicolon. -/
theorem tokenAt_semicolon (x : List Char) (pos : Nat) :
    TokenAt (';' :: x) pos (.mark .semicolon) x (pos + 1) :=
  tokenAt_of_scan (fun _ => rfl) rfl

/-- Further names as they are listed. -/
def furtherNames (names : List String) : List Char :=
  names.flatMap fun n => ',' :: ' ' :: n.toList

/-- Names with commas between them, behind a blank. -/
theorem shows_names {name : String} {names : List String}
    (hwords : ∀ n ∈ name :: names, IsWord n.toList) (x : List Char) (pos : Nat) :
    ∃ stop, Shows (startState (' ' :: (name.toList ++ (furtherNames names ++ ' ' :: x))) pos)
      (.word name :: behindCommas (names.map .word)) (startState (' ' :: x) stop) := by
  induction names generalizing name pos with
  | nil =>
    have hword := tokenAt_blank_word (hwords name List.mem_cons_self) (d := ' ') (by decide)
      (by decide) x pos
    rw [String.ofList_toList] at hword
    exact ⟨_, hword.shows (.done _)⟩
  | cons n names ih =>
    obtain ⟨stop, hrest⟩ := ih (fun m hm => hwords m (List.mem_cons_of_mem name hm))
      (pos + 1 + Chars.size name.toList + 1)
    have hword := tokenAt_blank_word (hwords name List.mem_cons_self) (d := ',') (by decide)
      (by decide) (' ' :: (n.toList ++ (furtherNames names ++ ' ' :: x))) pos
    rw [String.ofList_toList] at hword
    -- a further name stands behind a comma and a blank
    have htext : furtherNames (n :: names) ++ ' ' :: x =
        ',' :: ' ' :: (n.toList ++ (furtherNames names ++ ' ' :: x)) := by
      simp [furtherNames]
    rw [htext]
    exact ⟨stop, hword.shows ((tokenAt_comma _ _).shows hrest)⟩

/-- The tokens of a statement that imports names from a path, up to its end. -/
def importTokens (name : String) (names : List String) (path : Option String) : List Token :=
  .word "import" :: .mark .lbrace :: .word name :: (behindCommas (names.map .word) ++
    [Token.mark .rbrace, .word "from", .str path])

/-- A statement that imports names from a path, up to its end. -/
def importChars (name : String) (names : List String) (path : String) : List Char :=
  "import".toList ++ ' ' :: '\x7b' :: ' ' :: (name.toList ++ (furtherNames names ++
    ' ' :: '\x7d' :: ' ' :: ("from".toList ++ ' ' :: (Text.quoted path .double).toList)))

/-- The tokens of an import as it is written. -/
theorem shows_importChars {name : String} {names : List String}
    (hwords : ∀ n ∈ name :: names, IsWord n.toList) (path : String) (x : List Char) (pos : Nat) :
    ∃ stop, Shows (startState (importChars name names path ++ ';' :: x) pos)
      (importTokens name names (some path)) (startState (';' :: x) stop) := by
  -- the keyword, the names in braces, and the path behind its own keyword
  have htext : importChars name names path ++ ';' :: x =
      "import".toList ++ ' ' :: '\x7b' :: ' ' :: (name.toList ++ (furtherNames names ++
        ' ' :: '\x7d' :: ' ' :: ("from".toList ++
          ' ' :: ((Text.quoted path .double).toList ++ ';' :: x)))) := by
    unfold importChars
    simp
  obtain ⟨stop, hnames⟩ := shows_names hwords
    ('\x7d' :: ' ' :: ("from".toList ++ ' ' :: ((Text.quoted path .double).toList ++ ';' :: x)))
    (pos + Chars.size "import".toList + 2)
  have himport := tokenAt_word isWord_import (d := ' ') (by decide) (by decide)
    ('\x7b' :: ' ' :: (name.toList ++ (furtherNames names ++
      ' ' :: '\x7d' :: ' ' :: ("from".toList ++
        ' ' :: ((Text.quoted path .double).toList ++ ';' :: x))))) pos
  have hfrom := tokenAt_blank_word isWord_from (d := ' ') (by decide) (by decide)
    ((Text.quoted path .double).toList ++ ';' :: x) (stop + 2)
  have hpath := tokenAt_blank_quoted path .double (';' :: x)
    (stop + 2 + 1 + Chars.size "from".toList)
  rw [String.ofList_toList] at himport hfrom
  rw [htext]
  exact ⟨_, himport.shows ((tokenAt_blank_lbrace _ _).shows (hnames.append
    ((tokenAt_blank_rbrace _ _).shows (hfrom.shows (hpath.shows (.done _))))))⟩

/-! ## The names between the braces -/

/-- The value specifier for the name at the current token. -/
def specifierOf (s : State) : Specifier :=
  match s.cur.token with
  | .word w => ⟨.named, w, false, ⟨s.cur.span.start, s.next.prevStop⟩⟩
  | _ => ⟨.named, "", false, s.cur.span⟩

/-- At a word, the name that it binds. -/
theorem specifierOf_eq {s : State} {w : String} (hcur : s.cur.token = .word w) :
    specifierOf s = ⟨.named, w, false, ⟨s.cur.span.start, s.next.prevStop⟩⟩ := by
  unfold specifierOf
  rw [hcur]

/-- Up to a comma or the closing brace a word is a value specifier, even the words `type` and
`as`. -/
theorem importSpecifier_word {c : Context} {s : State} {w : String} (hcur : s.cur.token = .word w)
    (hend : s.next.cur.token = .mark .rbrace ∨ s.next.cur.token = .mark .comma) :
    importSpecifier c s = .ok (specifierOf s) s.next := by
  have hname : exportedName c s = .ok (.inl w) s.next := by
    unfold exportedName anyWord
    simp [bind_eq, here_eq, token_eq, hcur, advance_eq, map_eq]
  have hword : isAnyWord s.next.cur.token = false := by
    rcases hend with h | h <;> rw [h] <;> rfl
  -- neither a new name nor a second word stands behind the name
  have has : s.next.cur.token ≠ .word "as" := by
    rcases hend with h | h <;> rw [h] <;> exact Token.noConfusion
  rw [specifierOf_eq hcur]
  unfold importSpecifier
  simp only [bind_eq, here_eq, hname, typed_eq, token_eq, hword, Bool.and_false,
    Bool.false_eq_true, if_false, eatWord, eat_ne c s.next has]
  rfl

/-- One round of the names between the braces. -/
def importRound (acc : List Specifier) : Parse (List Specifier ⊕ List Specifier) := do
  if ← eatMark .rbrace then return .inr acc.reverse
  let s ← importSpecifier
  unless ← isMark .rbrace do expectMark .comma
  return .inl (s :: acc)

/-- The closing brace ends the names. -/
theorem importRound_close {c : Context} {s : State} {acc : List Specifier}
    (hbrace : s.cur.token = .mark .rbrace) :
    importRound acc c s = .ok (.inr acc.reverse) s.next := by
  unfold importRound
  simp [bind_eq, eatMark, eat_eq c s hbrace, pure_eq]

/-- A round takes a name, and the comma behind it if there is one. -/
theorem importRound_word {c : Context} {s : State} {acc : List Specifier}
    (hcur : ∃ w, s.cur.token = .word w)
    (hend : s.next.cur.token = .mark .rbrace ∨ s.next.cur.token = .mark .comma) :
    importRound acc c s = .ok (.inl (specifierOf s :: acc))
      (if s.next.cur.token = .mark .comma then s.next.next else s.next) := by
  obtain ⟨w, hcur⟩ := hcur
  have hopen : s.cur.token ≠ .mark .rbrace := by
    rw [hcur]
    exact Token.noConfusion
  have hspecifier := importSpecifier_word (c := c) hcur hend
  unfold importRound
  -- the last name stands before the brace, any other before a comma
  rcases hend with hbrace | hcomma
  · simp [bind_eq, eatMark, eat_ne c s hopen, hspecifier, isMark_eq, hbrace, pure_eq]
  · simp [bind_eq, eatMark, eat_ne c s hopen, hspecifier, isMark_eq, hcomma, map_eq, expectMark,
      expect_eq c s.next hcomma]

/-- Specifiers bind some names as values, in order. -/
def BindNames (specifiers : List Specifier) (names : List String) : Prop :=
  List.Forall₂ (fun s n => s.form = .named ∧ s.name = n ∧ s.typeOnly = false) specifiers names

/-- The names at some words bind these words. -/
theorem bindNames_specifierOf {states : List State} {names : List String}
    (h : states.map (·.cur.token) = names.map .word) :
    BindNames (states.map specifierOf) names := by
  induction names generalizing states with
  | nil =>
    rw [List.map_eq_nil_iff.mp h]
    exact .nil
  | cons n names ih =>
    obtain ⟨s, states, rfl, hcur, hstates⟩ := List.map_eq_cons_iff.mp h
    have hspecifier : specifierOf s = ⟨.named, n, false, ⟨s.cur.span.start, s.next.prevStop⟩⟩ :=
      specifierOf_eq hcur
    refine .cons ?_ (ih hstates)
    rw [hspecifier]
    exact ⟨rfl, rfl, rfl⟩

/-- The words between the braces are the names that are bound. -/
theorem importNames_words {c : Context} {s s' : State} {name : String} {names : List String}
    (hshows : Shows s (.mark .lbrace :: .word name :: behindCommas (names.map .word)) s')
    (hbrace : s'.cur.token = .mark .rbrace) (hbound : names.length + 1 < c.bound) :
    ∃ specifiers, importNames c s = .ok specifiers s'.next ∧
      BindNames specifiers (name :: names) := by
  obtain _ | ⟨hlbrace, hshows⟩ := hshows
  -- the braces are those of names, so no star stands in front
  have hstar : s.cur.token ≠ .op "*" := by
    rw [hlbrace]
    exact Token.noConfusion
  have hwords : ∀ t ∈ Token.word name :: names.map .word, ∃ w, t = .word w := by
    intro t ht
    rw [← List.map_cons] at ht
    obtain ⟨w, -, rfl⟩ := List.mem_map.mp ht
    exact ⟨w, rfl⟩
  obtain ⟨states, hrounds, htokens⟩ := rounds_items .rbrace specifierOf (n := c.bound) (c := c)
    (fun acc s => importRound_close) (fun acc s hcur hnext => importRound_word hcur hnext)
    (by decide) hbrace (names.map .word) hwords [] hshows (by rw [List.length_map]; exact hbound)
  refine ⟨_, ?_, bindNames_specifierOf htokens⟩
  unfold importNames
  simp only [bind_eq, here_eq, eatOp, eat_ne c s hstar, eatMark, eat_eq c s hlbrace,
    Bool.false_eq_true, if_false, if_true]
  exact hrounds

/-! ## The statement -/

/-- A literal is the path of an import. -/
theorem moduleSource_str {c : Context} {s : State} {path : Option String}
    (hcur : s.cur.token = .str path) : moduleSource c s = .ok path s.next := by
  unfold moduleSource
  simp [bind_eq, token_eq, hcur, advance_eq, map_eq]

/-- At a semicolon there are no attributes. -/
theorem importAttributes_semicolon {self : Parser} {c : Context} {s : State}
    (hcur : s.cur.token = .mark .semicolon) : importAttributes self c s = .ok () s := by
  unfold importAttributes
  simp [bind_eq, token_eq, hcur, newline_eq, pure_eq]

/-- A semicolon ends a statement. -/
theorem expectEnd_semicolon {c : Context} {s : State} (hcur : s.cur.token = .mark .semicolon) :
    expectEnd c s = .ok () s.next := by
  unfold expectEnd eatEnd
  simp [bind_eq, eatMark, eat_eq c s hcur, pure_eq]

/-- Behind the names of an import stands its path. -/
theorem importTail_path {self : Parser} {start : Nat} {typeOnly : Bool}
    {specifiers : List Specifier} {c : Context} {s s' : State} {path : Option String}
    (hshows : Shows s [.word "from", .str path] s') (hend : s'.cur.token = .mark .semicolon) :
    importTail self start typeOnly specifiers c s =
      .ok (.node (.importDecl ⟨path, typeOnly, specifiers⟩) ⟨start, s'.next.prevStop⟩ [])
        s'.next := by
  obtain _ | ⟨hfrom, hshows⟩ := hshows
  obtain _ | ⟨hpath, hshows⟩ := hshows
  obtain _ | _ := hshows
  unfold importTail
  simp only [bind_eq, expectWord, expect_eq c s hfrom, moduleSource_str hpath,
    importAttributes_semicolon hend, expectEnd_semicolon hend, node_eq]

/-- The statement is a value import of the path. -/
theorem importDecl_names (self : Parser) {c : Context} {s s' : State} {name : String}
    {names : List String} {path : Option String}
    (hshows : Shows s (importTokens name names path) s')
    (hend : s'.cur.token = .mark .semicolon) (hbound : names.length + 1 < c.bound) :
    ∃ specifiers, importDecl self c s =
        .ok (.node (.importDecl ⟨path, false, specifiers⟩) ⟨s.cur.span.start, s'.next.prevStop⟩ [])
          s'.next ∧
      BindNames specifiers (name :: names) := by
  obtain _ | ⟨himport, hshows⟩ := hshows
  -- the tokens of the names, and what is shown behind them
  obtain ⟨m, hnames, hshows⟩ := @Shows.split _ _
    (.mark .lbrace :: .word name :: behindCommas (names.map .word)) _ hshows
  obtain _ | ⟨hrbrace, hshows⟩ := hshows
  have hlbrace : s.next.cur.token = .mark .lbrace := by
    obtain _ | ⟨hlbrace, -⟩ := hnames
    exact hlbrace
  obtain ⟨specifiers, hspecifiers, hbind⟩ := importNames_words hnames hrbrace hbound
  refine ⟨specifiers, ?_, hbind⟩
  unfold importDecl
  simp only [bind_eq, here_eq, expectWord, expect_eq c s himport, token_eq, hlbrace]
  rw [if_neg (by decide)]
  simp only [bind_eq, hspecifiers, importTail_path hshows hend]

/-! ## The items of a script -/

/-- Items of a script that are read one after the other. -/
inductive Items (self : Parser) (c : Context) : State → List Tree → State → Prop
  | done (s : State) : Items self c s [] s
  | item {s m s' : State} {t : Tree} {ts : List Tree} : s.cur.token ≠ .eof →
      self .moduleItem c s = .ok t m → Items self c m ts s' → Items self c s (t :: ts) s'

/-- Items one after the other. -/
theorem Items.append {self : Parser} {c : Context} {s m s' : State} {ts us : List Tree}
    (h : Items self c s ts m) (h' : Items self c m us s') : Items self c s (ts ++ us) s' := by
  induction h with
  | done s => exact h'
  | item hmore hitem _ ih => exact .item hmore hitem (ih h')

/-- One round of the items of a script. -/
def itemRound (self : Parser) (acc : List Tree) : Parse (List Tree ⊕ List Tree) := do
  if (← token) == .eof then return .inr acc.reverse
  return .inl ((← self .moduleItem) :: acc)

section Items

variable {self : Parser} {c : Context} {s m s' : State} {ts : List Tree}

/-- The loop over the items of a script goes on behind those that are read. -/
theorem rounds_itemRound (hitems : Items self c s ts m) (n : Nat) (acc : List Tree) :
    rounds (itemRound self) (n + ts.length) acc c s =
      rounds (itemRound self) n (ts.reverse ++ acc) c m := by
  induction hitems generalizing acc with
  | done s => rfl
  | @item s m s' t ts hmore hitem _ ih =>
    have hround : itemRound self acc c s = .ok (.inl (t :: acc)) m := by
      unfold itemRound
      simp [bind_eq, token_eq, hmore, map_eq, hitem]
    rw [List.length_cons, ← Nat.add_assoc, rounds_inl c s (n + ts.length) hround, ih,
      List.reverse_cons, List.append_assoc, List.singleton_append]

/-- A script is its items, one after the other. -/
theorem wholeModule_items (hitems : Items self c s ts s') (hend : s'.cur.token = .eof)
    (hbound : ts.length < c.bound) :
    wholeModule self c s = .ok (.node .module ⟨0, s'.prevStop⟩ ts) s' := by
  obtain ⟨n, hn⟩ : ∃ n, c.bound = n + 1 + ts.length := ⟨c.bound - ts.length - 1, by omega⟩
  have hread : itemsUntil .eof (self .moduleItem) c s = .ok ts s' := by
    have hround : itemRound self ts.reverse c s' = .ok (.inr ts) s' := by
      unfold itemRound
      simp [bind_eq, token_eq, hend, pure_eq]
    have hrounds := rounds_itemRound hitems (n + 1) []
    rw [List.append_nil, ← hn, rounds_inr c s' n hround] at hrounds
    exact hrounds
  unfold wholeModule
  simp only [bind_eq, hread, node_eq]

/-- Where an item does not parse there is no script. -/
theorem wholeModule_error {e : Nat} (hitems : Items self c s ts m) (hmore : m.cur.token ≠ .eof)
    (herror : self .moduleItem c m = .error e s') (hbound : ts.length < c.bound) :
    wholeModule self c s = .error e s' := by
  obtain ⟨n, hn⟩ : ∃ n, c.bound = n + 1 + ts.length := ⟨c.bound - ts.length - 1, by omega⟩
  have hread : itemsUntil .eof (self .moduleItem) c s = .error e s' := by
    have hround : itemRound self ts.reverse c m = .error e s' := by
      unfold itemRound
      simp [bind_eq, token_eq, hmore, map_eq, herror]
    have hrounds := rounds_itemRound hitems (n + 1) []
    rw [List.append_nil, ← hn, rounds.eq_2, bind_eq, hround] at hrounds
    exact hrounds
  unfold wholeModule
  simp only [bind_eq, hread]

end Items

/-- A script that starts with a letter is read from its first character on. -/
theorem parseModule_eq {code : String} {d : Char} {cs : List Char} (hcode : code.toList = d :: cs)
    (hd : Text.isIdStart d = true) (dialect : Dialect) :
    parseModule code dialect =
      match wholeModule (parser (fuelFor code.toList))
          { dialect := dialect, bound := fuelFor code.toList } (startState code.toList 0) with
      | .ok tree _ => .ok tree
      | .error offset _ => .error (.unexpected offset) := by
  -- a letter in front is neither a mark nor a hash
  have hne : ∀ d', Text.isIdStart d' = false → d ≠ d' := by
    rintro d' hd' rfl
    rw [hd] at hd'
    exact Bool.noConfusion hd'
  have hmark : d ≠ '\ufeff' := hne _ (by decide +kernel)
  have hhash : d ≠ '#' := hne _ (by decide +kernel)
  have hdrop : dropMark code.toList = code.toList := by
    apply dropMark_of_head?_ne
    rw [hcode]
    simpa using hmark
  have hbody : afterInterpreter code.toList = (code.toList, 0) := by
    rw [hcode]
    unfold afterInterpreter
    split
    · next heq => exact absurd (List.cons.inj heq).1 hhash
    · rfl
  unfold parseModule
  rw [hdrop]
  dsimp only
  generalize afterInterpreter code.toList = read at hbody ⊢
  subst hbody
  rfl

/-! ## The script -/

/-- Without a sign there are no decorators. -/
theorem decorators_none {self : Parser} {beforeExport : Bool} {c : Context} {s : State}
    (hcur : s.cur.token ≠ .mark .sign) (hbound : 0 < c.bound) :
    decorators self beforeExport c s = .ok [] s := by
  obtain ⟨n, hn⟩ : ∃ n, c.bound = n + 1 := ⟨c.bound - 1, by omega⟩
  unfold decorators
  simp [bind_eq, here_eq, iterate_ok, hn, rounds, isMark_eq, hcur, isWord, token_eq, map_eq,
    read_eq, pure_eq]

/-- The tokens of an import are an item. -/
theorem moduleItem_import (self : Parser) {c : Context} {s s' : State} {name : String}
    {names : List String} {path : Option String}
    (hshows : Shows s (importTokens name names path) s')
    (hend : s'.cur.token = .mark .semicolon) (hbound : names.length + 1 < c.bound) :
    ∃ specifiers, moduleItem self c s =
        .ok (.node (.importDecl ⟨path, false, specifiers⟩) ⟨s.cur.span.start, s'.next.prevStop⟩ [])
          s'.next ∧
      BindNames specifiers (name :: names) := by
  obtain ⟨specifiers, hdecl, hbind⟩ := importDecl_names self hshows hend hbound
  refine ⟨specifiers, ?_, hbind⟩
  obtain _ | ⟨himport, hshows⟩ := hshows
  obtain _ | ⟨hlbrace, -⟩ := hshows
  have hsign : s.cur.token ≠ .mark .sign := by
    rw [himport]
    exact Token.noConfusion
  -- a brace stands behind the word, so it is no call of import
  have hcalls : importCalls c s = .ok false s := by
    unfold importCalls peekMark
    simp [bind_eq, map_eq, peek_eq, hlbrace]
  unfold moduleItem
  simp [bind_eq, here_eq, decorators_none hsign (by omega : 0 < c.bound), token_eq, himport,
    hcalls, hdecl]

/-- Further names take up more characters than there are names. -/
theorem length_le_furtherNames (names : List String) :
    names.length ≤ (furtherNames names).length := by
  induction names with
  | nil => exact Nat.le_refl 0
  | cons n names ih =>
    have hcons : furtherNames (n :: names) = ',' :: ' ' :: (n.toList ++ furtherNames names) := rfl
    rw [hcons, List.length_cons, List.length_cons, List.length_cons, List.length_append]
    omega

/-- A statement that imports words from a path is a script of one import. -/
theorem parseModule_import {name : String} {names : List String}
    (hwords : ∀ n ∈ name :: names, IsWord n.toList) (path : String) (dialect : Dialect)
    {code : String} (hcode : code.toList = importChars name names path ++ [';']) :
    ∃ specifiers span whole, parseModule code dialect =
        .ok (.node .module whole [.node (.importDecl ⟨some path, false, specifiers⟩) span []]) ∧
      BindNames specifiers (name :: names) := by
  obtain ⟨stop, hshows⟩ := shows_importChars hwords path [] 0
  rw [← hcode] at hshows
  have hsemicolon := tokenAt_semicolon [] stop
  obtain ⟨fuel, hfuel⟩ : ∃ fuel, fuelFor code.toList = fuel + 1 :=
    ⟨16 * code.toList.length + 63, rfl⟩
  -- the bound is as large as the text is long
  have hbound : names.length + 1 < fuel + 1 := by
    have hnames := length_le_furtherNames names
    rw [← hfuel, hcode]
    unfold fuelFor importChars
    simp only [List.length_append, List.length_cons]
    omega
  obtain ⟨specifiers, hitem, hbind⟩ := moduleItem_import (parser fuel)
    (c := { dialect := dialect, bound := fuel + 1 }) hshows hsemicolon.token hbound
  rw [hsemicolon.next] at hitem
  have hstart : (startState code.toList 0).cur.token ≠ .eof := by
    obtain _ | ⟨himport, -⟩ := hshows
    rw [himport]
    exact Token.noConfusion
  have hitems : Items (parser (fuel + 1)) { dialect := dialect, bound := fuel + 1 } _ _ _ :=
    .item hstart hitem (.done _)
  have hwhole := wholeModule_items hitems (tokenAt_end _).token
    (by rw [List.length_singleton]; dsimp only; omega)
  have hfirst : code.toList =
      'i' :: ("mport".toList ++ (importChars name names path ++ [';']).drop 6) :=
    hcode
  rw [parseModule_eq hfirst (by decide), hfuel, hwhole]
  exact ⟨specifiers, _, _, rfl, hbind⟩

end TextHarvest.Script
