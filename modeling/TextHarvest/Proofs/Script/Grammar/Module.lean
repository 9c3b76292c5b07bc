import TextHarvest.Proofs.Script.Grammar.Expr
import TextHarvest.Script.Program

/-!
# Scripts keep to their source

Statements, imports, exports and whole scripts. Closing the loop over the goals, each goal of the
grammar keeps to the source, however deep it nests, and so the tree of a script stands in its text.

Main results:

* `Grammar.steady_goals` — every goal keeps to the source.
* `standsIn_of_parseModule` — all nodes of a script start and stop between characters.
* `between_of_parseModule_error` — a script is refused between two characters.
-/

namespace TextHarvest.Script

namespace Grammar

open Parse Chars

variable {source : List Char} {self : Parser}

/-! ## Declarations -/

@[grind ←] theorem steady_declarator (h : ∀ goal, Steady source (self goal)) (inLoopHead : Bool) :
    Steady source (declarator self inLoopHead) := by
  unfold declarator
  with_reducible repeat' first
    | refine steady_bind ?_ fun _ _ => ?_
    | refine steady_iterate ?_ fun _ _ => ?_
    | refine steady_ite ?_ ?_
    | split
  all_goals grind

@[grind ←] theorem steady_skipToEnd : Steady source skipToEnd := by
  unfold skipToEnd
  grind

@[grind ←] theorem steady_declaresNothing (self : Parser) :
    Steady source (declaresNothing self) := by
  unfold declaresNothing
  grind

@[grind ←] theorem steady_varDecl (h : ∀ goal, Steady source (self goal)) (inLoopHead : Bool) :
    Steady source (varDecl self inLoopHead) := by
  unfold varDecl
  with_reducible repeat' first
    | refine steady_bind ?_ fun _ _ => ?_
    | refine steady_ite ?_ ?_
    | refine steady_withReader _ ?_
  all_goals grind

@[grind ←] theorem steady_usingDeclares : Steady source usingDeclares := by
  unfold usingDeclares
  grind

@[grind ←] theorem steady_usingDecl {start : Nat} (h : ∀ goal, Steady source (self goal))
    (hstart : fits source start) : Steady source (usingDecl self start) := by
  unfold usingDecl
  with_reducible repeat' refine steady_bind ?_ fun _ _ => ?_
  all_goals grind

@[grind ←] theorem steady_letDeclares : Steady source letDeclares := by
  unfold letDeclares
  grind

@[grind ←] theorem steady_interfaceDecl {start : Nat} (h : ∀ goal, Steady source (self goal))
    (hstart : fits source start) : Steady source (interfaceDecl self start) := by
  unfold interfaceDecl
  with_reducible repeat' first
    | refine steady_bind ?_ fun _ _ => ?_
    | refine steady_iterate ?_ fun _ _ => ?_
    | refine steady_ite ?_ ?_
  all_goals grind

@[grind ←] theorem steady_typeAliasDecl {start : Nat} (h : ∀ goal, Steady source (self goal))
    (hstart : fits source start) : Steady source (typeAliasDecl self start) := by
  unfold typeAliasDecl
  grind

@[grind ←] theorem steady_enumMember (h : ∀ goal, Steady source (self goal)) :
    Steady source (enumMember self) := by
  unfold enumMember
  with_reducible repeat' refine steady_bind ?_ fun _ _ => ?_
  all_goals grind

@[grind ←] theorem steady_enumDecl {start : Nat} (h : ∀ goal, Steady source (self goal))
    (hstart : fits source start) : Steady source (enumDecl self start) := by
  unfold enumDecl
  with_reducible repeat' refine steady_bind ?_ fun _ _ => ?_
  all_goals grind

@[grind ←] theorem steady_moduleBlock (h : ∀ goal, Steady source (self goal)) :
    Steady source (moduleBlock self) := by
  unfold moduleBlock
  grind

@[grind ←] theorem steady_namespaceDecl {start : Nat} (h : ∀ goal, Steady source (self goal))
    (hstart : fits source start) : Steady source (namespaceDecl self start) := by
  unfold namespaceDecl
  grind

@[grind ←] theorem steady_ambientModuleDecl {start : Nat}
    (h : ∀ goal, Steady source (self goal)) (hstart : fits source start) :
    Steady source (ambientModuleDecl self start) := by
  unfold ambientModuleDecl
  with_reducible repeat' refine steady_bind ?_ fun _ _ => ?_
  all_goals grind

@[grind ←] theorem steady_wordDecl? {start : Nat} {ds : List Tree}
    (h : ∀ goal, Steady source (self goal)) (word : String) (forced : Bool)
    (hstart : fits source start) (hds : fits source ds) :
    Steady source (wordDecl? self start word forced ds) := by
  unfold wordDecl?
  with_reducible repeat' refine steady_bind ?_ fun _ _ => ?_
  all_goals grind

@[grind ←] theorem steady_declared? {start : Nat} {ds : List Tree}
    (h : ∀ goal, Steady source (self goal)) (hstart : fits source start) (hds : fits source ds) :
    Steady source (declared? self start ds) := by
  unfold declared?
  with_reducible repeat' refine steady_bind ?_ fun _ _ => ?_
  all_goals grind

/-! ## Loops -/

@[grind ←] theorem steady_forTail {start : Nat} {init : List Tree}
    (h : ∀ goal, Steady source (self goal)) (hstart : fits source start)
    (hinit : fits source init) : Steady source (forTail self start init) := by
  unfold forTail
  with_reducible repeat' first
    | refine steady_bind ?_ fun _ _ => ?_
    | refine steady_ite ?_ ?_
  all_goals grind

@[grind ←] theorem steady_forEachTail {start : Nat} {left : Tree}
    (h : ∀ goal, Steady source (self goal)) (hstart : fits source start)
    (hleft : fits source left) : Steady source (forEachTail self start left) := by
  unfold forEachTail
  with_reducible repeat' first
    | refine steady_bind ?_ fun _ _ => ?_
    | refine steady_ite ?_ ?_
  all_goals grind

@[grind ←] theorem steady_forStmt (h : ∀ goal, Steady source (self goal)) :
    Steady source (forStmt self) := by
  unfold forStmt
  refine steady_bind steady_here fun start hstart => ?_
  refine steady_bind (steady_expectWord _) fun _ _ => ?_
  refine steady_bind (steady_eatWord _) fun _ _ => ?_
  refine steady_bind (steady_expectMark _) fun _ _ => ?_
  extract_lets isEach head
  have hisEach : Steady source isEach := by
    dsimp only [isEach]
    grind
  clear_value isEach
  -- the head goes on alike behind a declaration and behind an expression
  have hhead (declares : Bool) : Steady source (head declares) := by
    dsimp only [head]
    with_reducible repeat' first
      | refine steady_bind ?_ fun _ _ => ?_
      | refine steady_withReader _ ?_
      | split
    all_goals grind
  clear_value head
  with_reducible repeat' first
    | refine steady_bind ?_ fun _ _ => ?_
    | split
  all_goals grind

/-! ## Other statements -/

@[grind ←] theorem steady_condition (h : ∀ goal, Steady source (self goal)) :
    Steady source (condition self) := by
  unfold condition
  grind

@[grind ←] theorem steady_catchClause? (h : ∀ goal, Steady source (self goal)) :
    Steady source (catchClause? self) := by
  unfold catchClause?
  with_reducible repeat' first
    | refine steady_bind ?_ fun _ _ => ?_
    | refine steady_ite ?_ ?_
  all_goals grind

@[grind ←] theorem steady_finallyBlock? (h : ∀ goal, Steady source (self goal)) :
    Steady source (finallyBlock? self) := by
  unfold finallyBlock?
  grind

@[grind ←] theorem steady_strayHandler {start : Nat} (h : ∀ goal, Steady source (self goal))
    (hstart : fits source start) : Steady source (strayHandler self start) := by
  unfold strayHandler
  grind

@[grind ←] theorem steady_tryStmt (h : ∀ goal, Steady source (self goal)) :
    Steady source (tryStmt self) := by
  unfold tryStmt
  grind

@[grind ←] theorem steady_switchCase (h : ∀ goal, Steady source (self goal)) :
    Steady source (switchCase self) := by
  unfold switchCase
  with_reducible repeat' first
    | refine steady_bind ?_ fun _ _ => ?_
    | refine steady_ite ?_ ?_
  all_goals grind

@[grind ←] theorem steady_switchStmt (h : ∀ goal, Steady source (self goal)) :
    Steady source (switchStmt self) := by
  unfold switchStmt
  with_reducible repeat' refine steady_bind ?_ fun _ _ => ?_
  all_goals grind

@[grind ←] theorem steady_ifStmt (h : ∀ goal, Steady source (self goal)) :
    Steady source (ifStmt self) := by
  unfold ifStmt
  with_reducible repeat' refine steady_bind ?_ fun _ _ => ?_
  all_goals grind

@[grind ←] theorem steady_jumpStmt (kindOf : Option String → Kind) :
    Steady source (jumpStmt kindOf) := by
  unfold jumpStmt
  grind

@[grind ←] theorem steady_exprStmt {ds : List Tree} (h : ∀ goal, Steady source (self goal))
    (hds : fits source ds) : Steady source (exprStmt self ds) := by
  unfold exprStmt
  with_reducible repeat' first
    | refine steady_bind ?_ fun _ _ => ?_
    | refine steady_iterate ?_ fun _ _ => ?_
    | refine steady_ite ?_ ?_
    | split
    | dsimp only
  all_goals grind

@[grind ←] theorem steady_importCalls : Steady source importCalls := by
  unfold importCalls
  grind

@[grind ←] theorem steady_importCallStmt {start : Nat} (h : ∀ goal, Steady source (self goal))
    (hstart : fits source start) : Steady source (importCallStmt self start) := by
  unfold importCallStmt
  grind

@[grind ←] theorem steady_statementAfter {start : Nat} {ds : List Tree}
    (h : ∀ goal, Steady source (self goal)) (declarations : Bool) (hstart : fits source start)
    (hds : fits source ds) : Steady source (statementAfter self start declarations ds) := by
  unfold statementAfter
  with_reducible repeat' first
    | refine steady_bind ?_ fun _ _ => ?_
    | refine steady_iterate ?_ fun _ _ => ?_
    | refine steady_ite ?_ ?_
    | split
  all_goals grind

@[grind ←] theorem steady_statement (h : ∀ goal, Steady source (self goal))
    (declarations : Bool) : Steady source (statement self declarations) := by
  unfold statement
  grind

@[grind ←] theorem steady_block (h : ∀ goal, Steady source (self goal)) :
    Steady source (block self) := by
  unfold block
  grind

/-! ## Imports -/

instance : Pointing Specifier := .silent _

@[grind ←] theorem fits_specifier (s : Specifier) : fits source s := trivial

@[grind ←] theorem steady_exportedName : Steady source exportedName := by
  unfold exportedName
  grind

@[grind ←] theorem steady_importAttributes (h : ∀ goal, Steady source (self goal)) :
    Steady source (importAttributes self) := by
  unfold importAttributes
  with_reducible repeat' refine steady_bind ?_ fun _ _ => ?_
  all_goals grind

@[grind ←] theorem steady_moduleSource : Steady source moduleSource := by
  unfold moduleSource
  grind

@[grind ←] theorem steady_importSpecifier : Steady source importSpecifier := by
  unfold importSpecifier
  with_reducible repeat' first
    | refine steady_bind ?_ fun _ _ => ?_
    | refine steady_iterate ?_ fun _ _ => ?_
    | refine steady_ite ?_ ?_
    | split
  all_goals grind

@[grind ←] theorem steady_importEqualsTail {start : Nat} (n : String)
    (hstart : fits source start) : Steady source (importEqualsTail start n) := by
  unfold importEqualsTail
  with_reducible repeat' refine steady_bind ?_ fun _ _ => ?_
  all_goals grind

@[grind ←] theorem steady_importNames : Steady source importNames := by
  unfold importNames
  with_reducible repeat' first
    | refine steady_bind ?_ fun _ _ => ?_
    | refine steady_ite ?_ ?_
  all_goals grind

@[grind ←] theorem steady_importTail {start : Nat} (h : ∀ goal, Steady source (self goal))
    (typeOnly : Bool) (specifiers : List Specifier) (hstart : fits source start) :
    Steady source (importTail self start typeOnly specifiers) := by
  unfold importTail
  grind

@[grind ←] theorem steady_importAfterDefault {start : Nat} (h : ∀ goal, Steady source (self goal))
    (typeOnly : Bool) (n : String) (place : Nat) (hstart : fits source start) :
    Steady source (importAfterDefault self start typeOnly n place) := by
  unfold importAfterDefault
  grind

@[grind ←] theorem steady_importDecl (h : ∀ goal, Steady source (self goal)) :
    Steady source (importDecl self) := by
  unfold importDecl
  with_reducible repeat' first
    | refine steady_bind ?_ fun _ _ => ?_
    | refine steady_iterate ?_ fun _ _ => ?_
    | refine steady_ite ?_ ?_
    | split
  all_goals grind

@[grind ←] theorem steady_typeExportSpecifier : Steady source typeExportSpecifier := by
  unfold typeExportSpecifier
  grind

@[grind ←] theorem steady_exportSpecifier : Steady source exportSpecifier := by
  unfold exportSpecifier
  grind

/-! ## Exports -/

@[grind ←] theorem steady_exportDefault {start : Nat} {ds : List Tree}
    (h : ∀ goal, Steady source (self goal)) (hstart : fits source start) (hds : fits source ds) :
    Steady source (exportDefault self start ds) := by
  unfold exportDefault
  with_reducible repeat' refine steady_bind ?_ fun _ _ => ?_
  all_goals grind

@[grind ←] theorem steady_exportNames {start : Nat} (h : ∀ goal, Steady source (self goal))
    (hstart : fits source start) : Steady source (exportNames self start) := by
  unfold exportNames
  with_reducible repeat' refine steady_bind ?_ fun _ _ => ?_
  all_goals grind

@[grind ←] theorem steady_exportedWordDecl? {ds : List Tree}
    (h : ∀ goal, Steady source (self goal)) (hds : fits source ds) :
    Steady source (exportedWordDecl? self ds) := by
  unfold exportedWordDecl?
  with_reducible repeat' first
    | refine steady_bind ?_ fun _ _ => ?_
    | refine steady_iterate ?_ fun _ _ => ?_
    | refine steady_ite ?_ ?_
    | split
  all_goals grind

@[grind ←] theorem steady_exportDecl {ds : List Tree} (h : ∀ goal, Steady source (self goal))
    (hds : fits source ds) : Steady source (exportDecl self ds) := by
  unfold exportDecl
  refine steady_bind steady_here fun start hstart => ?_
  refine steady_bind (steady_expectWord _) fun _ _ => ?_
  refine steady_bind steady_typed fun isTyped _ => ?_
  extract_lets wrap
  -- every form ends as a node from the keyword on
  have hwrap (t : Tree) (h : fits source t) : Steady source (wrap t) :=
    steady_node _ hstart ((fits_cons ..).mpr ⟨h, fits_nil⟩)
  clear_value wrap
  refine steady_bind steady_here fun place hplace => ?_
  extract_lets behindAmbient
  have hbehindAmbient (ambient : Option Tree) (h : fits source ambient) :
      Steady source (behindAmbient ambient) := by
    dsimp only [behindAmbient]
    with_reducible repeat' first
      | refine steady_bind ?_ fun _ _ => ?_
      | split
    all_goals grind
  clear_value behindAmbient
  with_reducible repeat' first
    | refine steady_bind ?_ fun _ _ => ?_
    | split
  all_goals grind

@[grind ←] theorem steady_moduleItem (h : ∀ goal, Steady source (self goal)) :
    Steady source (moduleItem self) := by
  unfold moduleItem
  grind

/-! ## Items and scripts -/

/-- One round of the grammar keeps to the source. -/
theorem steady_step (h : ∀ goal, Steady source (self goal)) :
    ∀ goal, Steady source (step self goal)
  | .expr => steady_expr h
  | .assign => steady_assignExpr h
  | .binary => steady_binaryExpr h
  | .unary => steady_unaryExpr h
  | .lhs => steady_lhsExpr h
  | .callee => steady_calleeExpr h
  | .pattern => steady_pattern h
  | .type => steady_typeExpr h
  | .typeOperator => steady_operatorType h
  | .statement declarations => steady_statement h declarations
  | .moduleItem => steady_moduleItem h
  | .block => steady_block h
  | .markup => steady_element h

/-- The grammar keeps to the source, however deep its goals nest. -/
theorem steady_goals (fuel : Nat) : ∀ goal, Steady source (parser fuel goal) := by
  induction fuel with
  | zero => exact fun _ => steady_failHere
  | succ fuel ih => exact steady_step ih

theorem steady_wholeModule (h : ∀ goal, Steady source (self goal)) :
    Steady source (wholeModule self) := by
  unfold wholeModule
  refine steady_bind (steady_itemsUntil _ (h .moduleItem)) fun items hitems => ?_
  exact steady_node _ (from_zero source).between hitems

end Grammar

open Chars Grammar

/-! ## Texts -/

theorem from_afterInterpreter (cs : List Char) :
    From cs (afterInterpreter cs).2 (afterInterpreter cs).1 := by
  rw [afterInterpreter.eq_def]
  split
  · exact (from_zero _).reads ⟨_, List.takeWhile_append_dropWhile.symm, (Nat.zero_add _).symm⟩
  · exact from_zero cs

/-- What a script comes to points between the characters of its text, be it a tree or the place at
which it is refused. A leading byte-order mark does not count. -/
theorem parseModule_standsIn (code : String) (dialect : Dialect) :
    match parseModule code dialect with
    | .ok t => t.StandsIn (dropMark code.toList)
    | .error e => Between (dropMark code.toList) e.offset := by
  have hstart := standsIn_startState (from_afterInterpreter (dropMark code.toList))
  rw [parseModule]
  dsimp only
  generalize fuelFor (dropMark code.toList) = fuel
  generalize startState _ _ = s at hstart ⊢
  -- the grammar is steady from the first token on
  have hkept := steady_wholeModule (steady_goals fuel) { dialect := dialect, bound := fuel } s hstart
  cases hrun : wholeModule (parser fuel) { dialect := dialect, bound := fuel } s with
  | ok t s' =>
    rw [hrun] at hkept
    exact hkept.2
  | error offset s' =>
    rw [hrun] at hkept
    exact hkept.2

/-- All nodes of a script start and stop between characters. -/
theorem standsIn_of_parseModule {code : String} {dialect : Dialect} {t : Tree}
    (h : parseModule code dialect = .ok t) : t.StandsIn (dropMark code.toList) := by
  have hall := parseModule_standsIn code dialect
  rwa [h] at hall

/-- A script is refused between two characters. -/
theorem between_of_parseModule_error {code : String} {dialect : Dialect} {e : ParseError}
    (h : parseModule code dialect = .error e) : Between (dropMark code.toList) e.offset := by
  have hall := parseModule_standsIn code dialect
  rwa [h] at hall

/-- So do those of an expression that stands alone. -/
theorem standsIn_of_parseExpr {code : String} {t : Tree} (h : parseExpr code = .ok t) :
    t.StandsIn (dropMark code.toList) := by
  -- as for a module, with the goal of an expression
  have hkept := steady_goals (fuelFor (dropMark code.toList)) .expr
    { dialect := .ts, bound := fuelFor (dropMark code.toList), allowIn := false } _
    (standsIn_startState (from_zero (dropMark code.toList)))
  rw [parseExpr] at h
  dsimp only at h
  split at h
  · rename_i hrun
    rw [hrun] at hkept
    split at h
    · cases h
    · cases h
      exact hkept.2
  · cases h

end TextHarvest.Script
