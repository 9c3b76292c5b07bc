import TextHarvest.Script.Grammar.Expr

/-!
# Statements

Statements and the declarations that may stand among them. A declaration of variables that is not
followed by the end of a statement skips what comes up to it.
-/

namespace TextHarvest.Script.Grammar

open Parse

/-! ## Variables -/

/-- One declared variable. In the head of a loop it may lack its value. -/
def declarator (self : Parser) (inLoopHead : Bool) : Parse Tree := do
  let start ← here
  let p ← self .pattern
  let isTyped ← typed
  if isTyped then
    match p.kind with
    | .ident _ =>
      let _ ← eatOp "!"
    | _ => pure ()
  let p ← annotate self start p
  let t ← token
  -- in the head of a loop the values come from behind the word
  if inLoopHead && (t == .word "in" || t == .word "of") then node .declarator start [p]
  else if ← eatOp "=" then
    let v ← self .assign
    node .declarator start [p, v]
  else node .declarator start [p]

/-- Skips tokens up to the end of a statement. -/
def skipToEnd : Parse Unit :=
  iterate () fun _ => do
    if ← eatEnd then return .inr ()
    match ← token with
    | .error _ => return .inr ()
    | _ =>
      advance
      return .inl ()

/-- Whether the head of a loop in a typed script declares nothing before what it runs over. -/
def declaresNothing (self : Parser) : Parse Bool := do
  if ← typed <&&> (isWord "of" <||> isWord "in") then
    ahead do
      advance
      let _ ← self .assign
      isMark .rparen
  else return false

/-- A declaration of variables at its keyword. A comma may stand before its end. -/
def varDecl (self : Parser) (inLoopHead : Bool) : Parse Tree := do
  let start ← here
  let keyword ← anyWord
  if ← pure inLoopHead <&&> declaresNothing self then node (.varDecl keyword) start []
  else
    let ds ← withReader (fun c => { c with allowIn := keyword != "var" || !inLoopHead }) <|
      iterate [] fun acc => do
        if ← isMark .semicolon then return .inr acc.reverse
        let d ← declarator self inLoopHead
        if ← eatMark .comma then return .inl (d :: acc)
        else return .inr (d :: acc).reverse
    -- what cannot be the end is passed over up to the end of the statement
    unless ← pure inLoopHead <||> eatEnd do
      let _ ← orStay (withIn (self .expr))
      skipToEnd
    node (.varDecl keyword) start ds

/-- Whether the current word `using` starts a declaration of a resource. -/
def usingDeclares : Parse Bool := do
  let next ← peek
  return (← isWord "using") && isName next.token && !next.newline

/-- A declaration of resources at the word `using`. -/
def usingDecl (self : Parser) (start : Nat) : Parse Tree := do
  advance
  let first ← declarator self false
  let ds ← iterate [first] fun acc => do
    if ← eatMark .comma then return .inl ((← declarator self false) :: acc)
    else return .inr acc.reverse
  expectEnd
  node (.varDecl "using") start ds

/-- Whether the word after `let` makes it a declaration. -/
def letDeclares : Parse Bool := do
  match (← peek).token with
  | .word w => return !reserved.contains w
  | .mark .lbracket => return true
  | .mark .lbrace => return true
  | _ => return false

/-! ## Type-level declarations -/

/-- An interface after its keyword. -/
def interfaceDecl (self : Parser) (start : Nat) : Parse Tree := do
  let n ← anyWord
  typeParameters? self
  let bases ← if ← eatWord "extends" then
      iterate [] fun acc => do
        if ← isMark .lbrace then return .inr acc.reverse
        let place ← here
        let e ← dottedPath
        typeArguments? self
        let base ← node .heritage place [e]
        if ← eatMark .comma then return .inl (base :: acc)
        else return .inr (base :: acc).reverse
    else pure []
  let members ← typeMembers self
  node (.interfaceDecl n) start (bases ++ members)

/-- A type alias after its keyword. -/
def typeAliasDecl (self : Parser) (start : Nat) : Parse Tree := do
  let n ← anyWord
  typeParameters? self
  expectOp "="
  let ty ← self .type
  expectEnd
  node (.typeAlias n) start [ty]

/-- A member of an enumeration with the comma after it. After a value the comma may be missing;
without a value, two tokens that are no comma count as one. -/
def enumMember (self : Parser) : Parse Tree := do
  let start ← here
  let key ← propertyKey self
  if ← eatOp "=" then
    let value ← withIn (self .assign)
    let member ← node .enumMember start [key, value]
    let _ ← eatMark .comma
    return member
  else
    let member ← node .enumMember start [key]
    -- behind a member something else may stand; two tokens of it are passed over
    unless ← eatMark .comma <||> isMark .rbrace do
      advance
      advance
    return member

/-- An enumeration after its keyword. -/
def enumDecl (self : Parser) (start : Nat) : Parse Tree := do
  let n ← anyWord
  expectMark .lbrace
  let members ← iterate [] fun acc => do
    if ← eatMark .rbrace then return .inr acc.reverse
    return .inl ((← enumMember self) :: acc)
  node (.enumDecl n) start members

/-- The items of a namespace, braces included. -/
def moduleBlock (self : Parser) : Parse (List Tree) := do
  expectMark .lbrace
  let items ← itemsUntil (.mark .rbrace) (self .moduleItem)
  expectMark .rbrace
  return items

/-- A namespace after its keyword. -/
def namespaceDecl (self : Parser) (start : Nat) : Parse Tree := do
  let n ← anyWord
  let _ ← iterate () fun _ => do
    if ← eatMark .dot then
      let _ ← anyWord
      return .inl ()
    else return .inr ()
  let items ← moduleBlock self
  node (.moduleDecl n) start items

/-- A module of outside code, named by a string or by the word `global`. -/
def ambientModuleDecl (self : Parser) (start : Nat) : Parse Tree := do
  match ← token with
  | .str _ => advance
  | _ =>
    let _ ← anyWord
  if ← isMark .lbrace then
    let items ← moduleBlock self
    node (.moduleDecl "") start items
  else
    expectEnd
    node (.moduleDecl "") start []

/-- A declaration that starts with a contextual word, which has been taken; `forced` when the
word can only start one. -/
def wordDecl? (self : Parser) (start : Nat) (word : String) (forced : Bool) (ds : List Tree) :
    Parse (Option Tree) := do
  let t ← token
  -- a word alone on its line is an expression, unless a declaration is forced
  let sameLine := !(← newline)
  match word with
  | "abstract" =>
    if forced || (t == .word "class" && sameLine) then return some (← classDecl self start ds)
    else return none
  | "enum" =>
    if forced || (isAnyWord t && sameLine) then return some (← enumDecl self start)
    else return none
  | "interface" =>
    if forced || (isAnyWord t && sameLine) then return some (← interfaceDecl self start)
    else return none
  | "module" =>
    if !sameLine then return none
    match t with
    | .str _ => return some (← ambientModuleDecl self start)
    | _ => if forced || isName t then return some (← namespaceDecl self start) else return none
  | "namespace" =>
    if forced || isName t then return some (← namespaceDecl self start) else return none
  | "type" =>
    if forced || (isAnyWord t && sameLine) then return some (← typeAliasDecl self start)
    else return none
  | _ => return none

/-- What the word `declare`, which has been taken, declares; `none` when nothing. -/
def declared? (self : Parser) (start : Nat) (ds : List Tree) : Parse (Option Tree) := do
  match ← token with
  | .word "function" => return some (← functionDecl self start false ds)
  | .word "class" => return some (← classDecl self start ds)
  | .word "const" =>
    if ← peekWord "enum" then
      advance
      advance
      return some (← enumDecl self start)
    else return some (← varDecl self false)
  | .word "var" => return some (← varDecl self false)
  | .word "let" => return some (← varDecl self false)
  | .word "global" =>
    return some (← ambientModuleDecl self start)
  | .word w =>
    if ["abstract", "enum", "interface", "module", "namespace", "type"].contains w then
      advance
      wordDecl? self start w true ds
    else if w == "async" && (← peekWord "function") then
      advance
      return some (← functionDecl self start true ds)
    else return none
  | _ => return none

/-! ## Loops -/

/-- The rest of the head of a counting loop after its first semicolon. -/
def forTail (self : Parser) (start : Nat) (init : List Tree) : Parse Tree := do
  let test ← if ← eatMark .semicolon then pure []
    else do
      let e ← withIn (self .expr)
      expectMark .semicolon
      pure [e]
  let update ← if ← isMark .rparen then pure []
    else do
      let e ← withIn (self .expr)
      pure [e]
  expectMark .rparen
  let body ← self (.statement false)
  node .forLoop start (init ++ test ++ update ++ [body])

/-- The rest of a loop over something after what it binds. -/
def forEachTail (self : Parser) (start : Nat) (left : Tree) : Parse Tree := do
  if ← eatWord "of" then
    let e ← withIn (self .assign)
    expectMark .rparen
    let body ← self (.statement false)
    node .forOf start [left, e, body]
  else
    expectWord "in"
    let e ← withIn (self .expr)
    expectMark .rparen
    let body ← self (.statement false)
    node .forIn start [left, e, body]

/-- Whether an expression at the front of a loop may turn out to declare a resource. -/
def isResourceHead (e : Tree) : Bool :=
  e.kind == .ident "using" ||
    (e.kind == .await && e.children.map Tree.kind == [.ident "using"])

/-- A `for` loop. -/
def forStmt (self : Parser) : Parse Tree := do
  let start ← here
  expectWord "for"
  let _ ← eatWord "await"
  expectMark .lparen
  let isEach : Parse Bool := do return (← isWord "of") || (← isWord "in")
  let declares ← do
    match ← token with
    | .word "var" => pure true
    | .word "const" => pure true
    | .word "let" => letDeclares
    | _ => pure false
  if declares then
    let d ← varDecl self true
    if ← isEach then forEachTail self start d
    else
      expectMark .semicolon
      forTail self start [d]
  else if ← eatMark .semicolon then forTail self start []
  else
    -- the expression leaves the word behind it to the head of the loop
    let e ← withReader (fun c => { c with allowIn := false }) (self .expr)
    if (← typed) && isResourceHead e && !(← isWord "of") &&
        ((← peekWord "of") || (← peekWord "in")) then
      let place ← here
      let n ← name
      let b ← node (.ident n) place []
      let d ← node .declarator place [b]
      forEachTail self start (← node (.varDecl "using") e.span.start [d])
    else if ← isEach then
      unless isTarget e do failAt e.span.start
      forEachTail self start e
    else
      expectMark .semicolon
      forTail self start [e]

/-! ## Other statements -/

/-- An expression between parentheses. -/
def condition (self : Parser) : Parse Tree := do
  expectMark .lparen
  let e ← withIn (self .expr)
  expectMark .rparen
  return e

/-- A `catch` clause when one follows. -/
def catchClause? (self : Parser) : Parse (List Tree) := do
  let start ← here
  if ← eatWord "catch" then
    let binding ← if ← eatMark .lparen then do
        let place ← here
        let p ← self .pattern
        let p ← annotate self place p
        expectMark .rparen
        pure [p]
      else pure []
    let body ← self .block
    return [← node .catchClause start (binding ++ [body])]
  else return []

/-- The block after `finally` when one follows. -/
def finallyBlock? (self : Parser) : Parse (List Tree) := do
  if ← eatWord "finally" then
    let b ← self .block
    return [b]
  else return []

/-- A `catch` clause or the block after `finally` that no `try` stands before. What it holds is
passed over, as far as it parses. -/
def strayHandler (self : Parser) (start : Nat) : Parse Tree := do
  let _ ← orStay (catchClause? self)
  let _ ← orStay (finallyBlock? self)
  node .exprStmt start [Tree.leaf .invalid (Span.point start)]

/-- A `try` statement. -/
def tryStmt (self : Parser) : Parse Tree := do
  let start ← here
  expectWord "try"
  let body ← self .block
  let handler ← catchClause? self
  let final ← finallyBlock? self
  node .tryStmt start (body :: handler ++ final)

/-- A case of a `switch` statement. -/
def switchCase (self : Parser) : Parse Tree := do
  let start ← here
  let (isDefault, test) ← if ← eatWord "case" then do
      let e ← withIn (self .expr)
      pure (false, [e])
    else do
      expectWord "default"
      pure (true, [])
  expectMark .colon
  -- the statements go on up to the next case
  let body ← iterate [] fun acc => do
    let t ← token
    if t == .word "case" || t == .word "default" || t == .mark .rbrace then return .inr acc.reverse
    return .inl ((← self (.statement true)) :: acc)
  node (.switchCase isDefault) start (test ++ body)

/-- A `switch` statement. -/
def switchStmt (self : Parser) : Parse Tree := do
  let start ← here
  expectWord "switch"
  let subject ← condition self
  expectMark .lbrace
  let cases ← itemsUntil (.mark .rbrace) (switchCase self)
  expectMark .rbrace
  node .switchStmt start (subject :: cases)

/-- An `if` statement. -/
def ifStmt (self : Parser) : Parse Tree := do
  let start ← here
  expectWord "if"
  let test ← condition self
  let yes ← self (.statement false)
  if ← eatWord "else" then
    let no ← self (.statement false)
    node .ifStmt start [test, yes, no]
  else node .ifStmt start [test, yes]

/-- A `break` or `continue` statement. -/
def jumpStmt (kindOf : Option String → Kind) : Parse Tree := do
  let start ← here
  advance
  if ← eatEnd then node (kindOf none) start []
  else
    let label ← name
    expectEnd
    node (kindOf (some label)) start []

/-- A statement that is an expression, a label or a declaration that starts with a contextual
word. -/
def exprStmt (self : Parser) (ds : List Tree) : Parse Tree := do
  let start ← here
  let e ← withIn (self .expr)
  -- a name alone may be a label, or the word of a declaration
  match e.kind with
  | .ident n =>
    if ← eatMark .colon then
      let body ← self (.statement false)
      return ← node (.labeled n) start [body]
    if ← typed then
      let decl ← match n with
        | "declare" => declared? self start ds
        | "global" =>
          if ← isMark .lbrace then do
            let items ← moduleBlock self
            pure (some (← node (.moduleDecl n) start items))
          else pure none
        | _ => wordDecl? self start n false ds
      match decl with
      | some d => return d
      | none => pure ()
  | _ => pure ()
  if ← eatEnd then node .exprStmt start [e]
  else
    -- an operator that the expression left over is read as its tail
    match binaryOp? false (← token) with
    | some _ =>
      let e ← binaryTail self (← read).bound e 0
      node .exprStmt start [e]
    | none => failHere

/-- Whether the current word `import` starts an expression. -/
def importCalls : Parse Bool := do
  return (← peekMark .lparen) || (← peekMark .dot)

/-- A statement that starts with an import as an expression. Its end may be missing. -/
def importCallStmt (self : Parser) (start : Nat) : Parse Tree := do
  let e ← withIn (self .expr)
  let _ ← eatEnd
  node .exprStmt start [e]

/-- A statement after its decorators. -/
def statementAfter (self : Parser) (start : Nat) (declarations : Bool) (ds : List Tree) :
    Parse Tree := do
  let isTyped ← typed
  match ← token with
  | .mark .lbrace => self .block
  | .mark .semicolon =>
    advance
    node .empty start []
  | .word "break" => jumpStmt .breakStmt
  | .word "continue" => jumpStmt .continueStmt
  | .word "debugger" =>
    advance
    expectEnd
    node .debugger start []
  | .word "do" =>
    advance
    let body ← self (.statement false)
    expectWord "while"
    let test ← condition self
    let _ ← eatEnd
    node .doLoop start [test, body]
  | .word "for" => forStmt self
  | .word "function" => functionDecl self start false ds
  | .word "class" => classDecl self start ds
  | .word "if" => ifStmt self
  | .word "return" =>
    advance
    let value ← if ← isEnd then pure []
      else do
        let e ← withIn (self .expr)
        pure [e]
    expectEnd
    node .returnStmt start value
  | .word "switch" => switchStmt self
  | .word "throw" =>
    advance
    -- the value has to begin on the same line
    if ← newline then failHere
    let e ← withIn (self .expr)
    expectEnd
    node .throwStmt start [e]
  | .word "try" => tryStmt self
  | .word "catch" => strayHandler self start
  | .word "finally" => strayHandler self start
  | .word "with" =>
    advance
    let e ← condition self
    let body ← self (.statement false)
    node .withStmt start [e, body]
  | .word "while" =>
    advance
    let e ← condition self
    let body ← self (.statement false)
    node .whileLoop start [e, body]
  | .word "var" => varDecl self false
  | .word "const" =>
    if isTyped && (← peekWord "enum") then
      advance
      advance
      enumDecl self start
    else if declarations then varDecl self false
    else failHere
  | .word "let" =>
    if declarations && (← letDeclares) then varDecl self false else exprStmt self ds
  | .word "enum" =>
    let next ← peek
    if isTyped && isAnyWord next.token && !next.newline then
      advance
      enumDecl self start
    else failHere
  | .word "async" =>
    let next ← peek
    if next.token == .word "function" && !next.newline then
      advance
      functionDecl self start true ds
    else exprStmt self ds
  | .word "import" => if ← importCalls then importCallStmt self start else failHere
  | .word "using" =>
    if declarations && (← usingDeclares) then usingDecl self start else exprStmt self ds
  | .word "await" =>
    if declarations && (← peekWord "using") && (← ahead (do advance; usingDeclares)) then
      advance
      usingDecl self start
    else exprStmt self ds
  | _ => exprStmt self ds

/-- A statement. -/
def statement (self : Parser) (declarations : Bool) : Parse Tree := do
  let start ← here
  let ds ← decorators self true
  withReader (fun c => { c with beforeColon := false }) <|
    statementAfter self start declarations ds

/-- Statements between braces. -/
def block (self : Parser) : Parse Tree := do
  let start ← here
  expectMark .lbrace
  let body ← itemsUntil (.mark .rbrace) (self (.statement true))
  expectMark .rbrace
  node .block start body

end TextHarvest.Script.Grammar
