import TextHarvest.Script.Grammar.Statement

/-!
# Imports, exports and whole scripts
-/

namespace TextHarvest.Script.Grammar

open Parse

/-! ## Imports -/

/-- The name of something exported, which may be a string. -/
def exportedName : Parse (String ⊕ Nat) := do
  let start ← here
  match ← token with
  | .str _ =>
    advance
    return .inr start
  | _ => return .inl (← anyWord)

/-- Attributes after the source of an import or export. Whatever follows their word stands for the
opening brace. -/
def importAttributes (self : Parser) : Parse Unit := do
  let t ← token
  if (t == .word "with" || t == .word "assert") && !(← newline) then
    advance
    let start ← here
    advance
    let _ ← objectBody self start

/-- The string that names a module. -/
def moduleSource : Parse (Option String) := do
  match ← token with
  | .str value =>
    advance
    return value
  | _ => failHere

/-- One name of an import between braces. -/
def importSpecifier : Parse Specifier := do
  let start ← here
  let named (n : String) (typeOnly : Bool) : Parse Specifier := do
    return ⟨.named, n, typeOnly, ⟨start, ← prevStop⟩⟩
  match ← exportedName with
  | .inr place =>
    if ← eatWord "as" then named (← name) false else failAt place
  | .inl first =>
    let finish (n : String) (typeOnly : Bool) : Parse Specifier := do
      if ← eatWord "as" then named (← name) typeOnly else named n typeOnly
    if (← typed) && first == "type" && isAnyWord (← token) then
      let second ← anyWord
      -- one, two or three such words in a row: a name, a type under its name, or a new name
      if second == "as" then
        if !isAnyWord (← token) then named "as" true
        else
          let third ← name
          if third == "as" && isAnyWord (← token) then named (← name) true
          else named third false
      else finish second true
    else finish first false

/-- An import of the form `import a = b`, from its equals sign on. -/
def importEqualsTail (start : Nat) (n : String) : Parse Tree := do
  expectOp "="
  if (← isWord "require") && (← peekMark .lparen) then
    advance
    expectMark .lparen
    let _ ← moduleSource
    expectMark .rparen
  else entityName
  expectEnd
  node (.importEquals n) start []

/-- The names after an import's default binding, braces or star included. -/
def importNames : Parse (List Specifier) := do
  let start ← here
  if ← eatOp "*" then
    expectWord "as"
    let n ← name
    return [⟨.whole, n, false, ⟨start, ← prevStop⟩⟩]
  else if ← eatMark .lbrace then
    iterate [] fun acc => do
      if ← eatMark .rbrace then return .inr acc.reverse
      let s ← importSpecifier
      unless ← isMark .rbrace do expectMark .comma
      return .inl (s :: acc)
  else return []

/-- The end of an import from its source on. -/
def importTail (self : Parser) (start : Nat) (typeOnly : Bool) (specifiers : List Specifier) :
    Parse Tree := do
  expectWord "from"
  let source ← moduleSource
  importAttributes self
  expectEnd
  node (.importDecl ⟨source, typeOnly, specifiers⟩) start []

/-- An import after its default binding `n`, which stands at `place`. -/
def importAfterDefault (self : Parser) (start : Nat) (typeOnly : Bool) (n : String) (place : Nat) :
    Parse Tree := do
  let span : Span := ⟨place, ← prevStop⟩
  if (← typed) && (← isOp "=") then importEqualsTail start n
  else
    unless ← isWord "from" do expectMark .comma
    let more ← importNames
    importTail self start typeOnly (⟨.byDefault, n, false, span⟩ :: more)

/-- An import declaration at its keyword. -/
def importDecl (self : Parser) : Parse Tree := do
  let start ← here
  expectWord "import"
  match ← token with
  | .str _ =>
    let source ← moduleSource
    importAttributes self
    let _ ← eatEnd
    node (.importDecl ⟨source, false, []⟩) start []
  | t =>
    if isStrictName t then
      let place ← here
      let first ← name
      let t ← token
      if (← typed) && first == "type" && (t == .mark .lbrace || t == .op "*") then
        let more ← importNames
        importTail self start true more
      -- a name behind the word is that of a type, unless it introduces the source
      else if (← typed) && first == "type" && isName t &&
          (t != .word "from" || (← peekWord "from") || (← peek).token == .op "=") then
        let place ← here
        let n ← name
        importAfterDefault self start true n place
      else importAfterDefault self start false first place
    else
      let more ← importNames
      importTail self start false more

/-! ## Exports -/

/-- The rest of an exported name that starts with the word `type` and goes on with another word. -/
def typeExportSpecifier : Parse Unit := do
  let second ← anyWord
  if second == "as" then
    if isAnyWord (← token) then
      let third ← anyWord
      if third == "as" && isAnyWord (← token) then advance
  else if ← eatWord "as" then
    let _ ← exportedName

/-- One name of an export between braces. -/
def exportSpecifier : Parse Tree := do
  let start ← here
  let first ← exportedName
  if (← typed) && first == .inl "type" && isAnyWord (← token) then typeExportSpecifier
  else if ← eatWord "as" then
    let _ ← exportedName
  node (.ident "") start []

/-- What is exported by default. -/
def exportDefault (self : Parser) (start : Nat) (ds : List Tree) : Parse Tree := do
  let place ← here
  let next ← peek
  let isTyped ← typed
  let wrap (t : Tree) : Parse Tree := node .exportDefault start [t]
  match ← token with
  | .mark .sign =>
    let ds ← decorators self false
    wrap (← classExpr self place ds)
  | .word "class" => wrap (← classExpr self place ds)
  | .word "function" => wrap (← functionExpr self place false ds)
  | .word w =>
    -- these words declare something only with the right word behind them
    if isTyped && w == "abstract" && next.token == .word "class" && !next.newline then
      advance
      wrap (← classExpr self place ds)
    else if isTyped && w == "interface" && isName next.token then
      advance
      wrap (← interfaceDecl self place)
    else if w == "async" && next.token == .word "function" && !next.newline then
      advance
      wrap (← functionExpr self place true ds)
    else
      let e ← withIn (self .assign)
      expectEnd
      wrap e
  | _ =>
    let e ← withIn (self .assign)
    expectEnd
    wrap e

/-- Names exported from here or from another module, or everything of another module. -/
def exportNames (self : Parser) (start : Nat) : Parse Tree := do
  if ← eatOp "*" then
    let isNamed ← eatWord "as"
    if isNamed then
      let _ ← exportedName
    expectWord "from"
    let _ ← moduleSource
    importAttributes self
    expectEnd
    node (if isNamed then .exportNamed else .exportAll) start []
  else
    expectMark .lbrace
    let _ ← commaList .rbrace exportSpecifier
    if ← eatWord "from" then
      let _ ← moduleSource
      importAttributes self
      expectEnd
    else
      -- a list without a source needs no end of its own
      let _ ← eatEnd
    node .exportNamed start []

/-- An exported declaration that starts with a contextual word; `none` when there is none or when
it does not parse. -/
def exportedWordDecl? (self : Parser) (ds : List Tree) : Parse (Option Tree) := do
  if ← typed then
    let place ← here
    match ← token with
    | .word w =>
      let next ← peek
      let starts := match w with
        | "abstract" => next.token == .word "class"
        | "enum" => isAnyWord next.token
        | "interface" => isAnyWord next.token
        | "namespace" => isAnyWord next.token
        | "module" => isAnyWord next.token || (match next.token with
          | .str _ => true
          | _ => false)
        | "type" => isAnyWord next.token
        | _ => false
      if starts && !next.newline then
        -- when the declaration cannot be read after all, the word stays what it was
        let decl ← attempt do
          advance
          wordDecl? self place w true ds
        return decl.getD none
      else return none
    | _ => return none
  else return none

/-- An export declaration at its keyword. -/
def exportDecl (self : Parser) (ds : List Tree) : Parse Tree := do
  let start ← here
  expectWord "export"
  let isTyped ← typed
  let wrap (t : Tree) : Parse Tree := node .exportDecl start [t]
  let place ← here
  -- with types there is more to export, and all of it is tried before the names
  let ambient ← do
    if ← typed <&&> eatWord "declare" then declared? self place ds
    else pure none
  match ambient with
  | some d => wrap d
  | none =>
    match ← exportedWordDecl? self ds with
    | some d => wrap d
    | none =>
      if ← typed <&&> eatWord "import" then
        if (← isWord "type") && isName (← peek).token then advance
        let n ← anyWord
        importEqualsTail start n
      else if ← typed <&&> eatOp "=" then
        let e ← withIn (self .expr)
        expectEnd
        node .exportAssign start [e]
      else if ← typed <&&> eatWord "as" then
        expectWord "namespace"
        let _ ← name
        expectEnd
        node .exportNamespace start []
      else if ← typed <&&> eatWord "type" then exportNames self start
      else if ← eatWord "default" then exportDefault self start ds
      else
        let next ← peek
        match ← token with
        | .mark .sign =>
          let after ← decorators self false
          wrap (← classDecl self place (ds ++ after))
        | .word "class" => wrap (← classDecl self place ds)
        | .word "function" => wrap (← functionDecl self place false ds)
        | .word "async" =>
          if next.token == .word "function" && !next.newline then
            advance
            wrap (← functionDecl self place true ds)
          else failHere
        | .word "const" =>
          if isTyped && next.token == .word "enum" then
            advance
            advance
            wrap (← enumDecl self place)
          else wrap (← varDecl self false)
        | .word "var" => wrap (← varDecl self false)
        | .word "let" => if ← letDeclares then wrap (← varDecl self false) else failHere
        | _ => exportNames self start

/-! ## Items and scripts -/

/-- An item of a module: an import, an export or a statement. -/
def moduleItem (self : Parser) : Parse Tree := do
  let start ← here
  let ds ← decorators self true
  match ← token with
  | .word "import" => if ← importCalls then importCallStmt self start else importDecl self
  | .word "export" => exportDecl self ds
  | _ =>
    withReader (fun c => { c with beforeColon := false }) <| statementAfter self start true ds

/-- How each goal is parsed. -/
def step (self : Parser) : Parser
  | .expr => expr self
  | .assign => assignExpr self
  | .binary => binaryExpr self
  | .unary => unaryExpr self
  | .lhs => lhsExpr self
  | .callee => calleeExpr self
  | .pattern => pattern self
  | .type => typeExpr self
  | .typeOperator => operatorType self
  | .statement declarations => statement self declarations
  | .moduleItem => moduleItem self
  | .block => block self
  | .markup => element self

/-- The grammar with a bound on how deep its goals nest. -/
def parser : Nat → Parser
  | 0 => fun _ => failHere
  | fuel + 1 => fun goal => step (parser fuel) goal

/-- A whole module: its items, one after the other. -/
def wholeModule (self : Parser) : Parse Tree := do
  let items ← itemsUntil .eof (self .moduleItem)
  node .module 0 items

end TextHarvest.Script.Grammar
