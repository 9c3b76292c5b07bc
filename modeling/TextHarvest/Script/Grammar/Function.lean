import TextHarvest.Script.Grammar.Type

/-!
# Functions and classes
-/

namespace TextHarvest.Script.Grammar

open Parse

/-! ## Functions -/

/-- Surroundings of the body of a function. -/
def inBody (isGenerator : Bool) (c : Context) : Context :=
  { c with allowIn := true, generator := isGenerator, nested := true, inCond := false,
           beforeColon := false }

/-- The body of a function; a typed script may leave it out. -/
def functionBody (self : Parser) (isGenerator : Bool) : Parse (List Tree) := do
  if !(← isMark .lbrace) then
    if ← typed <&&> eatEnd then return []
  let body ← withReader (inBody isGenerator) (self .block)
  return [body]

/-- A function from its type parameters on. -/
def functionTail (self : Parser) (start : Nat) (isAsync isGenerator : Bool) (ds : List Tree) :
    Parse Tree := do
  typeParameters? self
  let ps ← withReader (fun c => { c with nested := true }) (parameters self)
  let _ ← returnAnnotation? self
  let body ← functionBody self isGenerator
  node (.func isAsync isGenerator) start (ps ++ ds ++ body)

/-- A method, in which `super` may be used. -/
def methodTail (self : Parser) (start : Nat) (isAsync isGenerator : Bool) (ds : List Tree) :
    Parse Tree :=
  withReader (fun c => { c with superAllowed := true }) <|
    functionTail self start isAsync isGenerator ds

/-- The body of an arrow function. -/
def arrowBody (self : Parser) : Parse Tree := do
  if ← isMark .lbrace then
    withReader (inBody false) (self .block)
  else self .assign

/-- A function declaration at its keyword. -/
def functionDecl (self : Parser) (start : Nat) (isAsync : Bool) (ds : List Tree) : Parse Tree := do
  expectWord "function"
  let isGenerator ← eatOp "*"
  let n ← name
  let f ← functionTail self start isAsync isGenerator ds
  node (.funcDecl n) start [f]

/-- A function expression at its keyword. -/
def functionExpr (self : Parser) (start : Nat) (isAsync : Bool) (ds : List Tree) : Parse Tree := do
  expectWord "function"
  let isGenerator ← eatOp "*"
  let n ← if isName (← token) then do pure (some (← name)) else pure none
  let f ← functionTail self start isAsync isGenerator ds
  node (.funcExpr n) start [f]

/-! ## Members of classes -/

/-- Whether a member goes on as a method. -/
def startsMethod : Parse Bool := do
  return (← isMark .lparen) || ((← typed) && (← isOp "<"))

/-- Whether a member goes on as a field; with `implied`, the end of a line will do. -/
def startsField (implied : Bool) : Parse Bool := do
  let t ← token
  if (← typed) && (t == .op "!" || t == .mark .colon) then return true
  if t == .op "=" || t == .mark .rbrace then return true
  if implied then isEnd else return t == .mark .semicolon

/-- Takes a modifier, unless it is itself the name of the member. -/
def eatMemberModifier (modifier : String) (sameLine : Bool) : Parse Bool := do
  if ← isWord modifier then
    let next ← peek
    -- a word is a modifier only when a member can begin behind it; else it is the name of one
    let follows := match next.token with
      | .word _ => true
      | .str _ => true
      | .num _ => true
      | .bigInt _ => true
      | .mark .lbracket => true
      | .mark .lbrace => modifier == "static"
      | .mark .hash => true
      | .op "*" => true
      | _ => false
    if follows && !(sameLine && next.newline) then
      advance
      return true
    else return false
  else return false

/-- Takes the modifiers of typed scripts and says whether `static` was among them. -/
def eatTypedModifiers : Parse Bool :=
  iterate false fun isStatic => do
    unless ← typed do return .inr isStatic
    if (← isWord "static") && (← peekMark .lbrace) then return .inr isStatic
    if ← eatMemberModifier "static" true then return .inl true
    for m in ["abstract", "readonly", "override", "declare", "public", "protected", "private"] do
      if ← eatMemberModifier m true then return .inl isStatic
    return .inr isStatic

/-- A field from what follows its name on. -/
def fieldTail (self : Parser) (start : Nat) (isStatic : Bool) (key : Tree) (ds : List Tree) :
    Parse Tree := do
  if ← typed then
    let _ ← eatOp "!"
  let _ ← annotation? self
  let value ← if ← eatOp "=" then do
      let v ← withReader (fun c => { inBody false c with superAllowed := true }) (self .assign)
      pure [v]
    else pure []
  let _ ← eatEnd
  node (.field isStatic) start (key :: value ++ ds)

/-- A method from its parameters on. -/
def classMethodTail (self : Parser) (start : Nat) (isStatic isAsync isGenerator : Bool)
    (key : Tree) (ds : List Tree) : Parse Tree := do
  let f ← methodTail self start isAsync isGenerator ds
  node (.classMethod isStatic) start [key, f]

/-- A constructor from its parameters on. -/
def constructorTail (self : Parser) (start : Nat) (key : Tree) : Parse Tree := do
  typeParameters? self
  withReader (fun c => { c with superAllowed := true, nested := true }) do
    let ps ← parameters self
    let _ ← returnAnnotation? self
    let body ← functionBody self false
    node .constructorDef start (key :: ps ++ body)

/-- Whether a key names the constructor. -/
def isConstructorKey (key : Tree) : Bool :=
  match key.kind with
  | .keyIdent "constructor" => true
  | .keyStr (some "constructor") => true
  | _ => false

/-- A member from its name on. -/
def memberFromKey (self : Parser) (start : Nat) (isStatic : Bool) (ds : List Tree) :
    Parse Tree := do
  if ← eatOp "*" then
    let key ← memberKey self
    classMethodTail self start isStatic false true key ds
  else
    let key ← memberKey self
    if ← typed then
      let _ ← eatMark .question
    -- the word was read as a key, and only what follows tells whether it introduces one
    let isAccessor := key.kind == .keyIdent "get" || key.kind == .keyIdent "set"
    let nextIsGenerator := (← newline) && (← isOp "*")
    if ← startsMethod then
      if isConstructorKey key && !isStatic then constructorTail self start key
      else classMethodTail self start isStatic false false key ds
    else if isAccessor && !(← startsField false) && !nextIsGenerator then
      let key ← memberKey self
      classMethodTail self start isStatic false false key ds
    else if ← startsField true then fieldTail self start isStatic key ds
    else if key.kind == .keyIdent "async" && !(← newline) then
      let isGenerator ← eatOp "*"
      let key ← memberKey self
      if ← typed then
        let _ ← eatMark .question
      classMethodTail self start isStatic true isGenerator key ds
    else failHere

/-- A member of a class. -/
def classMember (self : Parser) : Parse Tree := do
  let start ← here
  let ds ← decorators self false
  if ← typed then
    let _ ← eatMemberModifier "declare" true
    for m in ["public", "protected", "private", "declare"] do
      let _ ← eatMemberModifier m true
  let isStatic ← eatMemberModifier "static" false
  -- a block of its own, which runs when the class is made
  if isStatic && (← isMark .lbrace) then
    let body ← withReader (fun c => { inBody false c with superAllowed := true }) (self .block)
    node .staticBlock start [body]
  else
    let isStatic := (← eatTypedModifiers) || isStatic
    let _ ← eatMemberModifier "accessor" true
    if (← typed) && (← startsIndexSignature) then
      let t ← indexSignature self
      memberEnd
      return t
    else memberFromKey self start isStatic ds

/-! ## Classes -/

/-- What a class extends. -/
def classHeritage (self : Parser) : Parse (List Tree) := do
  if ← eatWord "extends" then
    let start ← here
    let e ← self .lhs
    if ← typed <&&> (isOp "<" <||> isOp "<<") then
      let _ ← typeArguments self
    return [← node .heritage start [e]]
  else return []

/-- The interfaces that a class implements. -/
def implemented (self : Parser) : Parse (List Tree) := do
  if ← typed <&&> eatWord "implements" then
    iterate [] fun acc => do
      if ← isMark .lbrace then return .inr acc.reverse
      let start ← here
      let e ← dottedPath
      typeArguments? self
      let base ← node .heritage start [e]
      if ← eatMark .comma then return .inl (base :: acc)
      else return .inr (base :: acc).reverse
  else return []

/-- A class at its keyword. `kindOf` makes the kind of the node from the name, which `needsName`
requires. -/
def classFrom (self : Parser) (start : Nat) (ds : List Tree) (needsName : Bool)
    (kindOf : Option String → Kind) : Parse Tree := do
  expectWord "class"
  -- an expression may have no name, and what follows is then read as its heritage
  let named ← do
    if needsName then pure true
    else
      pure (isStrictName (← token))
  let n ← if named then do pure (some (← name)) else pure none
  typeParameters? self
  let base ← classHeritage self
  let interfaces ← implemented self
  expectMark .lbrace
  let members ← withReader (fun c => { c with nested := true }) <|
    iterate [] fun acc => do
      if ← eatMark .rbrace then return .inr acc.reverse
      if ← eatMark .semicolon then return .inl acc
      return .inl ((← classMember self) :: acc)
  node (kindOf n) start (ds ++ members ++ base ++ interfaces)

/-- A class declaration at its keyword. -/
def classDecl (self : Parser) (start : Nat) (ds : List Tree) : Parse Tree :=
  classFrom self start ds true fun n => .classDecl (n.getD "")

/-- A class expression at its keyword. -/
def classExpr (self : Parser) (start : Nat) (ds : List Tree) : Parse Tree :=
  classFrom self start ds false .classExpr

end TextHarvest.Script.Grammar
