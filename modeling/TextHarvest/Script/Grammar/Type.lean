import TextHarvest.Script.Grammar.Pattern

/-!
# Types

The types of typed scripts. Nothing inside a type is ever displayed, so a type becomes a single
node with its written text; only the members of an interface keep the expressions they are named
by.
-/

namespace TextHarvest.Script.Grammar

open Parse

/-- Parameters of a type or type-level declaration between angle brackets. -/
def typeParameters (self : Parser) : Parse Unit := do
  unless ← eatLess do failHere
  iterate () fun _ => do
    if ← eatGreater then return .inr ()
    -- modifiers, as long as a name follows them
    let _ ← iterate () fun _ => do
      match ← token with
      | .word w =>
        if ["const", "in", "out"].contains w && isAnyWord (← peek).token then
          advance
          return .inl ()
        else return .inr ()
      | _ => return .inr ()
    let _ ← anyWord
    if ← eatWord "extends" then
      let _ ← self .type
    if ← eatOp "=" then
      let _ ← self .type
    unless ← eatMark .comma do
      expectGreater
      return .inr ()
    return .inl ()

/-- Type parameters when they are written. -/
def typeParameters? (self : Parser) : Parse Unit := do
  if ← typed then
    match ← token with
    | .op "<" => typeParameters self
    | .op "<<" => typeParameters self
    | _ => pure ()

/-- What a function returns: a type, or what it asserts of an argument. -/
def returnType (self : Parser) : Parse Unit := do
  if ← isWord "asserts" then
    let next ← peek
    -- an assertion, unless the word is the name of a type
    if isAnyWord next.token && !next.newline then
      advance
      let _ ← anyWord
      if ← eatWord "is" then
        let _ ← self .type
      return ()
  if isAnyWord (← token) then
    let next ← peek
    if next.token == .word "is" && !next.newline then
      advance
      advance
      let _ ← self .type
      return ()
  let _ ← self .type

/-- A return type after a colon, when one is written. -/
def returnAnnotation? (self : Parser) : Parse Bool := do
  if (← typed) && (← isMark .colon) then
    advance
    returnType self
    return true
  else return false

/-- A possibly dotted name. -/
def entityName : Parse Unit := do
  let _ ← anyWord
  iterate () fun _ => do
    if ← eatMark .dot then
      let _ ← anyWord
      return .inl ()
    else return .inr ()

/-- Type arguments on the same line, when they are written. -/
def typeArguments? (self : Parser) : Parse Unit := do
  unless ← newline do
    match ← token with
    | .op "<" =>
      let _ ← typeArguments self
    | .op "<<" =>
      let _ ← typeArguments self
    | _ => pure ()

/-- A function type from its parameters on. -/
def functionType (self : Parser) : Parse Unit := do
  typeParameters? self
  let _ ← parameters self
  expectMark .arrow
  returnType self

/-- Skips a balanced group of brackets. -/
def skipGroup : Parse Unit := do
  iterate 0 fun (depth : Nat) => do
    let t ← token
    if t == .eof then failHere
    advance
    let opening := t == .mark .lbrace || t == .mark .lbracket || t == .mark .lparen
    let closing := t == .mark .rbrace || t == .mark .rbracket || t == .mark .rparen
    if opening then return .inl (depth + 1)
    else if closing then
      if depth ≤ 1 then return .inr () else return .inl (depth - 1)
    else return .inl depth

/-- Whether a parenthesis starts the parameters of a function type. -/
def startsFunctionType : Parse Bool := do
  match ← token with
  | .op "<" => return true
  | .mark .lparen =>
    -- what follows the first parameter tells a function from a type in parentheses
    ahead do
      advance
      match ← token with
      | .mark .rparen => return true
      | .mark .ellipsis => return true
      | .word _ => advance
      | .mark .lbrace => skipGroup
      | .mark .lbracket => skipGroup
      | _ => return false
      match ← token with
      | .mark .colon => return true
      | .mark .comma => return true
      | .mark .question => return true
      | .op "=" => return true
      | .mark .rparen =>
        advance
        isMark .arrow
      | _ => return false
  | _ => return false

/-- The key of a member of an interface, as an expression. -/
def signatureKey (self : Parser) : Parse Tree := do
  let start ← here
  match ← token with
  | .mark .lbracket =>
    advance
    let e ← withIn (self .assign)
    expectMark .rbracket
    return e
  | .str value =>
    advance
    node (.strLit value) start []
  | .num raw =>
    advance
    node (.numLit raw) start []
  | .bigInt raw =>
    advance
    node (.bigLit raw) start []
  | .word w =>
    advance
    node (.ident w) start []
  | _ => failHere

/-- The end of a member of an interface. -/
def memberEnd : Parse Unit := do
  unless ← eatMark .comma do expectEnd

/-- Whether an index signature starts here. -/
def startsIndexSignature : Parse Bool := do
  if ← isMark .lbracket then
    ahead do
      advance
      if isAnyWord (← token) then
        advance
        isMark .colon
      else return false
  else return false

/-- An index signature up to its type. -/
def indexSignature (self : Parser) : Parse Tree := do
  let start ← here
  expectMark .lbracket
  let _ ← anyWord
  expectMark .colon
  let _ ← self .type
  expectMark .rbracket
  let _ ← annotation? self
  node .indexSignature start []

/-- A getter or setter of an interface, its end included. -/
def accessorSignature (self : Parser) (start : Nat) : Parse Tree := do
  if ← eatWord "get" then
    let key ← signatureKey self
    expectMark .lparen
    expectMark .rparen
    let _ ← annotation? self
    memberEnd
    node .signature start [key]
  else
    expectWord "set"
    let key ← signatureKey self
    let ps ← parameters self
    if ps.isEmpty then failHere
    memberEnd
    node .signature start (key :: ps)

/-- A member of an interface or of an object type. -/
def typeMember (self : Parser) : Parse Tree := do
  let start ← here
  let isCall : Parse Bool := do return (← isMark .lparen) || (← isOp "<")
  let signatureTail (key : List Tree) : Parse Tree := do
    typeParameters? self
    let ps ← parameters self
    let _ ← returnAnnotation? self
    memberEnd
    node .signature start (key ++ ps)
  if ← isCall then signatureTail []
  else
    let next := (← peek).token
    if (← isWord "new") && (next == .mark .lparen || next == .op "<") then
      advance
      signatureTail []
    else
      let startsKey (t : Token) : Bool := match t with
        | .word _ => true
        | .str _ => true
        | .num _ => true
        | .mark .lbracket => true
        | _ => false
      if (← isWord "readonly") && startsKey next then advance
      if ← startsIndexSignature then
        let t ← indexSignature self
        memberEnd
        return t
      -- the words of the accessors are good names too
      match ← attempt (accessorSignature self start) with
      | some t => return t
      | none =>
        let key ← signatureKey self
        let _ ← eatMark .question
        if ← isCall then signatureTail [key]
        else
          let _ ← annotation? self
          memberEnd
          node .signature start [key]

/-- The members of an interface or object type, braces included. -/
def typeMembers (self : Parser) : Parse (List Tree) := do
  expectMark .lbrace
  let ms ← itemsUntil (.mark .rbrace) (typeMember self)
  expectMark .rbrace
  return ms

/-- Whether a brace starts a mapped type. -/
def startsMappedType : Parse Bool :=
  ahead do
    advance
    if ← eatOp "+" <||> eatOp "-" then isWord "readonly"
    else
      let _ ← eatWord "readonly"
      expectMark .lbracket
      let _ ← anyWord
      isWord "in"

/-- A mapped type. -/
def mappedType (self : Parser) : Parse Unit := do
  expectMark .lbrace
  -- behind a sign the word has to stand; without one it may be missing
  if ← eatOp "+" <||> eatOp "-" then expectWord "readonly"
  else
    let _ ← eatWord "readonly"
  expectMark .lbracket
  let _ ← anyWord
  expectWord "in"
  let _ ← self .type
  if ← eatWord "as" then
    let _ ← self .type
  expectMark .rbracket
  if ← eatOp "+" <||> eatOp "-" then expectMark .question
  else
    let _ ← eatMark .question
  let _ ← annotation? self
  let _ ← eatEnd
  expectMark .rbrace

/-- An element of a tuple type. -/
def tupleElement (self : Parser) : Parse Tree := do
  let start ← here
  let _ ← eatMark .ellipsis
  let _ ← attempt (do
    let _ ← anyWord
    let _ ← eatMark .question
    expectMark .colon)
  let _ ← self .type
  let _ ← eatMark .question
  node (.typeText "") start []

/-- The name in a type query. -/
def typeQuery (self : Parser) : Parse Unit := do
  entityName
  typeArguments? self

/-- A type that refers to a module. -/
def importType (self : Parser) : Parse Unit := do
  expectMark .lparen
  let _ ← commaList .rparen (self .type)
  let _ ← iterate () fun _ => do
    if ← eatMark .dot then
      let _ ← anyWord
      return .inl ()
    else return .inr ()
  typeArguments? self

/-- A type that is no list or indexed type. -/
def simpleType (self : Parser) : Parse Unit := do
  match ← token with
  | .word "typeof" =>
    advance
    if ← eatWord "import" then importType self else typeQuery self
  | .word "import" =>
    advance
    importType self
  | .word "this" =>
    advance
    if (← isWord "is") && !(← newline) then
      advance
      let _ ← self .type
  | .word w =>
    if ["void", "null", "true", "false"].contains w then advance
    -- one reserved word is let through as a name
    else if reserved.contains w && w != "break" then failHere
    else
      entityName
      typeArguments? self
  | .str _ => advance
  | .num _ => advance
  | .bigInt _ => advance
  | .op "-" =>
    advance
    match ← token with
    | .num _ => advance
    | .bigInt _ => advance
    | _ => failHere
  | .mark .tick =>
    let _ ← templateParts (self .type) false
  | .mark .lbrace =>
    if ← startsMappedType then mappedType self
    else
      let _ ← typeMembers self
  | .mark .lbracket =>
    advance
    let _ ← commaList .rbracket (tupleElement self)
  | .mark .lparen =>
    advance
    let _ ← withReader (fun c => { c with plainTypes := false }) (self .type)
    expectMark .rparen
  | _ => failHere

/-- A simple type with any number of brackets after it. -/
def postfixType (self : Parser) : Parse Unit := do
  simpleType self
  iterate () fun _ => do
    if (← newline) || !(← isMark .lbracket) then return .inr ()
    advance
    unless ← eatMark .rbracket do
      let _ ← self .type
      expectMark .rbracket
    return .inl ()

/-- A type with a leading operator. -/
def operatorType (self : Parser) : Parse Tree := do
  let start ← here
  let operand : Parse Unit := do
    advance
    let _ ← self .typeOperator
  match ← token with
  | .word "keyof" => operand
  | .word "unique" => operand
  | .word "readonly" => operand
  | .word "infer" =>
    advance
    let _ ← anyWord
    let plain := (← read).plainTypes
    -- a bound, unless it turns out to be the test of a conditional type
    let _ ← attempt (do
      expectWord "extends"
      let _ ← withReader (fun c => { c with plainTypes := true }) (self .type)
      if !plain && (← isMark .question) then failHere)
  | _ => postfixType self
  node (.typeText "") start []

/-- Types joined by an operator, which may also stand in front. -/
def joined (op : String) (item : Parse Unit) : Parse Unit := do
  let _ ← eatOp op
  item
  iterate () fun _ => do
    if ← eatOp op then
      item
      return .inl ()
    else return .inr ()

/-- A type that is no conditional type. -/
def plainType (self : Parser) : Parse Unit := do
  if ← startsFunctionType then functionType self
  else if (← isWord "abstract") && (← peekWord "new") then
    advance
    advance
    functionType self
  else if ← isWord "new" then
    advance
    functionType self
  else
    -- a union of intersections
    joined "|" (joined "&" (do
      if ← startsFunctionType then functionType self
      else
        let _ ← self .typeOperator))

/-- A type. -/
def typeExpr (self : Parser) : Parse Tree := do
  let s ← get
  let start ← here
  plainType self
  if !(← read).plainTypes && !(← newline) && (← isWord "extends") then
    advance
    withReader (fun c => { c with plainTypes := true }) (plainType self)
    expectMark .question
    let _ ← self .type
    expectMark .colon
    let _ ← self .type
  let text ← textFrom s.text start
  node (.typeText text) start []

end TextHarvest.Script.Grammar
