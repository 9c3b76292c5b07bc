import TextHarvest.Script.Grammar.Function

/-!
# Lists, objects and templates
-/

namespace TextHarvest.Script.Grammar

open Parse

/-- A list literal. -/
def arrayLiteral (self : Parser) : Parse Tree := do
  let start ← here
  expectMark .lbracket
  let items ← withReader (fun c => { c with allowIn := true, beforeColon := false }) <|
    iterate [] fun acc => do
      if ← eatMark .rbracket then return .inr acc.reverse
      let place ← here
      if ← eatMark .comma then return .inl (Tree.leaf .hole (Span.point place) :: acc)
      let item ← argument self
      unless ← isMark .rbracket do expectMark .comma
      return .inl (item :: acc)
  node .array start items

/-- A getter or setter after its word. -/
def accessor (self : Parser) (start : Nat) (kind : Kind) : Parse Tree := do
  let key ← propertyKey self
  withReader (fun c => { c with superAllowed := true, nested := true }) do
    typeParameters? self
    let ps ← parameters self
    let _ ← returnAnnotation? self
    let body ← functionBody self false
    node kind start (key :: ps ++ body)

/-- One property of an object. -/
def objectProperty (self : Parser) : Parse Tree := do
  let start ← here
  if ← eatMark .ellipsis then
    let e ← self .assign
    node .spread start [e]
  else if ← eatOp "*" then
    let key ← propertyKey self
    let f ← methodTail self start false true []
    node .method start [key, f]
  else
    eatModifier
    let key ← propertyKey self
    if ← eatMark .colon then
      let value ← self .assign
      node .property start [key, value]
    else if ← startsMethod then
      let f ← methodTail self start false false []
      node .method start [key, f]
    else
      match key.kind with
      | .keyIdent n =>
        let _ ← eatMark .question
        let t ← token
        if t == .op "=" then
          advance
          let value ← self .assign
          node (.shorthandInit n) start [value]
        else if t == .mark .comma || t == .mark .rbrace then node (.shorthand n) start []
        else if n == "get" then accessor self start .getter
        else if n == "set" then accessor self start .setter
        else if n == "async" then
          let isGenerator ← eatOp "*"
          let key ← propertyKey self
          let f ← methodTail self start true isGenerator []
          node .method start [key, f]
        else failHere
      | _ =>
        -- in typed scripts a key that is no name may stand alone at the end of the object
        if (← typed) && (← isMark .rbrace) then
          let place ← here
          node .property start [key, Tree.leaf .invalid (Span.point place)]
        else failHere

/-- An object literal after its opening brace, which stands at `start`. -/
def objectBody (self : Parser) (start : Nat) : Parse Tree := do
  let props ← withReader (fun c => { c with allowIn := true, beforeColon := false }) <|
    commaList .rbrace (objectProperty self)
  node .object start props

/-- An object literal. -/
def objectLiteral (self : Parser) : Parse Tree := do
  let start ← here
  expectMark .lbrace
  objectBody self start

/-- A template literal without a tag. -/
def templateLiteral (self : Parser) : Parse Tree := do
  let start ← here
  let (chunks, holes) ← templateParts (withIn (self .expr)) false
  node (.template chunks) start holes

/-- A template literal after its tag. -/
def taggedTemplate (self : Parser) (start : Nat) (tag : Tree) : Parse Tree := do
  let (chunks, holes) ← templateParts (withIn (self .expr)) true
  node (.tagged chunks) start (tag :: holes)

end TextHarvest.Script.Grammar
