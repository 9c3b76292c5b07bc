import TextHarvest.Script.Grammar.Basic

/-!
# Patterns and parameters

What a declaration, a parameter list or a `catch` clause binds.
-/

namespace TextHarvest.Script.Grammar

open Parse

/-- A single name. -/
def namePattern : Parse Tree := do
  let start ← here
  let n ← name
  node (.ident n) start []

/-- A pattern with an optional default. -/
def bindingElement (self : Parser) : Parse Tree := do
  let start ← here
  let left ← self .pattern
  if ← eatOp "=" then
    let right ← withIn (self .assign)
    node .defaulted start [left, right]
  else return left

/-- A list pattern. -/
def arrayPattern (self : Parser) : Parse Tree := do
  let start ← here
  expectMark .lbracket
  let items ← iterate [] fun acc => do
    if ← eatMark .rbracket then return .inr acc.reverse
    let at' ← here
    -- a place that nothing is bound to
    if ← eatMark .comma then return .inl (Tree.leaf .hole (Span.point at') :: acc)
    let item ← if ← eatMark .ellipsis then do
        let p ← self .pattern
        node .rest at' [p]
      else bindingElement self
    unless ← isMark .rbracket do expectMark .comma
    return .inl (item :: acc)
  node .arrayPattern start items

/-- One property of an object pattern. -/
def patternProperty (self : Parser) : Parse Tree := do
  let start ← here
  if ← eatMark .ellipsis then
    let p ← self .pattern
    node .rest start [p]
  else
    let key ← propertyKey self
    if ← eatMark .colon then
      let value ← bindingElement self
      node .property start [key, value]
    else
      match key.kind with
      | .keyIdent n =>
        if ← eatOp "=" then
          let value ← withIn (self .assign)
          node (.shorthandInit n) start [value]
        else node (.shorthand n) start []
      | _ => failHere

/-- An object pattern. -/
def objectPattern (self : Parser) : Parse Tree := do
  let start ← here
  expectMark .lbrace
  let props ← commaList .rbrace (patternProperty self)
  node .objectPattern start props

/-- A pattern without default or type. -/
def pattern (self : Parser) : Parse Tree := do
  match ← token with
  | .word _ => namePattern
  | .mark .lbracket => arrayPattern self
  | .mark .lbrace => objectPattern self
  | _ => failHere

/-- Takes a modifier that stands before a parameter or property name in a typed script. -/
def eatModifier : Parse Unit := do
  if ← typed then
    match ← token with
    | .word w =>
      if ["public", "protected", "private", "readonly"].contains w then
        let next := (← peek).token
        if isAnyWord next || next == .mark .lbrace || next == .mark .lbracket then advance
    | _ => pure ()

/-- Takes the modifiers before a parameter of a constructor. -/
def eatParameterModifiers : Parse Unit :=
  iterate () fun _ => do
    match ← token with
    | .word w =>
      if (← typed) && ["public", "protected", "private", "readonly", "override"].contains w then
        let next := (← peek).token
        if isAnyWord next || next == .mark .lbrace || next == .mark .lbracket then
          advance
          return .inl ()
      return .inr ()
    | _ => return .inr ()

/-- A parameter without its decorators. -/
def parameterPattern (self : Parser) : Parse Tree := do
  let start ← here
  let p ← bindingElement self
  if ← typed then
    let _ ← eatMark .question
  let p ← annotate self start p
  if ← eatOp "=" then
    let right ← withIn (self .assign)
    node .defaulted start [p, right]
  else return p

/-- A rest parameter after its dots. -/
def restParameter (self : Parser) (start : Nat) : Parse Tree := do
  let p ← self .pattern
  let p ← if ← eatOp "=" then do
      let right ← withIn (self .assign)
      node .defaulted start [p, right]
    else pure p
  if ← typed then
    let _ ← eatMark .question
  let p ← annotate self start p
  node .rest start [p]

/-- One parameter. -/
def parameter (self : Parser) : Parse Tree := do
  let start ← here
  let ds ← decorators self false
  let inner ← here
  let p ← if ← eatMark .ellipsis then restParameter self inner
    else do
      eatParameterModifiers
      parameterPattern self
  node .param start (ds ++ [p])

/-- The parameters of a function, parentheses included. -/
def parameters (self : Parser) : Parse (List Tree) := do
  expectMark .lparen
  withReader (fun c => { c with allowIn := true, beforeColon := false, inCond := false }) <|
    commaList .rparen (parameter self)

end TextHarvest.Script.Grammar
