import TextHarvest.Script.Parse

/-!
# Shared parts of the grammar

Arguments, decorators, names of members, templates, and the type arguments and annotations that
may stand beside them in typed scripts.
-/

namespace TextHarvest.Script.Grammar

open Parse

/-! ## Types beside other things -/

/-- A type after a colon, when one is written in a typed script. -/
def annotation? (self : Parser) : Parse (Option Tree) := do
  if (← typed) && (← isMark .colon) then
    advance
    return some (← self .type)
  else return none

/-- A binding with the type that is written after it, if any. -/
def annotate (self : Parser) (start : Nat) (binding : Tree) : Parse Tree := do
  match ← annotation? self with
  | some ty => node .annotated start [binding, ty]
  | none => return binding

/-- Whether the current token starts with a greater-than sign. -/
def startsGreater : Parse Bool := do
  match ← token, (← get).text with
  | .op _, '>' :: _ => return true
  | _, _ => return false

/-- Type arguments between angle brackets; there may be none. -/
def typeArguments (self : Parser) : Parse (List Tree) := do
  unless ← eatLess do failHere
  let args ← iterate [] fun acc => do
    if ← startsGreater then return .inr acc.reverse
    let ty ← self .type
    if ← eatMark .comma then return .inl (ty :: acc) else return .inr (ty :: acc).reverse
  expectGreater
  return args

/-! ## Arguments -/

/-- One argument, which may be spread. -/
def argument (self : Parser) : Parse Tree := do
  let start ← here
  if ← eatMark .ellipsis then
    let e ← self .assign
    node .spread start [e]
  else self .assign

/-- The arguments of a call, parentheses included. -/
def arguments (self : Parser) : Parse (List Tree) := do
  expectMark .lparen
  withReader (fun c => { c with beforeColon := false, allowIn := true }) <|
    commaList .rparen (argument self)

/-! ## Decorators -/

/-- A dotted path of names, as decorators and type-level heritage have. -/
def dottedPath : Parse Tree := do
  let start ← here
  let first ← name
  let head ← node (.ident first) start []
  iterate head fun e => do
    if ← eatMark .dot then
      let n ← anyWord
      return .inl (← node (.member false (.named n)) start [e])
    else return .inr e

/-- One decorator. -/
def decorator (self : Parser) : Parse Tree := do
  let start ← here
  expectMark .sign
  let inner ← here
  let e ← if ← eatMark .lparen then do
      let e ← withIn (self .expr)
      expectMark .rparen
      pure e
    else dottedPath
  -- the types are taken back when a call does not follow
  let withTypes ← do
    match ← token with
    | .op "<" => if ← typed then attempt (typeArguments self) else pure none
    | _ => pure none
  if (← isMark .lparen) || withTypes.isSome then
    let args ← arguments self
    let call ← node (.call false) inner (e :: args)
    node .decorator start [call]
  else node .decorator start [e]

/-- The decorators at the front. Outside of classes and functions an export may follow them only
in typed scripts, and only where `beforeExport` says so. -/
def decorators (self : Parser) (beforeExport : Bool) : Parse (List Tree) := do
  let start ← here
  let ds ← iterate [] fun acc => do
    if ← isMark .sign then return .inl ((← decorator self) :: acc)
    else return .inr acc.reverse
  if !ds.isEmpty && (← isWord "export") && !(← read).nested then
    if !beforeExport then failHere
    if !(← typed) then failAt start
  return ds

/-! ## Names of members -/

/-- The name of a property. -/
def propertyKey (self : Parser) : Parse Tree := do
  let start ← here
  match ← token with
  | .str value =>
    advance
    node (.keyStr value) start []
  | .word w =>
    advance
    node (.keyIdent w) start []
  | .num raw =>
    advance
    node (.keyNum raw) start []
  | .bigInt raw =>
    advance
    node (.keyBig raw) start []
  | .mark .lbracket =>
    advance
    let first ← withIn (self .assign)
    -- a list of expressions is read here as well, as one sequence
    let rest ← iterate [] fun acc => do
      if ← typed <&&> eatMark .comma then return .inl ((← withIn (self .assign)) :: acc)
      else return .inr acc.reverse
    let e ← if rest.isEmpty then pure first else node .sequence start (first :: rest)
    expectMark .rbracket
    node .keyComputed start [e]
  | _ => failHere

/-- The name of a class member, which may be private. -/
def memberKey (self : Parser) : Parse Tree := do
  let start ← here
  if ← eatMark .hash then
    let n ← anyWord
    node (.keyHidden n) start []
  else propertyKey self

/-! ## Templates -/

/-- The chunks and substitutions of a template whose opening mark is the current token. Only a
tagged template may hold a chunk without a value. -/
def templateParts (hole : Parse Tree) (isTagged : Bool) : Parse (List Chunk × List Tree) := do
  let s ← get
  iterate (s.rest, s.cur.span.stop, s.cur.span.start, ([] : List Chunk), ([] : List Tree))
    fun (chars, pos, opening, chunks, holes) => do
      let r := readChunk chars pos 0 [] [] none
      -- a template with a tag may hold bad escapes, its chunk then has no cooked text
      match r.badAt with
      | some offset => if !isTagged then failAt offset
      | none => pure ()
      let cooked := if r.badAt.isSome then none else textOfCodes? r.codes
      let chunks := ⟨⟨pos, r.stop⟩, String.ofList r.raw, cooked⟩ :: chunks
      match r.ending with
      | .missing => failAt opening
      | .close =>
        jump r.rest (r.stop + 1)
        return .inr (chunks.reverse, holes.reverse)
      | .substitution =>
        jump r.rest (r.stop + 2)
        let e ← hole
        unless ← isMark .rbrace do failHere
        let s ← get
        return .inl (s.rest, s.cur.span.stop, s.cur.span.start, chunks, e :: holes)

end TextHarvest.Script.Grammar
