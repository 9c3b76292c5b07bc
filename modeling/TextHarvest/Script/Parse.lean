import TextHarvest.Script.Dialect
import TextHarvest.Script.Token
import TextHarvest.Script.Tree

/-!
# Parsing steps

A parsing step reads the current token and moves on, or fails at an offset. It can look one token
ahead, read the source again from the start of the current token under other rules, and go back to
where it was. A failed step keeps the place where it failed, since some rules of the grammar carry
on from there.

The grammar is a family of steps that call each other through `Goal`: a step takes the function
that parses a goal as an argument, and `Program` closes the loop.
-/

namespace TextHarvest.Script

/-- What a step knows of its surroundings. -/
structure Context where
  dialect : Dialect
  /-- A bound on the number of rounds of any loop. -/
  bound : Nat
  /-- Whether `in` is an operator here. -/
  allowIn : Bool := true
  /-- Whether `yield` is an operator here. -/
  generator : Bool := false
  /-- Where an arrow function may start. -/
  arrowAt : Option Nat := none
  /-- Inside a branch of a conditional expression. -/
  inCond : Bool := false
  /-- Before the colon of a conditional expression. -/
  beforeColon : Bool := false
  /-- Whether `super` may be used. -/
  superAllowed : Bool := false
  /-- Inside a class or function, where decorators may stand before anything. -/
  nested : Bool := false
  /-- Where a conditional type may not be written. -/
  plainTypes : Bool := false

/-- Where a step stands: the current token, the source from its start on and after it, where the
token before it stopped, and the source from there on. -/
structure State where
  cur : Lexeme
  text : List Char
  rest : List Char
  prevStop : Nat
  prevRest : List Char

/-- A parsing step; a failure is the offset of the offending token. -/
abbrev Parse := ReaderT Context (EStateM Nat State)

/-- The parts of the grammar that call each other. -/
inductive Goal where
  | expr
  | assign
  | binary
  | unary
  | lhs
  | callee
  | pattern
  | type
  | typeOperator
  | statement (declarations : Bool)
  | moduleItem
  | block
  | markup

/-- How a goal is parsed. -/
abbrev Parser := Goal → Parse Tree

namespace Parse

/-! ## The current token -/

def cur : Parse Lexeme := do
  return (← get).cur

def token : Parse Token := do
  return (← get).cur.token

/-- Where the current token starts. -/
def here : Parse Nat := do
  return (← get).cur.span.start

/-- Where the token before the current one stopped. -/
def prevStop : Parse Nat := do
  return (← get).prevStop

/-- Whether a line ended before the current token. -/
def newline : Parse Bool := do
  return (← get).cur.newline

def dialect : Parse Dialect := do
  return (← read).dialect

/-- Whether types may be written. -/
def typed : Parse Bool := do
  return (← read).dialect.typed

/-- Fails at an offset. -/
def failAt {α : Type} (offset : Nat) : Parse α :=
  throw offset

/-- Fails at the current token. -/
def failHere {α : Type} : Parse α := do
  match (← cur) with
  | ⟨.error offset, _, _⟩ => failAt offset
  | ⟨_, span, _⟩ => failAt span.start

/-- Goes on reading at a place of the source. -/
def jump (chars : List Char) (pos : Nat) : Parse Unit := fun _ _ =>
  let (lexeme, text, rest) := scan chars pos
  .ok () ⟨lexeme, text, rest, pos, chars⟩

/-- Moves to the next token. -/
def advance : Parse Unit := fun _ s =>
  let (lexeme, text, rest) := scan s.rest s.cur.span.stop
  .ok () ⟨lexeme, text, rest, s.cur.span.stop, s.rest⟩

/-- The token after the current one. -/
def peek : Parse Lexeme := do
  let s ← get
  return (scan s.rest s.cur.span.stop).1

/-! ## Trying -/

/-- Runs a step; when it fails, goes back and answers `none`. -/
def attempt {α : Type} (p : Parse α) : Parse (Option α) := fun c s =>
  match p c s with
  | .ok a s' => .ok (some a) s'
  | .error _ _ => .ok none s

/-- Runs a step; when it fails, stays where it failed and answers the offset. -/
def orStay {α : Type} (p : Parse α) : Parse (Except Nat α) := fun c s =>
  match p c s with
  | .ok a s' => .ok (.ok a) s'
  | .error e s' => .ok (.error e) s'

/-- Runs a step for its answer only; a failure counts as `false`. -/
def ahead (p : Parse Bool) : Parse Bool := fun c s =>
  match p c s with
  | .ok b _ => .ok b s
  | .error _ _ => .ok false s

/-- Rounds of a loop: a round answers the next state or the result. -/
def rounds {σ β : Type} (step : σ → Parse (σ ⊕ β)) : Nat → σ → Parse β
  | 0, _ => failHere
  | n + 1, s => do
    match ← step s with
    | .inl s => rounds step n s
    | .inr b => return b

/-- A loop that ends by itself long before its bound. -/
def iterate {σ β : Type} (init : σ) (step : σ → Parse (σ ⊕ β)) : Parse β := do
  rounds step (← read).bound init

/-! ## Tests and expectations -/

def isMark (m : Mark) : Parse Bool := do
  return (← token) == .mark m

def isOp (text : String) : Parse Bool := do
  return (← token) == .op text

def isWord (name : String) : Parse Bool := do
  return (← token) == .word name

def peekMark (m : Mark) : Parse Bool := do
  return (← peek).token == .mark m

def peekWord (name : String) : Parse Bool := do
  return (← peek).token == .word name

/-- Takes the current token if it is the given one. -/
def eat (t : Token) : Parse Bool := do
  if (← token) == t then
    advance
    return true
  else return false

def eatMark (m : Mark) : Parse Bool :=
  eat (.mark m)

def eatOp (text : String) : Parse Bool :=
  eat (.op text)

def eatWord (name : String) : Parse Bool :=
  eat (.word name)

/-- Takes the given token or fails. -/
def expect (t : Token) : Parse Unit := do
  unless ← eat t do failHere

def expectMark (m : Mark) : Parse Unit :=
  expect (.mark m)

def expectOp (text : String) : Parse Unit :=
  expect (.op text)

def expectWord (name : String) : Parse Unit :=
  expect (.word name)

/-- Whether a statement may end before the current token. -/
def isEnd : Parse Bool := do
  let c ← cur
  return c.token == .mark .semicolon || c.token == .mark .rbrace || c.newline || c.token == .eof

/-- Takes the end of a statement, written or implied. -/
def eatEnd : Parse Bool := do
  if ← eatMark .semicolon then return true
  else
    let c ← cur
    return c.token == .mark .rbrace || c.newline || c.token == .eof

/-- Takes the end of a statement or fails. -/
def expectEnd : Parse Unit := do
  unless ← eatEnd do failHere

/-- Takes a less-than sign off the front of the current operator. -/
def eatLess : Parse Bool := fun _ s =>
  match s.cur.token, s.text with
  | .op _, '<' :: cs =>
    let pos := s.cur.span.start + 1
    let (lexeme, text, rest) := scan cs pos
    .ok true ⟨lexeme, text, rest, pos, cs⟩
  | _, _ => .ok false s

/-- Takes a greater-than sign off the front of the current operator. -/
def eatGreater : Parse Bool := fun _ s =>
  match s.cur.token, s.text with
  | .op _, '>' :: cs =>
    let pos := s.cur.span.start + 1
    let (lexeme, text, rest) := scan cs pos
    .ok true ⟨lexeme, text, rest, pos, cs⟩
  | _, _ => .ok false s

def expectGreater : Parse Unit := do
  unless ← eatGreater do failHere

/-! ## Words -/

/-- Words that name no variable. -/
def reserved : List String :=
  ["break", "case", "catch", "class", "const", "continue", "debugger", "default", "delete", "do",
    "else", "enum", "export", "extends", "false", "finally", "for", "function", "if", "import",
    "in", "instanceof", "new", "null", "return", "super", "switch", "this", "throw", "true", "try",
    "typeof", "var", "void", "while", "with"]

/-- Further words that name no variable in strict code. -/
def strictReserved : List String :=
  ["implements", "interface", "let", "package", "private", "protected", "public", "static", "yield"]

/-- Whether a token is a word that may name a variable. -/
def isName : Token → Bool
  | .word w => !reserved.contains w
  | _ => false

/-- Whether a token is a word that may name a variable in strict code. -/
def isStrictName : Token → Bool
  | .word w => !reserved.contains w && !strictReserved.contains w
  | _ => false

/-- Whether a token is any word. -/
def isAnyWord : Token → Bool
  | .word _ => true
  | _ => false

/-- A word that may name a variable where something has to be named. -/
def name : Parse String := do
  match ← token with
  | .word w =>
    if reserved.contains w && w != "enum" && !(w == "this" && (← typed)) then failHere
    else
      advance
      return w
  | _ => failHere

/-- Any word. -/
def anyWord : Parse String := do
  match ← token with
  | .word w =>
    advance
    return w
  | _ => failHere

/-! ## Nodes -/

/-- A node from an offset up to the end of the last token. -/
def node (kind : Kind) (start : Nat) (children : List Tree) : Parse Tree := do
  return .node kind ⟨start, ← prevStop⟩ children

/-- The source from a place up to the end of the last token. -/
def textFrom (chars : List Char) (start : Nat) : Parse String := do
  let stop ← prevStop
  match Chars.splitAt? chars (stop - start) with
  | some (front, _) => return String.ofList front
  | none => return ""

/-- Items up to a closing mark, with commas between them and optionally at the end. -/
def commaList (close : Mark) (item : Parse Tree) : Parse (List Tree) :=
  iterate [] fun acc => do
    if ← eatMark close then return .inr acc.reverse
    let t ← item
    if ← isMark close then return .inl (t :: acc)
    expectMark .comma
    return .inl (t :: acc)

/-- Items up to a closing mark that is not taken, with nothing between them. -/
def itemsUntil (close : Token) (item : Parse Tree) : Parse (List Tree) :=
  iterate [] fun acc => do
    if (← token) == close then return .inr acc.reverse
    return .inl ((← item) :: acc)

/-- With `in` as an operator. -/
def withIn {α : Type} (p : Parse α) : Parse α :=
  withReader (fun c => { c with allowIn := true }) p

end Parse

end TextHarvest.Script
