import TextHarvest.Script.Grammar.Object
import TextHarvest.Text.NamedReference

/-!
# Markup in scripts

Elements and fragments. Their text, names and attribute strings are read from the source under
rules of their own: a name may hold hyphens, a string has no escapes but character references, and
text runs up to the next brace or tag.
-/

namespace TextHarvest.Script.Grammar

open Parse

/-- A name with hyphens. -/
def markupWord : Parse String := do
  let s ← get
  match s.cur.token with
  | .word _ =>
    let part (c : Char) : Bool := Text.isIdPart c || c == '-'
    let word := s.text.takeWhile part
    jump (s.text.dropWhile part) (s.cur.span.start + Chars.size word)
    return String.ofList word
  | _ => failHere

/-- The name of an element. -/
def tagName : Parse TagName := do
  let start ← here
  let first ← markupWord
  let stop ← prevStop
  if ← eatMark .colon then
    let second ← markupWord
    return .scoped first second
  else if ← isMark .dot then
    let path ← iterate [first] fun acc => do
      if ← eatMark .dot then return .inl ((← markupWord) :: acc)
      else return .inr acc.reverse
    return .dotted path
  else return .plain first ⟨start, stop⟩

/-- Whether two names are written the same. -/
def sameTag : TagName → TagName → Bool
  | .plain a _, .plain b _ => a == b
  | .dotted a, .dotted b => a == b
  | .scoped a b, .scoped c d => a == c && b == d
  | _, _ => false

/-- A string of an attribute. -/
def markupString : Parse Tree := do
  let s ← get
  let start := s.cur.span.start
  match s.text with
  | quote :: cs =>
    let inside := cs.takeWhile (· != quote)
    match cs.dropWhile (· != quote) with
    | _ :: rest =>
      jump rest (start + Chars.size inside + 2)
      node (.markupString (String.ofList (Text.decodeNamedFrom inside 0))) start []
    | [] => failAt start
  | [] => failHere

/-- The value of an attribute. -/
def attributeValue (self : Parser) : Parse Tree := do
  let s ← get
  let start ← here
  -- the value is read from the text itself, since its string has no escapes
  match s.text with
  | '\x22' :: _ => markupString
  | '\x27' :: _ => markupString
  | '\x7b' :: _ =>
    advance
    if ← isMark .rbrace then failAt start
    let e ← withIn (self .expr)
    expectMark .rbrace
    node .container start [e]
  | '<' :: _ => self .markup
  | _ => failHere

/-- An attribute, or attributes that are spread. -/
def markupAttribute (self : Parser) : Parse Tree := do
  let start ← here
  if ← eatMark .lbrace then
    expectMark .ellipsis
    let e ← withIn (self .assign)
    expectMark .rbrace
    node .spreadAttribute start [e]
  else
    let first ← markupWord
    let attrName ← if ← eatMark .colon then do pure (AttrName.scoped first (← markupWord))
      else pure (AttrName.plain first)
    if ← eatOp "=" then
      let v ← attributeValue self
      node (.attribute attrName) start [v]
    else node (.attribute attrName) start []

/-- Whether the current token starts with a character. -/
def startsWith (c : Char) : Parse Bool := do
  match ← token with
  | .op _ => return (← get).text.head? == some c
  | _ => return false

/-- The attributes up to the end of an opening tag. -/
def markupAttributes (self : Parser) : Parse (List Tree) :=
  iterate [] fun acc => do
    if (← startsWith '/') || (← startsWith '>') then return .inr acc.reverse
    return .inl ((← markupAttribute self) :: acc)

/-- The children up to the closing tag, whose opening sign and slash are taken. -/
def markupChildren (self : Parser) : Parse (List Tree) :=
  iterate [] fun acc => do
    let s ← get
    let inText (c : Char) : Bool := c != '\x7b' && c != '<'
    -- the text between the children is no token: it goes from where the last one ended
    let text := s.prevRest.takeWhile inText
    let rest := s.prevRest.dropWhile inText
    let start := s.prevStop
    let stop := start + Chars.size text
    if !text.isEmpty then
      jump rest stop
      return .inl (Tree.leaf .markupText ⟨start, stop⟩ :: acc)
    match rest with
    | '<' :: '/' :: cs =>
      jump cs (start + 2)
      return .inr acc.reverse
    | '<' :: _ =>
      jump rest start
      let e ← self .markup
      return .inl (e :: acc)
    | '\x7b' :: _ =>
      jump rest start
      advance
      let child ← if ← eatMark .ellipsis then do
          let e ← withIn (self .expr)
          expectMark .rbrace
          node .spreadChild start [e]
        else if ← eatMark .rbrace then node .container start []
        else do
          let e ← withIn (self .expr)
          expectMark .rbrace
          node .container start [e]
      return .inl (child :: acc)
    | _ => failAt stop

/-- An element or a fragment at its opening sign. -/
def element (self : Parser) : Parse Tree := do
  let start ← here
  unless ← eatLess do failHere
  if ← eatGreater then
    let children ← markupChildren self
    expectGreater
    node .fragment start children
  else
    let tag ← tagName
    if ← typed then typeArguments? self
    let attrs ← markupAttributes self
    if ← startsWith '/' then
      advance
      expectGreater
      node (.element tag) start attrs
    else
      expectGreater
      let children ← markupChildren self
      let place ← here
      let closing ← tagName
      expectGreater
      -- the fault is that of the name which closes, not of the one which opens
      unless sameTag tag closing do failAt place
      node (.element tag) start (attrs ++ children)

end TextHarvest.Script.Grammar
