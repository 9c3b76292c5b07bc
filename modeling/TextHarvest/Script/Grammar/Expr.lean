import TextHarvest.Script.Grammar.Markup

/-!
# Expressions

From names and literals up to assignments. Two rules carry on after a failure: a missing operand of
a leading operator is taken as an invalid one, and so is a missing left operand of a binary
operator.
-/

namespace TextHarvest.Script.Grammar

open Parse

/-! ## Operators -/

/-- How tightly a binary operator binds. -/
def precedence : String → Nat
  | "??" => 1
  | "||" => 1
  | "&&" => 2
  | "|" => 3
  | "^" => 4
  | "&" => 5
  | "==" => 6
  | "!=" => 6
  | "===" => 6
  | "!==" => 6
  | "<" => 7
  | ">" => 7
  | "<=" => 7
  | ">=" => 7
  | "in" => 7
  | "instanceof" => 7
  | "<<" => 8
  | ">>" => 8
  | ">>>" => 8
  | "+" => 9
  | "-" => 9
  | "*" => 10
  | "/" => 10
  | "%" => 10
  | "**" => 11
  | _ => 0

/-- The binary operator that a token stands for. -/
def binaryOp? (allowIn : Bool) : Token → Option String
  | .op text => if precedence text == 0 then none else some text
  | .word "in" => if allowIn then some "in" else none
  | .word "instanceof" => some "instanceof"
  | _ => none

/-- The operators that assign. -/
def assignOps : List String :=
  ["=", "+=", "-=", "*=", "/=", "%=", "**=", "<<=", ">>=", ">>>=", "&=", "|=", "^=", "&&=", "||=",
    "??="]

/-- The assignment operator that a token stands for. -/
def assignOp? : Token → Option String
  | .op text => if assignOps.contains text then some text else none
  | _ => none

/-- Whether a token can start an expression. -/
def startsExpr : Token → Bool
  | .word w =>
    !reserved.contains w ||
      ["class", "delete", "false", "function", "import", "new", "null", "super", "this", "true",
        "typeof", "void"].contains w
  | .num _ => true
  | .bigInt _ => true
  | .str _ => true
  | .mark .lparen => true
  | .mark .lbracket => true
  | .mark .lbrace => true
  | .mark .tick => true
  | .mark .hash => true
  | .mark .sign => true
  | .op text => ["+", "-", "~", "!", "++", "--", "<", "/", "/="].contains text
  | _ => false

/-! ## Patterns from expressions -/

mutual

/-- An expression read as what a parameter binds. -/
def asPattern : Tree → Tree
  | .node kind span children =>
    match kind with
    -- what was read as an expression turns out to be a pattern when an arrow or a sign follows
    | .ident n => .node (.ident n) span []
    | .object => .node .objectPattern span (asPatterns children)
    | .array => .node .arrayPattern span (asPatterns children)
    | .spread => .node .rest span (asPatterns children)
    | .property => .node .property span (asPropertyPattern children)
    | .assign "=" => .node .defaulted span (asFirstPattern children)
    | .shorthand n => .node (.shorthand n) span children
    | .shorthandInit n => .node (.shorthandInit n) span children
    | .hole => .node .hole span []
    | .objectPattern => .node .objectPattern span children
    | .arrayPattern => .node .arrayPattern span children
    | .defaulted => .node .defaulted span children
    | .rest => .node .rest span children
    | .annotated => .node .annotated span children
    | _ => .node .invalid span []

def asPatterns : List Tree → List Tree
  | [] => []
  | t :: ts => asPattern t :: asPatterns ts

def asPropertyPattern : List Tree → List Tree
  | [key, value] => [key, asPattern value]
  | ts => ts

def asFirstPattern : List Tree → List Tree
  | [target, value] => [asPattern target, value]
  | ts => ts

end

/-- Whether a value may be assigned to an expression. -/
def isTarget (t : Tree) : Bool :=
  match t.kind with
  | .ident _ => true
  | .member _ _ => true
  | .superMember _ => true
  | .paren => true
  | .array => true
  | .object => true
  | .ascribed .asConst => false
  | .ascribed _ => true
  | _ => false

/-! ## Assignments -/

/-- What follows an expression that could be assigned to. -/
def assignTail (self : Parser) (start : Nat) (target : Tree) : Parse Tree := do
  match assignOp? (← token) with
  | some op =>
    unless isTarget target do failAt target.span.start
    advance
    let value ← self .assign
    node (.assign op) start [target, value]
  | none => return target

/-! ## Arrow functions and parentheses -/

/-- A parenthesized item: an expression, or a pattern that only a parameter list may hold. -/
structure ParenItem where
  tree : Tree
  isPattern : Bool

/-- Whether an item is a single name. -/
def ParenItem.isName (item : ParenItem) : Bool :=
  match item.tree.kind with
  | .ident _ => true
  | .annotated => true
  | _ => false

/-- The first part of a parenthesized item. In a typed script an item that starts with a name may
be a parameter with a type, so a question mark after it is looked at separately. -/
def parenOperand (self : Parser) : Parse Tree := do
  let start ← here
  let t ← token
  let spreadName ← do
    if t == .mark .ellipsis then pure (isName (← peek).token) else pure false
  -- with types the operand may be a parameter, so a question mark behind it is left standing
  if (← typed) && (isName t || spreadName) then
    withReader (fun c => { c with arrowAt := some start, allowIn := true }) do
      if ← eatMark .ellipsis then
        let e ← self .binary
        node .spread start [e]
      else if (← read).generator && (← isWord "yield") then self .assign
      else
        let e ← self .binary
        match e.kind with
        | .arrow _ => return e
        | .binary _ => return e
        | .unary _ => return e
        | .update _ _ => return e
        | _ => assignTail self start e
  else withIn (argument self)

/-- The rest of a conditional expression after its condition and question mark. -/
def conditionalTail (self : Parser) (start : Nat) (test : Tree) : Parse Tree := do
  let yes ← withReader (fun c => { c with inCond := true, beforeColon := true, allowIn := true })
    (self .assign)
  expectMark .colon
  let no ← withReader (fun c => { c with inCond := true, beforeColon := false }) (self .assign)
  node .conditional start [test, yes, no]

/-- One parenthesized item. -/
def parenItem (self : Parser) : Parse ParenItem := do
  let start ← here
  eatModifier
  let e ← parenOperand self
  let isTyped ← typed
  let (e, isOptional) ← do
    if isTyped && (← isMark .question) then
      let next := (← peek).token
      -- the mark belongs to a parameter when the list or its type goes on behind it
      if next == .mark .comma || next == .mark .colon || next == .mark .rparen ||
          next == .op "=" then
        advance
        match e.kind with
        | .ident _ => pure (e, true)
        | .spread => pure (e, true)
        | _ => failAt e.span.start
      else if e.kind == .spread then pure (e, false)
      else
        advance
        pure (← conditionalTail self start e, false)
    else pure (e, false)
  if isOptional || (isTyped && (← isMark .colon)) then
    let p ← annotate self start (asPattern e)
    if ← eatOp "=" then
      let value ← self .assign
      return ⟨← node .defaulted start [p, value], true⟩
    else return ⟨p, true⟩
  else return ⟨e, false⟩

/-- The items between parentheses. A name that an arrow follows is the parameter of a function
that stands in the parentheses. -/
def parenItems (self : Parser) : Parse (List ParenItem) := do
  expectMark .lparen
  withReader (fun c => { c with beforeColon := false }) <|
    iterate [] fun acc => do
      if ← eatMark .rparen then return .inr acc.reverse
      let start ← here
      let item ← parenItem self
      -- a single name before the arrow is its parameter, also inside a list
      let item ← if (← isMark .arrow) && item.isName then do
          advance
          let body ← arrowBody self
          pure ⟨← node (.arrow false) start [asPattern item.tree, body], false⟩
        else pure item
      unless ← isMark .rparen do expectMark .comma
      return .inl (item :: acc)

/-- The first spread among items, which no parenthesized expression may hold. -/
def firstSpread? (items : List Tree) : Option Nat :=
  (items.find? fun t => t.kind == .spread).map fun t =>
    match t.children with
    | e :: _ => e.span.start
    | [] => t.span.start

/-- A parenthesized expression, the parameters of an arrow function with what follows them, or,
when `asyncAt` gives the range of the word `async` before it, a call of a function of that name. -/
def parenOrArrow (self : Parser) (canArrow : Bool) (asyncAt : Option Span) :
    Parse Tree := do
  let inner ← here
  let start := (asyncAt.map Span.start).getD inner
  let items ← parenItems self
  let finish (isAsync : Bool) : Parse Tree := do
    let body ← arrowBody self
    node (.arrow isAsync) start (items.map (asPattern ·.tree) ++ [body])
  let ctx ← read
  -- between the marks of a condition a colon may begin a type of the result or the other branch
  let viaCond ← do
    if ctx.dialect.typed && ctx.inCond && (← isMark .colon) then
      attempt do
        let _ ← returnAnnotation? self
        expectMark .arrow
        let t ← finish asyncAt.isSome
        if ctx.beforeColon && !(← isMark .colon) then failHere
        return t
    else pure none
  match viaCond with
  | some t => return t
  | none =>
    let hasReturn ← do
      if !ctx.beforeColon && ctx.dialect.typed && (← isMark .colon) then
        attempt do
          let _ ← returnAnnotation? self
          unless ← isMark .arrow do failHere
      else pure none
    if items.any (·.isPattern) || hasReturn.isSome || (← isMark .arrow) then
      if ← newline then failHere
      if !canArrow then failHere
      expectMark .arrow
      finish asyncAt.isSome
    else
      let trees := items.map (·.tree)
      match asyncAt with
      | some word =>
        -- no arrow behind, so the word was the name of a function
        let callee := Tree.leaf (.ident "async") word
        node (.call false) start (callee :: trees)
      | none =>
        match firstSpread? trees with
        | some offset => failAt offset
        | none =>
          match trees with
          | [] => failAt start
          | [e] => node .paren start [e]
          | first :: _ =>
            let stop := (trees.getLast?.getD first).span.stop
            node .paren start [.node .sequence ⟨first.span.start, stop⟩ trees]

/-! ## Names and literals -/

/-- What follows a name: the body of an arrow function, or nothing. -/
def nameOrArrow (self : Parser) (start : Nat) (canArrow : Bool) : Parse Tree := do
  let n ← name
  let e ← node (.ident n) start []
  if canArrow && (← isMark .arrow) && !(← newline) then
    advance
    let body ← arrowBody self
    node (.arrow false) start [e, body]
  else return e

/-- An expression that starts with the word `async`. -/
def asyncExpr (self : Parser) (start : Nat) (canArrow : Bool) :
    Parse Tree := do
  let word ← cur
  let next ← peek
  if next.token == .word "function" && !next.newline then
    advance
    functionExpr self start true []
  else if canArrow && next.token == .mark .lparen && !next.newline then
    advance
    parenOrArrow self canArrow (some word.span)
  else if canArrow && isName next.token && !next.newline then
    advance
    let p ← namePattern
    -- here the word is a value, followed by its type
    if (← typed) && p.kind == .ident "as" && !(← isMark .arrow) then
      let ty ← self .type
      node (.ascribed .asType) start [Tree.leaf (.ident "async") word.span, ty]
    else
      expectMark .arrow
      let body ← arrowBody self
      node (.arrow true) start [p, body]
  else if canArrow && (← typed) && next.token == .op "<" then
    -- type parameters, or a comparison with the word
    let arrow? ← attempt do
      advance
      typeParameters self
      let ps ← parameters self
      let _ ← returnAnnotation? self
      expectMark .arrow
      return ps
    match arrow? with
    | some ps =>
      let body ← arrowBody self
      node (.arrow true) start (ps ++ [body])
    | none => nameOrArrow self start canArrow
  else nameOrArrow self start canArrow

/-- A regular expression at its opening slash. The slash of one that is not closed is no token. -/
def regexLiteral : Parse Tree := do
  let s ← get
  let start := s.cur.span.start
  -- the fault is that of the slash, and no token behind it is read
  let unclosed : Parse Tree := do
    set { s with cur := { s.cur with token := .error start } }
    failAt start
  match s.text with
  | _ :: cs =>
    match regexBody cs false false 1 with
    | some (len, rest) =>
      let flags := rest.takeWhile Text.isIdPart
      let raw := s.text.take (len + flags.length)
      jump (rest.dropWhile Text.isIdPart) (start + Chars.size raw)
      node (.regexLit (String.ofList raw)) start []
    | none => unclosed
  | [] => unclosed

/-- A name, a literal or something between brackets. -/
def primary (self : Parser) : Parse Tree := do
  let start ← here
  let canArrow := (← read).arrowAt == some start
  let leaf (kind : Kind) : Parse Tree := do
    advance
    node kind start []
  match ← token with
  | .word "this" => leaf .thisRef
  | .word "null" => leaf .nullLit
  | .word "true" => leaf (.boolLit true)
  | .word "false" => leaf (.boolLit false)
  | .word "function" => functionExpr self start false []
  | .word "class" => classExpr self start []
  | .word "async" => asyncExpr self start canArrow
  | .word _ => nameOrArrow self start canArrow
  | .num raw => leaf (.numLit raw)
  | .bigInt raw => leaf (.bigLit raw)
  | .str value => leaf (.strLit value)
  | .mark .lbracket => arrayLiteral self
  | .mark .lbrace => objectLiteral self
  | .mark .tick => templateLiteral self
  | .mark .lparen => parenOrArrow self canArrow none
  | .mark .sign =>
    let ds ← decorators self false
    classExpr self start ds
  | .mark .hash =>
    advance
    let n ← anyWord
    node (.privateName n) start []
  -- where an operand begins, a slash opens a regular expression
  | .op "/" => regexLiteral
  | .op "/=" => regexLiteral
  | _ => failHere

/-! ## Members and calls -/

/-- Whether an expression is a link of an optional chain. -/
def isChained (t : Tree) : Bool :=
  match t.kind with
  | .member true _ => true
  | .call true => true
  | _ => false

/-- Whether type arguments may end before the current token when no call follows them. -/
def typeArgumentsMayEnd : Parse Bool := do
  let t ← token
  match t with
  | .mark .lparen => return false
  | .op "<" => return false
  | .op ">" => return false
  | .op "+" => return false
  | .op "-" => return false
  | _ =>
    return (← newline) || (binaryOp? true t).isSome || t == .word "as" || t == .word "satisfies" ||
      !startsExpr t

/-- Type arguments after an expression: with a call, with a template, or alone. -/
def typedTail (self : Parser) (start : Nat) (noCall : Bool) (e : Tree) : Parse Tree := do
  let _ ← typeArguments self
  if !noCall && (← isMark .lparen) then
    let args ← arguments self
    node (.call (isChained e)) start (e :: args)
  else if ← isMark .tick then taggedTemplate self start e
  else if ← typeArgumentsMayEnd then node (.ascribed .instantiated) start [e]
  else failHere

/-- The name after a dot. -/
def memberAfterDot (start : Nat) (chained : Bool) (e : Tree) : Parse Tree := do
  if ← eatMark .hash then
    let n ← anyWord
    node (.member chained (.hidden n)) start [e]
  else
    let n ← anyWord
    node (.member chained (.named n)) start [e]

/-- One link after an expression; `none` when no link follows. -/
def link? (self : Parser) (start : Nat) (noCall : Bool) (e : Tree) : Parse (Option Tree) := do
  let isTyped ← typed
  if isTyped && !(← newline) && (← isOp "!") then
    advance
    return some (← node (.ascribed .nonNull) start [e])
  -- type arguments, taken back when they turn out to be a comparison
  let typedLink ← do
    if isTyped && ((← isOp "<") || (← isOp "<<")) then
      attempt (typedTail self start noCall e)
    else pure none
  if typedLink.isSome then return typedLink
  match ← token with
  | .mark .questionDot =>
    advance
    if ← isMark .lbracket then
      advance
      let p ← withIn (self .expr)
      expectMark .rbracket
      return some (← node (.member true .computed) start [e, p])
    else if ← isMark .lparen then
      let args ← arguments self
      return some (← node (.call true) start (e :: args))
    else if isTyped && (← isOp "<") then
      let _ ← typeArguments self
      let args ← arguments self
      return some (← node (.call true) start (e :: args))
    else return some (← memberAfterDot start true e)
  | .mark .lbracket =>
    advance
    let p ← withIn (self .expr)
    expectMark .rbracket
    return some (← node (.member (isChained e) .computed) start [e, p])
  | .mark .lparen =>
    -- the caller reads the arguments, as those of a call or of a construction
    if noCall then return none
    let args ← arguments self
    return some (← node (.call (isChained e)) start (e :: args))
  | .mark .dot =>
    advance
    return some (← memberAfterDot start (isChained e) e)
  | .mark .tick => return some (← taggedTemplate self start e)
  | _ => return none

/-- An expression with all links after it. -/
def links (self : Parser) (start : Nat) (noCall : Bool) (e : Tree) : Parse Tree :=
  iterate e fun e => do
    match ← link? self start noCall e with
    | some e => return .inl e
    | none => return .inr e

/-- An expression that starts with `super`. -/
def superExpr (self : Parser) (noCall : Bool) : Parse Tree := do
  let start ← here
  expectWord "super"
  let base ← node .superRef start []
  let allowed := (← read).superAllowed || (← typed)
  match ← token with
  | .mark .lparen =>
    if noCall then failAt start
    let args ← arguments self
    let e ← node (.call false) start (base :: args)
    links self start noCall e
  | .mark .dot =>
    -- outside of a method only its call may stand
    unless allowed do failAt start
    advance
    let n ← anyWord
    let e ← node (.superMember (.named n)) start [base]
    links self start noCall e
  | .mark .lbracket =>
    unless allowed do failAt start
    advance
    let p ← withIn (self .expr)
    expectMark .rbracket
    let e ← node (.superMember .computed) start [base, p]
    links self start noCall e
  | _ => failAt start

/-- An expression that starts with `import`. -/
def importExpr (self : Parser) (noCall : Bool) : Parse Tree := do
  let start ← here
  expectWord "import"
  let base ← node .importRef start []
  if ← eatMark .dot then
    if ← eatWord "meta" then
      let e ← node (.metaProperty "import.meta") start []
      links self start noCall e
    else if ← eatWord "source" <||> eatWord "defer" then
      let args ← arguments self
      let e ← node (.call false) start (base :: args)
      links self start noCall e
    else failHere
  else
    let args ← arguments self
    let e ← node (.call false) start (base :: args)
    links self start noCall e

/-- What `new` applies to, or the start of a call: an expression with all links but calls. -/
def calleeExpr (self : Parser) : Parse Tree := do
  let start ← here
  match ← token with
  | .word "new" =>
    advance
    if ← eatMark .dot then
      expectWord "target"
      let e ← node (.metaProperty "new.target") start []
      links self start true e
    else
      let callee ← self .callee
      match callee.kind with
      | .arrow _ => return callee
      | _ =>
        -- what may be missing cannot be constructed
        if isChained callee then failAt callee.span.start
        if ← typed then
          let _ ← attempt do
            let _ ← typeArguments self
            unless ← isMark .lparen do failHere
        if ← isMark .lparen then
          let args ← arguments self
          let e ← node (.construct true) start (callee :: args)
          links self start true e
        else node (.construct false) start [callee]
  | .word "super" => superExpr self true
  | .word "import" => importExpr self true
  | _ =>
    let e ← primary self
    match e.kind with
    | .arrow _ => return e
    | _ => links self start true e

/-- An expression with all links, calls included, that starts with no markup. -/
def callExpr (self : Parser) (start : Nat) : Parse Tree := do
  let e ← calleeExpr self
  match e.kind with
  | .arrow _ => return e
  | .construct false => return e
  | _ =>
    if (← typed) && ((← isOp "<") || (← isOp "<<")) then
      -- the types matter only in front of a call, and they leave no trace in the tree
      let _ ← attempt do
        let _ ← typeArguments self
        unless ← isMark .lparen do failHere
    if ← isMark .lparen then
      let args ← arguments self
      let call ← node (.call (isChained e)) start (e :: args)
      links self start false call
    else return e

/-- An expression with all links, calls included. -/
def lhsExpr (self : Parser) : Parse Tree := do
  let start ← here
  match ← token with
  | .op text =>
    if (← dialect).markup && text.front == '<' then self .markup else callExpr self start
  | .word "super" => superExpr self false
  | .word "import" => importExpr self false
  | _ => callExpr self start

/-! ## Operators -/

/-- An awaited expression, or the plain name when nothing is awaited. -/
def awaitExpr (self : Parser) : Parse Tree := do
  let start ← here
  expectWord "await"
  let t ← token
  if (← isEnd) || [.mark .rparen, .mark .rbracket, .mark .comma].contains t then
    node (.ident "await") start []
  else
    let e ← self .unary
    node .await start [e]

/-- An expression with its leading and trailing operators. -/
def unaryExpr (self : Parser) : Parse Tree := do
  let start ← here
  let leading (op : String) : Parse Tree := do
    advance
    let place ← here
    match ← orStay (self .unary) with
    | .ok e => node (.unary op) start [e]
    -- an operand that cannot be read is marked, and the reading goes on behind it
    | .error _ => node (.unary op) start [Tree.leaf .invalid (Span.point place)]
  let d ← dialect
  match ← token with
  | .op "<" =>
    if d.typed && !d.markup then
      advance
      let form ← if ← eatWord "const" then pure Ascription.asConst
        else do
          let _ ← self .type
          pure Ascription.angle
      expectGreater
      let e ← self .unary
      node (.ascribed form) start [e]
    else lhsExpr self
  | .op "++" =>
    advance
    let e ← self .unary
    node (.update "++" true) start [e]
  | .op "--" =>
    advance
    let e ← self .unary
    node (.update "--" true) start [e]
  | .op "+" => leading "+"
  | .op "-" => leading "-"
  | .op "~" => leading "~"
  | .op "!" => leading "!"
  | .word "delete" => leading "delete"
  | .word "void" => leading "void"
  | .word "typeof" => leading "typeof"
  | .word "await" => awaitExpr self
  | _ =>
    let e ← lhsExpr self
    match e.kind with
    | .arrow _ => return e
    | _ =>
      if ← newline then return e
      else if ← eatOp "++" then node (.update "++" false) start [e]
      else if ← eatOp "--" then node (.update "--" false) start [e]
      else return e

/-- The binary operators after an operand that bind tighter than `least`. -/
def binaryTail (self : Parser) : Nat → Tree → Nat → Parse Tree
  | 0, _, _ => failHere
  | fuel + 1, left, least => do
    let start := left.span.start
    let isTyped ← typed
    let t ← token
    if isTyped && !(← newline) && least < 7 && t == .word "as" then
      advance
      if ← eatWord "const" then
        let e ← node (.ascribed .asConst) start [left]
        binaryTail self fuel e least
      else
        let ty ← self .type
        let e ← node (.ascribed .asType) start [left, ty]
        binaryTail self fuel e least
    else if isTyped && !(← newline) && least < 7 && t == .word "satisfies" then
      advance
      let ty ← self .type
      let e ← node (.ascribed .satisfies) start [left, ty]
      binaryTail self fuel e least
    else
      match binaryOp? (← read).allowIn t with
      | none => return left
      | some op =>
        let p := precedence op
        if p ≤ least then return left
        else
          advance
          if op == "**" then
            match left.kind with
            | .unary _ => failHere
            | .await => failHere
            | _ => pure ()
          let operand ← self .unary
          -- powers group to the right, everything else to the left
          let right ← binaryTail self fuel operand (if op == "**" then p - 1 else p)
          let e ← node (.binary op) start [left, right]
          binaryTail self fuel e least

/-- An expression of binary operators. -/
def binaryExpr (self : Parser) : Parse Tree := do
  match ← orStay (self .unary) with
  | .ok e =>
    match e.kind with
    | .arrow _ => return e
    | _ => binaryTail self (← read).bound e 0
  | .error offset =>
    match binaryOp? (← read).allowIn (← token) with
    | some _ => binaryTail self (← read).bound (Tree.leaf .invalid (Span.point offset)) 0
    | none => failAt offset

/-- A conditional expression. -/
def conditionalExpr (self : Parser) : Parse Tree := do
  let start ← here
  let test ← binaryExpr self
  match test.kind with
  | .arrow _ => return test
  | _ => if ← eatMark .question then conditionalTail self start test else return test

/-- A `yield` expression. -/
def yieldExpr (self : Parser) : Parse Tree := do
  let start ← here
  expectWord "yield"
  let t ← token
  if (← isEnd) || !(startsExpr t || t == .op "*") then node (.yield false) start []
  else
    let delegate ← eatOp "*"
    let e ← self .assign
    node (.yield delegate) start [e]

/-- An assignment, or what could be assigned to, without type parameters in front. -/
def assignBase (self : Parser) : Parse Tree := do
  let start ← here
  if (← read).generator && (← isWord "yield") then yieldExpr self
  else
    let e ← withReader (fun c => { c with arrowAt := some start }) (conditionalExpr self)
    match e.kind with
    | .arrow _ => return e
    | .conditional => return e
    | .binary _ => return e
    | .unary _ => return e
    | .update _ _ => return e
    | _ => assignTail self start e

/-- An arrow function with type parameters. -/
def genericArrow (self : Parser) : Parse Tree := do
  typeParameters self
  let e ← assignBase self
  match e.kind with
  | .arrow _ => return e
  | _ => failHere

/-- An assignment expression. -/
def assignExpr (self : Parser) : Parse Tree := do
  let d ← dialect
  if d.typed && (← isOp "<") then
    let asMarkup ← if d.markup then attempt (assignBase self) else pure none
    match asMarkup with
    | some e => return e
    | none =>
      let arrow? ← if isAnyWord (← peek).token then attempt (genericArrow self) else pure none
      match arrow? with
      | some e => return e
      | none => assignBase self
  else assignBase self

/-- Expressions joined by commas. -/
def expr (self : Parser) : Parse Tree := do
  let start ← here
  let first ← self .assign
  if ← isMark .comma then
    let es ← iterate [first] fun acc => do
      if ← eatMark .comma then return .inl ((← self .assign) :: acc)
      else return .inr acc.reverse
    node .sequence start es
  else return first

end TextHarvest.Script.Grammar
