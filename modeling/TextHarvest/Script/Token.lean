import TextHarvest.Script.Literal
import TextHarvest.Text.Offset

/-!
# Tokens of scripts

The scanner reads one token at a time from the characters that are left. It always reads a slash
as an operator, the start of a template as a single mark and markup as operators and words: the
grammar reads those again where they mean something else. Text that is no token becomes an error
token, which the grammar reports when it gets there.
-/

namespace TextHarvest.Script

/-- The marks that structure a script. -/
inductive Mark where
  | lparen
  | rparen
  | lbracket
  | rbracket
  | lbrace
  | rbrace
  | semicolon
  | comma
  | colon
  | question
  | questionDot
  | dot
  | ellipsis
  | arrow
  | sign
  | hash
  | tick
  deriving DecidableEq, Repr

/-- A token. Keywords are words; operators, those of assignment included, are told apart by their
text. -/
inductive Token where
  | eof
  | word (name : String)
  | num (raw : String)
  | bigInt (raw : String)
  | str (value : Option String)
  | mark (m : Mark)
  | op (text : String)
  | error (offset : Nat)
  deriving DecidableEq, Repr

/-- A token with its place, and whether a line ended between it and the token before. -/
structure Lexeme where
  token : Token
  span : Span
  newline : Bool
  deriving DecidableEq, Repr

/-! ## Gaps between tokens -/

/-- The blanks of scripts that do not end a line. -/
def isSpace (c : Char) : Bool :=
  let n := c.toNat
  n == 0x20 || n == 9 || n == 0xb || n == 0xc || n == 0xa0 || n == 0xfeff || n == 0x1680 ||
    (0x2000 ≤ n && n ≤ 0x200a) || n == 0x202f || n == 0x205f || n == 0x3000

/-- What a gap is made of at the current character. -/
inductive GapMode where
  | blank
  | lineComment
  | blockComment (start : Nat)

/-- The end of a gap: what is left, its offset, whether a line ended, and the offset of a comment
that is not closed. -/
structure Gap where
  rest : List Char
  pos : Nat
  newline : Bool
  unclosed : Option Nat

/-- Skips blanks and comments. The end of a markup comment opens a comment of its own when no token
stands before it on its line. -/
def skipGap : GapMode → List Char → Nat → Bool → Gap
  | .blockComment start, [], pos, nl => ⟨[], pos, nl, some start⟩
  | _, [], pos, nl => ⟨[], pos, nl, none⟩
  | .blank, '/' :: '/' :: cs, pos, nl => skipGap .lineComment cs (pos + 2) nl
  | .blank, '/' :: '*' :: cs, pos, nl => skipGap (.blockComment pos) cs (pos + 2) nl
  | .blank, '<' :: '!' :: '-' :: '-' :: cs, pos, nl => skipGap .lineComment cs (pos + 4) nl
  -- an arrow out of a comment counts only at the beginning of a line
  | .blank, '-' :: '-' :: '>' :: cs, pos, nl =>
    if nl then skipGap .lineComment cs (pos + 3) nl else ⟨'-' :: '-' :: '>' :: cs, pos, nl, none⟩
  | .blank, c :: cs, pos, nl =>
    if isLineBreak c then skipGap .blank cs (pos + c.utf8Size) true
    else if isSpace c then skipGap .blank cs (pos + c.utf8Size) nl
    else ⟨c :: cs, pos, nl, none⟩
  | .lineComment, c :: cs, pos, nl =>
    if isLineBreak c then skipGap .blank cs (pos + c.utf8Size) true
    else skipGap .lineComment cs (pos + c.utf8Size) nl
  | .blockComment _, '*' :: '/' :: cs, pos, nl => skipGap .blank cs (pos + 2) nl
  | .blockComment start, c :: cs, pos, nl =>
    skipGap (.blockComment start) cs (pos + c.utf8Size) (nl || isLineBreak c)

/-! ## Words -/

/-- The length of the part of an escape in a word that is well formed; the escape is not. -/
def badEscapeLength : List Char → Nat
  | 'u' :: '\x7b' :: cs =>
    let digits := cs.takeWhile fun c => (Text.digitValue? 16 c).isSome
    if digits.length < cs.length then 2 + digits.length else 2
  | 'u' :: cs => 1 + ((cs.take 4).takeWhile fun c => (Text.digitValue? 16 c).isSome).length
  | _ => 0

/-- An escape inside a word, after its backslash: the character and how many characters it takes, or
how far behind the backslash it goes wrong. -/
def wordEscape (cs : List Char) : Except Nat (Char × Nat) :=
  match cs with
  | 'u' :: _ =>
    match readEscape false cs with
    | .code (some n) len =>
      match Text.charOfCode? n with
      | some c => .ok (c, len)
      | none => .error 0
    | _ => .error (1 + badEscapeLength cs)
  | _ => .error 0

/-- The rest of a word that holds escapes; an error is the offset where an escape goes wrong. -/
def wordFrom : List Char → Nat → Nat → List Char → Except Nat (List Char × Nat × List Char)
  | [], pos, _, acc => .ok (acc.reverse, pos, [])
  | c :: cs, pos, skip + 1, acc => wordFrom cs (pos + c.utf8Size) skip acc
  | c :: cs, pos, 0, acc =>
    if c == '\\' then
      match wordEscape cs with
      | .ok (d, len) =>
        if Text.isIdPart d then wordFrom cs (pos + 1) len (d :: acc) else .error pos
      | .error length => .error (pos + length)
    else if Text.isIdPart c then wordFrom cs (pos + c.utf8Size) 0 (c :: acc)
    else .ok (acc.reverse, pos, c :: cs)

/-! ## Operators -/

/-- A mark or operator at the front, the longest that fits, and its length. -/
def punctuation? : List Char → Option (Token × Nat)
  | '(' :: _ => some (.mark .lparen, 1)
  | ')' :: _ => some (.mark .rparen, 1)
  | '[' :: _ => some (.mark .lbracket, 1)
  | ']' :: _ => some (.mark .rbracket, 1)
  | '\x7b' :: _ => some (.mark .lbrace, 1)
  | '\x7d' :: _ => some (.mark .rbrace, 1)
  | ';' :: _ => some (.mark .semicolon, 1)
  | ',' :: _ => some (.mark .comma, 1)
  | ':' :: _ => some (.mark .colon, 1)
  | '@' :: _ => some (.mark .sign, 1)
  | '#' :: _ => some (.mark .hash, 1)
  | '\x60' :: _ => some (.mark .tick, 1)
  | '~' :: _ => some (.op "~", 1)
  | '.' :: '.' :: '.' :: _ => some (.mark .ellipsis, 3)
  | '.' :: _ => some (.mark .dot, 1)
  | '?' :: '?' :: '=' :: _ => some (.op "??=", 3)
  | '?' :: '?' :: _ => some (.op "??", 2)
  | '?' :: '.' :: c :: _ =>
    -- a condition whose first branch is a fraction
    if c.isDigit then some (.mark .question, 1) else some (.mark .questionDot, 2)
  | '?' :: '.' :: [] => some (.mark .questionDot, 2)
  | '?' :: _ => some (.mark .question, 1)
  | '=' :: '=' :: '=' :: _ => some (.op "===", 3)
  | '=' :: '=' :: _ => some (.op "==", 2)
  | '=' :: '>' :: _ => some (.mark .arrow, 2)
  | '=' :: _ => some (.op "=", 1)
  | '!' :: '=' :: '=' :: _ => some (.op "!==", 3)
  | '!' :: '=' :: _ => some (.op "!=", 2)
  | '!' :: _ => some (.op "!", 1)
  | '+' :: '+' :: _ => some (.op "++", 2)
  | '+' :: '=' :: _ => some (.op "+=", 2)
  | '+' :: _ => some (.op "+", 1)
  | '-' :: '-' :: _ => some (.op "--", 2)
  | '-' :: '=' :: _ => some (.op "-=", 2)
  | '-' :: _ => some (.op "-", 1)
  | '*' :: '*' :: '=' :: _ => some (.op "**=", 3)
  | '*' :: '*' :: _ => some (.op "**", 2)
  | '*' :: '=' :: _ => some (.op "*=", 2)
  | '*' :: _ => some (.op "*", 1)
  | '/' :: '=' :: _ => some (.op "/=", 2)
  | '/' :: _ => some (.op "/", 1)
  | '%' :: '=' :: _ => some (.op "%=", 2)
  | '%' :: _ => some (.op "%", 1)
  | '<' :: '<' :: '=' :: _ => some (.op "<<=", 3)
  | '<' :: '<' :: _ => some (.op "<<", 2)
  | '<' :: '=' :: _ => some (.op "<=", 2)
  | '<' :: _ => some (.op "<", 1)
  | '>' :: '>' :: '>' :: '=' :: _ => some (.op ">>>=", 4)
  | '>' :: '>' :: '>' :: _ => some (.op ">>>", 3)
  | '>' :: '>' :: '=' :: _ => some (.op ">>=", 3)
  | '>' :: '>' :: _ => some (.op ">>", 2)
  | '>' :: '=' :: _ => some (.op ">=", 2)
  | '>' :: _ => some (.op ">", 1)
  | '&' :: '&' :: '=' :: _ => some (.op "&&=", 3)
  | '&' :: '&' :: _ => some (.op "&&", 2)
  | '&' :: '=' :: _ => some (.op "&=", 2)
  | '&' :: _ => some (.op "&", 1)
  | '|' :: '|' :: '=' :: _ => some (.op "||=", 3)
  | '|' :: '|' :: _ => some (.op "||", 2)
  | '|' :: '=' :: _ => some (.op "|=", 2)
  | '|' :: _ => some (.op "|", 1)
  | '^' :: '=' :: _ => some (.op "^=", 2)
  | '^' :: _ => some (.op "^", 1)
  | _ => none

/-! ## The scanner -/

/-- A number token, which no letter may follow. -/
def numberToken (cs : List Char) (pos : Nat) : Token × Nat × List Char :=
  match readNumber cs with
  | .bad length => (.error (pos + length), pos + length, cs.drop length)
  | .number raw big length rest =>
    let stop := pos + length
    let starts := match rest with
      | c :: _ => Text.isIdStart c
      | [] => false
    if starts then (.error stop, stop, rest)
    else if big then (.bigInt (String.ofList raw), stop, rest)
    else (.num (String.ofList raw), stop, rest)

/-- The token at the front of characters that start with no blank: the token, where it stops and
what is left. -/
def scanToken (cs : List Char) (pos : Nat) : Token × Nat × List Char :=
  match cs with
  | [] => (.eof, pos, [])
  | c :: rest =>
    if Text.isIdStart c then
      let name := cs.takeWhile Text.isIdPart
      let after := cs.dropWhile Text.isIdPart
      -- the name goes on with an escape, so it is read again as a whole
      if after.head? == some '\\' then
        match wordFrom cs pos 0 [] with
        | .ok (name, stop, after) => (.word (String.ofList name), stop, after)
        | .error offset => (.error offset, pos + Chars.size name, after)
      else (.word (String.ofList name), pos + Chars.size name, after)
    else if c == '\x22' || c == '\x27' then
      match readString c rest (pos + 1) 0 [] with
      | .closed value stop after => (.str value, stop, after)
      | .badEscape offset => (.error offset, pos + 1, rest)
    else if c.isDigit || (c == '.' && (rest.head?.any Char.isDigit)) then numberToken cs pos
    else if c == '\\' then
      match wordFrom cs pos 0 [] with
      | .ok (name, stop, after) => (.word (String.ofList name), stop, after)
      | .error offset => (.error offset, pos + 1, rest)
    else
      match punctuation? cs with
      | some (token, len) => (token, pos + len, cs.drop len)
      | none => (.error pos, pos + c.utf8Size, rest)

/-- The next token after any gap, with the characters from its start on and those after it. -/
def scan (cs : List Char) (pos : Nat) : Lexeme × List Char × List Char :=
  let gap := skipGap .blank cs pos (pos == 0)
  match gap.unclosed with
  | some start => (⟨.error start, ⟨start, gap.pos⟩, gap.newline⟩, [], [])
  | none =>
    let (token, stop, rest) := scanToken gap.rest gap.pos
    (⟨token, ⟨gap.pos, stop⟩, gap.newline⟩, gap.rest, rest)

end TextHarvest.Script
