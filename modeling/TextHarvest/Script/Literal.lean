import TextHarvest.Text.Entity
import TextHarvest.Text.Letter

/-!
# Literals of scripts

Readers for the inside of string literals, template chunks, regular expressions and numbers. Each
works on the characters that follow its opening mark and says what it read, where it stopped and
what is left.

Values are gathered as code points, because an escape may name one half of a surrogate pair; a
value with an unpaired half is not a text.
-/

namespace TextHarvest.Script

/-- The characters that end a line. -/
def isLineBreak (c : Char) : Bool :=
  c == '\n' || c == '\r' || c == '\u2028' || c == '\u2029'

/-! ## Code points -/

/-- Adds a code point to a reversed value; a low surrogate completes a high one. -/
def pushCode (code : Nat) : List Nat → List Nat
  | [] => [code]
  | last :: rest =>
    if 0xdc00 ≤ code && code ≤ 0xdfff && 0xd800 ≤ last && last ≤ 0xdbff then
      (0x10000 + (last - 0xd800) * 0x400 + (code - 0xdc00)) :: rest
    else code :: last :: rest

/-- The text of a reversed list of code points, when all of them are characters. -/
def textOfCodes? (codes : List Nat) : Option String :=
  (codes.reverse.mapM Text.charOfCode?).map String.ofList

/-! ## Escapes -/

/-- What follows a backslash: the code point it stands for, or nothing for a line that continues,
and the number of characters it takes; `bad` when it is not an escape. -/
inductive Escape where
  | code (value : Option Nat) (length : Nat)
  | bad

/-- Up to `n` further octal digits, as long as the value fits a byte. -/
def octal : Nat → List Char → Nat → Nat → Nat × Nat
  | 0, _, value, len => (value, len)
  | n + 1, cs, value, len =>
    match cs with
    | c :: rest =>
      match Text.digitValue? 8 c with
      | some d => if value * 8 + d < 256 then octal n rest (value * 8 + d) (len + 1) else (value, len)
      | none => (value, len)
    | [] => (value, len)

/-- The digits of a braced code point. -/
def bracedCode (cs : List Char) : Escape :=
  let digits := cs.takeWhile (· != '\x7d')
  if digits.length == cs.length then .bad else
  match Text.digitsValue? 16 digits 0 with
  | some n => if digits.isEmpty || 0x10ffff < n then .bad else .code (some n) (digits.length + 3)
  | none => .bad

/-- Reads the escape after a backslash. Octal escapes are not allowed in templates. -/
def readEscape (inTemplate : Bool) : List Char → Escape
  | [] => .code none 0
  | c :: cs =>
    if c == 'n' then .code (some 10) 1
    else if c == 'r' then .code (some 13) 1
    else if c == 't' then .code (some 9) 1
    else if c == 'b' then .code (some 8) 1
    else if c == 'v' then .code (some 11) 1
    else if c == 'f' then .code (some 12) 1
    -- a break behind a backslash is no character, and a pair is one break
    else if c == '\r' then .code none (if cs.head? == some '\n' then 2 else 1)
    else if isLineBreak c then .code none 1
    else if c == 'x' then
      match Text.digitsValue? 16 (cs.take 2) 0 with
      | some n => if 2 ≤ cs.length then .code (some n) 3 else .bad
      | none => .bad
    else if c == 'u' then
      match cs with
      | '\x7b' :: rest => bracedCode rest
      | a :: b :: d :: e :: _ =>
        match Text.digitsValue? 16 [a, b, d, e] 0 with
        | some n => .code (some n) 5
        | none => .bad
      | _ => .bad
    else
      match Text.digitValue? 8 c with
      | none => .code (some c.toNat) 1
      | some d =>
        let more := (cs.head?.bind (Text.digitValue? 8)).isSome
        -- a zero alone is a character; other octal codes are refused in templates
        if d == 0 && !more then .code (some 0) 1
        else if inTemplate then .bad
        else
          let (value, len) := octal 2 cs d 1
          .code (some value) len

/-! ## Strings -/

/-- How the reading of a string literal ended. -/
inductive StringEnd where
  | closed (value : Option String) (stop : Nat) (rest : List Char)
  | badEscape (offset : Nat)

/-- The inside of a string literal from byte `pos` on; `skip` characters belong to an escape that
was just read. A literal that is not closed on its line ends with the line. -/
def readString (mark : Char) : List Char → Nat → Nat → List Nat → StringEnd
  | [], pos, _, acc => .closed (textOfCodes? acc) pos []
  | c :: cs, pos, skip + 1, acc => readString mark cs (pos + c.utf8Size) skip acc
  | c :: cs, pos, 0, acc =>
    if c == mark then .closed (textOfCodes? acc) (pos + 1) cs
    else if c == '\\' then
      match readEscape false cs with
      | .code (some n) len => readString mark cs (pos + 1) len (pushCode n acc)
      | .code none len => readString mark cs (pos + 1) len acc
      | .bad => .badEscape pos
    else if c == '\n' || c == '\r' then .closed (textOfCodes? acc) pos (c :: cs)
    else readString mark cs (pos + c.utf8Size) 0 (pushCode c.toNat acc)

/-! ## Templates -/

/-- What stands after a chunk of a template. -/
inductive ChunkEnd where
  | close
  | substitution
  | missing
  deriving DecidableEq

/-- A chunk of a template: its text as written, its value, the offset of a bad escape, where the
chunk stops, what ends it and what is left after that. -/
structure ChunkRead where
  raw : List Char
  codes : List Nat
  badAt : Option Nat
  stop : Nat
  ending : ChunkEnd
  rest : List Char

/-- The inside of a template from byte `pos` on, up to its end or its next substitution. Line
endings are read as line feeds. -/
def readChunk : List Char → Nat → Nat → List Char → List Nat → Option Nat → ChunkRead
  | [], pos, _, raw, acc, bad => ⟨raw.reverse, acc, bad, pos, .missing, []⟩
  | c :: cs, pos, skip + 1, raw, acc, bad => readChunk cs (pos + c.utf8Size) skip (c :: raw) acc bad
  | c :: cs, pos, 0, raw, acc, bad =>
    if c == '\x60' then ⟨raw.reverse, acc, bad, pos, .close, cs⟩
    else if c == '$' && cs.head? == some '\x7b' then
      ⟨raw.reverse, acc, bad, pos, .substitution, cs.tail⟩
    else if c == '\\' then
      match readEscape true cs with
      | .code (some n) len => readChunk cs (pos + 1) len (c :: raw) (pushCode n acc) bad
      | .code none len => readChunk cs (pos + 1) len (c :: raw) acc bad
      -- a bad escape is an error only in a template without a tag, so the reading goes on
      | .bad => readChunk cs (pos + 1) 1 (c :: raw) acc (bad.or (some pos))
    else if c == '\r' then
      -- in the cooked text every break is a line feed
      let skip := if cs.head? == some '\n' then 1 else 0
      readChunk cs (pos + 1) skip (c :: raw) (pushCode 10 acc) bad
    else readChunk cs (pos + c.utf8Size) 0 (c :: raw) (pushCode c.toNat acc) bad

/-! ## Regular expressions -/

/-- The inside of a regular expression up to its closing slash: the number of characters it takes,
the slash included. -/
def regexBody : List Char → Bool → Bool → Nat → Option (Nat × List Char)
  | [], _, _, _ => none
  | c :: cs, escaped, inClass, n =>
    if isLineBreak c then none
    else if escaped then regexBody cs false inClass (n + 1)
    else if c == '\\' then regexBody cs true inClass (n + 1)
    else if c == '[' then regexBody cs false true (n + 1)
    else if c == ']' then regexBody cs false false (n + 1)
    else if c == '/' && !inClass then some (n + 1, cs)
    else regexBody cs false inClass (n + 1)

/-! ## Numbers -/

/-- How the reading of a number ended: with its digits as they count, whether it is a big one, its
length and what is left; or with the length up to where a digit is missing. -/
inductive NumberEnd where
  | number (raw : List Char) (big : Bool) (length : Nat) (rest : List Char)
  | bad (length : Nat)

/-- The digits of a base at the front, with separators. -/
def digitRun (base : Nat) (cs : List Char) : List Char × List Char :=
  cs.span fun c => c == '_' || (Text.digitValue? base c).isSome

/-- The rest of a number after the mark of its base. -/
def radixNumber (base : Nat) (mark cs : List Char) : NumberEnd :=
  let (ds, rest) := digitRun base cs
  if ds.isEmpty then .bad 2
  else
    match rest with
    | 'n' :: rest => .number (mark ++ ds ++ ['n']) true (ds.length + 3) rest
    | rest => .number (mark ++ ds) false (ds.length + 2) rest

/-- The exponent of a number after its mark; `before` is what stands before the mark. A plus sign
does not count. -/
def exponentNumber (before cs : List Char) : NumberEnd :=
  let (sign, written, cs) : List Char × Nat × List Char := match cs with
    | '+' :: cs => ([], 1, cs)
    | '-' :: cs => (['-'], 1, cs)
    | cs => ([], 0, cs)
  let (ds, rest) := digitRun 10 cs
  let length := before.length + 1 + written + ds.length
  if ds.isEmpty then .bad length else .number (before ++ 'e' :: sign ++ ds) false length rest

/-- A number at the front. -/
def readNumber (cs : List Char) : NumberEnd :=
  match cs with
  | '0' :: 'x' :: r => radixNumber 16 ['0', 'x'] r
  | '0' :: 'X' :: r => radixNumber 16 ['0', 'x'] r
  | '0' :: 'o' :: r => radixNumber 8 ['0', 'o'] r
  | '0' :: 'O' :: r => radixNumber 8 ['0', 'o'] r
  | '0' :: 'b' :: r => radixNumber 2 ['0', 'b'] r
  | '0' :: 'B' :: r => radixNumber 2 ['0', 'b'] r
  | _ =>
    let (whole, rest) := digitRun 10 cs
    let (fraction, rest) : List Char × List Char := match rest with
      | '.' :: r => let (f, r) := digitRun 10 r; ('.' :: f, r)
      | r => ([], r)
    let digits := whole ++ fraction
    match rest with
    | 'e' :: r => exponentNumber digits r
    | 'E' :: r => exponentNumber digits r
    | 'n' :: r =>
      -- a fraction has no integer suffix: what follows is read as a name
      if fraction.isEmpty then .number (whole ++ ['n']) true (whole.length + 1) r
      else .number digits false digits.length rest
    | r => .number digits false digits.length r

end TextHarvest.Script
