import TextHarvest.Pattern.Basic
import TextHarvest.Text.Blank
import TextHarvest.Text.Entity

/-!
# Written patterns

The usual notation of regular expressions: literals and escapes, `.`, classes in brackets with
nesting and set operations, groups, flags, alternation, repetition, anchors and word boundaries.
There are no look-arounds and no back-references.
-/

namespace TextHarvest.Pattern.Reader

/-- The flags that can be switched inside a pattern. -/
structure Flags where
  anyCase : Bool := false
  multiLine : Bool := false
  dotAll : Bool := false
  /-- Blanks and comments are left out. -/
  spaced : Bool := false
  /-- A carriage return before a line feed belongs to the line break. -/
  pairs : Bool := false
  /-- Only the basic characters belong to classes. -/
  basic : Bool := false

/-- The value and the rest, or `none` when the pattern is not well formed. -/
abbrev Read (α : Type) := Option (α × List Char)

/-- Drops blanks and comments; `inComment` within a comment, which ends with its line. -/
def dropSpaced : Bool → List Char → List Char
  | _, [] => []
  | true, c :: cs => dropSpaced (c != '\n') cs
  | false, c :: cs =>
    if Chars.isBlank c then dropSpaced false cs
    else if c == '#' then dropSpaced true cs
    else c :: cs

/-- What follows the blanks and comments that the flags allow. -/
def skip (f : Flags) (cs : List Char) : List Char :=
  if f.spaced then dropSpaced false cs else cs

/-- A set without regard to case, if the flags say so. -/
def fold (f : Flags) (s : CharSet) : CharSet :=
  if !f.anyCase then s
  else if f.basic then .inter (.anyCase s) (.union s .ascii)
  else .anyCase s

/-- A set or its complement. -/
def signed (negated : Bool) (s : CharSet) : CharSet :=
  if negated then .compl s else s

/-- A set that may stand in a pattern: one of basic characters holds no others. -/
def checked? (f : Flags) (s : CharSet) : Option CharSet :=
  if f.basic && (List.range 128).any (fun k => s.mem (128 + k)) then none else some s

/-- The characters of words. -/
def wordSet (f : Flags) : CharSet :=
  if f.basic then .inter .wordChars .ascii else .wordChars

/-- The character whose code point the digits write in hexadecimal. -/
def hexChar? (ds : List Char) : Option Char :=
  (Text.digitsValue? 16 ds 0).bind Text.charOfCode?

/-- A code point in hexadecimal, with the given number of digits or between braces. -/
def hexCode? (digits : Nat) (cs : List Char) : Read Char :=
  match cs with
  | '\x7b' :: rest =>
    let ds := rest.takeWhile (· != '\x7d')
    if ds.isEmpty || ds.length == rest.length then none
    else (hexChar? ds).map (·, rest.drop (ds.length + 1))
  | _ =>
    if cs.length < digits then none else (hexChar? (cs.take digits)).map (·, cs.drop digits)

/-- A byte in hexadecimal; where only basic characters count it has to be one. -/
def hexByte? (f : Flags) (cs : List Char) : Read Char :=
  match hexCode? 2 cs with
  | some (c, r) =>
    if f.basic && cs.head? != some '\x7b' && 128 ≤ c.toNat then none else some (c, r)
  | none => none

/-- The set that the text between the braces after `\p` names, and whether it is turned round. -/
def namedSet? (name : List Char) : Option (Bool × CharSet) :=
  let cut (sep : List Char) : Option (List Char × List Char) :=
    (List.range name.length).findSome? fun i =>
      if sep.isPrefixOf (name.drop i) then some (name.take i, name.drop (i + sep.length)) else none
  let valued (p : List Char × List Char) : Option CharSet :=
    CharSet.valued? (CharSet.plainName p.1) (CharSet.plainName p.2)
  match cut ['!', '='], cut [':'], cut ['='] with
  | some p, _, _ => (valued p).map (true, ·)
  | none, some p, _ => (valued p).map (false, ·)
  | none, none, some p => (valued p).map (false, ·)
  | none, none, none => (CharSet.named? (CharSet.plainName name)).map (false, ·)

/-- The set after `\p`. -/
def property? (f : Flags) (negated : Bool) (cs : List Char) : Read CharSet :=
  let found : Read (Bool × CharSet) := match skip f cs with
    | '\x7b' :: r =>
      let name := r.takeWhile (· != '\x7d')
      if name.length == r.length then none
      else (namedSet? name).map (·, r.drop (name.length + 1))
    | c :: r => (CharSet.category? (CharSet.plainName [c])).map fun s => ((false, s), r)
    | [] => none
  match found with
  | some ((turned, s), r) => if f.basic then none else some (signed (negated != turned) (fold f s), r)
  | none => none

/-- What an escape stands for. -/
inductive Escaped where
  | char (c : Char)
  | set (s : CharSet)
  | place (l : Place)

/-- A boundary of words such as `\b` with a name between braces, after its letter. -/
def wordBoundary? (f : Flags) (cs : List Char) : Read Place :=
  let plain : Read Place := some (.wordEdge (wordSet f), cs)
  let isPart (c : Char) : Bool := c.isAlpha || c == '-'
  match cs with
  | '\x7b' :: r =>
    let r := skip f r
    let name := r.takeWhile isPart
    -- a brace without letters is a count of repetitions, read elsewhere
    if name.isEmpty then plain
    else
      match String.ofList name, skip f (r.drop name.length) with
      | "start", '\x7d' :: r => some (.wordStart (wordSet f), r)
      | "end", '\x7d' :: r => some (.wordEnd (wordSet f), r)
      | "start-half", '\x7d' :: r => some (.afterNoWord (wordSet f), r)
      | "end-half", '\x7d' :: r => some (.beforeNoWord (wordSet f), r)
      | _, _ => none
  | _ => plain

/-- An escape after its backslash. -/
def escape? (f : Flags) (cs : List Char) : Read Escaped :=
  let basic (s : CharSet) : CharSet := if f.basic then .inter s .ascii else s
  match cs with
  | [] => none
  | 'd' :: r => some (.set (basic .digits), r)
  | 'D' :: r => some (.set (.compl (basic .digits)), r)
  | 's' :: r => some (.set (basic .blanks), r)
  | 'S' :: r => some (.set (.compl (basic .blanks)), r)
  | 'w' :: r => some (.set (wordSet f), r)
  | 'W' :: r => some (.set (.compl (wordSet f)), r)
  | 'p' :: r => (property? f false r).map fun (s, r) => (.set s, r)
  | 'P' :: r => (property? f true r).map fun (s, r) => (.set s, r)
  | 'b' :: r => (wordBoundary? f r).map fun (l, r) => (.place l, r)
  | 'B' :: r => if f.basic then none else some (.place (.notWordEdge (wordSet f)), r)
  | '<' :: r => some (.place (.wordStart (wordSet f)), r)
  | '>' :: r => some (.place (.wordEnd (wordSet f)), r)
  | 'A' :: r => some (.place .textStart, r)
  | 'z' :: r => some (.place .textEnd, r)
  | 'n' :: r => some (.char '\n', r)
  | 't' :: r => some (.char '\t', r)
  | 'r' :: r => some (.char '\r', r)
  | 'f' :: r => some (.char '\x0c', r)
  | 'v' :: r => some (.char '\x0b', r)
  | 'a' :: r => some (.char '\x07', r)
  | 'x' :: r => (hexByte? f r).map fun (c, r) => (.char c, r)
  | 'u' :: r => (hexCode? 4 r).map fun (c, r) => (.char c, r)
  | 'U' :: r => (hexCode? 8 r).map fun (c, r) => (.char c, r)
  -- a letter or digit without a meaning is refused, a sign stands for itself
  | c :: r => if c.toNat < 128 && !c.isAlphanum then some (.char c, r) else none

/-! ## Classes in brackets -/

/-- The named classes of basic characters. -/
def posix? (name : String) : Option (List (Nat × Nat)) :=
  match name with
  | "alnum" => some [(48, 57), (65, 90), (97, 122)]
  | "alpha" => some [(65, 90), (97, 122)]
  | "ascii" => some [(0, 127)]
  | "blank" => some [(9, 9), (32, 32)]
  | "cntrl" => some [(0, 31), (127, 127)]
  | "digit" => some [(48, 57)]
  | "graph" => some [(33, 126)]
  | "lower" => some [(97, 122)]
  | "print" => some [(32, 126)]
  | "punct" => some [(33, 47), (58, 64), (91, 96), (123, 126)]
  | "space" => some [(9, 13), (32, 32)]
  | "upper" => some [(65, 90)]
  | "word" => some [(48, 57), (65, 90), (95, 95), (97, 122)]
  | "xdigit" => some [(48, 57), (65, 70), (97, 102)]
  | _ => none

/-- A named class such as `[:alpha:]`, after its opening bracket and colon. -/
def posixClass? (f : Flags) (cs : List Char) : Read CharSet :=
  let (negated, cs) := match cs with
    | '^' :: r => (true, r)
    | r => (false, r)
  let name := cs.takeWhile (· != ':')
  match cs.drop name.length with
  | ':' :: ']' :: r =>
    (posix? (String.ofList name)).map fun rs => (signed negated (fold f (.ranges rs)), r)
  | _ => none

/-- One member of a class that is a character or a set. -/
def classMember? (f : Flags) (cs : List Char) : Read (Char ⊕ CharSet) :=
  let single (c : Char) (r : List Char) : Read (Char ⊕ CharSet) :=
    if f.basic && 128 ≤ c.toNat then none else some (.inl c, r)
  match cs with
  | [] => none
  | '\\' :: r =>
    match escape? f r with
    | some (.char c, r) => single c r
    | some (.set s, r) => some (.inr s, r)
    | _ => none
  | c :: r => single c r

/-- A member of a class: a character, a set, or a range between two characters. -/
def classRange? (f : Flags) (cs : List Char) : Read CharSet :=
  match classMember? f cs with
  | none => none
  | some (first, r) =>
    let alone : Read CharSet := match first with
      | .inl c => some (.one c, r)
      | .inr s => some (s, r)
    match skip f r with
    | '-' :: r' =>
      match first, skip f r' with
      -- a dash at the end of the class, or in front of another one, makes no range
      | _, ']' :: _ => alone
      | _, '-' :: _ => alone
      | .inl c, r' =>
        match classMember? f r' with
        | some (.inl d, r'') =>
          if c.toNat ≤ d.toNat then some (.ranges [(c.toNat, d.toNat)], r'') else none
        | _ => none
      | .inr _, _ => none
    | _ => alone

/-- A set operation between two parts of a class. -/
def combine (f : Flags) (op : Char) (s t : CharSet) : CharSet :=
  let s := fold f s
  let t := fold f t
  if op == '&' then .inter s t
  else if op == '-' then .diff s t
  else .union (.diff s t) (.diff t s)

/-- The literal characters at the start of a class: any lines, or else a closing bracket. -/
def classStart (f : Flags) (cs : List Char) : CharSet × List Char :=
  let rec lines : Nat → List Char → CharSet × List Char
    | fuel + 1, '-' :: r => (.one '-', (lines fuel (skip f r)).2)
    | _, r => (.none, r)
  match lines cs.length cs with
  | (.ranges [], ']' :: r) => (.one ']', r)
  | found => found

mutual

/-- The members of a class up to its bracket. `acc` is the set so far; `left` is the set before a
set operation, with its sign. -/
def members? (f : Flags) :
    Nat → List Char → CharSet → Option (Char × CharSet) → Read CharSet
  | 0, _, _, _ => none
  | fuel + 1, cs, acc, left =>
    -- operators are applied from the left, each to all that stands in front
    let whole := match left with
      | some (op, s) => combine f op s acc
      | none => acc
    match skip f cs with
    | [] => none
    | ']' :: r => some (whole, r)
    | '&' :: '&' :: r => members? f fuel r .none (some ('&', whole))
    | '-' :: '-' :: r => members? f fuel r .none (some ('-', whole))
    | '~' :: '~' :: r => members? f fuel r .none (some ('~', whole))
    -- when no name follows, the colon belongs to a nested class
    | '[' :: ':' :: r =>
      match posixClass? f r with
      | some (s, r) => members? f fuel r (.union acc s) left
      | none =>
        match class? f fuel (':' :: r) with
        | some (s, r) => members? f fuel r (.union acc s) left
        | none => none
    | '[' :: r =>
      match class? f fuel r with
      | some (s, r) => members? f fuel r (.union acc s) left
      | none => none
    | cs =>
      match classRange? f cs with
      | some (s, r) => members? f fuel r (.union acc s) left
      | none => none

/-- A class after its opening bracket. -/
def class? (f : Flags) : Nat → List Char → Read CharSet
  | 0, _ => none
  | fuel + 1, cs =>
    let (negated, cs) := match skip f cs with
      | '^' :: r => (true, skip f r)
      | r => (false, r)
    let (acc, cs) := classStart f cs
    match members? f fuel cs acc none with
    | some (s, r) => some (signed negated (fold f s), r)
    | none => none

end

/-! ## Repetition -/

/-- A pattern a fixed number of times. -/
def times (p : Pattern) : Nat → Pattern
  | 0 => .empty
  | 1 => p
  | n + 1 => .seq p (times p n)

/-- A pattern at most a number of times. -/
def upTo (p : Pattern) : Nat → Pattern
  | 0 => .empty
  | n + 1 => .alt .empty (.seq p (upTo p n))

/-- A number with the blanks around it; `none` for the number when there is none. -/
def count (cs : List Char) : Option Nat × List Char :=
  let cs := cs.dropWhile Chars.isBlank
  let ds := cs.takeWhile Char.isDigit
  let value := if ds.isEmpty then none else Text.digitsValue? 10 ds 0
  (value.filter (· < Nat.pow 2 32), (cs.drop ds.length).dropWhile Chars.isBlank)

/-- The bounds of a repetition after its brace: the least and, if there is one, the greatest
number. -/
def bounds? (f : Flags) (cs : List Char) : Read (Nat × Option Nat) :=
  match count cs with
  | (some n, '\x7d' :: r) => some ((n, some n), r)
  | (some n, ',' :: r) =>
    match skip f r with
    | '\x7d' :: r => some ((n, none), r)
    | r =>
      match count r with
      | (some m, '\x7d' :: r) => if n ≤ m then some ((n, some m), r) else none
      | _ => none
  | _ => none

/-- Drops the mark that makes a repetition as short as possible. -/
def dropLazy : List Char → List Char
  | '?' :: r => r
  | r => r

/-- Repetition operators after an item. -/
def repeated? (f : Flags) : Nat → Pattern → List Char → Read Pattern
  | 0, _, _ => none
  | fuel + 1, p, cs =>
    match skip f cs with
    -- whether the repetition is lazy does not matter for what is matched
    | '*' :: r => repeated? f fuel (.star p) (dropLazy r)
    | '+' :: r => repeated? f fuel (.seq p (.star p)) (dropLazy r)
    | '?' :: r => repeated? f fuel (.alt p .empty) (dropLazy r)
    | '\x7b' :: r =>
      match bounds? f r with
      | some ((n, some m), r) =>
        repeated? f fuel (.seq (times p n) (upTo p (m - n))) (dropLazy (skip f r))
      | some ((n, none), r) =>
        repeated? f fuel (.seq (times p n) (.star p)) (dropLazy (skip f r))
      | none => none
    | _ => some (p, cs)

/-! ## Groups and sequences -/

/-- The flags with one of them switched. -/
def switch? (f : Flags) (c : Char) (on : Bool) : Option Flags :=
  match c with
  | 'i' => some { f with anyCase := on }
  | 'm' => some { f with multiLine := on }
  | 's' => some { f with dotAll := on }
  | 'x' => some { f with spaced := on }
  | 'R' => some { f with pairs := on }
  | 'u' => some { f with basic := !on }
  | 'U' => some f
  | _ => none

/-- The flags before a colon or a parenthesis, each given once; those after a line are switched
off. `seen` holds what was read so far, the last one first. -/
def flags? (f : Flags) : List Char → List Char → Read Flags
  | [], _ => none
  | c :: cs, seen =>
    if c == ':' || c == ')' then
      if seen.head? == some '-' then none else some (f, c :: cs)
    else if seen.contains c then none
    else if c == '-' then flags? f cs (c :: seen)
    else
      match switch? f c (!seen.contains '-') with
      | some g => flags? g cs (c :: seen)
      | none => none

/-- What stands after the opening of a group. -/
inductive Opening where
  | group (f : Flags)
  | switch (f : Flags)

/-- The opening of a group after its parenthesis. -/
def opening? (f : Flags) (cs : List Char) : Read Opening :=
  let isLetter (c : Char) : Bool := CharSet.alphabetic.mem c.toNat
  let isNumber (c : Char) : Bool :=
    (CharSet.ofCategories [.decimalNumber, .letterNumber, .otherNumber]).mem c.toNat
  let named (cs : List Char) : Read Opening :=
    let name := cs.takeWhile (· != '>')
    let ok := match name with
      | c :: n => (isLetter c || c == '_') &&
          n.all fun c => isLetter c || isNumber c || c == '_' || c == '.' || c == '[' || c == ']'
      | [] => false
    if ok && name.length < cs.length then some (.group f, cs.drop (name.length + 1)) else none
  match skip f cs with
  | '?' :: 'P' :: '<' :: r => named r
  -- looking behind or ahead is refused
  | '?' :: '<' :: '=' :: _ => none
  | '?' :: '<' :: '!' :: _ => none
  | '?' :: '<' :: r => named r
  | '?' :: r =>
    match flags? f r [] with
    | some (g, ':' :: r) => some (.group g, r)
    | some (g, ')' :: rest) => if r.head? == some ')' then none else some (.switch g, rest)
    | _ => none
  | r => some (.group f, r)

/-- The pattern of a single character that is not special. -/
def literal (f : Flags) (c : Char) : Pattern :=
  .set (fold f (.one c))

mutual

/-- Alternatives up to a closing parenthesis or the end. -/
def choice? : Nat → Flags → List Char → Read Pattern
  | 0, _, _ => none
  | fuel + 1, f, cs =>
    match sequence? fuel f cs .empty with
    | none => none
    | some ((p, f), '|' :: r) =>
      match choice? fuel f r with
      | some (q, r) => some (.alt p q, r)
      | none => none
    | some ((p, _), r) => some (p, r)

/-- Items one after the other; `acc` is the pattern so far. Answers the flags at its end too. -/
def sequence? : Nat → Flags → List Char → Pattern → Read (Pattern × Flags)
  | 0, _, _, _ => none
  | fuel + 1, f, cs, acc =>
    let item (p : Pattern) (r : List Char) : Read (Pattern × Flags) :=
      match repeated? f (r.length + 1) p r with
      | some (p, r) => sequence? fuel f r (.seq acc p)
      | none => none
    let set (s : CharSet) (r : List Char) : Read (Pattern × Flags) :=
      match checked? f s with
      | some s => item (.set s) r
      | none => none
    match skip f cs with
    | [] => some ((acc, f), [])
    | '|' :: r => some ((acc, f), '|' :: r)
    | ')' :: r => some ((acc, f), ')' :: r)
    -- a repetition needs something in front
    | '*' :: _ => none
    | '+' :: _ => none
    | '?' :: _ => none
    | '\x7b' :: _ => none
    | '^' :: r => item (.place (if f.multiLine then .lineStart f.pairs else .textStart)) r
    | '$' :: r => item (.place (if f.multiLine then .lineEnd f.pairs else .textEnd)) r
    | '.' :: r =>
      set (if f.dotAll then .all
        else if f.pairs then .compl (.ranges [(10, 10), (13, 13)])
        else .compl (.one '\n')) r
    | '[' :: r =>
      match class? f (r.length + 2) r with
      | some (s, r) => set s r
      | none => none
    | '\\' :: r =>
      match escape? f r with
      | some (.char c, r) => item (literal f c) r
      | some (.set s, r) => set s r
      | some (.place l, r) => item (.place l) r
      | none => none
    | '(' :: r =>
      match opening? f r with
      -- flags alone hold up to the end of the group, with no group of their own
      | some (.switch g, r) => sequence? fuel g r acc
      | some (.group g, r) =>
        match choice? fuel g r with
        | some (p, ')' :: r) => item p r
        | _ => none
      | none => none
    | c :: r => item (literal f c) r

end

end TextHarvest.Pattern.Reader

namespace TextHarvest.Pattern

/-- Reads a written pattern. -/
def parse? (text : String) : Option Pattern :=
  let cs := text.toList
  match Reader.choice? (2 * cs.length + 4) {} cs with
  | some (p, []) => some p
  | _ => none

end TextHarvest.Pattern
