import TextHarvest.Path

/-!
# Formatting commands

A changed source file may be handed to a command that formats it. Of all commands the stream editor
is carried out here, as far as it substitutes text in lines; any other command leaves the file as it
is.
-/

namespace TextHarvest.Run.Format

/-! ## Patterns of lines -/

/-- What one character of a line has to be. -/
inductive Atom where
  | char (c : Char)
  | any
  | set (negated : Bool) (ranges : List (Char × Char))
  deriving DecidableEq, Repr

/-- Whether a character is of an atom. -/
def Atom.accepts : Atom → Char → Bool
  | .char d, c => c == d
  | .any, _ => true
  | .set negated ranges, c => (ranges.any fun r => r.1 ≤ c && c ≤ r.2) != negated

/-- A pattern of a part of a line: atoms, each once or any number of times, possibly bound to the
start or the end of the line. -/
structure LinePattern where
  atStart : Bool
  items : List (Atom × Bool)
  atEnd : Bool
  deriving DecidableEq, Repr

/-- The most characters at the front that an atom accepts, tried from many to none: the length of
the match of the rest included. -/
def repeatMatch (a : Atom) (rest : List Char → Option Nat) : List Char → Option Nat
  | [] => rest []
  | c :: cs =>
    if a.accepts c then
      match repeatMatch a rest cs with
      | some n => some (n + 1)
      | none => rest (c :: cs)
    else rest (c :: cs)

/-- The length of the match at the front of a text. -/
def matchItems (atEnd : Bool) : List (Atom × Bool) → List Char → Option Nat
  | [], cs => if atEnd && !cs.isEmpty then none else some 0
  | (a, true) :: items, cs => repeatMatch a (matchItems atEnd items) cs
  | (a, false) :: items, cs =>
    match cs with
    | c :: cs => if a.accepts c then (matchItems atEnd items cs).map (· + 1) else none
    | [] => none

/-! ## Substitutions -/

/-- A part of a replacement: a character, or the text that was matched. -/
inductive Piece where
  | char (c : Char)
  | whole
  deriving DecidableEq, Repr

/-- Replaces the first match in a line, or all of them. -/
structure Substitution where
  pattern : LinePattern
  replacement : List Piece
  all : Bool
  deriving DecidableEq, Repr

/-- A replacement with the matched text filled in. -/
def fillIn (replacement : List Piece) (matched : List Char) : List Char :=
  replacement.flatMap fun
    | .char c => [c]
    | .whole => matched

/-- Carries out a substitution from a place in a line on; `fresh` at the start of the line, and
`skip` characters belong to a match. -/
def substituteFrom (s : Substitution) : List Char → Bool → Nat → List Char
  | [], fresh, 0 =>
    match if s.pattern.atStart && !fresh then none else matchItems s.pattern.atEnd s.pattern.items [] with
    | some _ => if fresh || s.pattern.atEnd then fillIn s.replacement [] else []
    | none => []
  | [], _, _ + 1 => []
  | _ :: cs, _, skip + 1 => substituteFrom s cs false skip
  | c :: cs, fresh, 0 =>
    let found := if s.pattern.atStart && !fresh then none
      else matchItems s.pattern.atEnd s.pattern.items (c :: cs)
    match found with
    | none => c :: substituteFrom s cs false 0
    -- an empty match puts in the replacement and keeps the character
    | some 0 =>
      fillIn s.replacement [] ++ c :: (if s.all then substituteFrom s cs false 0 else cs)
    | some (n + 1) =>
      fillIn s.replacement ((c :: cs).take (n + 1)) ++
        (if s.all then substituteFrom s cs false n else cs.drop n)

/-- Carries out substitutions in every line of a text. -/
def applyAll (ss : List Substitution) (text : String) : String :=
  let line (l : List Char) : List Char := ss.foldl (fun l s => substituteFrom s l true 0) l
  let lines := Path.splitChars '\n' text.toList
  let edited := match lines.getLast? with
    | some [] => lines.dropLast.map line ++ [[]]
    | _ => lines.map line
  String.ofList (List.intercalate ['\n'] edited)

/-! ## Reading commands -/

/-- The ranges of a set and what follows it. -/
def readSet : Nat → List Char → List (Char × Char) → Option (List (Char × Char) × List Char)
  | 0, _, _ => none
  | _, [], _ => none
  | fuel + 1, c :: cs, acc =>
    if c == ']' && !acc.isEmpty then some (acc, cs)
    else
      match cs with
      | '-' :: d :: rest =>
        if d == ']' then readSet fuel cs (acc ++ [(c, c)]) else readSet fuel rest (acc ++ [(c, d)])
      | _ => readSet fuel cs (acc ++ [(c, c)])

/-- The items of a pattern; groups, alternatives and counts are not read. -/
def readItems : Nat → List Char → List (Atom × Bool) → Option LinePattern
  | 0, _, _ => none
  | _, [], acc => some ⟨false, acc, false⟩
  | _, ['$'], acc => some ⟨false, acc, true⟩
  | fuel + 1, '\\' :: c :: cs, acc =>
    if c.isAlphanum || "()\x7b\x7d|+?<>\x60\x27".toList.contains c then
      -- letters behind a backslash mean more than themselves, and only the tab is known here
      if c == 't' then readItems fuel cs (acc ++ [(.char '\t', false)]) else none
    else readItems fuel cs (acc ++ [(.char c, false)])
  | fuel + 1, '*' :: cs, acc =>
    match acc.getLast? with
    | some (a, _) => readItems fuel cs (acc.dropLast ++ [(a, true)])
    -- a star with nothing in front stands for itself
    | none => readItems fuel cs [(.char '*', false)]
  | fuel + 1, '.' :: cs, acc => readItems fuel cs (acc ++ [(.any, false)])
  | fuel + 1, '[' :: '^' :: cs, acc => do
    let (ranges, rest) ← readSet fuel cs []
    readItems fuel rest (acc ++ [(.set true ranges, false)])
  | fuel + 1, '[' :: cs, acc => do
    let (ranges, rest) ← readSet fuel cs []
    readItems fuel rest (acc ++ [(.set false ranges, false)])
  | fuel + 1, c :: cs, acc => readItems fuel cs (acc ++ [(.char c, false)])

/-- The pattern that a text spells. -/
def readPattern (cs : List Char) : Option LinePattern :=
  match cs with
  | '^' :: cs => (readItems (cs.length + 1) cs []).map fun p => { p with atStart := true }
  | cs => readItems (cs.length + 1) cs []

/-- The replacement that a text spells. -/
def readReplacement : List Char → Option (List Piece)
  | [] => some []
  | '&' :: cs => (readReplacement cs).map (.whole :: ·)
  | '\\' :: 'n' :: cs => (readReplacement cs).map (.char '\n' :: ·)
  | '\\' :: c :: cs => if c.isAlphanum then none else (readReplacement cs).map (.char c :: ·)
  | c :: cs => (readReplacement cs).map (.char c :: ·)

/-- The text up to a mark that is not escaped, and what follows the mark. -/
def readPart (mark : Char) : List Char → List Char → Option (List Char × List Char)
  | [], _ => none
  | '\\' :: c :: cs, acc =>
    readPart mark cs (if c == mark then c :: acc else c :: '\\' :: acc)
  | c :: cs, acc => if c == mark then some (acc.reverse, cs) else readPart mark cs (c :: acc)

/-- The substitutions that a script spells, with semicolons between them. -/
def readScript : Nat → List Char → Option (List Substitution)
  | 0, _ => none
  | _, [] => some []
  | fuel + 1, 's' :: mark :: cs => do
    let (pattern, rest) ← readPart mark cs []
    let (replacement, rest) ← readPart mark rest []
    let flags := rest.takeWhile (· != ';')
    if flags.all (· == 'g') then
      let s : Substitution :=
        ⟨← readPattern pattern, ← readReplacement replacement, !flags.isEmpty⟩
      return s :: (← readScript fuel ((rest.dropWhile (· != ';')).drop 1))
    else none
  | _, _ => none

/-- What a formatting command makes of a text; `none` when it leaves it alone. -/
def run (command : List String) (_path text : String) : Option String :=
  match command with
  | ["sed", "-i", script] =>
    (readScript (script.length + 1) script.toList).map fun ss => applyAll ss text
  | ["sed", "-i", "-e", script] =>
    (readScript (script.length + 1) script.toList).map fun ss => applyAll ss text
  | _ => none

end TextHarvest.Run.Format
