import TextHarvest.Files.Tree

/-!
# Glob patterns

Patterns of paths with `?`, `*`, `**` and sets of characters. A star also runs over slashes; two
stars stand for whole components and must not touch anything else.
-/

namespace TextHarvest

/-- A part of a glob pattern. -/
inductive GlobToken where
  | char (c : Char)
  | anyChar
  | anySequence
  | anyComponents
  | within (ranges : List (Char × Char))
  | except (ranges : List (Char × Char))
  deriving DecidableEq, Repr

/-- A glob pattern. -/
structure Glob where
  tokens : List GlobToken
  deriving DecidableEq, Repr

namespace Glob

/-- Whether a written path is a pattern and not a plain path. -/
def isPattern (s : String) : Bool :=
  s.toList.any fun c => c == '*' || c == '?' || c == '['

/-! ## Reading patterns -/

/-- The ranges of a set of characters; a hyphen between two characters makes a range. -/
def ranges : Nat → List Char → List (Char × Char)
  | 0, _ => []
  | fuel + 1, a :: '-' :: b :: cs => (a, b) :: ranges fuel cs
  | fuel + 1, c :: cs => (c, c) :: ranges fuel cs
  | _, [] => []

/-- The characters of a set and what follows it. The first character never closes the set. -/
def setBody? : List Char → Option (List Char × List Char)
  | [] => none
  | c :: cs =>
    let body := cs.takeWhile (· != ']')
    match cs.dropWhile (· != ']') with
    | _ :: rest => some (c :: body, rest)
    | [] => none

/-- What is wrong with a pattern. -/
inductive FaultKind where
  | stars
  | component
  | set
  deriving DecidableEq, Repr

/-- What is wrong with a pattern, and after how many characters. -/
structure Fault where
  position : Nat
  kind : FaultKind
  deriving DecidableEq, Repr

def FaultKind.message : FaultKind → String
  | .stars => "wildcards are either regular \x60*\x60 or recursive \x60**\x60"
  | .component => "recursive wildcards must form a single path component"
  | .set => "invalid range pattern"

def Fault.message (f : Fault) : String :=
  "Pattern syntax error near position " ++ Nat.repr f.position ++ ": " ++ f.kind.message

/-- Reads the tokens of a pattern from a position on; `prev` is the character before `cs`. Two stars
need a slash or the end of the pattern on either side. -/
def readTokens : Nat → Nat → Option Char → List Char → List GlobToken → Except Fault (List GlobToken)
  | 0, pos, _, _, _ => .error ⟨pos, .set⟩
  | _, _, _, [], acc => .ok acc.reverse
  | fuel + 1, pos, prev, c :: cs, acc =>
    if c == '?' then readTokens fuel (pos + 1) (some c) cs (.anyChar :: acc)
    else if c == '*' then
      match cs with
      | '*' :: '*' :: _ => .error ⟨pos + 2, .stars⟩
      | '*' :: rest =>
        -- two stars stand for directories only between slashes
        if prev.all (· == '/') then
          let add : List GlobToken :=
            -- repeated double stars are one, unless they begin the pattern
            if 1 < acc.length && acc.head? == some .anyComponents then acc
            else .anyComponents :: acc
          match rest with
          | [] => .ok add.reverse
          | '/' :: rest => readTokens fuel (pos + 3) (some '/') rest add
          | _ => .error ⟨pos + 2, .component⟩
        else .error ⟨pos - 1, .component⟩
      | rest => readTokens fuel (pos + 1) (some c) rest (.anySequence :: acc)
    else if c == '[' then
      match cs with
      | '!' :: body =>
        match setBody? body with
        | some (set, rest) =>
          readTokens fuel (pos + set.length + 3) (some ']') rest (.except (ranges set.length set) :: acc)
        | none => .error ⟨pos, .set⟩
      | body =>
        match setBody? body with
        | some (set, rest) =>
          readTokens fuel (pos + set.length + 2) (some ']') rest (.within (ranges set.length set) :: acc)
        | none => .error ⟨pos, .set⟩
    else readTokens fuel (pos + 1) (some c) cs (.char c :: acc)

/-- The pattern that a text spells, or what is wrong with it. -/
def parse (s : String) : Except Fault Glob :=
  (readTokens (s.length + 1) 0 none s.toList []).map Glob.mk

/-- The pattern that a text spells. -/
def parse? (s : String) : Option Glob :=
  (parse s).toOption

/-! ## Matching -/

/-- How an attempt to match ends: with a match, with a failure that another attempt may mend, or
because the text is too short for the rest of the pattern. -/
inductive Outcome where
  | hit
  | miss
  | short
  deriving DecidableEq, Repr

/-- Whether a character is in a set. -/
def inRanges (rs : List (Char × Char)) (c : Char) : Bool :=
  rs.any fun r => r.1 ≤ c && c ≤ r.2

/-- Tries the rest of a pattern at each later place of a text, or only after slashes. -/
def scan (rest : List Char → Outcome) (afterSlash : Bool) : List Char → Outcome
  | [] => .miss
  | c :: cs =>
    if afterSlash && c != '/' then scan rest afterSlash cs
    else
      match rest cs with
      | .miss => scan rest afterSlash cs
      | outcome => outcome

/-- Tries the rest of a pattern here, at each later place, and at the end of the text. -/
def tryAll (rest : List Char → Outcome) (afterSlash : Bool) (text : List Char) : Outcome :=
  match rest text with
  | .miss =>
    match scan rest afterSlash text with
    | .miss => rest []
    | outcome => outcome
  | outcome => outcome

/-- Matches tokens against a whole text. -/
def matchTokens : List GlobToken → List Char → Outcome
  | [], text => if text.isEmpty then .hit else .miss
  | .anySequence :: ts, text => tryAll (matchTokens ts) false text
  | .anyComponents :: ts, text => tryAll (matchTokens ts) true text
  | _ :: _, [] => .short
  | .char d :: ts, c :: cs => if c == d then matchTokens ts cs else .miss
  | .anyChar :: ts, _ :: cs => matchTokens ts cs
  | .within rs :: ts, c :: cs => if inRanges rs c then matchTokens ts cs else .miss
  | .except rs :: ts, c :: cs => if inRanges rs c then .miss else matchTokens ts cs

/-- Whether a pattern matches a whole text. -/
def isMatch (g : Glob) (text : String) : Bool :=
  matchTokens g.tokens text.toList == .hit

/-! ## Walking a tree -/

/-- Whether a component of a pattern stands for any number of directories. -/
def isRecursive (g : Glob) : Bool :=
  g.tokens.contains .anyComponents

/-- The text that a pattern without special signs spells. -/
def plain? (g : Glob) : Option String :=
  let char? : GlobToken → Option Char
    | .char c => some c
    | _ => none
  (g.tokens.mapM char?).map String.ofList

mutual

/-- The directories that match the patterns of the components below a path. -/
def fill (t : FileTree) : Nat → List Glob → String → List String
  | 0, _, _ => []
  | _, [], _ => []
  | fuel + 1, g :: gs, path =>
    let add (next : String) : List String :=
      if gs.isEmpty then (if t.isDirectory next then [next] else []) else fill t fuel gs next
    match g.plain? with
    | some s =>
      let next := Path.join path s
      -- the dots are not looked up as names: they are there when the directory is
      let here := if s == "." || s == ".." then t.isDirectory path else t.pathExists next
      if here then add next else []
    | none =>
      match t.place? path with
      | none => []
      | some place =>
        if t.isDirectory path then
          (t.children place).flatMap (fun name => visit t fuel (g :: gs) path name) ++
            -- a listing has no dots, so a pattern that begins with one is tried on them as well
            (if g.tokens.head? == some (.char '.') then
              ([".", ".."].filter g.isMatch).flatMap fun s => add (Path.join path s)
            else [])
        else []

/-- The directories that match the patterns from a child of a path on. -/
def visit (t : FileTree) : Nat → List Glob → String → String → List String
  | 0, _, _, _ => []
  | _, [], _, _ => []
  | fuel + 1, g :: gs, parent, name =>
    let path := Path.join parent name
    let descend (gs : List Glob) : List String :=
      match gs with
      | [] => []
      | h :: rest =>
        if h.isMatch name then
          if rest.isEmpty then (if t.isDirectory path then [path] else []) else fill t fuel rest path
        else []
    if g.isRecursive then
      -- a recursive step may stand for no directory at all: the steps behind it are tried at once
      let rest := gs.dropWhile isRecursive
      let below := if t.isDirectory path then fill t fuel (g :: rest) path else []
      if rest.isEmpty then (if t.isDirectory path then path :: below else [])
      else below ++ descend rest
    else descend (g :: gs)

end

/-- The pieces of a path without an empty one at the end. -/
def pieces (path : String) : List String :=
  match (Path.splitText '/' path).reverse with
  | "" :: rest => rest.reverse
  | all => all.reverse

/-- The directories that an absolute pattern matches. For each component of the pattern a walk goes
down through every directory at most, in two steps each. -/
def directories (t : FileTree) (pattern : String) : List String :=
  match parse? pattern, ((pieces pattern).drop 1).mapM parse? with
  | some _, some gs => fill t (2 * (gs.length + 1) * (t.directoryCount + 1)) gs "/"
  | _, _ => []

end Glob

end TextHarvest
