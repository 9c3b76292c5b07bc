import TextHarvest.Pattern.CharSet

/-!
# Patterns

Patterns describe texts of a language: sets of characters, sequences, choices, repetitions and
assertions about the place they stand at. A text matches a pattern when some part of it does.
-/

namespace TextHarvest

namespace Pattern

/-- A condition on a place in a text. -/
inductive Place where
  | textStart
  | textEnd
  /-- After a line break; `pairs` when the two characters of a pair count as one break. -/
  | lineStart (pairs : Bool)
  | lineEnd (pairs : Bool)
  /-- Where a word starts or ends; words are made of `chars`. -/
  | wordEdge (chars : CharSet)
  | notWordEdge (chars : CharSet)
  | wordStart (chars : CharSet)
  | wordEnd (chars : CharSet)
  /-- With no part of a word before it. -/
  | afterNoWord (chars : CharSet)
  /-- With no part of a word after it. -/
  | beforeNoWord (chars : CharSet)
  deriving Repr

end Pattern

/-- A pattern. -/
inductive Pattern where
  | empty
  | set (s : Pattern.CharSet)
  | seq (p q : Pattern)
  | alt (p q : Pattern)
  | star (p : Pattern)
  | place (l : Pattern.Place)
  deriving Repr

namespace Pattern

/-- A place in a text: the character before it and the characters after it. -/
structure Cursor where
  prev : Option Char
  rest : List Char

/-- Whether a character, if there is one, belongs to a set. -/
def inSet (s : CharSet) (c : Option Char) : Bool :=
  c.any fun c => s.mem c.toNat

/-- Whether a condition holds at a place. -/
def Place.holds (l : Place) (c : Cursor) : Bool :=
  let next := c.rest.head?
  match l with
  | .textStart => c.prev.isNone
  | .textEnd => c.rest.isEmpty
  | .lineStart false => c.prev.all (· == '\n')
  -- the two characters of a pair are one break, with no line between them
  | .lineStart true => c.prev.all (· == '\n') || (c.prev == some '\r' && next != some '\n')
  | .lineEnd false => next.all (· == '\n')
  | .lineEnd true => next.all (· == '\r') || (next == some '\n' && c.prev != some '\r')
  | .wordEdge s => inSet s c.prev != inSet s next
  | .notWordEdge s => inSet s c.prev == inSet s next
  | .wordStart s => !inSet s c.prev && inSet s next
  | .wordEnd s => inSet s c.prev && !inSet s next
  | .afterNoWord s => !inSet s c.prev
  | .beforeNoWord s => !inSet s next

/-- Adds places that are not there yet; places of one text differ in what is left. -/
def addPlaces (new seen : List Cursor) : List Cursor :=
  new.foldl (fun acc c => if acc.any (·.rest.length == c.rest.length) then acc else acc ++ [c]) seen

/-- All places reached by repeating a step. -/
def closure (step : Cursor → List Cursor) : Nat → List Cursor → List Cursor → List Cursor
  | 0, _, seen => seen
  | fuel + 1, frontier, seen =>
    let new := (frontier.flatMap step).filter fun c =>
      !seen.any (·.rest.length == c.rest.length)
    if new.isEmpty then seen else closure step fuel (addPlaces new []) (addPlaces new seen)

/-- The places at which a match that starts at a place may end. -/
def ends : Pattern → Cursor → List Cursor
  | .empty, c => [c]
  | .set s, c =>
    match c.rest with
    | d :: ds => if s.mem d.toNat then [⟨some d, ds⟩] else []
    | [] => []
  | .seq p q, c => addPlaces ((ends p c).flatMap (ends q)) []
  | .alt p q, c => addPlaces (ends q c) (addPlaces (ends p c) [])
  | .star p, c => closure (ends p) (c.rest.length + 1) [c] [c]
  | .place l, c => if l.holds c then [c] else []

/-- Whether a match starts at or after a place. -/
def matchesFrom (p : Pattern) : Option Char → List Char → Bool
  | prev, [] => !(p.ends ⟨prev, []⟩).isEmpty
  | prev, c :: cs => !(p.ends ⟨prev, c :: cs⟩).isEmpty || matchesFrom p (some c) cs

/-- Whether some part of a text matches. -/
def isMatch (p : Pattern) (text : String) : Bool :=
  matchesFrom p none text.toList

end Pattern

end TextHarvest
