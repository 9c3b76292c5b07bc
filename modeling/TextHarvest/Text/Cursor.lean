import TextHarvest.Text.Offset

/-!
# Cursors

A cursor stands in a text: it knows the byte offset at which it stands, what is left, and the
character before it. Searching moves it forward.
-/

namespace TextHarvest

/-- A place in a text. -/
structure Cursor where
  rest : List Char
  pos : Nat := 0
  prev : Option Char := none

namespace Cursor

/-- Whether a text stands at the cursor. -/
def sees (c : Cursor) (mark : List Char) : Bool :=
  mark.isPrefixOf c.rest

/-- The character at the cursor. -/
def head? (c : Cursor) : Option Char :=
  c.rest.head?

/-- Moves over one character, if there is one. -/
def next (c : Cursor) : Cursor :=
  match c.rest with
  | [] => c
  | ch :: cs => ⟨cs, c.pos + ch.utf8Size, some ch⟩

/-- Moves over a number of characters. -/
def skip (c : Cursor) : Nat → Cursor
  | 0 => c
  | n + 1 => c.next.skip n

/-- Moves over the characters of `rest` that pass a test. -/
def skipWhileFrom (p : Char → Bool) : List Char → Nat → Option Char → Cursor
  | [], pos, prev => ⟨[], pos, prev⟩
  | ch :: cs, pos, prev =>
    if p ch then skipWhileFrom p cs (pos + ch.utf8Size) (some ch) else ⟨ch :: cs, pos, prev⟩

/-- Moves over the characters that pass a test. -/
def skipWhile (c : Cursor) (p : Char → Bool) : Cursor :=
  skipWhileFrom p c.rest c.pos c.prev

/-- The first place in `rest` where `mark` stands. -/
def seekFrom (mark : List Char) : List Char → Nat → Option Char → Option Cursor
  | [], _, _ => none
  | ch :: cs, pos, prev =>
    if mark.isPrefixOf (ch :: cs) then some ⟨ch :: cs, pos, prev⟩
    else seekFrom mark cs (pos + ch.utf8Size) (some ch)

/-- The first place from the cursor on where a text that is not empty stands. -/
def seek? (c : Cursor) (mark : List Char) : Option Cursor :=
  seekFrom mark c.rest c.pos c.prev

/-- Collects the characters of `rest` up to an offset. -/
def takeTo (stop : Nat) : List Char → Nat → List Char → List Char
  | [], _, acc => acc.reverse
  | ch :: cs, pos, acc =>
    if pos < stop then takeTo stop cs (pos + ch.utf8Size) (ch :: acc) else acc.reverse

/-- The text from the cursor to an offset. -/
def textTo (c : Cursor) (stop : Nat) : String :=
  String.ofList (takeTo stop c.rest c.pos [])

/-- The end of the text. -/
def toEnd (c : Cursor) : Cursor :=
  c.skipWhile fun _ => true

/-- The first place at or after an offset that lies between two characters. -/
def advanceTo (offset : Nat) : List Char → Nat → Option Char → Cursor
  | [], pos, prev => ⟨[], pos, prev⟩
  | ch :: cs, pos, prev =>
    if pos < offset then advanceTo offset cs (pos + ch.utf8Size) (some ch) else ⟨ch :: cs, pos, prev⟩

/-- A cursor at an offset of a text. -/
def ofOffset (text : String) (offset : Nat) : Cursor :=
  advanceTo offset text.toList 0 none

end Cursor

end TextHarvest
