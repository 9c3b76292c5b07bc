import TextHarvest.Text.Offset

/-!
# Positions for people

A byte offset is shown to people as a line and a column, both counted from one, with the text of
the line. Columns count characters.
-/

namespace TextHarvest

/-- Where an offset falls, with the text of its line. -/
structure Position where
  line : Nat
  col : Nat
  text : String
  deriving DecidableEq, Repr

namespace Position

/-- The characters before the next line feed. -/
def restOfLine (cs : List Char) : List Char :=
  cs.takeWhile (· != '\n')

/-- The characters after the last line feed. -/
def startOfLine (cs : List Char) : List Char :=
  (restOfLine cs.reverse).reverse

/-- Drops the carriage returns at the end of a line. -/
def dropReturns (cs : List Char) : List Char :=
  (cs.reverse.dropWhile (· == '\r')).reverse

/-- The position reached after reading `before`, when `after` follows. -/
def ofSplit (before after : List Char) : Position where
  line := before.count '\n' + 1
  col := (startOfLine before).length + 1
  text := String.ofList (dropReturns (startOfLine before ++ restOfLine after))

/-- The position of a byte offset. An offset past the end or inside a character counts as the end
of the source. -/
def ofOffset (source : String) (offset : Nat) : Position :=
  let cs := source.toList
  match Chars.splitAt? cs offset with
  | some (before, after) => ofSplit before after
  | none => ofSplit cs []

end Position

end TextHarvest
