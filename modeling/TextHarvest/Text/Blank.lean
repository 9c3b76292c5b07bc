/-!
# Blank characters

Which characters count as white space, and the operations that trim a text, split it into words
or collapse its runs of white space. Functions on lists of characters live in `TextHarvest.Chars`;
their counterparts on strings live in `TextHarvest.Text`.
-/

namespace TextHarvest.Chars

/-- The twenty-five characters of the Unicode property `White_Space`. -/
def isBlank (c : Char) : Bool :=
  let n := c.toNat
  (9 ≤ n && n ≤ 13) || n == 0x20 || n == 0x85 || n == 0xa0 || n == 0x1680 ||
    (0x2000 ≤ n && n ≤ 0x200a) || n == 0x2028 || n == 0x2029 || n == 0x202f ||
    n == 0x205f || n == 0x3000

/-- Drops the blanks at the front. -/
def trimStart (cs : List Char) : List Char :=
  cs.dropWhile isBlank

/-- Drops the blanks at the end. -/
def trimEnd (cs : List Char) : List Char :=
  (cs.reverse.dropWhile isBlank).reverse

/-- Drops the blanks at both ends. -/
def trim (cs : List Char) : List Char :=
  trimEnd (trimStart cs)

/-- Splits off the words of `cs`, where `word` holds the reversed start of the current one. -/
def wordsFrom : List Char → List Char → List (List Char)
  | [], [] => []
  | [], word => [word.reverse]
  | c :: cs, word =>
    if isBlank c then
      if word.isEmpty then wordsFrom cs [] else word.reverse :: wordsFrom cs []
    else wordsFrom cs (c :: word)

/-- The maximal runs of characters that are not blank, in order. -/
def words (cs : List Char) : List (List Char) :=
  wordsFrom cs []

/-- The words of a text joined by single spaces. -/
def collapse (cs : List Char) : List Char :=
  [' '].intercalate (words cs)

/-- A text with nothing but blanks in it. -/
def allBlank (cs : List Char) : Bool :=
  cs.all isBlank

@[simp] theorem trimStart_nil : trimStart [] = [] := rfl

end TextHarvest.Chars

namespace TextHarvest.Text

/-- Drops the blanks at both ends of a text. -/
def trim (s : String) : String :=
  String.ofList (Chars.trim s.toList)

/-- The words of a text joined by single spaces. -/
def collapse (s : String) : String :=
  String.ofList (Chars.collapse s.toList)

/-- A text with nothing but blanks in it. -/
def isBlank (s : String) : Bool :=
  Chars.allBlank s.toList

end TextHarvest.Text
