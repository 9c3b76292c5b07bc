/-!
# Keys of texts

A text is filed under a short key: the low base-36 digits of a 32-bit hash of its UTF-16 units.
The same text always gets the same key.
-/

namespace TextHarvest.Key

/-- The number of characters of a key when nothing else is asked for. -/
def defaultLength : Nat := 6

/-- The UTF-16 units of a character. -/
def units (c : Char) : List UInt32 :=
  let n := c.toNat
  if n < 0x10000 then [n.toUInt32]
  else [(0xd800 + (n - 0x10000) / 0x400).toUInt32, (0xdc00 + (n - 0x10000) % 0x400).toUInt32]

/-- Rolls one unit into a hash, with 32-bit wrap-around. -/
def roll (h u : UInt32) : UInt32 :=
  h * 33 ^^^ u

/-- The hash of a text. -/
def hash (text : List Char) : UInt32 :=
  (text.flatMap units).foldl roll 5381

/-- The distance from zero of a 32-bit word read as a signed number. -/
def magnitude (h : UInt32) : Nat :=
  if h.toNat < Nat.pow 2 31 then h.toNat else Nat.pow 2 32 - h.toNat

/-- One base-36 digit. -/
def digit (n : Nat) : Char :=
  if n < 10 then Char.ofNat (48 + n) else Char.ofNat (87 + n)

/-- The lowest `len` base-36 digits of a number, most significant first, in front of `tail`. -/
def lowDigits : Nat → Nat → List Char → List Char
  | 0, _, tail => tail
  | len + 1, n, tail => lowDigits len (n / 36) (digit (n % 36) :: tail)

/-- The key of a text with the given number of characters. -/
def ofText (text : String) (len : Nat) : String :=
  String.ofList (lowDigits len (magnitude (hash text.toList)) [])

end TextHarvest.Key
