import TextHarvest.Text.Blank

/-!
# Form encoding

Names and values of a query or a form: letters, digits and `*-._` stand for themselves, a space is
a plus, and every other byte is written with a percent sign and two upper-case digits.
-/

namespace TextHarvest.Text

/-- An upper-case hexadecimal digit. -/
def upperHexDigit (n : Nat) : Char :=
  if n < 10 then Char.ofNat (48 + n) else Char.ofNat (55 + n)

/-- A byte with a percent sign. -/
def percentByte (b : UInt8) : List Char :=
  ['%', upperHexDigit (b.toNat / 16), upperHexDigit (b.toNat % 16)]

/-- A character as its bytes with percent signs. -/
def percentChar (c : Char) : List Char :=
  (String.singleton c).toUTF8.toList.flatMap percentByte

/-- Whether a character is a letter or a digit of ASCII. -/
def isPlain (c : Char) : Bool :=
  ('a' ≤ c && c ≤ 'z') || ('A' ≤ c && c ≤ 'Z') || ('0' ≤ c && c ≤ '9')

/-- One character of a name or value. -/
def formChar (c : Char) : List Char :=
  if isPlain c || c == '*' || c == '-' || c == '.' || c == '_' then [c]
  else if c == ' ' then ['+']
  else percentChar c

/-- Pairs of names and values as one text. -/
def formEncoded (pairs : List (String × String)) : String :=
  let encode (s : String) : String := String.ofList (s.toList.flatMap formChar)
  "&".intercalate (pairs.map fun p => encode p.1 ++ "=" ++ encode p.2)

end TextHarvest.Text
