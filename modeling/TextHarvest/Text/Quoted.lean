import TextHarvest.Text.Entity

/-!
# Quoted string literals

How a text is written as a string literal of a script, in double or in single quotes. The
single-quoted form holds no double quote, so that it can stand in a double-quoted attribute of a
template.
-/

namespace TextHarvest

/-- The two quote characters of a generated string literal. -/
inductive Quote where
  | double
  | single
  deriving DecidableEq, Repr

namespace Quote

/-- The character that opens and closes a literal. -/
def mark : Quote → Char
  | .double => '\x22'
  | .single => '\x27'

end Quote

namespace Text

/-- One digit of a number below sixteen, in lower case. -/
def hexDigit (n : Nat) : Char :=
  if n < 10 then Char.ofNat (48 + n) else Char.ofNat (87 + n)

/-- Four hexadecimal digits of a number below 65536. -/
def hex4 (n : Nat) : List Char :=
  [hexDigit (n / 4096 % 16), hexDigit (n / 256 % 16), hexDigit (n / 16 % 16), hexDigit (n % 16)]

/-- The digits of the control characters are read back. -/
theorem digitsValue?_hex4 : ∀ n < 32, digitsValue? 16 (hex4 n) 0 = some n := by
  decide

/-- The written form of one character inside a string literal. -/
def escapeChar (q : Quote) (c : Char) : List Char :=
  if c == '\\' then ['\\', '\\']
  else if c == '\n' then ['\\', 'n']
  else if c == '\r' then ['\\', 'r']
  else if c == '\t' then ['\\', 't']
  else if c == '\u2028' then ['\\', 'u', '2', '0', '2', '8']
  else if c == '\u2029' then ['\\', 'u', '2', '0', '2', '9']
  else if c == '\x22' then
    match q with
    | .double => ['\\', '\x22']
    -- a double mark is never written inside an attribute, not even behind a backslash
    | .single => ['\\', 'u', '0', '0', '2', '2']
  else if c == '\x27' && q == .single then ['\\', '\x27']
  else if c.toNat < 0x20 then '\\' :: 'u' :: hex4 c.toNat
  else [c]

/-- A text as a string literal of a script. -/
def quoted (text : String) (q : Quote) : String :=
  String.ofList (q.mark :: (text.toList.flatMap (escapeChar q) ++ [q.mark]))

end Text

end TextHarvest
