import TextHarvest.Json.Value
import TextHarvest.Text.Quoted

/-!
# Writing JSON

The compact form, and the indented form with two spaces a level that locale files have. Strings
escape quotes, backslashes and control characters only.
-/

namespace TextHarvest.Json.Writer

/-- The written form of one character of a string. -/
def escapeChar (c : Char) : List Char :=
  if c == '\x22' then ['\\', '\x22']
  else if c == '\\' then ['\\', '\\']
  else if c == '\n' then ['\\', 'n']
  else if c == '\r' then ['\\', 'r']
  else if c == '\t' then ['\\', 't']
  else if c == '\x08' then ['\\', 'b']
  else if c == '\x0c' then ['\\', 'f']
  else if c.toNat < 0x20 then '\\' :: 'u' :: Text.hex4 c.toNat
  else [c]

/-- A string between its quotes. -/
def string (s : String) : List Char :=
  '\x22' :: (s.toList.flatMap escapeChar ++ ['\x22'])

/-- The text of a whole number. -/
def int (n : Int) : List Char :=
  match n with
  | .ofNat n => Nat.toDigits 10 n
  | .negSucc n => '-' :: Nat.toDigits 10 (n + 1)

mutual

/-- The compact form of a value. -/
def compact : Json → List Char
  | .null => ['n', 'u', 'l', 'l']
  | .bool true => ['t', 'r', 'u', 'e']
  | .bool false => ['f', 'a', 'l', 's', 'e']
  | .int n => int n
  | .real t => t.toList
  | .str s => string s
  | .arr items => '[' :: (compactItems items ++ [']'])
  | .obj fields => '\x7b' :: (compactFields fields ++ ['\x7d'])

def compactItems : List Json → List Char
  | [] => []
  | [v] => compact v
  | v :: vs => compact v ++ ',' :: compactItems vs

def compactFields : List (String × Json) → List Char
  | [] => []
  | [(k, v)] => string k ++ ':' :: compact v
  | (k, v) :: fs => string k ++ ':' :: (compact v ++ ',' :: compactFields fs)

end

/-- A line break and the indentation of a level. -/
def newline (level : Nat) : List Char :=
  '\n' :: List.replicate (2 * level) ' '

mutual

/-- The indented form of a value that stands at a level. -/
def pretty (level : Nat) : Json → List Char
  | .null => ['n', 'u', 'l', 'l']
  | .bool true => ['t', 'r', 'u', 'e']
  | .bool false => ['f', 'a', 'l', 's', 'e']
  | .int n => int n
  | .real t => t.toList
  | .str s => string s
  | .arr [] => ['[', ']']
  | .arr (v :: vs) =>
    '[' :: (newline (level + 1) ++ pretty (level + 1) v ++ prettyItems (level + 1) vs
      ++ newline level ++ [']'])
  | .obj [] => ['\x7b', '\x7d']
  | .obj ((k, v) :: fs) =>
    '\x7b' :: (newline (level + 1) ++ string k ++ [':', ' '] ++ pretty (level + 1) v
      ++ prettyFields (level + 1) fs ++ newline level ++ ['\x7d'])

def prettyItems (level : Nat) : List Json → List Char
  | [] => []
  | v :: vs => ',' :: (newline level ++ pretty level v ++ prettyItems level vs)

def prettyFields (level : Nat) : List (String × Json) → List Char
  | [] => []
  | (k, v) :: fs =>
    ',' :: (newline level ++ string k ++ [':', ' '] ++ pretty level v ++ prettyFields level fs)

end

end TextHarvest.Json.Writer

namespace TextHarvest.Json

/-- The text of a value without any blanks. -/
def compress (j : Json) : String :=
  String.ofList (Writer.compact j)

/-- The text of a value with one item or field a line. -/
def indented (j : Json) : String :=
  String.ofList (Writer.pretty 0 j)

end TextHarvest.Json
