import TextHarvest.Json.Value
import TextHarvest.Text.Entity

/-!
# Reading JSON

A strict reader: no trailing text, no trailing commas, no raw control characters in strings, no
lone surrogates, at most 127 levels of nesting, and no number beyond the range of a double.
-/

namespace TextHarvest.Json.Reader

/-- The blanks that may stand between tokens. -/
def isGap (c : Char) : Bool :=
  c == ' ' || c == '\n' || c == '\t' || c == '\r'

def skipGaps (cs : List Char) : List Char :=
  cs.dropWhile isGap

/-- The deepest nesting that is read. -/
def maxDepth : Nat := 127

/-- Four hexadecimal digits. -/
def hex4? : List Char → Option (Nat × List Char)
  | a :: b :: c :: d :: rest => (Text.digitsValue? 16 [a, b, c, d] 0).map (·, rest)
  | _ => none

/-- One escape after its backslash. -/
def escape? : List Char → Option (Char × List Char)
  | '\x22' :: rest => some ('\x22', rest)
  | '\\' :: rest => some ('\\', rest)
  | '/' :: rest => some ('/', rest)
  | 'b' :: rest => some ('\x08', rest)
  | 'f' :: rest => some ('\x0c', rest)
  | 'n' :: rest => some ('\n', rest)
  | 'r' :: rest => some ('\r', rest)
  | 't' :: rest => some ('\t', rest)
  | 'u' :: rest =>
    match hex4? rest with
    | none => none
    | some (n, rest) =>
      -- the first half of a pair needs the second, a second half alone is refused
      if 0xd800 ≤ n && n ≤ 0xdbff then
        match rest with
        | '\\' :: 'u' :: rest =>
          match hex4? rest with
          | some (m, rest) =>
            if 0xdc00 ≤ m && m ≤ 0xdfff then
              some (Char.ofNat (0x10000 + (n - 0xd800) * 0x400 + (m - 0xdc00)), rest)
            else none
          | none => none
        | _ => none
      else (Text.charOfCode? n).map (·, rest)
  | _ => none

/-- The rest of a string after its opening quote; `acc` holds what was read, reversed. -/
def string? : Nat → List Char → List Char → Option (String × List Char)
  | 0, _, _ => none
  | _ + 1, [], _ => none
  | fuel + 1, c :: cs, acc =>
    if c == '\x22' then some (String.ofList acc.reverse, cs)
    else if c == '\\' then
      match escape? cs with
      | some (d, rest) => string? fuel rest (d :: acc)
      | none => none
    else if c.toNat < 0x20 then none
    else string? fuel cs (c :: acc)

/-- The digits at the front. -/
def digits (cs : List Char) : List Char × List Char :=
  (cs.takeWhile Char.isDigit, cs.dropWhile Char.isDigit)

/-- The value of decimal digits. -/
def decimalValue (ds : List Char) : Nat :=
  ds.foldl (fun n d => n * 10 + (d.toNat - 48)) 0

/-- The largest finite double plus half a unit in its last place. -/
def doubleLimit : Nat :=
  Nat.pow 2 1024 - Nat.pow 2 970

/-- Whether `mantissa · 10 ^ (up - down)` lies in the range of a double. -/
def inDoubleRange (mantissa up down : Nat) : Bool :=
  if mantissa == 0 then true
  else if up ≤ down then
    mantissa < doubleLimit * Nat.pow 10 (min (down - up) 400) || 400 < down - up
  else up - down ≤ 400 && mantissa * Nat.pow 10 (up - down) < doubleLimit

/-- A number without its sign. -/
def number? (negative : Bool) (cs : List Char) : Option (Json × List Char) :=
  let (whole, rest) := digits cs
  let wholeOk := match whole with
    | [] => false
    | '0' :: _ :: _ => false
    | _ => true
  if !wholeOk then none else
  let (fraction, rest, fractionOk) := match rest with
    | '.' :: r => let (f, r) := digits r; (f, r, !f.isEmpty)
    | r => ([], r, true)
  if !fractionOk then none else
  let isExp := match rest with
    | 'e' :: _ => true
    | 'E' :: _ => true
    | _ => false
  let (expNegative, expDigits, rest) :=
    if isExp then
      match rest.tail with
      | '+' :: r => let (e, r) := digits r; (false, e, r)
      | '-' :: r => let (e, r) := digits r; (true, e, r)
      | r => let (e, r) := digits r; (false, e, r)
    else (false, [], rest)
  if isExp && expDigits.isEmpty then none else
  let n := decimalValue whole
  -- whole numbers beyond sixty-four bits are kept as real ones
  let isInt := fraction.isEmpty && !isExp &&
    (if negative then 0 < n && n ≤ Nat.pow 2 63 else n < Nat.pow 2 64)
  if isInt then some (.int (if negative then -(n : Int) else n), rest) else
  let exponent := decimalValue expDigits
  let mantissa := decimalValue (whole ++ fraction)
  -- only the size of the value is needed: its digits are kept as they are written
  let up := if expNegative then 0 else exponent
  let down := fraction.length + if expNegative then exponent else 0
  if inDoubleRange mantissa up down then
    let sign := if negative then ['-'] else []
    let point := if fraction.isEmpty then [] else '.' :: fraction
    let power := if isExp then 'e' :: (if expNegative then ['-'] else []) ++ expDigits else []
    some (.real (String.ofList (sign ++ whole ++ point ++ power)), rest)
  else none

/-- Takes a fixed word off the front. -/
def word? (word : List Char) (cs : List Char) : Option (List Char) :=
  if word.isPrefixOf cs then some (cs.drop word.length) else none

mutual

/-- A value at the front, after blanks. `fuel` bounds the number of steps, `depth` the nesting. -/
def value? : Nat → Nat → List Char → Option (Json × List Char)
  | 0, _, _ => none
  | fuel + 1, depth, cs =>
    match skipGaps cs with
    | '\x22' :: rest => (string? (rest.length + 1) rest []).map fun (s, r) => (.str s, r)
    | '[' :: rest =>
      match depth with
      | 0 => none
      | depth + 1 =>
        match skipGaps rest with
        | ']' :: r => some (.arr [], r)
        | r => items? fuel depth r []
    | '\x7b' :: rest =>
      match depth with
      | 0 => none
      | depth + 1 =>
        match skipGaps rest with
        | '\x7d' :: r => some (.obj [], r)
        | r => fields? fuel depth r []
    | 't' :: rest => (word? ['r', 'u', 'e'] rest).map (.bool true, ·)
    | 'f' :: rest => (word? ['a', 'l', 's', 'e'] rest).map (.bool false, ·)
    | 'n' :: rest => (word? ['u', 'l', 'l'] rest).map (.null, ·)
    | '-' :: rest => number? true rest
    | cs => number? false cs

/-- The items of an array up to its bracket; `acc` holds those already read, reversed. -/
def items? : Nat → Nat → List Char → List Json → Option (Json × List Char)
  | 0, _, _, _ => none
  | fuel + 1, depth, cs, acc =>
    match value? fuel depth cs with
    | none => none
    | some (v, rest) =>
      match skipGaps rest with
      | ',' :: r => items? fuel depth r (v :: acc)
      | ']' :: r => some (.arr (v :: acc).reverse, r)
      | _ => none

/-- The fields of an object up to its brace; `acc` holds those already read, reversed. -/
def fields? : Nat → Nat → List Char → List (String × Json) → Option (Json × List Char)
  | 0, _, _, _ => none
  | fuel + 1, depth, cs, acc =>
    match skipGaps cs with
    | '\x22' :: rest =>
      match string? (rest.length + 1) rest [] with
      | none => none
      | some (name, rest) =>
        match skipGaps rest with
        | ':' :: rest =>
          match value? fuel depth rest with
          | none => none
          | some (v, rest) =>
            match skipGaps rest with
            | ',' :: r => fields? fuel depth r ((name, v) :: acc)
            | '\x7d' :: r => some (.obj ((name, v) :: acc).reverse, r)
            | _ => none
        | _ => none
    | _ => none

end

/-- Reads a whole text as one value. -/
def ofChars? (cs : List Char) : Option Json :=
  match value? (2 * cs.length + 2) maxDepth cs with
  | some (v, rest) => if (skipGaps rest).isEmpty then some v else none
  | none => none

end TextHarvest.Json.Reader

namespace TextHarvest.Json

/-- Reads a whole text as one value. -/
def parse? (text : String) : Option Json :=
  Reader.ofChars? text.toList

end TextHarvest.Json
