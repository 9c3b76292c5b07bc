import TextHarvest.Text.Offset

/-!
# Character references in markup text

Decoding of the references that markup text may carry: six named ones, and decimal and hexadecimal
code points. A reference is at most ten bytes long up to its semicolon; whatever is not a known
reference is kept as it is written.
-/

namespace TextHarvest

namespace Text

/-- The value of a digit below the given base. -/
def digitValue? (base : Nat) (c : Char) : Option Nat :=
  let n := c.toNat
  let v :=
    if 48 ≤ n && n ≤ 57 then n - 48
    else if 97 ≤ n && n ≤ 122 then n - 87
    else if 65 ≤ n && n ≤ 90 then n - 55
    else base
  if v < base then some v else none

/-- Reads digits into a number, most significant first. -/
def digitsValue? (base : Nat) : List Char → Nat → Option Nat
  | [], n => some n
  | c :: cs, n =>
    match digitValue? base c with
    | some d => digitsValue? base cs (n * base + d)
    | none => none

/-- Reads an unsigned number; a leading plus sign is allowed, an empty one is not. -/
def unsigned? (base : Nat) (cs : List Char) : Option Nat :=
  match cs with
  | [] => none
  | '+' :: [] => none
  | '+' :: ds => digitsValue? base ds 0
  | ds => digitsValue? base ds 0

/-- The character of a code point, when it is one. -/
def charOfCode? (n : Nat) : Option Char :=
  if n.isValidChar then some (Char.ofNat n) else none

theorem charOfCode?_toNat (c : Char) : charOfCode? c.toNat = some c := by
  have hvalid : c.toNat.isValidChar := c.valid
  rw [charOfCode?, if_pos hvalid, Char.ofNat_toNat]

/-- The character that a reference stands for, given what is written between `&` and `;`. -/
def entity? (name : List Char) : Option Char :=
  match name with
  | ['a', 'm', 'p'] => some '&'
  | ['l', 't'] => some '<'
  | ['g', 't'] => some '>'
  | ['q', 'u', 'o', 't'] => some '\x22'
  | ['a', 'p', 'o', 's'] => some '\x27'
  | ['n', 'b', 's', 'p'] => some '\u00a0'
  | '#' :: 'x' :: ds => (unsigned? 16 ds).bind charOfCode?
  | '#' :: 'X' :: ds => (unsigned? 16 ds).bind charOfCode?
  | '#' :: ds => (unsigned? 10 ds).bind charOfCode?
  | _ => none

/-- The reference that starts after an ampersand: its character, and how many characters it takes
up to and with its semicolon. -/
def reference? (cs : List Char) : Option (Char × Nat) :=
  let name := cs.takeWhile (· != ';')
  if name.length < cs.length && Chars.size name ≤ 9 then
    (entity? name).map fun c => (c, name.length + 1)
  else none

/-- Decodes from left to right; `skip` characters belong to a reference that was just decoded. -/
def decodeFrom : List Char → Nat → List Char
  | [], _ => []
  | _ :: cs, skip + 1 => decodeFrom cs skip
  | c :: cs, 0 =>
    if c == '&' then
      match reference? cs with
      | some (d, n) => d :: decodeFrom cs n
      | none => c :: decodeFrom cs 0
    else c :: decodeFrom cs 0

/-- A text with its character references decoded. -/
def decodeEntities (s : String) : String :=
  String.ofList (decodeFrom s.toList 0)

end Text

end TextHarvest
