/-!
# Binary floating point

A non-negative number in the 64-bit binary format is a significand of at most 53 bits times a power
of two, or an overflow. Fractions are rounded to the nearest such number, and a number is written
with the fewest decimal digits that still read back as the same number.
-/

namespace TextHarvest

/-- A non-negative number of the 64-bit binary format: `significand * 2 ^ exponent`, or a number
too large for it. -/
inductive Binary where
  | finite (significand : Nat) (exponent : Int)
  | overflow
  deriving DecidableEq, Repr

namespace Binary

/-- The least exponent of the format. -/
def minExponent : Int := -1074

/-- The greatest exponent of a significand of 53 bits. -/
def maxExponent : Int := 971

/-- Divides and rounds to the nearest integer; a half goes to the even one. -/
def roundDiv (num den : Nat) : Nat :=
  let q := num / den
  let r := num % den
  if 2 * r < den then q
  else if den < 2 * r then q + 1
  else q + q % 2

/-- The fraction `num / den` times a power of a base. -/
def scale (base num den : Nat) (k : Int) : Nat × Nat :=
  if 0 ≤ k then (num * Nat.pow base k.toNat, den) else (num, den * Nat.pow base (-k).toNat)

/-- The number of the format nearest to a fraction. -/
def ofFraction (num den : Nat) : Binary :=
  if num = 0 || den = 0 then .finite 0 0
  else
    -- The exponent that leaves 53 bits is one of three around the difference of the bit lengths.
    let guess : Int := (Nat.log2 num : Int) - (Nat.log2 den : Int) - 53
    let fits (e : Int) : Bool :=
      let (n, d) := scale 2 num den (-e)
      n / d < Nat.pow 2 53
    let e := if fits guess then guess else if fits (guess + 1) then guess + 1 else guess + 2
    let e := max e minExponent
    let (n, d) := scale 2 num den (-e)
    let m := roundDiv n d
    let (m, e) := if m = Nat.pow 2 53 then (Nat.pow 2 52, e + 1) else (m, e)
    if maxExponent < e then .overflow else .finite m e

/-- A significand times a power of two, as a fraction. -/
def fraction (m : Nat) (e : Int) : Nat × Nat :=
  scale 2 m 1 e

/-! ## The shortest decimal form -/

/-- The decimal exponent of a fraction: the least `k` with `num / den < 10 ^ k`, searched for from
`k` upwards. -/
def decimalExponent (num den : Nat) : Nat → Int → Int
  | 0, k => k
  | fuel + 1, k =>
    let (n, d) := scale 10 num den (-k)
    if n < d then k else decimalExponent num den fuel (k + 1)

/-- Whether the decimal `digits * 10 ^ k` reads back as the given number. -/
def readsBack (b : Binary) (digits : Nat) (k : Int) : Bool :=
  let (n, d) := scale 10 digits 1 k
  ofFraction n d == b

/-- The digits of the shortest decimal that reads back, and the power of ten of the last one. With
each further digit the two neighbours of the number on the decimal grid are tried, the nearer one
first. -/
def shortestFrom (b : Binary) (num den : Nat) (top : Int) : Nat → Nat → Nat × Int
  | 0, count => (0, top - count)
  | fuel + 1, count =>
    let k := top - count
    let (n, d) := scale 10 num den (-k)
    let low := n / d
    let nearLow := 2 * (n % d) ≤ d
    let first := if nearLow then low else low + 1
    let second := if nearLow then low + 1 else low
    if readsBack b first k then (first, k)
    else if readsBack b second k then (second, k)
    else shortestFrom b num den top fuel (count + 1)

/-- The decimal digits of a number, most significant first. -/
def digitsOf (n : Nat) : List Char :=
  Nat.toDigits 10 n

/-- Writes `digits * 10 ^ k` without an exponent. -/
def positional (digits : Nat) (k : Int) : List Char :=
  let ds := digitsOf digits
  if 0 ≤ k then ds ++ List.replicate k.toNat '0'
  else
    let places := (-k).toNat
    let padded := List.replicate (places + 1 - ds.length) '0' ++ ds
    padded.take (padded.length - places) ++ '.' :: padded.drop (padded.length - places)

/-- Drops the zeros at the end of a decimal. -/
def dropZeros : Nat → Nat → Int → Nat × Int
  | 0, digits, k => (digits, k)
  | fuel + 1, digits, k =>
    if digits % 10 = 0 && digits != 0 then dropZeros fuel (digits / 10) (k + 1) else (digits, k)

/-- The number with the fewest digits that read back, never with an exponent. -/
def text : Binary → String
  | .overflow => "inf"
  | .finite m e =>
    if m = 0 then "0"
    else
      let (num, den) := fraction m e
      let top := decimalExponent num den 700 (-330)
      let (digits, k) := shortestFrom (.finite m e) num den top 18 1
      let (digits, k) := dropZeros 20 digits k
      String.ofList (positional digits k)

/-- The number without its fraction, as a signed word: numbers that are too large become the
largest word. -/
def toWord : Binary → Nat
  | .overflow => Nat.pow 2 63 - 1
  | .finite m e => let (num, den) := fraction m e; min (num / den) (Nat.pow 2 63 - 1)

end Binary

end TextHarvest
