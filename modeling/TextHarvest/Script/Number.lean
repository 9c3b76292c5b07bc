import TextHarvest.Number.Binary
import TextHarvest.Text.Entity

/-!
# Values of number literals

A number literal of a script stands for the 64-bit binary number nearest to what is written.
-/

namespace TextHarvest.Script.Number

/-- The value of a run of digits of a base. -/
def digits (base : Nat) (cs : List Char) : Nat :=
  cs.foldl (fun n c => n * base + ((Text.digitValue? base c).getD 0)) 0

/-- The value of decimal digits with a fraction and an exponent. -/
def decimal (cs : List Char) : Binary :=
  let body := cs.takeWhile (· != 'e')
  let exponent := (cs.dropWhile (· != 'e')).drop 1
  let whole := body.takeWhile (· != '.')
  let places := (body.dropWhile (· != '.')).drop 1
  let value := digits 10 (whole ++ places)
  let shift : Int := match exponent with
    | '-' :: ds => -(digits 10 ds : Int)
    | ds => digits 10 ds
  let k := shift - places.length
  -- Beyond these bounds the number is zero or overflows, whatever its digits are.
  let length : Int := (whole ++ places).length
  if value = 0 || k + length < -400 then .finite 0 0
  else if 400 < k + length && 400 < k then .overflow
  else
    let (num, den) := Binary.scale 10 value 1 k
    Binary.ofFraction num den

/-- Whether digits with a leading zero are octal. -/
def isOctal (cs : List Char) : Bool :=
  1 < cs.length && cs.head? == some '0' && cs.all fun c => (Text.digitValue? 8 c).isSome

/-- The value of a number literal. -/
def value (raw : String) : Binary :=
  match raw.toList.filter (· != '_') with
  | '0' :: 'x' :: ds => Binary.ofFraction (digits 16 ds) 1
  | '0' :: 'o' :: ds => Binary.ofFraction (digits 8 ds) 1
  | '0' :: 'b' :: ds => Binary.ofFraction (digits 2 ds) 1
  | cs => if isOctal cs then Binary.ofFraction (digits 8 cs) 1 else decimal cs

end TextHarvest.Script.Number
