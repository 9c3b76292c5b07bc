/-!
# JSON values

The data of configuration and locale files. Objects keep their fields in written order, repeated
names included, so that a reader of fields can tell a repeated field from a single one.
-/

namespace TextHarvest

/-- A JSON value. Whole numbers that fit 64 bits are `int`; any other number is `real` with its
written form. -/
inductive Json where
  | null
  | bool (b : Bool)
  | int (n : Int)
  | real (text : String)
  | str (s : String)
  | arr (items : List Json)
  | obj (fields : List (String × Json))
  deriving Inhabited

namespace Json

/-- A natural number. -/
def nat (n : Nat) : Json :=
  .int n

/-- A value that may be missing. -/
def opt {α : Type} (f : α → Json) : Option α → Json
  | some a => f a
  | none => .null

/-- A list of values. -/
def list {α : Type} (f : α → Json) (as : List α) : Json :=
  .arr (as.map f)

/-- A list of strings. -/
def strs (ss : List String) : Json :=
  list .str ss

def str? : Json → Option String
  | .str s => some s
  | _ => none

def bool? : Json → Option Bool
  | .bool b => some b
  | _ => none

def nat? : Json → Option Nat
  | .int (.ofNat n) => some n
  | _ => none

def arr? : Json → Option (List Json)
  | .arr items => some items
  | _ => none

def obj? : Json → Option (List (String × Json))
  | .obj fields => some fields
  | _ => none

/-- The items of an array of strings. -/
def strs? (j : Json) : Option (List String) :=
  j.arr?.bind fun items => items.mapM str?

/-- Puts a field in the place of an earlier one of the same name, or at the end. -/
def setField (name : String) (value : Json) : List (String × Json) → List (String × Json)
  | [] => [(name, value)]
  | f :: fs => if f.1 == name then (name, value) :: fs else f :: setField name value fs

/-- Fields in which a repeated name keeps its first place and takes its last value. -/
def settle (fields : List (String × Json)) : List (String × Json) :=
  fields.foldl (fun acc f => setField f.1 f.2 acc) []

/-- The value of a field; the last one counts when the name is repeated. -/
def field? (j : Json) (name : String) : Option Json :=
  j.obj?.bind fun fields => fields.reverse.lookup name

end Json

end TextHarvest
