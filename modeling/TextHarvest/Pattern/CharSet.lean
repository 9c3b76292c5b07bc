import TextHarvest.Pattern.Category
import TextHarvest.Pattern.Property
import TextHarvest.Pattern.Writing
import TextHarvest.Text.Casing

/-!
# Sets of characters

The sets that patterns are made of: ranges, categories and their combinations, and the same sets
without regard to case.
-/

namespace TextHarvest.Pattern

/-- A set of characters. -/
inductive CharSet where
  | ranges (rs : List (Nat × Nat))
  /-- Runs with a step. -/
  | runs (rs : List (Nat × Nat × Nat))
  | compl (s : CharSet)
  | union (s t : CharSet)
  | inter (s t : CharSet)
  /-- The characters that differ from one of the set at most in case. -/
  | anyCase (s : CharSet)
  deriving Repr

namespace CharSet

/-- Whether one of the ranges holds a code point. -/
def inAny (rs : List (Nat × Nat)) (n : Nat) : Bool :=
  rs.any fun r => r.1 ≤ n && n ≤ r.2

/-- Whether one of the runs holds a code point. -/
def inAnyRun (rs : List (Nat × Nat × Nat)) (n : Nat) : Bool :=
  rs.any fun r => r.1 ≤ n && n ≤ r.2.1 && (n - r.1) % r.2.2 == 0

/-- Whether a code point is in the set. -/
def mem : CharSet → Nat → Bool
  | .ranges rs, n => inAny rs n
  | .runs rs, n => inAnyRun rs n
  | .compl s, n => !s.mem n
  | .union s t, n => s.mem n || t.mem n
  | .inter s t, n => s.mem n && t.mem n
  | .anyCase s, n => (Text.caseTwins n).any s.mem

/-- The set without characters. -/
def none : CharSet := .ranges []

/-- The set of all characters. -/
def all : CharSet := .compl none

/-- The set of one character. -/
def one (c : Char) : CharSet :=
  .ranges [(c.toNat, c.toNat)]

/-- The characters of one set that are not in another. -/
def diff (s t : CharSet) : CharSet := .inter s (.compl t)

/-- The union of some sets. -/
def unions (sets : List CharSet) : CharSet :=
  sets.foldl .union none

/-- The characters with a category. -/
def assigned : CharSet :=
  unions (Category.tables.map fun t => .runs t.2)

/-- The characters of a category. -/
def ofCategory (c : Category) : CharSet :=
  match Category.tables.lookup c with
  | some rs => .runs rs
  | .none => .compl assigned

/-- The characters of some categories. -/
def ofCategories (cs : List Category) : CharSet :=
  unions (cs.map ofCategory)

/-- Decimal digits. -/
def digits : CharSet :=
  ofCategory .decimalNumber

/-- White space. -/
def blanks : CharSet :=
  .ranges [(9, 13), (0x20, 0x20), (0x85, 0x85), (0xa0, 0xa0), (0x1680, 0x1680), (0x2000, 0x200a),
    (0x2028, 0x2029), (0x202f, 0x202f), (0x205f, 0x205f), (0x3000, 0x3000)]

/-- What words are made of, digits and connectors aside. -/
def alphabetic : CharSet :=
  .union (.ranges otherAlphabeticRanges)
    (ofCategories [.upperLetter, .lowerLetter, .titleLetter, .modifierLetter, .otherLetter,
      .letterNumber])

/-- Letters, marks, digits, connectors and joiners. -/
def wordChars : CharSet :=
  .union (.ranges [(0x30, 0x39), (0x41, 0x5a), (0x5f, 0x5f), (0x61, 0x7a), (0x200c, 0x200d)])
    (.union alphabetic
      (ofCategories [.nonspacingMark, .spacingMark, .enclosingMark, .decimalNumber, .connector]))

/-- The basic characters. -/
def ascii : CharSet := .ranges [(0, 127)]

/-! ## Sets by name -/

/-- A name in lower case without blanks, lines and a leading `is`. -/
def plainName (name : List Char) : String :=
  let name := (name.filter fun c => c.toNat < 128).map Char.toLower
  let isJoint (c : Char) : Bool := c == ' ' || c == '_' || c == '-'
  match name with
  | 'i' :: 's' :: rest =>
    let rest := rest.filter (!isJoint ·)
    String.ofList (if rest == ['c'] then ['i', 's', 'c'] else rest)
  | _ => String.ofList (name.filter (!isJoint ·))

/-- The set of a category or of a group of them. -/
def category? (name : String) : Option CharSet :=
  match name with
  | "any" => some all
  | "assigned" => some assigned
  | "ascii" => some ascii
  | _ => (Category.names.lookup name).map ofCategories

/-- The set of a writing system. -/
def writing? (name : String) : Option CharSet :=
  (Writing.named? name).map .ranges

/-- The set of a property that characters have or have not. -/
def property? (name : String) : Option CharSet :=
  match name with
  | "alphabetic" => some alphabetic
  | "alpha" => some alphabetic
  | "lowercase" => some (.union (.ranges otherLowercaseRanges) (ofCategory .lowerLetter))
  | "lower" => some (.union (.ranges otherLowercaseRanges) (ofCategory .lowerLetter))
  | "uppercase" => some (.union (.ranges otherUppercaseRanges) (ofCategory .upperLetter))
  | "upper" => some (.union (.ranges otherUppercaseRanges) (ofCategory .upperLetter))
  | "whitespace" => some blanks
  | "wspace" => some blanks
  | "space" => some blanks
  | "emoji" => some (.ranges emojiRanges)
  | "ideographic" => some (.ranges ideographicRanges)
  | "ideo" => some (.ranges ideographicRanges)
  | _ => .none

/-- The set of a name. -/
def named? (name : String) : Option CharSet :=
  (property? name).or ((category? name).or (writing? name))

/-- The set of a value of a property that has several. -/
def valued? (property value : String) : Option CharSet :=
  if ["gc", "generalcategory"].contains property then category? value
  else if ["sc", "script", "scx", "scriptextensions"].contains property then writing? value
  else .none

end CharSet

end TextHarvest.Pattern
