import TextHarvest.Text.Cursor

/-!
# Tags

The inside of a start tag: its attributes with their places, and where the tag ends. Nothing is
refused; what makes no sense is passed over.
-/

namespace TextHarvest.Component

/-- The value of an attribute: its text, its range without quotes, and its quote. -/
structure AttributeValue where
  text : String
  span : Span
  quote : Option Char
  deriving DecidableEq, Repr

/-- An attribute with its range. -/
structure Attribute where
  name : String
  value : Option AttributeValue
  span : Span
  deriving DecidableEq, Repr

/-- The blanks that separate the parts of a tag. -/
def isSpace (c : Char) : Bool :=
  c == ' ' || c == '\t' || c == '\n' || c == '\x0c' || c == '\r'

/-- The end of a tag from `rest` on, with quoted text passed over. -/
def tagEndFrom : List Char → Nat → Option Char → Option Char → Option Cursor
  | [], _, _, _ => none
  | ch :: cs, pos, prev, quote =>
    let go := tagEndFrom cs (pos + ch.utf8Size) (some ch)
    match quote with
    | some q => go (if ch == q then none else quote)
    | none =>
      if ch == '\x22' || ch == '\x27' then go (some ch)
      else if ch == '>' then some ⟨ch :: cs, pos, prev⟩
      else go none

/-- The place of the `>` that ends a tag. -/
def tagEnd? (c : Cursor) : Option Cursor :=
  tagEndFrom c.rest c.pos c.prev none

/-- Whether a cursor at the end of a tag has the slash of a self-closing one behind it. -/
def isSelfClosing (c : Cursor) : Bool :=
  c.prev == some '/'

/-- Moves over the name of an attribute. It ends at a blank, at `=`, at `>` or at `/>`. -/
def skipNameFrom : List Char → Nat → Option Char → Cursor
  | [], pos, prev => ⟨[], pos, prev⟩
  | ch :: cs, pos, prev =>
    if isSpace ch || ch == '=' || ch == '>' || (ch == '/' && cs.head? == some '>') then
      ⟨ch :: cs, pos, prev⟩
    else skipNameFrom cs (pos + ch.utf8Size) (some ch)

/-- Reads the value of an attribute from behind its `=`: the value, if there is one, and the place
after it. -/
def readValue (base : Nat) (c : Cursor) : Option AttributeValue × Cursor :=
  let c := c.skipWhile isSpace
  match c.head? with
  | none => (none, c)
  | some q =>
    if q == '\x22' || q == '\x27' then
      let start := c.next
      let stop := start.skipWhile (· != q)
      (some ⟨start.textTo stop.pos, (Span.mk start.pos stop.pos).shift base, some q⟩, stop.next)
    else
      let stop := c.skipWhile fun ch => !(isSpace ch || ch == '>')
      (some ⟨c.textTo stop.pos, (Span.mk c.pos stop.pos).shift base, none⟩, stop)

/-- Reads attributes, latest first, up to the end of the tag. An attribute without a name is passed
over together with the character after it. -/
def readAttributes (base : Nat) : Nat → Cursor → List Attribute → List Attribute × Option Cursor
  | 0, _, acc => (acc.reverse, none)
  | fuel + 1, c, acc =>
    let c := c.skipWhile isSpace
    match c.rest with
    | [] => (acc.reverse, none)
    | '>' :: _ => (acc.reverse, some c)
    | '/' :: '>' :: _ => (acc.reverse, some c.next)
    -- a slash that does not end the tag stands between attributes like a blank
    | '/' :: _ => readAttributes base fuel c.next acc
    | _ =>
      let nameEnd := skipNameFrom c.rest c.pos c.prev
      let look := nameEnd.skipWhile isSpace
      let (value, stop) :=
        if look.head? == some '=' then readValue base look.next else (none, nameEnd)
      if c.pos < nameEnd.pos then
        let attr : Attribute :=
          ⟨c.textTo nameEnd.pos, value, (Span.mk c.pos stop.pos).shift base⟩
        readAttributes base fuel stop (attr :: acc)
      -- a quoted value without a name is dropped, together with the character behind it
      else readAttributes base fuel stop.next acc

/-- The attributes from a place in a start tag on, and the place of the `>` that ends it. Ranges
are those of a text in which this one starts at `base`. -/
def attributes (base : Nat) (c : Cursor) : List Attribute × Option Cursor :=
  readAttributes base (c.rest.length + 1) c []

end TextHarvest.Component
