import TextHarvest.Component.Blocks
import TextHarvest.Text.Bytes

/-!
# Reading markup byte by byte

Markup is scanned by its bytes, and the texts of names, values and contents are cut out of the
source between the places where the scan has been. A cut inside a character is no text: then there
is no answer at all. The answers are those of reading character by character, save that a value
without a name is passed over together with one byte and not with one character.
-/

namespace TextHarvest.Component.Bytes

/-! ## Tags -/

/-- The end of a tag from `rest` on, with quoted text passed over. -/
def tagEndFrom : List UInt8 → Nat → Option UInt8 → Option Char → Option BytePlace
  | [], _, _, _ => none
  | b :: bs, pos, prev, quote =>
    let ch := charOfByte b
    let go := tagEndFrom bs (pos + 1) (some b)
    match quote with
    | some q => go (if ch == q then none else quote)
    | none =>
      if ch == '\x22' || ch == '\x27' then go (some ch)
      else if ch == '>' then some ⟨b :: bs, pos, prev⟩
      else go none

/-- The place of the `>` that ends a tag. -/
def tagEnd? (c : BytePlace) : Option BytePlace :=
  tagEndFrom c.rest c.pos c.prev none

/-- Whether a place at the end of a tag has the slash of a self-closing one behind it. -/
def isSelfClosing (c : BytePlace) : Bool :=
  c.last? == some '/'

/-- Moves over the name of an attribute. -/
def skipNameFrom : List UInt8 → Nat → Option UInt8 → BytePlace
  | [], pos, prev => ⟨[], pos, prev⟩
  | b :: bs, pos, prev =>
    let ch := charOfByte b
    if isSpace ch || ch == '=' || ch == '>' ||
        (ch == '/' && bs.head?.map charOfByte == some '>') then ⟨b :: bs, pos, prev⟩
    else skipNameFrom bs (pos + 1) (some b)

section Source

variable (source : String) (base : Nat)

/-- The text between two places. -/
def textBetween (start stop : BytePlace) : Option String :=
  Text.slice? source ⟨start.pos, stop.pos⟩

/-- The range between two places. -/
def spanBetween (start stop : BytePlace) : Span :=
  (Span.mk start.pos stop.pos).shift base

/-- Reads the value of an attribute from behind its `=`. -/
def readValue (c : BytePlace) : Option (Option AttributeValue × BytePlace) :=
  let c := c.skipWhile isSpace
  match c.head? with
  | none => some (none, c)
  | some q =>
    -- a value whose quote is never closed goes on to the end of the text
    if q == '\x22' || q == '\x27' then
      let start := c.next
      let stop := start.skipWhile (· != q)
      (textBetween source start stop).map fun text =>
        (some ⟨text, spanBetween base start stop, some q⟩, stop.next)
    else
      let stop := c.skipWhile fun ch => !(isSpace ch || ch == '>')
      (textBetween source c stop).map fun text =>
        (some ⟨text, spanBetween base c stop, none⟩, stop)

/-- Reads what is written behind the name of an attribute. -/
def readAssigned (nameEnd : BytePlace) : Option (Option AttributeValue × BytePlace) :=
  let look := nameEnd.skipWhile isSpace
  if look.head? == some '=' then readValue source base look.next else some (none, nameEnd)

/-- Reads attributes, latest first, up to the end of the tag. An attribute without a name is passed
over together with the byte after it. -/
def readAttributes :
    Nat → BytePlace → List Attribute → Option (List Attribute × Option BytePlace)
  | 0, _, _ => none
  | fuel + 1, c, acc =>
    let c := c.skipWhile isSpace
    match c.rest with
    | [] => some (acc.reverse, none)
    | b :: bs =>
      if charOfByte b == '>' then some (acc.reverse, some c)
      else if charOfByte b == '/' then
        if bs.head?.map charOfByte == some '>' then some (acc.reverse, some c.next)
        else readAttributes fuel c.next acc
      else
        let nameEnd := skipNameFrom c.rest c.pos c.prev
        -- the value is read before it is known whether there is a name
        match readAssigned source base nameEnd with
        | none => none
        | some (value, stop) =>
          if c.pos < nameEnd.pos then
            match textBetween source c nameEnd with
            | none => none
            | some name =>
              readAttributes fuel stop (⟨name, value, spanBetween base c stop⟩ :: acc)
          -- one byte further, which need not be the beginning of a character
          else readAttributes fuel stop.next acc

/-- The attributes from a place in a start tag on, and the place of the `>` that ends it. -/
def attributesFrom (c : BytePlace) : Option (List Attribute × Option BytePlace) :=
  readAttributes source base (c.rest.length + 1) c []

/-- The attributes from an offset in a start tag on, and the offset of the `>` that ends it. -/
def attributes (start : Nat) : Option (List Attribute × Option Nat) :=
  (attributesFrom source base ((BytePlace.ofText source).skip start)).map fun read =>
    (read.1, read.2.map BytePlace.pos)

/-! ## Templates -/

/-- The place after the comment that starts here. -/
def afterComment (c : BytePlace) : BytePlace :=
  match (c.skip 4).seek? commentClose with
  | some stop => stop.skip 3
  | none => c.toEnd

/-- The place after the tag that ends here or later. -/
def afterTag (c : BytePlace) : BytePlace :=
  match tagEnd? c with
  | some stop => stop.next
  | none => c.toEnd

/-- Whether the `<` at the front opens a tag. -/
def opensTag : List UInt8 → Bool
  | b :: d :: _ =>
    let ch := charOfByte d
    charOfByte b == '<' && (isAsciiLetter ch || ch == '/' || ch == '!' || ch == '?')
  | _ => false

/-- A run of text between two places, unless it is blank. -/
def textNode (start stop : BytePlace) : Option (List Node) :=
  (textBetween source start stop).map fun text =>
    if Text.isBlank text then [] else [.text text (spanBetween base start stop)]

/-- The next place in a run of text where it may end: at double braces or at a tag. -/
def runEndFrom : List UInt8 → Nat → Option UInt8 → BytePlace
  | [], pos, prev => ⟨[], pos, prev⟩
  | b :: bs, pos, prev =>
    if (charOfByte b == '\x7b' && bs.head?.map charOfByte == some '\x7b') || opensTag (b :: bs) then
      ⟨b :: bs, pos, prev⟩
    else runEndFrom bs (pos + 1) (some b)

/-- A run of text with its interpolations. -/
def readRun : Nat → BytePlace → BytePlace → List Node → Option (List Node × BytePlace)
  | 0, _, _, _ => none
  | fuel + 1, start, c, acc =>
    let stop := runEndFrom c.rest c.pos c.prev
    match textNode source base start stop with
    | none => none
    | some text =>
      -- braces that nothing closes end the run, and stay text
      if stop.sees ['\x7b', '\x7b'] then
        let inner := stop.skip 2
        match inner.seek? ['\x7d', '\x7d'] with
        | none => some (acc ++ text, stop)
        | some close =>
          match textBetween source inner close with
          | none => none
          | some expr =>
            let after := close.skip 2
            let node : Node :=
              .interpolation expr (spanBetween base stop after) (spanBetween base inner close)
            readRun fuel after after (acc ++ text ++ [node])
      else some (acc ++ text, stop)

/-- The place after a start tag, given the place where it ends. -/
def afterStartTag (name : String) (c : BytePlace) : Option BytePlace → BytePlace
  | none => c.toEnd
  | some stop =>
    if !isSelfClosing stop &&
        rawElements.contains (String.ofList (name.toList.map Char.toLower)) then
      match stop.next.seek? ('<' :: '/' :: name.toList) with
      | some close => afterTag close
      | none => c.toEnd
    else stop.next

/-- A start tag: its attributes and the place after it. -/
def readStartTag (fuel : Nat) (c : BytePlace) : Option (List Node × BytePlace) :=
  let nameStart := c.next
  let nameEnd := nameStart.skipWhile fun ch => !(isSpace ch || ch == '>' || ch == '/')
  match textBetween source nameStart nameEnd with
  | none => none
  | some name =>
    (readAttributes source base fuel nameEnd []).map fun read =>
      (read.1.map Node.attribute, afterStartTag name c read.2)

/-- The parts of a template from a place on, latest first. -/
def nodesFrom : Nat → BytePlace → List Node → Option (List Node)
  | 0, _, _ => none
  | fuel + 1, c, acc =>
    let run (start : BytePlace) : Option (List Node) :=
      -- an empty run steps over one byte, so that the reading goes on
      (readRun source base (fuel + 1) start start []).bind fun read =>
        nodesFrom fuel (if read.2.pos == start.pos then start.next else read.2)
          (read.1.reverse ++ acc)
    match c.rest with
    | [] => some acc
    | b :: bs =>
      if charOfByte b == '<' then
        match bs.head?.map charOfByte with
        | none => run c
        | some ch =>
          if c.sees commentOpen then nodesFrom fuel (afterComment c) acc
          else if ch == '/' || ch == '!' || ch == '?' then nodesFrom fuel (afterTag c.next) acc
          else if isAsciiLetter ch then
            (readStartTag source base (fuel + 1) c).bind fun read =>
              nodesFrom fuel read.2 (read.1.reverse ++ acc)
          else run c
      else run c

/-- The parts of a template that starts at byte `base` of its file. -/
def nodes : Option (List Node) :=
  let start := BytePlace.ofText source
  (nodesFrom source base (start.rest.length + 1) start []).map List.reverse

end Source

/-! ## Blocks -/

/-- Whether the name of a tag ends here. -/
def endsName : List UInt8 → Bool
  | [] => true
  | b :: _ => charOfByte b == '>' || charOfByte b == '/' || isSpace (charOfByte b)

/-- The closing tag of a template with `depth` open ones around a place. -/
def templateEndFrom : Nat → Nat → BytePlace → Option BytePlace
  | 0, _, _ => none
  | fuel + 1, depth, c =>
    match c.seek? ['<'] with
    | none => none
    | some c =>
      if c.sees commentOpen then templateEndFrom fuel depth (afterComment c)
      else if c.sees templateClose && endsName (c.rest.drop 10) then
        if depth ≤ 1 then some c else templateEndFrom fuel (depth - 1) c.next
      else if c.sees templateOpen && endsName (c.rest.drop 9) then
        if (tagEnd? c).any isSelfClosing then templateEndFrom fuel depth c.next
        else templateEndFrom fuel (depth + 1) c.next
      else templateEndFrom fuel depth c.next

/-- The place where the content of a block ends. -/
def contentEnd? (name : String) (c : BytePlace) : Option BytePlace :=
  if name == "template" then templateEndFrom (c.rest.length + 1) 1 c
  else c.seek? ('<' :: '/' :: name.toList)

/-- Splits what is left of a file into blocks. -/
def splitFrom (source : String) : Nat → BytePlace → Blocks → Option (Except BlockError Blocks)
  | 0, _, _ => none
  | fuel + 1, c, blocks =>
    match c.seek? ['<'] with
    | none => some (.ok blocks)
    | some start =>
      if start.sees commentOpen then splitFrom source fuel (afterComment start) blocks
      else
        let nameStart := start.next
        let nameEnd := nameStart.skipWhile isNameChar
        if nameEnd.pos == nameStart.pos then splitFrom source fuel start.next blocks
        else
          -- a range that begins or ends inside a character has no text
          match textBetween source nameStart nameEnd, attributesFrom source 0 nameEnd with
          | some name, some (attrs, stop) =>
            match stop with
            | none => some (.error (.unclosed name start.pos))
            | some stop =>
              let after := stop.next
              if isSelfClosing stop then splitFrom source fuel after blocks
              else
                match contentEnd? name after with
                | none => some (.error (.unclosed name start.pos))
                | some close =>
                  match textBetween source after close with
                  | none => none
                  | some content =>
                    let block : Block :=
                      { content
                        offset := after.pos
                        lang := ((attrs.find? (·.name == "lang")).bind (·.value)).map (·.text)
                        setup := attrs.any (·.name == "setup") }
                    match addBlock blocks name block with
                    | .error e => some (.error e)
                    | .ok blocks => splitFrom source fuel (afterTag close) blocks
          | _, _ => none

/-- Splits a file into blocks. -/
def split (source : String) : Option (Except BlockError Blocks) :=
  let size := source.utf8ByteSize
  if maxFileSize < size then some (.error (.tooLarge size))
  else
    let start := BytePlace.ofText source
    splitFrom source (start.rest.length + 1) start {}

end TextHarvest.Component.Bytes
