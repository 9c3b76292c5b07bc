import TextHarvest.Component.Tag

/-!
# Templates

The parts of a template that can hold display texts: runs of text, interpolations between double
braces, and attributes. Comments, closing tags and the contents of scripts and styles are passed
over.
-/

namespace TextHarvest.Component

/-- A part of a template with its range. -/
inductive Node where
  | text (text : String) (span : Span)
  | interpolation (expr : String) (span exprSpan : Span)
  | attribute (attr : Attribute)
  deriving DecidableEq, Repr

/-- The elements whose content is no markup. -/
def rawElements : List String := ["script", "style"]

/-- What opens and closes a comment. -/
def commentOpen : List Char := ['<', '!', '-', '-']

def commentClose : List Char := ['-', '-', '>']

/-- The place after the comment that starts at the cursor. -/
def afterComment (c : Cursor) : Cursor :=
  match (c.skip 4).seek? commentClose with
  | some stop => stop.skip 3
  | none => c.toEnd

/-- The place after the tag that ends at or after the cursor. -/
def afterTag (c : Cursor) : Cursor :=
  match tagEnd? c with
  | some stop => stop.next
  | none => c.toEnd

/-- Whether a letter of a name follows. -/
def isAsciiLetter (c : Char) : Bool :=
  ('a' ≤ c && c ≤ 'z') || ('A' ≤ c && c ≤ 'Z')

/-- Whether the `<` at the front opens a tag. -/
def opensTag : List Char → Bool
  | '<' :: c :: _ => isAsciiLetter c || c == '/' || c == '!' || c == '?'
  | _ => false

/-- A run of text between two places, unless it is blank. -/
def textNode (base : Nat) (start stop : Cursor) : List Node :=
  let text := start.textTo stop.pos
  if Text.isBlank text then [] else [.text text ((Span.mk start.pos stop.pos).shift base)]

/-- The next place in a run of text where it may end: at double braces or at a tag. -/
def runEndFrom : List Char → Nat → Option Char → Cursor
  | [], pos, prev => ⟨[], pos, prev⟩
  | ch :: cs, pos, prev =>
    if (ch == '\x7b' && cs.head? == some '\x7b') || opensTag (ch :: cs) then ⟨ch :: cs, pos, prev⟩
    else runEndFrom cs (pos + ch.utf8Size) (some ch)

/-- A run of text with its interpolations. It ends at a tag, or at double braces that are not
closed. -/
def readRun (base : Nat) : Nat → Cursor → Cursor → List Node → List Node × Cursor
  | 0, _, c, acc => (acc, c)
  | fuel + 1, start, c, acc =>
    let stop := runEndFrom c.rest c.pos c.prev
    let text := textNode base start stop
    if stop.sees ['\x7b', '\x7b'] then
      let inner := stop.skip 2
      match inner.seek? ['\x7d', '\x7d'] with
      | some close =>
        let after := close.skip 2
        let node : Node := .interpolation (inner.textTo close.pos)
          ((Span.mk stop.pos after.pos).shift base) ((Span.mk inner.pos close.pos).shift base)
        readRun base fuel after after (acc ++ text ++ [node])
      -- braces that nothing closes end the run
      | none => (acc ++ text, stop)
    else (acc ++ text, stop)

/-- A start tag: its attributes and the place after it. The content of a raw element is passed over
as well. -/
def readStartTag (base fuel : Nat) (c : Cursor) : List Node × Cursor :=
  let nameStart := c.next
  let nameEnd := nameStart.skipWhile fun ch => !(isSpace ch || ch == '>' || ch == '/')
  let name := nameStart.textTo nameEnd.pos
  let (attrs, stop) := readAttributes base fuel nameEnd []
  let nodes := attrs.map Node.attribute
  match stop with
  | none => (nodes, c.toEnd)
  | some stop =>
    let after := stop.next
    -- scripts, styles and their like have no nodes inside
    if !isSelfClosing stop && rawElements.contains (String.ofList (name.toList.map Char.toLower)) then
      match after.seek? ('<' :: '/' :: name.toList) with
      | some close => (nodes, afterTag close)
      | none => (nodes, c.toEnd)
    else (nodes, after)

/-- The parts of a template from a place on, latest first. Every step moves forward, so that `fuel`
is enough when it is more than the number of characters left. -/
def nodesFrom (base : Nat) : Nat → Cursor → List Node → List Node
  | 0, _, acc => acc
  | fuel + 1, c, acc =>
    let run (start : Cursor) : List Node :=
      -- Double braces that are not closed lose their first brace.
      let (nodes, stop) := readRun base (fuel + 1) start start []
      let stop := if stop.pos == start.pos then start.next else stop
      nodesFrom base fuel stop (nodes.reverse ++ acc)
    match c.rest with
    | [] => acc
    | '<' :: ch :: _ =>
      if c.sees commentOpen then nodesFrom base fuel (afterComment c) acc
      else if ch == '/' || ch == '!' || ch == '?' then nodesFrom base fuel (afterTag c.next) acc
      else if isAsciiLetter ch then
        let (nodes, stop) := readStartTag base (fuel + 1) c
        nodesFrom base fuel stop (nodes.reverse ++ acc)
      else run c
    | _ => run c

/-- The parts of a template that starts at byte `base` of its file. -/
def nodes (source : String) (base : Nat) : List Node :=
  (nodesFrom base (source.length + 1) ⟨source.toList, 0, none⟩ []).reverse

end TextHarvest.Component
