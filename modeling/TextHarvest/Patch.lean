import TextHarvest.Text.Offset

/-!
# Patches

A patch is a list of edits against one source, in the order in which they were recorded. Applying
it goes through the edits by position and splices those that do not conflict with an earlier one,
so that everything outside the edited ranges stays as it is.
-/

namespace TextHarvest

/-- A range of the source and the text that replaces it. -/
structure Edit where
  span : Span
  text : String
  deriving DecidableEq, Repr

namespace Edit

/-- The order in which edits are applied: by start, then by end. -/
def before (a b : Edit) : Bool :=
  a.span.start < b.span.start || (a.span.start == b.span.start && a.span.stop ≤ b.span.stop)

/-- Puts an edit in front of the first edit that does not come strictly earlier. -/
def insertSorted (e : Edit) : List Edit → List Edit
  | [] => [e]
  | f :: fs => if before e f then e :: f :: fs else f :: insertSorted e fs

/-- Sorts edits by position; edits of one range keep their order. -/
def sort (es : List Edit) : List Edit :=
  es.foldr insertSorted []

/-- The same edit against a text that starts `offset` bytes earlier. -/
def shift (e : Edit) (offset : Nat) : Edit :=
  { e with span := e.span.shift offset }

end Edit

/-- Edits against one source, in recording order. -/
structure Patch where
  edits : List Edit := []
  deriving DecidableEq, Repr, Inhabited

namespace Patch

def empty : Patch := {}

/-- Records the replacement of a range. -/
def replace (p : Patch) (span : Span) (text : String) : Patch :=
  ⟨p.edits ++ [⟨span, text⟩]⟩

/-- Records an insertion. -/
def insert (p : Patch) (offset : Nat) (text : String) : Patch :=
  p.replace (Span.point offset) text

/-- Records a removal. -/
def remove (p : Patch) (span : Span) : Patch :=
  p.replace span ""

def size (p : Patch) : Nat :=
  p.edits.length

def isEmpty (p : Patch) : Bool :=
  p.edits.isEmpty

/-- Takes over the edits of a patch of a part of the text that starts at `offset`. -/
def absorb (p q : Patch) (offset : Nat) : Patch :=
  ⟨p.edits ++ q.edits.map (·.shift offset)⟩

/-- Splices ordered edits into `rest`, the source from byte `cursor` on. An edit that starts before
the cursor, ends before it starts, or does not fall on character boundaries of the source is
dropped. -/
def splice : List Edit → Nat → List Char → List Char
  | [], _, rest => rest
  | e :: es, cursor, rest =>
    if cursor ≤ e.span.start && e.span.start ≤ e.span.stop then
      match Chars.splitAt? rest (e.span.start - cursor) with
      | some (front, after) =>
        match Chars.splitAt? after (e.span.stop - e.span.start) with
        | some (_, tail) => front ++ e.text.toList ++ splice es e.span.stop tail
        | none => splice es cursor rest
      | none => splice es cursor rest
    else splice es cursor rest

/-- The source with the edits applied. -/
def apply (p : Patch) (source : String) : String :=
  String.ofList (splice (Edit.sort p.edits) 0 source.toList)

end Patch

end TextHarvest
