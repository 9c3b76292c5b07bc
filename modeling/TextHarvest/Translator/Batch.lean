import TextHarvest.Text.Blank

/-!
# Batches of texts

Texts go to a translator in batches, joined by lines of three marks. What comes back is cut at those
lines again. Translators tend to damage them, so cutting is lenient.
-/

namespace TextHarvest

/-- Some texts that are sent together. -/
structure Batch where
  text : String
  count : Nat
  deriving DecidableEq, Repr

namespace Batch

/-- The mark of which the separating line is made. -/
def mark : Char := '┇'

/-- What stands between two texts of a batch. -/
def separator : String :=
  String.ofList ['\n', mark, mark, mark, '\n']

/-- The batch of some texts. -/
def ofTexts (texts : List String) : Batch where
  text := separator.intercalate texts
  count := texts.length

/-! ## Packing -/

/-- Batches that are complete, the texts of the one that is being filled, and its size. -/
structure Packing where
  done : List Batch := []
  current : List String := []
  size : Nat := 0

namespace Packing

/-- Completes the batch that is being filled, unless it is empty. -/
def commit (p : Packing) : Packing :=
  if p.current.isEmpty then { p with size := 0 }
  else { done := p.done ++ [Batch.ofTexts p.current], current := [], size := 0 }

/-- Adds a text, in a new batch when it does not fit any more. A text longer than the limit is a
batch of its own. -/
def add (limit : Nat) (p : Packing) (text : String) : Packing :=
  let length := text.length
  if limit < length then { p.commit with done := p.commit.done ++ [Batch.ofTexts [text]] }
  else
    let needed := length + if p.current.isEmpty then 0 else separator.length
    let p := if limit < p.size + needed then p.commit else p
    { p with
      current := p.current ++ [text]
      size := p.size + if p.current.isEmpty then length else needed }

end Packing

/-- Packs texts into batches of at most `limit` characters. -/
def pack (texts : List String) (limit : Nat) : List Batch :=
  (texts.foldl (Packing.add limit) {}).commit.done

/-! ## Cutting -/

/-- The length of a separating line at the front, with blanks between its marks. -/
def separatorLength? (cs : List Char) : Option Nat :=
  let blanks (cs : List Char) := cs.takeWhile (· == ' ')
  match cs with
  | '\n' :: a :: r1 =>
    let b1 := blanks r1
    match r1.drop b1.length with
    | b :: r2 =>
      let b2 := blanks r2
      match r2.drop b2.length with
      | c :: '\n' :: _ =>
        -- the marks may have come back with blanks between them
        if a == mark && b == mark && c == mark then some (5 + b1.length + b2.length) else none
      | _ => none
    | [] => none
  | _ => none

/-- Cuts a text wherever `length?` finds a separator; `skip` characters belong to the one just
found. The pieces are listed with their characters in order. -/
def cutFrom (length? : List Char → Option Nat) :
    List Char → Nat → List Char → List (List Char) → List (List Char)
  | [], _, piece, acc => (piece.reverse :: acc).reverse
  | _ :: cs, skip + 1, piece, acc => cutFrom length? cs skip piece acc
  | c :: cs, 0, piece, acc =>
    match length? (c :: cs) with
    | some n => cutFrom length? cs (n - 1) [] (piece.reverse :: acc)
    | none => cutFrom length? cs 0 (c :: piece) acc

/-- Cuts a text at separators. -/
def cut (length? : List Char → Option Nat) (cs : List Char) : List (List Char) :=
  cutFrom length? cs 0 [] []

/-- The length of a given text at the front. -/
def textLength? (mark cs : List Char) : Option Nat :=
  if mark.isPrefixOf cs then some mark.length else none

/-- The lines of a text. -/
def lines (cs : List Char) : List (List Char) :=
  cut (textLength? ['\n']) cs

/-- Cuts an answer into its texts, without blanks at their ends and changed by `post`. When no
separating line is left, a line of three characters is taken for one, if that gives more than one
text. -/
def unpack (answer : String) (post : String → String) : List String :=
  let cs := answer.toList
  let finish (piece : List Char) : String := post (Text.trim (String.ofList piece))
  let pieces := cut separatorLength? cs
  if 1 < pieces.length then pieces.map finish
  else
    let whole := [finish cs]
    match (lines cs).find? (·.length == 3) with
    | none => whole
    | some line =>
      let texts := ((cut (textLength? ('\n' :: line ++ ['\n'])) cs).map finish).filter (· != "")
      if 1 < texts.length then texts else whole

/-- Exactly `count` texts: further ones are dropped, missing ones are empty. -/
def align (texts : List String) (count : Nat) : List String :=
  texts.take count ++ List.replicate (count - texts.length) ""

theorem length_align (texts : List String) (count : Nat) : (align texts count).length = count := by
  simp [align]; omega

end Batch

end TextHarvest
