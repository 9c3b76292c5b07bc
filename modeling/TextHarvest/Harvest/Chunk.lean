import TextHarvest.Text.Offset

/-!
# Edges of template chunks

A chunk of a template literal is known as it is written and by its value. When the blanks at the
ends of the value are left out, what is left has to be found again in the written form, where a
blank may stand as itself or as an escape such as `\n`.
-/

namespace TextHarvest.Harvest

/-- The letters of the escapes that stand for a blank. -/
def blankEscapes : List Char := ['n', 't', 'r', 'v', 'f']

/-- A written chunk without the one written blank at its front, if there is one. -/
def dropBlank? : List Char → Option (List Char)
  | [] => none
  | '\\' :: c :: cs => if blankEscapes.contains c then some cs else none
  | c :: cs => if Chars.isBlank c then some cs else none

/-- A reversed written chunk without the one written blank at its end, if there is one. A letter
ends an escape when an odd number of backslashes stands before it. -/
def dropBlankEnd? : List Char → Option (List Char)
  | [] => none
  | c :: cs =>
    if Chars.isBlank c then some cs
    else if blankEscapes.contains c && (cs.takeWhile (· == '\\')).length % 2 == 1 then
      some (cs.drop 1)
    else none

/-- Repeats a partial step. -/
def iterate? (step : List Char → Option (List Char)) : Nat → List Char → Option (List Char)
  | 0, cs => some cs
  | n + 1, cs => (step cs).bind (iterate? step n)

/-- Where the value without its outer blanks stands in the written chunk; `none` when the ends
cannot be told apart. -/
def writtenSpan? (raw cooked : List Char) : Option Span :=
  -- as many blanks are dropped from the written text as the cooked one has
  let leading := (cooked.takeWhile Chars.isBlank).length
  let trailing := (cooked.reverse.takeWhile Chars.isBlank).length
  match iterate? dropBlank? leading raw with
  | none => none
  | some after =>
    match iterate? dropBlankEnd? trailing after.reverse with
    | none => none
    | some innerReversed =>
      let inner := innerReversed.reverse
      -- blanks that are left show that the two texts do not correspond
      if inner.isEmpty || (dropBlank? inner).isSome || (dropBlankEnd? innerReversed).isSome then none
      else
        let start := Chars.size raw - Chars.size after
        some ⟨start, start + Chars.size inner⟩

end TextHarvest.Harvest
