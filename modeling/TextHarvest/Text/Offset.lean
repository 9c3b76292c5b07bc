import TextHarvest.Text.Blank

/-!
# Byte offsets

Positions in a source are UTF-8 byte offsets. A list of characters has a size in bytes, can be cut
at an offset that falls between two of its characters, and can be sliced by a span.
-/

namespace TextHarvest

/-- A half-open range of byte offsets. -/
structure Span where
  start : Nat
  stop : Nat
  deriving DecidableEq, Repr, Inhabited

namespace Span

/-- The empty span at an offset. -/
def point (offset : Nat) : Span :=
  ⟨offset, offset⟩

/-- The same range seen from a text that starts `offset` bytes earlier. -/
def shift (s : Span) (offset : Nat) : Span :=
  ⟨s.start + offset, s.stop + offset⟩

end Span

namespace Chars

/-- The number of bytes that the characters take in UTF-8. -/
def size (cs : List Char) : Nat :=
  cs.foldr (fun c n => c.utf8Size + n) 0

@[simp] theorem size_nil : size [] = 0 := rfl

@[simp] theorem size_cons (c : Char) (cs : List Char) : size (c :: cs) = c.utf8Size + size cs :=
  rfl

@[simp] theorem size_append (l m : List Char) : size (l ++ m) = size l + size m := by
  induction l with
  | nil => simp
  | cons c l ih => simp [ih, Nat.add_assoc]

/-- What is left of a text after a byte offset; `none` when the offset lies inside a character or
past the end. -/
def drop? : List Char → Nat → Option (List Char)
  | cs, 0 => some cs
  | [], _ + 1 => none
  | c :: cs, n + 1 => if c.utf8Size ≤ n + 1 then drop? cs (n + 1 - c.utf8Size) else none

/-- Cuts a text at a byte offset; `front` holds the characters before it in reverse. -/
def splitFrom? : List Char → Nat → List Char → Option (List Char × List Char)
  | cs, 0, front => some (front.reverse, cs)
  | [], _ + 1, _ => none
  | c :: cs, n + 1, front =>
    if c.utf8Size ≤ n + 1 then splitFrom? cs (n + 1 - c.utf8Size) (c :: front) else none

/-- Cuts a text at a byte offset; `none` when the offset lies inside a character or past the
end. -/
def splitAt? (cs : List Char) (offset : Nat) : Option (List Char × List Char) :=
  splitFrom? cs offset []

/-- A byte offset at which a text can be cut. -/
def isBoundary (cs : List Char) (offset : Nat) : Bool :=
  (drop? cs offset).isSome

/-- The characters of a span; `none` when an end of it lies inside a character, past the end of the
text, or before the other end. -/
def slice? (cs : List Char) (s : Span) : Option (List Char) :=
  if s.start ≤ s.stop then
    match drop? cs s.start with
    | some rest => (splitAt? rest (s.stop - s.start)).map Prod.fst
    | none => none
  else none

/-- The byte range that is left when the blanks at both ends are dropped; `none` when nothing is
left. -/
def trimmedSpan? (cs : List Char) : Option Span :=
  let front := size (cs.takeWhile isBlank)
  let back := size (trimEnd cs)
  if front < back then some ⟨front, back⟩ else none

/-- The size of a text that starts with a character, as a successor. -/
theorem exists_size_cons (c : Char) (cs : List Char) :
    ∃ k, size (c :: cs) = k + 1 ∧ c.utf8Size ≤ k + 1 ∧ k + 1 - c.utf8Size = size cs := by
  have hpos := c.utf8Size_pos
  refine ⟨c.utf8Size + size cs - 1, ?_, ?_, ?_⟩
  · rw [size_cons]; omega
  · omega
  · omega

theorem drop?_append (l m : List Char) : drop? (l ++ m) (size l) = some m := by
  induction l with
  | nil => cases m <;> rfl
  | cons c cs ih =>
    obtain ⟨k, hk, hle, hsub⟩ := exists_size_cons c cs
    rw [hk, List.cons_append, drop?, if_pos hle, hsub, ih]

theorem splitFrom?_append (l m front : List Char) :
    splitFrom? (l ++ m) (size l) front = some (front.reverse ++ l, m) := by
  induction l generalizing front with
  | nil => cases m <;> simp [splitFrom?]
  | cons c cs ih =>
    obtain ⟨k, hk, hle, hsub⟩ := exists_size_cons c cs
    rw [hk, List.cons_append, splitFrom?, if_pos hle, hsub, ih]
    simp

/-- A text is cut at the size of its front. -/
theorem splitAt?_append (l m : List Char) : splitAt? (l ++ m) (size l) = some (l, m) := by
  simpa [splitAt?] using splitFrom?_append l m []

end Chars

namespace Text

/-- The characters of a span of a source, when both ends lie between characters. -/
def slice? (s : String) (span : Span) : Option String :=
  (Chars.slice? s.toList span).map String.ofList

/-- The byte range of a text without the blanks at its ends. -/
def trimmedSpan? (s : String) : Option Span :=
  Chars.trimmedSpan? s.toList

end Text

end TextHarvest
