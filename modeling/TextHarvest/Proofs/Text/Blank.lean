import Mathlib.Data.List.DropRight
import TextHarvest.Text.Offset

/-!
# Texts between blanks

A text that is not blank stands between the blanks at its front and those at its end.

Main results:

* `around_trim` — a text is what is left of it without its outer blanks, between these.
* `trimmedSpan?_eq_some_iff` — where that is.
* `collapse_of_trim_eq_nil` — nothing is left of a blank text when its blanks are collapsed.
-/

namespace TextHarvest.Chars

/-- The blanks at the end of a text. -/
def blankEnd (cs : List Char) : List Char :=
  (cs.reverse.takeWhile isBlank).reverse

/-- The blanks of a text with something else between them. -/
def around (cs new : List Char) : List Char :=
  cs.takeWhile isBlank ++ (new ++ blankEnd cs)

theorem isBlank_of_mem_takeWhile {cs : List Char} {c : Char} (h : c ∈ cs.takeWhile isBlank) :
    isBlank c = true :=
  List.all_eq_true.mp List.all_takeWhile c h

theorem isBlank_of_mem_blankEnd {cs : List Char} {c : Char} (h : c ∈ blankEnd cs) :
    isBlank c = true :=
  isBlank_of_mem_takeWhile (List.mem_reverse.mp h)

/-- A text is its trimmed end and the blanks behind it. -/
theorem trimEnd_append_blankEnd (cs : List Char) : trimEnd cs ++ blankEnd cs = cs := by
  rw [trimEnd, blankEnd, ← List.reverse_append, List.takeWhile_append_dropWhile,
    List.reverse_reverse]

/-- Everything is dropped when everything passes. -/
theorem dropWhile_eq_nil_iff {p : Char → Bool} {cs : List Char} :
    cs.dropWhile p = [] ↔ ∀ c ∈ cs, p c = true := by
  induction cs with
  | nil => simp
  | cons c cs ih =>
    rw [List.dropWhile_cons, List.forall_mem_cons]
    split
    · rename_i hc
      simp [ih, hc]
    · rename_i hc
      simp [hc]

/-- Trimming leaves nothing of blanks only. -/
theorem trimEnd_eq_nil_iff {cs : List Char} : trimEnd cs = [] ↔ ∀ c ∈ cs, isBlank c = true := by
  rw [trimEnd, List.reverse_eq_nil_iff, dropWhile_eq_nil_iff]
  simp only [List.mem_reverse]

/-- Nothing is left of a text just when it is blank. -/
theorem trim_eq_nil_iff {cs : List Char} : trim cs = [] ↔ ∀ c ∈ cs, isBlank c = true := by
  have hcut : cs.takeWhile isBlank ++ trimStart cs = cs := List.takeWhile_append_dropWhile
  rw [trim, trimEnd_eq_nil_iff]
  constructor
  · intro h c hc
    rw [← hcut] at hc
    rcases List.mem_append.mp hc with hc | hc
    · exact isBlank_of_mem_takeWhile hc
    · exact h c hc
  · intro h c hc
    exact h c ((List.dropWhile_sublist isBlank).mem hc)

/-- A text without outer blanks has none to lose. -/
theorem trim_trim (cs : List Char) : trim (trim cs) = trim cs := by
  have hend : ∀ ds : List Char, trimEnd (trimEnd ds) = trimEnd ds := fun _ =>
    List.rdropWhile_idempotent isBlank _
  obtain ⟨rest, hprefix⟩ : trim cs <+: trimStart cs := List.rdropWhile_prefix isBlank _
  -- what is left starts as the text does behind its first blanks
  have hstart : trimStart (trim cs) = trim cs := by
    cases htrim : trim cs with
    | nil => rfl
    | cons d ds =>
      rw [htrim] at hprefix
      have hd : isBlank d = false := by
        have hfirst := List.head?_dropWhile_not isBlank cs
        have hdrop : cs.dropWhile isBlank = d :: (ds ++ rest) := hprefix.symm
        rw [hdrop] at hfirst
        exact hfirst
      exact List.dropWhile_cons_of_neg (by simp [hd])
  rw [trim, hstart, trim, hend]

/-- A text without blanks is not trimmed. -/
theorem trim_of_not_blank {cs : List Char} (h : ∀ c ∈ cs, isBlank c = false) : trim cs = cs := by
  have hkeep : ∀ ds : List Char, (∀ c ∈ ds, isBlank c = false) → ds.dropWhile isBlank = ds := by
    intro ds hds
    cases ds with
    | nil => rfl
    | cons d ds => exact List.dropWhile_cons_of_neg (by simp [hds d])
  rw [trim, trimStart, hkeep cs h, trimEnd, hkeep _ (by simpa using h), List.reverse_reverse]

/-- A trimmed text has characters of the text. -/
theorem mem_of_mem_trim {cs : List Char} {c : Char} (h : c ∈ trim cs) : c ∈ cs := by
  rw [trim, trimEnd, List.mem_reverse] at h
  have hstart := (List.dropWhile_sublist _).mem h
  rw [List.mem_reverse, trimStart] at hstart
  exact (List.dropWhile_sublist _).mem hstart

/-- The blanks at the end do not reach over what is no blank. -/
theorem blankEnd_append {cs : List Char} (hcs : trimEnd cs ≠ []) (front : List Char) :
    blankEnd (front ++ cs) = blankEnd cs := by
  have hshort : ¬(cs.reverse.takeWhile isBlank).length = cs.reverse.length := by
    intro hlength
    have hall := (List.takeWhile_sublist isBlank).eq_of_length hlength
    apply hcs
    rw [trimEnd_eq_nil_iff]
    intro c hc
    rw [← List.mem_reverse, ← hall] at hc
    exact isBlank_of_mem_takeWhile hc
  rw [blankEnd, List.reverse_append, List.takeWhile_append, if_neg hshort, blankEnd]

/-- A text that is not blank stands between its blanks. -/
theorem around_trim {cs : List Char} (hcs : trim cs ≠ []) : around cs (trim cs) = cs := by
  have hcut : cs.takeWhile isBlank ++ trimStart cs = cs := List.takeWhile_append_dropWhile
  have hend : blankEnd cs = blankEnd (trimStart cs) := by
    rw [← blankEnd_append hcs (cs.takeWhile isBlank), hcut]
  rw [around, hend, trim, trimEnd_append_blankEnd, hcut]

/-- A text with a trimmed end is the blanks in front and the trimmed text. -/
theorem trimEnd_eq_append {cs : List Char} (hcs : trim cs ≠ []) :
    trimEnd cs = cs.takeWhile isBlank ++ trim cs := by
  have hend : trimEnd cs ++ blankEnd cs = cs.takeWhile isBlank ++ trim cs ++ blankEnd cs := by
    rw [trimEnd_append_blankEnd, List.append_assoc]
    exact (around_trim hcs).symm
  exact List.append_cancel_right hend

theorem size_pos {cs : List Char} (hcs : cs ≠ []) : 0 < size cs := by
  cases cs with
  | nil => exact absurd rfl hcs
  | cons c cs =>
    have hpos := c.utf8Size_pos
    rw [size_cons]
    omega

/-- Where a text that is not blank stands between its blanks. -/
theorem trimmedSpan?_eq_some_iff {cs : List Char} {inner : Span} :
    trimmedSpan? cs = some inner ↔ trim cs ≠ [] ∧ inner = ⟨size (cs.takeWhile isBlank),
      size (cs.takeWhile isBlank) + size (trim cs)⟩ := by
  rw [trimmedSpan?]
  by_cases hcs : trim cs = []
  · have hblank : trimEnd cs = [] := trimEnd_eq_nil_iff.mpr (trim_eq_nil_iff.mp hcs)
    simp [hblank, hcs]
  · have hpos := size_pos hcs
    simp [trimEnd_eq_append hcs, hcs, hpos, eq_comm]

/-- Blanks have no words. -/
theorem wordsFrom_of_blank {cs : List Char} (h : ∀ c ∈ cs, isBlank c = true) :
    wordsFrom cs [] = [] := by
  induction cs with
  | nil => rfl
  | cons c cs ih =>
    rw [List.forall_mem_cons] at h
    rw [wordsFrom, if_pos h.1]
    exact ih h.2

/-- Nothing is left of a blank text when its blanks are collapsed. -/
theorem collapse_of_trim_eq_nil {cs : List Char} (h : trim cs = []) : collapse cs = [] := by
  rw [collapse, words, wordsFrom_of_blank (trim_eq_nil_iff.mp h)]
  rfl

end TextHarvest.Chars
