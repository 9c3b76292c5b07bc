import Mathlib.Data.List.Chain
import Mathlib.Data.List.SplitLengths
import TextHarvest.Translator.Batch

/-!
# Packing loses nothing and wastes nothing

Texts are packed into batches in order. A batch holds as many texts as fit: it ends only where the
next text would exceed the limit, or where one of the two is a text that exceeds it alone. Such a
text travels alone, and no other batch exceeds the limit.

* `Batch.Packed` — what batches have to be, said of the groups of texts that they join.
* `Packing.Filling` — the invariant of packing. Its size is the length of the batch that is being
  filled, and what that batch begins with had to begin a batch.
* `Batch.groups` — the groups, told by the counts of the batches.

Main result: `Batch.packed_groups`.
-/

namespace TextHarvest

namespace Batch

/-! ## Batches of groups -/

/-- A text alone that is longer than the limit. -/
def Oversized (limit : Nat) (group : List String) : Prop :=
  ∃ text, group = [text] ∧ limit < text.length

/-- Between two groups a batch had to end: one of them is oversized, or the first text of the second
one does not fit behind the first one. -/
def MustPart (limit : Nat) (g g' : List String) : Prop :=
  ¬Oversized limit g → ¬Oversized limit g' →
    ∀ text ∈ g'.head?, limit < (ofTexts g).text.length + separator.length + text.length

/-- The batches of some texts: those of consecutive groups that are not empty. Each of them keeps to
the limit or is one oversized text, and they end only where they must. -/
structure Packed (texts : List String) (limit : Nat) (batches : List Batch)
    (gs : List (List String)) : Prop where
  batches_eq : batches = gs.map ofTexts
  ne_nil : ∀ g ∈ gs, g ≠ []
  flatten : gs.flatten = texts
  bounded : ∀ g ∈ gs, (ofTexts g).text.length ≤ limit ∨ Oversized limit g
  greedy : gs.IsChain (MustPart limit)

variable {limit : Nat} {texts : List String} {batches : List Batch} {gs : List (List String)}

/-- No texts make no batches. -/
theorem packed_nil : Packed [] limit [] [] :=
  ⟨rfl, by simp, rfl, by simp, .nil⟩

/-- One more group behind the others. -/
theorem Packed.concat (h : Packed texts limit batches gs) {g : List String} (hne : g ≠ [])
    (hbounded : (ofTexts g).text.length ≤ limit ∨ Oversized limit g)
    (hlast : ∀ last ∈ gs.getLast?, MustPart limit last g) :
    Packed (texts ++ g) limit (batches ++ [ofTexts g]) (gs ++ [g]) := by
  constructor
  case batches_eq => simp [h.batches_eq]
  case ne_nil => simpa [or_imp, forall_and] using ⟨h.ne_nil, hne⟩
  case flatten => simp [h.flatten]
  case bounded => simpa only [List.forall_mem_append, List.forall_mem_singleton] using
      ⟨h.bounded, hbounded⟩
  case greedy =>
    -- a new neighbour has to be checked at the end only
    rw [List.isChain_append]
    refine ⟨h.greedy, .singleton g, ?_⟩
    intro last hmem g' hg'
    obtain rfl : g = g' := Option.some.inj hg'
    exact hlast last hmem

/-- An empty batch is empty. -/
theorem length_ofTexts_nil : (ofTexts []).text.length = 0 :=
  rfl

/-- A batch of one text is as long as the text. -/
theorem length_ofTexts_singleton (text : String) : (ofTexts [text]).text.length = text.length := by
  rw [ofTexts, String.intercalate_singleton]

/-- A text behind others comes with a separating line. -/
theorem length_ofTexts_concat (hne : texts ≠ []) (text : String) :
    (ofTexts (texts ++ [text])).text.length =
      (ofTexts texts).text.length + separator.length + text.length := by
  rw [ofTexts, ofTexts, String.intercalate_append_of_ne_nil hne (by simp),
    String.intercalate_singleton, String.length_append, String.length_append]

/-! ## The invariant -/

namespace Packing

variable {p : Packing}

/-- What a packing has made of some texts. The batch that is being filled comes behind the complete
ones; where it has begun, it had to, and before it has, the last complete one is oversized. -/
structure Filling (limit : Nat) (p : Packing) (texts : List String) (gs : List (List String)) :
    Prop where
  packed : Packed gs.flatten limit p.done gs
  flatten : gs.flatten ++ p.current = texts
  size_eq : p.size = (ofTexts p.current).text.length
  size_le : p.size ≤ limit
  behind : ∀ last ∈ gs.getLast?, Oversized limit last ∨ ∃ text ∈ p.current.head?,
    limit < (ofTexts last).text.length + separator.length + text.length

/-- An empty batch has no size. -/
theorem Filling.size_eq_zero (h : p.Filling limit texts gs) (hempty : p.current = []) :
    p.size = 0 := by
  rw [h.size_eq, hempty, length_ofTexts_nil]

/-- To commit nothing. -/
theorem commit_of_nil (h : p.current = []) : p.commit = { p with size := 0 } := by
  rw [commit, h]
  rfl

/-- To commit a batch. -/
theorem commit_of_ne_nil (h : p.current ≠ []) :
    p.commit = { done := p.done ++ [ofTexts p.current], current := [], size := 0 } := by
  rw [commit, if_neg (by simpa using h)]

/-- Behind a commit a new batch starts. -/
theorem current_commit (p : Packing) : p.commit.current = [] := by
  by_cases h : p.current = []
  · rw [commit_of_nil h, h]
  · rw [commit_of_ne_nil h]

/-- It has no size yet. -/
theorem size_commit (p : Packing) : p.commit.size = 0 := by
  by_cases h : p.current = []
  · rw [commit_of_nil h]
  · rw [commit_of_ne_nil h]

/-- The batch that is being filled is complete as it is. -/
theorem Filling.close (h : p.Filling limit texts gs) (hne : p.current ≠ []) :
    Packed texts limit p.commit.done (gs ++ [p.current]) := by
  rw [commit_of_ne_nil hne, ← h.flatten]
  apply h.packed.concat hne
  · exact Or.inl (h.size_eq ▸ h.size_le)
  · intro last hlast hfits _ text htext
    rcases h.behind last hlast with hover | ⟨first, hfirst, hlong⟩
    · exact absurd hover hfits
    · obtain rfl : first = text := Option.mem_unique hfirst htext
      exact hlong

/-- Completing a batch leaves nothing behind. -/
theorem Filling.exists_packed_commit (h : p.Filling limit texts gs) :
    ∃ gs', Packed texts limit p.commit.done gs' := by
  by_cases hempty : p.current = []
  · refine ⟨gs, ?_⟩
    have hflat := h.flatten
    rw [hempty, List.append_nil] at hflat
    rw [commit_of_nil hempty, ← hflat]
    exact h.packed
  · exact ⟨_, h.close hempty⟩

/-- A text that fits joins the batch that is being filled. -/
theorem Filling.join (h : p.Filling limit texts gs) {text : String} {size : Nat}
    (hsize : size = (ofTexts (p.current ++ [text])).text.length) (hfits : size ≤ limit) :
    ({ p with current := p.current ++ [text], size := size } : Packing).Filling limit
      (texts ++ [text]) gs := by
  refine ⟨h.packed, ?_, hsize, hfits, ?_⟩
  · rw [← h.flatten, List.append_assoc]
  · -- the batch begins with what it began with
    intro last hlast
    refine (h.behind last hlast).imp_right ?_
    rintro ⟨first, hfirst, hlong⟩
    exact ⟨first, by simp [Option.mem_def.mp hfirst], hlong⟩

/-- A text that does not fit begins a new batch. -/
theorem Filling.begin (h : p.Filling limit texts gs) (hne : p.current ≠ []) {text : String}
    (hfits : text.length ≤ limit)
    (hlong : limit < p.size + (text.length + separator.length)) :
    ({ p.commit with current := [text], size := text.length } : Packing).Filling limit
      (texts ++ [text]) (gs ++ [p.current]) := by
  have hclose := h.close hne
  refine ⟨by rw [hclose.flatten]; exact hclose, by rw [hclose.flatten], ?_, hfits, ?_⟩
  · exact (length_ofTexts_singleton text).symm
  · intro last hlast
    rw [List.getLast?_concat, Option.mem_some_iff] at hlast
    subst hlast
    refine Or.inr ⟨text, rfl, ?_⟩
    rw [← h.size_eq]
    omega

/-- An oversized text is a batch of its own behind the one that was being filled. -/
theorem Filling.single (h : p.Filling limit texts gs) {text : String}
    (hlong : limit < text.length) :
    ∃ gs', ({ p.commit with done := p.commit.done ++ [ofTexts [text]] } : Packing).Filling limit
      (texts ++ [text]) gs' := by
  obtain ⟨gs', hclosed⟩ := h.exists_packed_commit
  have hover : Oversized limit [text] := ⟨text, rfl, hlong⟩
  -- a group that is too long by itself stands alone, so it does not break the bound
  have hpacked := hclosed.concat (g := [text]) (by simp) (Or.inr hover)
    fun _ _ _ hfits => absurd hover hfits
  refine ⟨gs' ++ [[text]], by rw [hpacked.flatten]; exact hpacked, ?_, ?_, ?_, ?_⟩
  · rw [hpacked.flatten, current_commit, List.append_nil]
  · rw [size_commit, current_commit, length_ofTexts_nil]
  · rw [size_commit]
    exact Nat.zero_le limit
  · intro last hlast
    rw [List.getLast?_concat, Option.mem_some_iff] at hlast
    exact Or.inl (hlast ▸ hover)

/-- Every text is packed as it has to be. -/
theorem Filling.add (h : p.Filling limit texts gs) (text : String) :
    ∃ gs', (p.add limit text).Filling limit (texts ++ [text]) gs' := by
  by_cases hlong : limit < text.length
  · obtain ⟨gs', hsingle⟩ := h.single hlong
    refine ⟨gs', ?_⟩
    rw [Packing.add, if_pos hlong]
    exact hsingle
  have hfits : text.length ≤ limit := Nat.le_of_not_lt hlong
  by_cases hempty : p.current = []
  · -- the first text of a batch fits, since nothing stands before it
    have hzero := h.size_eq_zero hempty
    refine ⟨gs, ?_⟩
    have hsize : text.length = (ofTexts (p.current ++ [text])).text.length := by
      rw [hempty, List.nil_append, length_ofTexts_singleton]
    have hjoin := h.join hsize hfits
    simpa [Packing.add, hlong, hempty, hzero] using hjoin
  have hsome : p.current.isEmpty = false := by simpa using hempty
  by_cases hfull : limit < p.size + (text.length + separator.length)
  · refine ⟨gs ++ [p.current], ?_⟩
    have hbegin := h.begin hempty hfits hfull
    simpa [Packing.add, hlong, hsome, hfull, current_commit, size_commit] using hbegin
  · refine ⟨gs, ?_⟩
    have hsize : p.size + (text.length + separator.length) =
        (ofTexts (p.current ++ [text])).text.length := by
      rw [length_ofTexts_concat hempty, ← h.size_eq]
      omega
    have hjoin := h.join hsize (Nat.le_of_not_lt hfull)
    simpa [Packing.add, hlong, hsome, hfull] using hjoin

/-- Any number of texts is packed. -/
theorem Filling.foldl (h : p.Filling limit texts gs) (more : List String) :
    ∃ gs', (more.foldl (Packing.add limit) p).Filling limit (texts ++ more) gs' := by
  induction more generalizing p texts gs with
  | nil => exact ⟨gs, by simpa using h⟩
  | cons text more ih =>
    obtain ⟨gs', hadd⟩ := h.add text
    obtain ⟨gs'', hmore⟩ := ih hadd
    exact ⟨gs'', by simpa using hmore⟩

/-- At the start nothing is packed. -/
theorem filling_start (limit : Nat) : ({} : Packing).Filling limit [] [] :=
  ⟨packed_nil, rfl, rfl, Nat.zero_le limit, by simp⟩

end Packing

/-! ## The groups of the batches -/

/-- The batches are groups of the texts. -/
theorem exists_packed (texts : List String) (limit : Nat) :
    ∃ gs, Packed texts limit (pack texts limit) gs := by
  obtain ⟨filled, hfilled⟩ := (Packing.filling_start limit).foldl texts
  exact hfilled.exists_packed_commit

/-- The texts of each batch: the texts, cut by the counts of the batches. -/
def groups (texts : List String) (limit : Nat) : List (List String) :=
  ((pack texts limit).map count).splitLengths texts

/-- Groups come back from their lengths. -/
theorem splitLengths_flatten {α : Type} (gs : List (List α)) :
    (gs.map List.length).splitLengths gs.flatten = gs := by
  induction gs with
  | nil => rfl
  | cons g gs ih => simp [ih]

/-- The counts of the batches tell their groups. -/
theorem groups_eq (h : Packed texts limit (pack texts limit) gs) :
    groups texts limit = gs := by
  have hcounts : (pack texts limit).map count = gs.map List.length := by
    rw [h.batches_eq, List.map_map]
    rfl
  rw [groups, hcounts, ← h.flatten, splitLengths_flatten]

/-- The batches are those of the groups, which are the texts in order and never empty. -/
theorem pack_groups (texts : List String) (limit : Nat) :
    pack texts limit = (groups texts limit).map ofTexts ∧ (groups texts limit).flatten = texts ∧
      ∀ g ∈ groups texts limit, g ≠ [] := by
  obtain ⟨gs, hpacked⟩ := exists_packed texts limit
  rw [groups_eq hpacked]
  exact ⟨hpacked.batches_eq, hpacked.flatten, hpacked.ne_nil⟩

/-- Whatever the texts and the limit, the batches cover the texts in order, keep to the limit but
for texts that exceed it alone, and end only where the next text does not fit. -/
theorem packed_groups (texts : List String) (limit : Nat) :
    Packed texts limit (pack texts limit) (groups texts limit) := by
  obtain ⟨gs, hpacked⟩ := exists_packed texts limit
  rw [groups_eq hpacked]
  exact hpacked

/-- Empty texts count, a batch may be filled up to the last character, and an oversized text parts
the batches around it. -/
example : groups ["aaaa", "", "abc", "oversized text", "c", ""] 9 =
    [["aaaa", ""], ["abc"], ["oversized text"], ["c", ""]] := by
  decide +kernel

end Batch

end TextHarvest
