import TextHarvest.Proofs.Patch.Apart

/-!
# The edits that a patch keeps

A patch goes through its edits in a stable order of position and keeps those that fit behind the
ones kept before them: ranges in order, within the source and between characters, that do not
reach back over the last kept one. All others are dropped. The patched text is the source with the
kept ranges exchanged, and nothing else shows: neither the dropped edits nor, as long as no two
edits have the same range, the order in which the edits were recorded.

Main results:

* `Edit.sort_eq_mergeSort` — edits are applied in the stable order of their ranges.
* `Patch.splice_keptFrom` — splicing some edits is splicing those that are kept.
* `Patch.splicesKept_apply` — what the patched text is made of.
-/

namespace TextHarvest

theorem Span.eq_iff {s t : Span} : s = t ↔ s.start = t.start ∧ s.stop = t.stop := by
  cases s
  cases t
  rw [Span.mk.injEq]

/-! ## The order of the edits -/

namespace Edit

/-- An edit goes behind those that come strictly earlier and before all others. -/
theorem insertSorted_eq_append {e : Edit} {front back : List Edit}
    (hfront : ∀ f ∈ front, ¬before e f = true) (hback : ∀ f ∈ back, before e f = true) :
    insertSorted e (front ++ back) = front ++ e :: back := by
  induction front with
  | nil =>
    cases back with
    | nil => rfl
    | cons f back => exact if_pos (hback f List.mem_cons_self)
  | cons f front ih =>
    obtain ⟨hf, hfront⟩ := List.forall_mem_cons.mp hfront
    rw [List.cons_append, insertSorted, if_neg hf, ih hfront, List.cons_append]

/-- Edits are sorted by the stable order of their ranges. -/
theorem sort_eq_mergeSort (es : List Edit) : sort es = es.mergeSort before := by
  have htrans : ∀ a b c : Edit, before a b = true → before b c = true → before a c = true :=
    fun _ _ _ => before_trans
  have htotal : ∀ a b : Edit, (before a b || before b a) = true := by
    intro a b
    rw [Bool.or_eq_true]
    exact (em (before a b = true)).imp_right before_of_not
  induction es with
  | nil => simp [sort]
  | cons e es ih =>
    -- the library sort puts the first edit behind those that come before it, as the insertion does
    obtain ⟨front, back, hcons, htail, hfront⟩ := List.mergeSort_cons htrans htotal e es
    have hsorted := List.pairwise_mergeSort htrans htotal (e :: es)
    rw [hcons] at hsorted
    have hback := (List.pairwise_cons.mp (List.pairwise_append.mp hsorted).2.1).1
    rw [hcons, sort, List.foldr_cons, ← sort, ih, htail]
    refine insertSorted_eq_append ?_ hback
    intro f hf
    simpa using hfront f hf

/-- Filtering and sorting in may be exchanged. -/
theorem filter_insertSorted (p : Edit → Bool) (e : Edit) {es : List Edit}
    (hsorted : es.Pairwise fun a b => before a b = true) :
    (insertSorted e es).filter p = bif p e then insertSorted e (es.filter p) else es.filter p := by
  induction es with
  | nil => cases hp : p e <;> simp [insertSorted, hp]
  | cons f es ih =>
    obtain ⟨hf, hsorted⟩ := List.pairwise_cons.mp hsorted
    by_cases hef : before e f = true
    · -- the edit comes before everything, and so before what is left
      have hall : ∀ g ∈ (f :: es).filter p, before e g = true := by
        intro g hg
        rcases List.mem_cons.mp (List.mem_filter.mp hg).1 with rfl | hg
        · exact hef
        · exact before_trans hef (hf g hg)
      have hnone : ∀ g ∈ ([] : List Edit), ¬before e g = true := by simp
      have hfirst : insertSorted e ((f :: es).filter p) = e :: (f :: es).filter p :=
        insertSorted_eq_append hnone hall
      rw [insertSorted, if_pos hef, List.filter_cons, hfirst]
      cases p e <;> rfl
    · rw [insertSorted, if_neg hef, List.filter_cons, List.filter_cons, ih hsorted]
      cases p e <;> cases p f <;> simp [insertSorted, hef]

/-- What is left of some edits is in the order of all of them. -/
theorem filter_sort (p : Edit → Bool) (es : List Edit) :
    (sort es).filter p = sort (es.filter p) := by
  induction es with
  | nil => rfl
  | cons e es ih =>
    rw [sort, List.foldr_cons, ← sort, filter_insertSorted p e (pairwise_sort es), ih,
      List.filter_cons]
    cases p e <;> rfl

/-- Sorting does not change the order of edits with the same range. -/
theorem filter_sort_span (s : Span) (es : List Edit) :
    (sort es).filter (·.span = s) = es.filter (·.span = s) := by
  rw [filter_sort]
  apply sort_of_pairwise
  rw [List.pairwise_filter]
  refine List.pairwise_of_forall fun e f he hf => before_iff.mpr (Or.inr ?_)
  rw [of_decide_eq_true he, of_decide_eq_true hf]
  exact ⟨rfl, Nat.le_refl _⟩

/-- Edits with different ranges are sorted in one way only. -/
theorem sort_eq_of_perm {es fs : List Edit} (hperm : fs.Perm es)
    (hdistinct : es.Pairwise fun e f => e.span ≠ f.span) : sort fs = sort es := by
  -- two edits that each come before the other have one span, and spans are not repeated
  have hsame : ∀ e ∈ es, ∀ f ∈ es, e.span = f.span → e = f := by
    have : Std.Symm fun e f : Edit => e.span = f.span → e = f :=
      ⟨fun e f h hspan => (h hspan.symm).symm⟩
    apply List.Pairwise.forall_of_forall
    · exact fun _ _ _ => rfl
    · exact hdistinct.imp fun hne hspan => absurd hspan hne
  refine List.Perm.eq_of_pairwise ?_ (pairwise_sort fs) (pairwise_sort es)
    ((perm_sort fs).trans (hperm.trans (perm_sort es).symm))
  intro e f he hf hef hfe
  rw [before_iff] at hef hfe
  apply hsame e (hperm.mem_iff.mp (mem_sort.mp he)) f (mem_sort.mp hf)
  rw [Span.eq_iff]
  omega

end Edit

/-! ## Edits that fit -/

namespace Chars

/-- A boundary is a place between two characters. -/
theorem isBoundary_iff {cs : List Char} {n : Nat} : isBoundary cs n = true ↔ Between cs n := by
  rw [isBoundary, Option.isSome_iff_exists]
  constructor
  · rintro ⟨rest, hrest⟩
    obtain ⟨front, hfront, hsize⟩ := drop?_eq_some hrest
    exact ⟨front, rest, hfront, hsize⟩
  · rintro ⟨front, back, rfl, rfl⟩
    exact ⟨back, drop?_append front back⟩

end Chars

namespace Edit

/-- Whether an edit fits behind `cursor`: its range is in order, starts no earlier, ends within the
source and lies between characters. -/
def fits (source : List Char) (cursor : Nat) (e : Edit) : Bool :=
  cursor ≤ e.span.start && e.span.start ≤ e.span.stop && e.span.stop ≤ Chars.size source &&
    Chars.isBoundary source e.span.start && Chars.isBoundary source e.span.stop

/-- An edit fits behind the cursor when it starts there or later and cuts no character. -/
theorem fits_iff {source : List Char} {cursor : Nat} {e : Edit} :
    e.fits source cursor = true ↔ cursor ≤ e.span.start ∧ e.span.Cuts source := by
  simp only [fits, Bool.and_eq_true, decide_eq_true_eq, Chars.isBoundary_iff]
  constructor
  · rintro ⟨⟨⟨⟨hcursor, horder⟩, -⟩, hstart⟩, hstop⟩
    exact ⟨hcursor, horder, hstart, hstop⟩
  · rintro ⟨hcursor, hcuts⟩
    exact ⟨⟨⟨⟨hcursor, hcuts.order⟩, hcuts.stop.le_size⟩, hcuts.start⟩, hcuts.stop⟩

end Edit

namespace Patch

/-! ## Keeping edits -/

/-- The edits that are kept of ordered ones, when the last one kept before them ends at
`cursor`. -/
def keptFrom (source : List Char) : Nat → List Edit → List Edit
  | _, [] => []
  | cursor, e :: es =>
    if e.fits source cursor then e :: keptFrom source e.span.stop es
    else keptFrom source cursor es

/-- The edits that a patch keeps of a source: those that fit behind the last one kept, in a stable
order of position. -/
def kept (p : Patch) (source : String) : List Edit :=
  keptFrom source.toList 0 (p.edits.mergeSort Edit.before)

theorem kept_eq (p : Patch) (source : String) :
    p.kept source = keptFrom source.toList 0 (Edit.sort p.edits) := by
  rw [kept, Edit.sort_eq_mergeSort]

/-- Kept edits are some of the edits, in their order. -/
theorem keptFrom_sublist (source : List Char) (cursor : Nat) (es : List Edit) :
    (keptFrom source cursor es).Sublist es := by
  induction es generalizing cursor with
  | nil => exact .slnil
  | cons e es ih =>
    rw [keptFrom]
    split
    · exact (ih _).cons_cons e
    · exact (ih _).cons e

/-- A kept edit starts behind the cursor and cuts the source between characters. -/
theorem cuts_of_mem_keptFrom {source : List Char} {cursor : Nat} {es : List Edit} {e : Edit}
    (he : e ∈ keptFrom source cursor es) : cursor ≤ e.span.start ∧ e.span.Cuts source := by
  induction es generalizing cursor with
  | nil => cases he
  | cons f es ih =>
    rw [keptFrom] at he
    split at he
    · rename_i hf
      rw [Edit.fits_iff] at hf
      rcases List.mem_cons.mp he with rfl | he
      · exact hf
      · have hbehind := ih he
        -- the cursor only moves on, so a later edit fits from here as well
        have horder := hf.2.order
        exact ⟨by omega, hbehind.2⟩
    · exact ih he

/-- Each kept edit ends before the next one starts. -/
theorem pairwise_keptFrom (source : List Char) (cursor : Nat) (es : List Edit) :
    (keptFrom source cursor es).Pairwise fun e f => e.span.stop ≤ f.span.start := by
  induction es generalizing cursor with
  | nil => exact .nil
  | cons e es ih =>
    rw [keptFrom]
    split
    · exact List.pairwise_cons.mpr ⟨fun f hf => (cuts_of_mem_keptFrom hf).1, ih _⟩
    · exact ih _

/-! ## Splicing what is kept -/

/-- An edit that does not fit is dropped. -/
theorem splice_cons_of_not_fits {source front rest : List Char} {e : Edit}
    (hsource : source = front ++ rest) (he : ¬e.fits source (Chars.size front) = true)
    (es : List Edit) :
    splice (e :: es) (Chars.size front) rest = splice es (Chars.size front) rest := by
  rw [splice]
  split
  · rename_i hspan
    rw [Bool.and_eq_true, decide_eq_true_eq, decide_eq_true_eq] at hspan
    split
    · rename_i gap after hcut
      split
      · rename_i old tail hcut'
        -- both ends were found between characters, so the edit fits after all
        obtain ⟨rfl, hgap⟩ := Chars.splitAt?_eq_some_iff.mp hcut
        obtain ⟨rfl, hold⟩ := Chars.splitAt?_eq_some_iff.mp hcut'
        refine absurd (Edit.fits_iff.mpr ⟨hspan.1, hspan.2, ?_, ?_⟩) he
        · refine ⟨front ++ gap, old ++ tail, by rw [hsource, List.append_assoc], ?_⟩
          rw [Chars.size_append]
          omega
        · refine ⟨front ++ gap ++ old, tail, by simp [hsource], ?_⟩
          rw [Chars.size_append, Chars.size_append]
          omega
      · rfl
    · rfl
  · rfl

/-- An edit that fits is applied: what stands before it stays, and the rest follows. -/
theorem exists_splice_cons_of_fits {source front rest : List Char} {e : Edit}
    (hsource : source = front ++ rest) (he : e.fits source (Chars.size front) = true) :
    ∃ gap old tail, rest = gap ++ (old ++ tail) ∧
      e.span.start = Chars.size (front ++ gap) ∧ e.span.stop = Chars.size (front ++ gap ++ old) ∧
      ∀ es, splice (e :: es) (Chars.size front) rest =
        gap ++ e.text.toList ++ splice es e.span.stop tail := by
  obtain ⟨hcursor, hcuts⟩ := Edit.fits_iff.mp he
  obtain ⟨before, old, tail, hpiece, hbefore, hsize, -⟩ := hcuts.exists_piece
  -- the cursor stands where the front ends, and the edit begins no earlier
  obtain ⟨gap, rfl, rfl⟩ :=
    Chars.eq_append_of_size_le (hsource.symm.trans hpiece) (by omega)
  have hstart : e.span.start = Chars.size front + Chars.size gap := by
    rw [← hbefore, Chars.size_append]
  refine ⟨gap, old, tail, rfl, hbefore.symm, ?_, ?_⟩
  · rw [Chars.size_append, hbefore, hsize]
  · intro es
    exact splice_cons_append hstart hsize

/-- Splicing some edits is splicing those that are kept. -/
theorem splice_keptFrom {source front rest : List Char} (hsource : source = front ++ rest)
    (es : List Edit) : splice (keptFrom source (Chars.size front) es) (Chars.size front) rest =
      splice es (Chars.size front) rest := by
  induction es generalizing front rest with
  | nil => rfl
  | cons e es ih =>
    rw [keptFrom]
    split
    · rename_i he
      obtain ⟨gap, old, tail, rfl, -, hstop, hsplice⟩ := exists_splice_cons_of_fits hsource he
      rw [hsplice, hsplice, hstop, ih]
      simp [hsource]
    · -- what does not fit is dropped on both sides
      rename_i he
      rw [splice_cons_of_not_fits hsource he]
      exact ih hsource

/-- Applying the edits applies the kept ones. -/
theorem splice_kept (p : Patch) (source : String) :
    splice (p.kept source) 0 source.toList = (p.apply source).toList := by
  have hsource : source.toList = [] ++ source.toList := rfl
  rw [kept_eq, apply, String.toList_ofList]
  exact splice_keptFrom hsource _

/-! ## The patched text -/

/-- The source from `cursor` on with the ranges of some edits exchanged, cut out of it slice by
slice; `none` when a slice is not between characters. -/
def assemble (source : List Char) : Nat → List Edit → Option (List Char)
  | cursor, [] => Chars.slice? source ⟨cursor, Chars.size source⟩
  | cursor, e :: es => do
    let gap ← Chars.slice? source ⟨cursor, e.span.start⟩
    let rest ← assemble source e.span.stop es
    return gap ++ e.text.toList ++ rest

/-- Kept edits are assembled to what splicing gives. -/
theorem assemble_keptFrom {source front rest : List Char} (hsource : source = front ++ rest)
    (es : List Edit) : assemble source (Chars.size front) (keptFrom source (Chars.size front) es) =
      some (splice es (Chars.size front) rest) := by
  induction es generalizing front rest with
  | nil =>
    have hslice := Chars.slice?_append front rest []
    rw [List.append_nil, ← hsource, ← Chars.size_append, ← hsource] at hslice
    exact hslice
  | cons e es ih =>
    rw [keptFrom]
    split
    · rename_i he
      -- an edit that fits cuts the rest into the gap, what it replaces and the tail
      obtain ⟨gap, old, tail, rfl, hstart, hstop, hsplice⟩ := exists_splice_cons_of_fits hsource he
      have hslice := Chars.slice?_append front gap (old ++ tail)
      rw [← hsource, ← Chars.size_append, ← hstart] at hslice
      have htail : source = front ++ gap ++ old ++ tail := by simp [hsource]
      rw [assemble, hslice, hsplice, hstop, ih htail]
      rfl
    · rename_i he
      rw [splice_cons_of_not_fits hsource he]
      exact ih hsource

/-- Of ordered edits from the place of an insertion on, all insertions at this place are kept. -/
theorem filter_keptFrom_of_cuts {source : List Char} {n : Nat} (hn : (Span.point n).Cuts source)
    {es : List Edit} (hsorted : es.Pairwise fun e f => Edit.before e f = true)
    (hfrom : ∀ e ∈ es, n ≤ e.span.start) :
    (keptFrom source n es).filter (·.span = Span.point n) = es.filter (·.span = Span.point n) := by
  induction es with
  | nil => rfl
  | cons e es ih =>
    obtain ⟨hbefore, hsorted⟩ := List.pairwise_cons.mp hsorted
    obtain ⟨hstart, hfrom⟩ := List.forall_mem_cons.mp hfrom
    by_cases he : e.span = Span.point n
    · have hfits : e.fits source n = true := Edit.fits_iff.mpr ⟨hstart, he ▸ hn⟩
      have hstop : e.span.stop = n := by rw [he]; rfl
      rw [keptFrom, if_pos hfits, hstop, List.filter_cons, List.filter_cons, ih hsorted hfrom]
    · by_cases hstop : e.span.stop ≤ n
      · -- a range that ends before it starts is dropped
        have hfits : ¬e.fits source n = true := by
          intro hfits
          have horder := (Edit.fits_iff.mp hfits).2.order
          apply he
          rw [Span.eq_iff]
          dsimp only [Span.point]
          omega
        rw [keptFrom, if_neg hfits, List.filter_cons, if_neg (by simpa using he)]
        exact ih hsorted hfrom
      · -- an edit that reaches further comes behind all insertions here
        have hnone : (e :: es).filter (·.span = Span.point n) = [] := by
          rw [List.filter_eq_nil_iff]
          intro f hf
          rw [decide_eq_true_eq]
          rcases List.mem_cons.mp hf with rfl | hf
          · exact he
          · intro hspan
            have horder := Edit.before_iff.mp (hbefore f hf)
            rw [hspan] at horder
            dsimp only [Span.point] at horder
            omega
        have hkept := (keptFrom_sublist source n (e :: es)).filter (·.span = Span.point n)
        rw [hnone] at hkept ⊢
        exact List.sublist_nil.mp hkept

/-- Of the insertions at one place, all are kept or none. -/
theorem filter_keptFrom_point {source : List Char} {es : List Edit} {cursor : Nat}
    (hsorted : es.Pairwise fun e f => Edit.before e f = true) (n : Nat) :
    (keptFrom source cursor es).filter (·.span = Span.point n) =
        es.filter (·.span = Span.point n) ∨
      (keptFrom source cursor es).filter (·.span = Span.point n) = [] := by
  induction es generalizing cursor with
  | nil => exact Or.inl rfl
  | cons e es ih =>
    obtain ⟨hbefore, hsorted⟩ := List.pairwise_cons.mp hsorted
    by_cases hfits : e.fits source cursor = true <;> by_cases he : e.span = Span.point n
    · -- the first insertion here is kept, and the others follow it
      have hcuts := (Edit.fits_iff.mp hfits).2
      have hfrom : ∀ f ∈ es, n ≤ f.span.start := by
        intro f hf
        have horder := Edit.before_iff.mp (hbefore f hf)
        rw [he] at horder
        dsimp only [Span.point] at horder
        omega
      have hstop : e.span.stop = n := by rw [he]; rfl
      left
      rw [keptFrom, if_pos hfits, hstop, List.filter_cons, List.filter_cons,
        filter_keptFrom_of_cuts (he ▸ hcuts) hsorted hfrom]
    · rw [keptFrom, if_pos hfits, List.filter_cons, List.filter_cons, if_neg (by simpa using he),
        if_neg (by simpa using he)]
      exact ih hsorted
    · -- what keeps this insertion from fitting keeps the others here from it as well
      right
      rw [keptFrom, if_neg hfits, List.filter_eq_nil_iff]
      intro f hf hspan
      apply hfits
      rw [Edit.fits_iff, he, ← of_decide_eq_true hspan]
      exact cuts_of_mem_keptFrom hf
    · rw [keptFrom, if_neg hfits, List.filter_cons, if_neg (by simpa using he)]
      exact ih hsorted

/-- What a patch makes of a source: exactly the kept edits are spliced into it. -/
structure SplicesKept (p : Patch) (source : String) : Prop where
  /-- The kept ranges lie in order within the source, between characters. -/
  cuts : ∀ e ∈ p.kept source, e.span.Cuts source.toList
  /-- They do not overlap, and each ends before the next one starts. -/
  apart : (p.kept source).Pairwise fun e f => e.span.stop ≤ f.span.start
  /-- The patched text is put together of the slices between them and of the new texts; no slice
  is cut off inside a character. -/
  assembled : assemble source.toList 0 (p.kept source) = some (p.apply source).toList
  /-- Outside the kept ranges the patched text is the source, piece by piece. -/
  exchanged : Exchanged ((p.kept source).map (Edit.exchange source.toList)) 0 source.toList
    (p.apply source).toList
  /-- Insertions at one place are kept or dropped together, and stay as they were recorded. -/
  insertions : ∀ n, (p.kept source).filter (·.span = Span.point n) =
      p.edits.filter (·.span = Span.point n) ∨
    (p.kept source).filter (·.span = Span.point n) = []
  /-- At one place insertions come first. -/
  leading : (p.kept source).Pairwise fun e f =>
    e.span.start = f.span.start → e.span = Span.point f.span.start
  /-- When all ranges differ, the order of recording does not matter. -/
  unordered : p.edits.Pairwise (fun e f => e.span ≠ f.span) →
    ∀ q : Patch, q.edits.Perm p.edits → q.apply source = p.apply source

/-- Applying a patch splices exactly the edits that are kept into the source. -/
theorem splicesKept_apply (p : Patch) (source : String) : p.SplicesKept source := by
  have hcuts : ∀ e ∈ p.kept source, e.span.Cuts source.toList :=
    fun e he => (cuts_of_mem_keptFrom he).2
  have hapart : (p.kept source).Pairwise fun e f => e.span.stop ≤ f.span.start :=
    pairwise_keptFrom ..
  have hsource : source.toList = [] ++ source.toList := rfl
  -- kept edits cut between characters and lie one behind the other
  refine ⟨hcuts, hapart, ?assembled, ?exchanged, ?insertions, ?leading, ?unordered⟩
  case assembled =>
    rw [kept_eq, apply, String.toList_ofList]
    exact assemble_keptFrom hsource _
  case exchanged =>
    rw [← splice_kept]
    exact exchanged_splice hsource hcuts (fun _ _ => Nat.zero_le _) hapart
  case insertions =>
    intro n
    rw [kept_eq, ← Edit.filter_sort_span (Span.point n) p.edits]
    exact filter_keptFrom_point (Edit.pairwise_sort _) n
  case leading =>
    refine hapart.imp_of_mem ?_
    intro e f he _ hstop hstart
    have horder := (hcuts e he).order
    rw [Span.eq_iff]
    dsimp only [Span.point]
    omega
  case unordered =>
    intro hdistinct q hperm
    rw [apply, apply, Edit.sort_eq_of_perm hperm hdistinct]

end Patch

end TextHarvest
