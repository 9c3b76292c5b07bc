import TextHarvest.Proofs.Locale.Spelled

/-!
# Locale files that are cut short

When the writing of a locale file breaks off, the file holds a beginning of its content. Such a file
is never taken for another catalog: without the closing brace it cannot be read, unless it is empty,
and with the brace it reads as the whole.

* `string?_cut` — a string without its closing quote cannot be read.
* `fields?_cut` — nor can the fields of an object without the closing brace.

Main result: `eq_of_decode_beginning`.
-/

namespace TextHarvest

/-! ## Lists that are cut short -/

/-- A beginning of a list that lacks something. -/
inductive Cut {α : Type} : List α → List α → Prop
  | nil {a : α} {as : List α} : Cut [] (a :: as)
  | cons {a : α} {p as : List α} : Cut p as → Cut (a :: p) (a :: as)

section Cut

variable {α : Type} {p as bs : List α}

/-- A list is cut in its first part, or in its second one behind the whole first. -/
theorem Cut.append (h : Cut p (as ++ bs)) : Cut p as ∨ ∃ q, p = as ++ q ∧ Cut q bs := by
  induction as generalizing p with
  | nil => exact Or.inr ⟨p, rfl, h⟩
  | cons a as ih =>
    cases h with
    | nil => exact Or.inl .nil
    | cons h =>
      rcases ih h with hcut | ⟨q, rfl, hcut⟩
      · exact Or.inl hcut.cons
      · exact Or.inr ⟨q, rfl, hcut⟩

/-- A beginning is the whole or it is cut. -/
theorem eq_or_cut_of_prefix (h : p <+: as) : p = as ∨ Cut p as := by
  induction as generalizing p with
  | nil => exact Or.inl (List.prefix_nil.mp h)
  | cons a as ih =>
    rcases List.prefix_cons_iff.mp h with rfl | ⟨q, rfl, hq⟩
    · exact Or.inr .nil
    · rcases ih hq with rfl | hcut
      · exact Or.inl rfl
      · exact Or.inr hcut.cons

/-- A cut has no characters of its own. -/
theorem Cut.subset (h : Cut p as) : p ⊆ as := by
  induction h with
  | nil => exact List.nil_subset _
  | cons _ ih => exact List.cons_subset_cons _ ih

end Cut

namespace Json

open Writer Reader

/-! ## Strings -/

/-- A character whose written form is cut is an escape that cannot be read. -/
theorem escapeChar_cut {c : Char} {p : List Char} (h : Cut p (escapeChar c)) :
    p = [] ∨ ∃ q, p = '\\' :: q ∧ escape? q = none := by
  rcases escapeChar_forms c with ⟨e, he, -⟩ | ⟨he, -⟩ | ⟨he, -⟩
  · rw [he] at h
    rcases h with _ | _ | h
    · exact Or.inl rfl
    · exact Or.inr ⟨[], rfl, rfl⟩
    · cases h
  · -- a code is cut in its four digits or in front of them
    rw [he, Text.hex4] at h
    cases h with
    | nil => exact Or.inl rfl
    | cons h =>
      refine Or.inr ⟨_, rfl, ?_⟩
      rcases h with _ | _ | _ | _ | _ | _ | _
      all_goals rfl
  · rw [he] at h
    cases h with
    | nil => exact Or.inl rfl
    | cons h => cases h

/-- The rest of a string without its closing quote cannot be read. -/
theorem string?_cut {cs p : List Char} (h : Cut p (cs.flatMap escapeChar ++ ['\x22']))
    (fuel : Nat) (acc : List Char) : string? fuel p acc = none := by
  induction cs generalizing p fuel acc with
  | nil =>
    cases h with
    | nil => cases fuel <;> rfl
    | cons h => cases h
  | cons c cs ih =>
    cases fuel with
    | zero => rfl
    | succ fuel =>
      rw [List.flatMap_cons, List.append_assoc] at h
      -- the cut is within this character or behind it
      rcases h.append with hcut | ⟨q, rfl, hcut⟩
      · rcases escapeChar_cut hcut with rfl | ⟨q, rfl, hescape⟩
        · rfl
        · simp [string?, hescape]
      · rw [string?_escapeChar]
        exact ih hcut fuel _

/-- A string that is cut short is no value. -/
theorem value?_string_cut {s : String} {p : List Char} (h : Cut p (' ' :: Writer.string s))
    (fuel depth : Nat) : value? fuel depth p = none := by
  have hblank : ∀ c ∈ [' '], Chars.isBlank c = true := by
    intro c hc
    rw [List.mem_singleton.mp hc]
    rfl
  -- the cut stands before the quotation mark, right behind it or further on
  cases h with
  | nil => exact value?_of_isBlank (by simp) fuel depth
  | cons h =>
    rw [Writer.string] at h
    cases h with
    | nil => exact value?_of_isBlank hblank fuel depth
    | cons h =>
      cases fuel with
      | zero => rfl
      | succ fuel =>
        rw [value?, show skipGaps (' ' :: '\x22' :: _) = '\x22' :: _ from rfl]
        simp only [string?_cut h]
        rfl

/-! ## Fields -/

/-- Nor are there fields in a gap. -/
theorem fields?_of_gaps {cs : List Char} (h : skipGaps cs = []) (fuel depth : Nat)
    (acc : List (String × Json)) : fields? fuel depth cs acc = none := by
  cases fuel with
  | zero => rfl
  | succ fuel => rw [fields?, h]

theorem skipGaps_newline_cut {level : Nat} {p : List Char} (h : Cut p (newline level)) :
    skipGaps p = [] := by
  rw [skipGaps, List.dropWhile_eq_nil_iff]
  intro c hc
  rcases List.mem_cons.mp (h.subset hc) with rfl | hc
  · rfl
  · rw [List.eq_of_mem_replicate hc]
    rfl

/-- A field that is cut cannot be read. -/
theorem fields?_field_cut {level : Nat} {e : String × String} {p : List Char}
    (h : Cut p (newline level ++ Writer.string e.1 ++ [':', ' '] ++ Writer.string e.2))
    (fuel depth : Nat) (acc : List (String × Json)) : fields? fuel depth p acc = none := by
  simp only [List.append_assoc] at h
  rcases h.append with hcut | ⟨q, rfl, hcut⟩
  · exact fields?_of_gaps (skipGaps_newline_cut hcut) fuel depth acc
  cases fuel with
  | zero => rfl
  | succ fuel =>
    rw [fields?, skipGaps_newline]
    rcases hcut.append with hname | ⟨r, rfl, hrest⟩
    · -- within the name
      rw [Writer.string] at hname
      cases hname with
      | nil => rfl
      | cons hname =>
        rw [skipGaps_of_not_gap rfl]
        simp only [string?_cut hname]
    · -- behind the name
      rw [Writer.string, List.cons_append, List.append_assoc, List.singleton_append,
        skipGaps_of_not_gap rfl]
      simp only [string?_written]
      cases hrest with
      | nil => rfl
      | cons hrest =>
        rw [skipGaps_of_not_gap rfl]
        simp only [value?_string_cut hrest]

/-- A field is not read in one step. -/
theorem fields?_one (depth : Nat) (cs : List Char) (acc : List (String × Json)) :
    fields? 1 depth cs acc = none := by
  have hzero : ∀ cs, value? 0 depth cs = none := fun _ => by rw [value?]
  rw [fields?]
  simp only [hzero]
  repeat' split
  all_goals rfl

/-- What is read behind a field decides. -/
theorem fields?_of_behind {e : String × String} {level depth : Nat} {q : List Char}
    {acc : List (String × Json)}
    (h : skipGaps q = [] ∨ ∃ r, skipGaps q = ',' :: r ∧
      ∀ fuel acc, fields? fuel depth r acc = none) (fuel : Nat) :
    fields? fuel depth (newline level ++ Writer.string e.1 ++ [':', ' '] ++ Writer.string e.2 ++ q)
      acc = none := by
  -- one field takes one round and the end of the text another
  match fuel with
  | 0 => rfl
  | 1 => exact fields?_one depth _ acc
  | fuel + 2 =>
    rw [fields?_step]
    rcases h with hgaps | ⟨r, hcomma, hrest⟩
    · rw [hgaps]
    · rw [hcomma]
      exact hrest _ _

/-- The fields of an object cannot be read without the closing brace. -/
theorem fields?_cut {e : String × String} {es : List (String × String)} {level : Nat}
    {p : List Char}
    (h : Cut p (newline level ++ Writer.string e.1 ++ [':', ' '] ++ Writer.string e.2 ++
      (prettyFields level (es.map textField) ++ newline 0 ++ ['\x7d'])))
    (fuel depth : Nat) (acc : List (String × Json)) : fields? fuel depth p acc = none := by
  -- by induction on the fields after the first one, as they are read
  induction es generalizing e p fuel acc with
  | nil =>
    rcases h.append with hcut | ⟨q, rfl, hcut⟩
    · exact fields?_field_cut hcut fuel depth acc
    · refine fields?_of_behind (Or.inl ?_) fuel
      rw [List.map_nil, prettyFields, List.nil_append] at hcut
      rcases hcut.append with hbreak | ⟨r, rfl, hbrace⟩
      · exact skipGaps_newline_cut hbreak
      · cases hbrace with
        | nil => rfl
        | cons hbrace => cases hbrace
  | cons f es ih =>
    rcases h.append with hcut | ⟨q, rfl, hcut⟩
    · exact fields?_field_cut hcut fuel depth acc
    · refine fields?_of_behind ?_ fuel
      rw [List.map_cons, textField, prettyFields, pretty] at hcut
      cases hcut with
      | nil => exact Or.inl rfl
      | @cons _ r _ hcut =>
        have hfields : Cut r (newline level ++ Writer.string f.1 ++ [':', ' '] ++
            Writer.string f.2 ++ (prettyFields level (es.map textField) ++ newline 0 ++
              ['\x7d'])) := by
          simpa using hcut
        exact Or.inr ⟨r, skipGaps_of_not_gap rfl r, fun fuel acc => ih hfields fuel acc⟩

/-! ## Objects -/

/-- The first that comes in an object is a quote. -/
theorem skipGaps_cut {level : Nat} {name : String} {p rest : List Char}
    (h : Cut p (newline level ++ (Writer.string name ++ rest))) :
    skipGaps p = [] ∨ ∃ q, skipGaps p = '\x22' :: q := by
  rcases h.append with hcut | ⟨q, rfl, hcut⟩
  · exact Or.inl (skipGaps_newline_cut hcut)
  · rw [skipGaps_newline]
    rw [Writer.string, List.cons_append] at hcut
    cases hcut with
    | nil => exact Or.inl rfl
    | cons hcut => exact Or.inr ⟨_, skipGaps_of_not_gap rfl _⟩

/-- A written object that is cut short is no value. -/
theorem value?_cut {es : List (String × String)} {p : List Char}
    (h : Cut p (pretty 0 (.obj (es.map textField)))) (fuel depth : Nat) :
    value? fuel (depth + 1) p = none := by
  cases fuel with
  | zero => rfl
  | succ fuel =>
    -- the text ends at the brace or in what stands between the braces, and `fields?` takes neither
    cases es with
    | nil =>
      rw [List.map_nil, pretty] at h
      cases h with
      | nil => rfl
      | cons h =>
        cases h with
        | nil => exact fields?_of_gaps rfl fuel depth []
        | cons h => cases h
    | cons e es =>
      rw [List.map_cons, textField, pretty, pretty] at h
      cases h with
      | nil => rfl
      | @cons _ q _ h =>
        have hfields : Cut q (newline 1 ++ Writer.string e.1 ++ [':', ' '] ++
            Writer.string e.2 ++ (prettyFields 1 (es.map textField) ++ newline 0 ++
              ['\x7d'])) := by
          simpa using h
        have hfirst : skipGaps q = [] ∨ ∃ r, skipGaps q = '\x22' :: r := by
          simp only [List.append_assoc] at hfields
          exact skipGaps_cut hfields
        have hnone := fields?_cut hfields fuel depth []
        rw [← fields?_skipGaps] at hnone
        rw [value?, skipGaps_of_not_gap rfl]
        rcases hfirst with hgaps | ⟨r, hquote⟩
        · simp only [hgaps] at hnone ⊢
          exact hnone
        · simp only [hquote] at hnone ⊢
          exact hnone

/-- The written form of an object of texts cannot be read when it is cut. -/
theorem parse?_cut {es : List (String × String)} {p : String}
    (h : Cut p.toList (pretty 0 (.obj (es.map textField)))) : parse? p = none := by
  rw [parse?, ofChars?, maxDepth, value?_cut h]

end Json

namespace Locale

/-- The content of a locale file without its line feed spells the same catalog. -/
theorem decode_of_toList_eq {path front : String} {c : Catalog}
    (h : front.toList = Json.Writer.pretty 0 (.obj (c.entries.map Json.textField))) :
    decode path front = .ok c := by
  refine decode_object ?_ (settle_texts c) path
  have hparse := Json.ofChars?_pretty c.entries (show Json.Reader.skipGaps [] = [] from rfl)
  rw [List.append_nil, ← h] at hparse
  exact hparse

/-- A beginning of a locale file reads as no other catalog than the whole, but for the empty one. -/
theorem eq_of_decode_beginning {path front : String} {c d : Catalog}
    (h : front.toList <+: (encode c).toList) (hread : decode path front = .ok d) :
    d = .empty ∨ d = c := by
  have hencode : (encode c).toList =
      Json.Writer.pretty 0 (.obj (c.entries.map Json.textField)) ++ ['\n'] := by
    rw [encode, Json.indented, String.toList_append, String.toList_ofList]
    rfl
  rcases eq_or_cut_of_prefix h with hwhole | hcut
  · rw [String.toList_inj.mp hwhole, decode_encode] at hread
    exact Or.inr (Except.ok.inj hread).symm
  · rw [hencode] at hcut
    rcases hcut.append with hobject | ⟨q, hfront, hfeed⟩
    · -- only a blank text is read that is no object
      rw [decode, Json.parse?_cut hobject] at hread
      split at hread
      · exact Or.inl (Except.ok.inj hread).symm
      · cases hread
    · cases hfeed with
      | nil =>
        rw [List.append_nil] at hfront
        rw [decode_of_toList_eq hfront] at hread
        exact Or.inr (Except.ok.inj hread).symm
      | cons hfeed => cases hfeed

end Locale

end TextHarvest
