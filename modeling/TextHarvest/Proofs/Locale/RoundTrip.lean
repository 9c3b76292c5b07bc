import Mathlib.Data.List.DropRight
import TextHarvest.Locale
import TextHarvest.Proofs.Catalog

/-!
# Reading back what was written

A locale file is the indented form of an object whose values are strings. The reader takes such a
text apart again: strings by undoing the escapes of each character, fields by passing over the line
breaks and indentation between them. Since the keys of a catalog are distinct, settling the fields
changes nothing, and the catalog comes back with its entries in order.

Main results:

* `string?_escaped` — the written form of a string is read as the string.
* `fields?_written` — the written fields of an object are read as those fields.
* `decode_encode` — the content of a locale file spells the catalog it was made from.
-/

namespace TextHarvest.Json

open Writer Reader

/-! ## Strings -/

/-- The escape of a control character by its code. -/
theorem escape?_hex4 {c : Char} (h : c.toNat < 32) (rest : List Char) :
    escape? ('u' :: (Text.hex4 c.toNat ++ rest)) = some (c, rest) := by
  have hvalue := Text.digitsValue?_hex4 c.toNat h
  have hcode := Text.charOfCode?_toNat c
  have hlow : ¬0xd800 ≤ c.toNat := by omega
  simp only [Text.hex4] at hvalue ⊢
  simp [escape?, hex4?, hvalue, hcode, hlow]

/-- A character is written by an escape of its own, by its code, or as it is. -/
theorem escapeChar_forms (c : Char) :
    (∃ e, escapeChar c = ['\\', e] ∧ ∀ rest, escape? (e :: rest) = some (c, rest)) ∨
    (escapeChar c = '\\' :: 'u' :: Text.hex4 c.toNat ∧ c.toNat < 0x20) ∨
    (escapeChar c = [c] ∧ c ≠ '\x22' ∧ c ≠ '\\' ∧ ¬c.toNat < 0x20) := by
  have hown : ∀ {d e : Char}, c == d → (∀ rest, escape? (e :: rest) = some (d, rest)) →
      ∃ e', ['\\', e] = ['\\', e'] ∧ ∀ rest, escape? (e' :: rest) = some (c, rest) := by
    intro d e hc hd
    rw [beq_iff_eq] at hc
    exact ⟨e, rfl, fun rest => by rw [hc]; exact hd rest⟩
  unfold escapeChar
  -- seven characters have an escape of their own
  by_cases hquote : c == '\x22'
  · rw [if_pos hquote]
    exact Or.inl (hown hquote fun _ => rfl)
  rw [if_neg hquote]
  by_cases hslash : c == '\\'
  · rw [if_pos hslash]
    exact Or.inl (hown hslash fun _ => rfl)
  rw [if_neg hslash]
  by_cases hfeed : c == '\n'
  · rw [if_pos hfeed]
    exact Or.inl (hown hfeed fun _ => rfl)
  rw [if_neg hfeed]
  by_cases hreturn : c == '\r'
  · rw [if_pos hreturn]
    exact Or.inl (hown hreturn fun _ => rfl)
  rw [if_neg hreturn]
  by_cases htab : c == '\t'
  · rw [if_pos htab]
    exact Or.inl (hown htab fun _ => rfl)
  rw [if_neg htab]
  by_cases hback : c == '\x08'
  · rw [if_pos hback]
    exact Or.inl (hown hback fun _ => rfl)
  rw [if_neg hback]
  by_cases hform : c == '\x0c'
  · rw [if_pos hform]
    exact Or.inl (hown hform fun _ => rfl)
  rw [if_neg hform]
  by_cases hlow : c.toNat < 0x20
  · rw [if_pos hlow]
    exact Or.inr (Or.inl ⟨rfl, hlow⟩)
  · rw [if_neg hlow]
    exact Or.inr (Or.inr ⟨rfl, by simpa using hquote, by simpa using hslash, hlow⟩)

/-- Every written form but that of a plain character is a backslash and an escape. -/
theorem escapeChar_cases (c : Char) :
    (∃ e, escapeChar c = '\\' :: e ∧ ∀ rest, escape? (e ++ rest) = some (c, rest)) ∨
    (escapeChar c = [c] ∧ c ≠ '\x22' ∧ c ≠ '\\' ∧ ¬c.toNat < 0x20) := by
  rcases escapeChar_forms c with ⟨e, he, hread⟩ | ⟨he, hlow⟩ | hplain
  · exact Or.inl ⟨_, he, hread⟩
  · exact Or.inl ⟨_, he, escape?_hex4 hlow⟩
  · exact Or.inr hplain

/-- Reading takes one step for each character, however it is written. -/
theorem string?_escapeChar (fuel : Nat) (c : Char) (rest acc : List Char) :
    string? (fuel + 1) (escapeChar c ++ rest) acc = string? fuel rest (c :: acc) := by
  rcases escapeChar_cases c with ⟨e, he, hread⟩ | ⟨he, hquote, hslash, hlow⟩
  · rw [he, List.cons_append, string?]
    simp [hread rest]
  · rw [he, List.singleton_append, string?]
    simp [hquote, hslash, hlow]

/-- The characters of a string as they are written, and the quote behind them, are read back. -/
theorem string?_escaped {fuel : Nat} {cs : List Char} (hfuel : cs.length < fuel)
    (rest acc : List Char) :
    string? fuel (cs.flatMap escapeChar ++ '\x22' :: rest) acc =
      some (String.ofList (acc.reverse ++ cs), rest) := by
  -- by induction on the text: what is written for one character is read as that character
  induction cs generalizing fuel acc with
  | nil =>
    obtain ⟨fuel, rfl⟩ := Nat.exists_eq_succ_of_ne_zero (Nat.ne_of_gt hfuel)
    simp [string?]
  | cons c cs ih =>
    obtain ⟨fuel, rfl⟩ := Nat.exists_eq_succ_of_ne_zero (Nat.ne_of_gt (Nat.zero_lt_of_lt hfuel))
    have hfuel' : cs.length < fuel := by
      rw [List.length_cons] at hfuel
      omega
    rw [List.flatMap_cons, List.append_assoc, string?_escapeChar, ih hfuel']
    simp

/-- No character is written as nothing. -/
theorem length_le_length_escaped (cs : List Char) :
    cs.length ≤ (cs.flatMap escapeChar).length := by
  induction cs with
  | nil => simp
  | cons c cs ih =>
    have hc : 1 ≤ (escapeChar c).length := by
      rcases escapeChar_cases c with ⟨e, he, -⟩ | ⟨he, -⟩ <;> simp [he]
    rw [List.flatMap_cons, List.length_append, List.length_cons]
    omega

/-- The rest of a string is read with the fuel that the reader gives it. -/
theorem string?_written (s : String) (rest : List Char) :
    string? ((s.toList.flatMap escapeChar ++ '\x22' :: rest).length + 1)
      (s.toList.flatMap escapeChar ++ '\x22' :: rest) [] = some (s, rest) := by
  have hfuel : s.toList.length < (s.toList.flatMap escapeChar ++ '\x22' :: rest).length + 1 := by
    have := length_le_length_escaped s.toList
    rw [List.length_append]
    omega
  rw [string?_escaped hfuel]
  simp

/-! ## Fields -/

/-- A line break and its indentation are a gap. -/
theorem skipGaps_newline (level : Nat) (cs : List Char) :
    skipGaps (newline level ++ cs) = skipGaps cs := by
  -- the break itself and each blank behind it are gaps
  have hall : ∀ c ∈ newline level, isGap c = true := by
    intro c hc
    rcases List.mem_cons.mp hc with rfl | hc
    · rfl
    · rw [List.eq_of_mem_replicate hc]; rfl
  rw [skipGaps, List.dropWhile_append_of_pos hall, skipGaps]

/-- What starts with no gap is read as it is. -/
theorem skipGaps_of_not_gap {c : Char} (h : isGap c = false) (cs : List Char) :
    skipGaps (c :: cs) = c :: cs := by
  rw [skipGaps, List.dropWhile_cons_of_neg (by simp [h])]

/-- A field of an object whose value is a string. -/
def textField (e : String × String) : String × Json :=
  (e.1, .str e.2)

/-- A string behind a blank is read back as a value. -/
theorem value?_string (fuel depth : Nat) (s : String) (rest : List Char) :
    value? (fuel + 1) depth (' ' :: (Writer.string s ++ rest)) = some (.str s, rest) := by
  have hskip : skipGaps (' ' :: (Writer.string s ++ rest)) =
      '\x22' :: (s.toList.flatMap escapeChar ++ '\x22' :: rest) := by
    rw [Writer.string, List.cons_append, List.append_assoc, List.singleton_append]
    rfl
  rw [value?, hskip]
  simp only [string?_written]
  rfl

/-- One field is read up to what follows it. -/
theorem fields?_step (fuel depth level : Nat) (e : String × String) (rest : List Char)
    (acc : List (String × Json)) :
    fields? (fuel + 2) depth
      (newline level ++ Writer.string e.1 ++ [':', ' '] ++ Writer.string e.2 ++ rest) acc =
      match skipGaps rest with
      | ',' :: r => fields? (fuel + 1) depth r (textField e :: acc)
      | '\x7d' :: r => some (.obj (textField e :: acc).reverse, r)
      | _ => none := by
  -- the line break and the indentation in front of the name are gaps
  have hskip : skipGaps (newline level ++ Writer.string e.1 ++ [':', ' '] ++ Writer.string e.2 ++
      rest) = '\x22' :: (e.1.toList.flatMap escapeChar ++
        '\x22' :: (':' :: ' ' :: (Writer.string e.2 ++ rest))) := by
    simp only [List.append_assoc]
    rw [skipGaps_newline, Writer.string, List.cons_append, skipGaps_of_not_gap rfl]
    simp
  have hcolon : skipGaps (':' :: ' ' :: (Writer.string e.2 ++ rest)) =
      ':' :: ' ' :: (Writer.string e.2 ++ rest) := skipGaps_of_not_gap rfl _
  rw [fields?, hskip]
  simp only [string?_written, hcolon, value?_string]
  rfl

/-- All fields of an object of texts are read back, up to the brace behind them. -/
theorem fields?_written {fuel : Nat} (depth level : Nat) (e : String × String)
    {es : List (String × String)} (hfuel : es.length + 2 ≤ fuel) (rest : List Char)
    (acc : List (String × Json)) :
    fields? fuel depth
      (newline level ++ Writer.string e.1 ++ [':', ' '] ++ Writer.string e.2 ++
        (prettyFields level (es.map textField) ++ newline 0 ++ '\x7d' :: rest)) acc =
      some (.obj (acc.reverse ++ (e :: es).map textField), rest) := by
  -- by induction on the fields after the first one, which is read with what follows it
  induction es generalizing e fuel acc with
  | nil =>
    obtain ⟨fuel, rfl⟩ := Nat.exists_eq_add_of_le' (show 2 ≤ fuel from hfuel)
    rw [fields?_step, List.map_nil, prettyFields, List.nil_append, skipGaps_newline,
      skipGaps_of_not_gap rfl]
    simp
  | cons f es ih =>
    rw [List.length_cons] at hfuel
    obtain ⟨fuel, rfl⟩ := Nat.exists_eq_add_of_le' (show 2 ≤ fuel by omega)
    have hfuel' : es.length + 2 ≤ fuel + 1 := by omega
    have hcomma : skipGaps (prettyFields level ((f :: es).map textField) ++ newline 0 ++
        '\x7d' :: rest) = ',' :: (newline level ++ Writer.string f.1 ++ [':', ' '] ++
          Writer.string f.2 ++ (prettyFields level (es.map textField) ++ newline 0 ++
            '\x7d' :: rest)) := by
      rw [List.map_cons, textField, prettyFields, pretty, List.cons_append, List.cons_append,
        skipGaps_of_not_gap rfl]
      simp
    rw [fields?_step, hcomma]
    have hrest := ih f hfuel' (textField e :: acc)
    simpa using hrest

/-- Gaps in front of a field make no difference. -/
theorem fields?_skipGaps (fuel depth : Nat) (cs : List Char) (acc : List (String × Json)) :
    fields? fuel depth (skipGaps cs) acc = fields? fuel depth cs acc := by
  cases fuel with
  | zero => rfl
  | succ fuel =>
    have hidem : skipGaps (skipGaps cs) = skipGaps cs := by
      exact List.dropWhile_idempotent isGap cs
    rw [fields?, hidem, fields?]

/-- The written fields between braces, with room for one more text after them. -/
theorem value?_fields {fuel : Nat} (depth : Nat) (e : String × String)
    {es : List (String × String)} (hfuel : es.length + 2 ≤ fuel) (rest : List Char) :
    value? (fuel + 1) (depth + 1)
      ('\x7b' :: (newline 1 ++ Writer.string e.1 ++ [':', ' '] ++ Writer.string e.2 ++
        (prettyFields 1 (es.map textField) ++ newline 0 ++ '\x7d' :: rest))) =
      some (.obj ((e :: es).map textField), rest) := by
  -- the reader passes over the gap before it looks for a closing brace
  have hread := fields?_written depth 1 e hfuel rest []
  rw [← fields?_skipGaps] at hread
  -- the first character after the opening brace is the quote of the first name
  obtain ⟨tail, htail⟩ : ∃ tail, skipGaps (newline 1 ++ Writer.string e.1 ++ [':', ' '] ++
      Writer.string e.2 ++ (prettyFields 1 (es.map textField) ++ newline 0 ++ '\x7d' :: rest)) =
      '\x22' :: tail := by
    simp only [List.append_assoc]
    rw [skipGaps_newline, Writer.string, List.cons_append, skipGaps_of_not_gap rfl]
    exact ⟨_, rfl⟩
  rw [value?, skipGaps_of_not_gap rfl]
  simp only [htail] at hread ⊢
  exact hread

/-- Each field is written with at least one character, so the fuel of a text covers its fields. -/
theorem length_le_length_prettyFields (level : Nat) (es : List (String × String)) :
    es.length ≤ (prettyFields level (es.map textField)).length := by
  induction es with
  | nil => simp
  | cons e es ih =>
    rw [List.map_cons, textField, prettyFields]
    simp only [List.length_cons, List.length_append]
    omega

/-- The indented form of an object of strings is read back as that object, with gaps behind it. -/
theorem ofChars?_pretty (es : List (String × String)) {rest : List Char}
    (hrest : skipGaps rest = []) :
    ofChars? (Writer.pretty 0 (.obj (es.map textField)) ++ rest) =
      some (.obj (es.map textField)) := by
  cases es with
  | nil =>
    -- an object without fields is written on one line
    have hempty : ∀ fuel, value? (fuel + 1) maxDepth ('\x7b' :: '\x7d' :: rest) =
        some (.obj [], rest) := fun _ => rfl
    rw [List.map_nil, pretty, List.cons_append, List.cons_append, List.nil_append, ofChars?,
      hempty]
    simp [hrest]
  | cons e es =>
    have hopen : Writer.pretty 0 (.obj ((e :: es).map textField)) ++ rest =
        '\x7b' :: (newline 1 ++ Writer.string e.1 ++ [':', ' '] ++ Writer.string e.2 ++
          (prettyFields 1 (es.map textField) ++ newline 0 ++ '\x7d' :: rest)) := by
      rw [List.map_cons, textField, pretty, pretty]
      simp
    -- every field takes two rounds of the reader, and its text is longer than that
    have hfuel : es.length + 2 ≤ 2 * (Writer.pretty 0 (.obj ((e :: es).map textField)) ++
        rest).length + 1 := by
      have hfields := length_le_length_prettyFields 1 es
      rw [hopen]
      simp only [List.length_cons, List.length_append]
      omega
    rw [ofChars?, hopen] at *
    rw [maxDepth, value?_fields 126 e hfuel rest]
    simp [hrest]

/-- An object of texts is read back from its indented form with a line break behind it. -/
theorem parse?_indented (es : List (String × String)) :
    parse? ((Json.obj (es.map textField)).indented ++ "\n") = some (.obj (es.map textField)) := by
  rw [parse?, indented, String.toList_append, String.toList_ofList]
  exact ofChars?_pretty es rfl

end TextHarvest.Json

namespace TextHarvest

/-! ## Catalogs -/

/-- A field with a new name is put behind the others. -/
theorem setField_of_not_mem {name : String} {value : Json} {fields : List (String × Json)}
    (h : name ∉ fields.map Prod.fst) :
    Json.setField name value fields = fields ++ [(name, value)] := by
  induction fields with
  | nil => rfl
  | cons f fields ih =>
    rw [List.map_cons, List.mem_cons, not_or] at h
    rw [Json.setField, if_neg (by simpa using Ne.symm h.1), ih h.2, List.cons_append]

/-- Fields with distinct names stay as they are. -/
theorem settle_of_nodup {fields : List (String × Json)} (h : (fields.map Prod.fst).Nodup) :
    Json.settle fields = fields := by
  -- the fields that are done come before those that are left
  suffices hgen : ∀ done : List (String × Json), ((done ++ fields).map Prod.fst).Nodup →
      fields.foldl (fun acc f => Json.setField f.1 f.2 acc) done = done ++ fields from
    hgen [] h
  induction fields with
  | nil => simp
  | cons f fields ih =>
    intro done hdone
    have hfresh : f.1 ∉ done.map Prod.fst := by
      rw [List.map_append, List.nodup_append] at hdone
      exact fun hmem => hdone.2.2 f.1 hmem f.1 (by simp) rfl
    have hassoc : done ++ f :: fields = done ++ [f] ++ fields := by simp
    rw [List.foldl_cons, setField_of_not_mem hfresh, hassoc]
    rw [hassoc] at hdone
    exact ih (List.nodup_cons.mp h).2 (done ++ [f]) hdone

/-- The entries of a catalog, taken for the fields of an object, give the catalog. -/
theorem Locale.ofFields_texts (c : Catalog) :
    Locale.ofFields (c.entries.map Json.textField) = c := by
  have hnames : (c.entries.map Json.textField).map Prod.fst = c.entries.map Prod.fst := by
    rw [List.map_map]; rfl
  -- keys are distinct, so no field replaces another one
  rw [Locale.ofFields, settle_of_nodup (hnames ▸ c.nodup_keys), List.filterMap_map]
  have htexts : c.entries.filterMap ((fun f : String × Json => f.2.str?.map (f.1, ·)) ∘
      Json.textField) = c.entries := by
    rw [show ((fun f : String × Json => f.2.str?.map (f.1, ·)) ∘ Json.textField) = some from rfl,
      List.filterMap_some]
  rw [htexts, Catalog.ofList_entries]

/-- The content of a locale file spells the catalog it was made from. -/
theorem Locale.decode_encode (path : String) (c : Catalog) :
    Locale.decode path (Locale.encode c) = .ok c := by
  have hencode : Locale.encode c = (Json.obj (c.entries.map Json.textField)).indented ++ "\n" := rfl
  -- the opening brace is no blank
  have hblank : Text.isBlank (Locale.encode c) = false := by
    rw [hencode, Text.isBlank, Json.indented, String.toList_append, String.toList_ofList]
    cases c.entries with
    | nil => rfl
    | cons e es => rfl
  rw [Locale.decode, if_neg (by simp [hblank]), hencode, Json.parse?_indented]
  simp only [Locale.ofFields_texts]

end TextHarvest
