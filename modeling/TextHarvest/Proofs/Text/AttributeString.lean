import TextHarvest.Proofs.Script.Quoted
import TextHarvest.Proofs.Text.Entity
import TextHarvest.Text.NamedReference

/-!
# Literals that are read as attribute strings

An attribute string of markup ends at its quote and knows character references, but no escapes. A
text that is written as a literal of a script and read as an attribute string comes back only when
neither makes a difference: every character is written as itself, and no reference is decoded.

Main results:

* `decodeNamedFrom_append_backslash` — a reference never reaches over a backslash.
* `attributeString_written_iff` — the texts that come back.
-/

namespace TextHarvest.Text

/-! ## References -/

/-- The reference that starts behind an ampersand: its character, and how many characters it takes
up to and with its semicolon. -/
def namedAt (cs : List Char) : Option (Char × Nat) :=
  let name := (cs.take 10).takeWhile (· != ';')
  (if (cs.drop name.length).head? == some ';' && name.length < 10 then namedReference? name
    else none).map fun d => (d, name.length + 1)

/-- An ampersand starts a named reference or stands for itself. -/
theorem decodeNamedFrom_ampersand (cs : List Char) : decodeNamedFrom ('&' :: cs) 0 =
    match namedAt cs with
    | some (d, n) => d :: decodeNamedFrom cs n
    | none => '&' :: decodeNamedFrom cs 0 := by
  rw [decodeNamedFrom, namedAt]
  dsimp only
  rw [if_pos (by rfl)]
  split
  · rename_i d hd
    rw [hd]
    rfl
  · rename_i hd
    rw [hd]
    rfl

/-- Any other character stands for itself. -/
theorem decodeNamedFrom_of_ne {c : Char} (hc : c ≠ '&') (cs : List Char) :
    decodeNamedFrom (c :: cs) 0 = c :: decodeNamedFrom cs 0 := by
  rw [decodeNamedFrom, if_neg (by simpa using hc)]

/-- Without an ampersand there is nothing to decode. -/
theorem decodeNamedFrom_of_not_mem {cs : List Char} (h : '&' ∉ cs) : decodeNamedFrom cs 0 = cs := by
  induction cs with
  | nil => rfl
  | cons c cs ih =>
    rw [List.mem_cons, not_or] at h
    rw [decodeNamedFrom_of_ne (Ne.symm h.1), ih h.2]

/-- A reference is a known name of at most nine characters with a semicolon behind it. -/
theorem namedAt_eq_some_iff {cs : List Char} {d : Char} {n : Nat} : namedAt cs = some (d, n) ↔
    ∃ name rest, cs = name ++ ';' :: rest ∧ ';' ∉ name ∧ name.length < 10 ∧
      namedReference? name = some d ∧ n = name.length + 1 := by
  constructor
  · intro hat
    rw [namedAt] at hat
    -- the name reaches up to the semicolon, among the ten characters that are looked at
    generalize hname : (cs.take 10).takeWhile (· != ';') = name at hat
    have hsolid : ';' ∉ name := by
      intro hmem
      rw [← hname] at hmem
      simpa using List.all_eq_true.mp List.all_takeWhile _ hmem
    simp only [Option.map_eq_some_iff, Option.ite_none_right_eq_some, Bool.and_eq_true, beq_iff_eq,
      decide_eq_true_eq, Prod.mk.injEq] at hat
    obtain ⟨d', ⟨⟨hhead, hlength⟩, hd⟩, rfl, rfl⟩ := hat
    have hprefix : name <+: cs := by
      rw [← hname]
      exact (List.takeWhile_prefix _).trans (List.take_prefix _ _)
    obtain ⟨rest, rfl⟩ := hprefix
    rw [List.drop_left] at hhead
    obtain ⟨rest, rfl⟩ := List.head?_eq_some_iff.mp hhead
    exact ⟨name, rest, rfl, hsolid, hlength, hd, rfl⟩
  · rintro ⟨name, rest, rfl, hsolid, hlength, hd, rfl⟩
    have hname : ((name ++ ';' :: rest).take 10).takeWhile (· != ';') = name := by
      -- a name of at most nine characters leaves one for the semicolon
      obtain ⟨k, hk⟩ : ∃ k, 10 - name.length = k + 1 := ⟨9 - name.length, by omega⟩
      rw [List.take_append, List.take_of_length_le (by omega), hk, List.take_succ_cons,
        List.takeWhile_append_of_pos, List.takeWhile_cons_of_neg (by simp), List.append_nil]
      intro c hc
      simpa using fun heq : c = ';' => hsolid (heq ▸ hc)
    rw [namedAt, hname]
    simp [hd, hlength]

/-- No digit is a backslash. -/
theorem not_mem_of_digits {base n : Nat} {ds : List Char}
    (h : digitsValue? base ds 0 = some n) : '\\' ∉ ds := by
  intro hmem
  obtain ⟨v, hv⟩ := Option.isSome_iff_exists.mp (isSome_digitValue?_of_mem h _ hmem)
  exact absurd (digitValue?_range hv) (by decide)

/-- A backslash is a byte of its own. -/
theorem backslash_mem_bytes {s : String} (h : '\\' ∈ s.toList) :
    (0x5c : UInt8) ∈ s.toByteArray.data.toList := by
  rw [← String.ofList_toList (s := s), String.toByteArray_ofList, List.utf8Encode,
    List.toList_data_toByteArray]
  exact List.mem_flatMap.mpr ⟨'\\', h, by decide⟩

/-- No backslash stands in a reference. -/
theorem not_mem_of_namedReference? {name : List Char} {d : Char}
    (h : namedReference? name = some d) : '\\' ∉ name := by
  -- the table is looked through byte by byte, with no name decoded
  have hnames : ∀ p ∈ namedReferences, (0x5c : UInt8) ∉ p.1.toByteArray.data.toList := by
    decide +kernel
  rw [namedReference?.eq_def] at h
  split at h
  · -- a hexadecimal number
    rename_i ds
    obtain ⟨-, h⟩ := Option.ite_none_left_eq_some.mp h
    obtain ⟨n, hn, -⟩ := Option.bind_eq_some_iff.mp h
    simpa using not_mem_of_digits hn
  · -- a decimal number
    rename_i ds _
    obtain ⟨-, h⟩ := Option.ite_none_left_eq_some.mp h
    obtain ⟨n, hn, -⟩ := Option.bind_eq_some_iff.mp h
    simpa using not_mem_of_digits hn
  · -- a name
    obtain ⟨n, hn, -⟩ := Option.map_eq_some_iff.mp h
    obtain ⟨front, back, hlist, -⟩ := List.lookup_eq_some_iff.mp hn
    have hmem : (String.ofList name, n) ∈ namedReferences := by
      rw [hlist]
      exact List.mem_append_right _ List.mem_cons_self
    intro hslash
    rw [← String.toList_ofList (l := name)] at hslash
    exact hnames _ hmem (backslash_mem_bytes hslash)

/-- A reference never reaches over a backslash. -/
theorem namedAt_append_backslash (u z : List Char) : namedAt (u ++ '\\' :: z) = namedAt u := by
  rw [Option.ext_iff]
  rintro ⟨d, n⟩
  rw [namedAt_eq_some_iff, namedAt_eq_some_iff]
  constructor
  · rintro ⟨name, rest, heq, hsolid, hlength, hd, rfl⟩
    rcases List.append_eq_append_iff.mp heq with ⟨v, rfl, hrest⟩ | ⟨v, rfl, hrest⟩
    · -- the name would hold the backslash, or the semicolon would be one
      have hname := not_mem_of_namedReference? hd
      cases v with
      | nil => exact absurd (List.cons.inj hrest).1 (by decide)
      | cons c v =>
        rw [← (List.cons.inj hrest).1] at hname
        simp at hname
    · cases v with
      | nil => exact absurd (List.cons.inj hrest).1 (by decide)
      | cons c v =>
        rw [← (List.cons.inj hrest).1]
        exact ⟨name, v, rfl, hsolid, hlength, hd, rfl⟩
  · rintro ⟨name, rest, rfl, hsolid, hlength, hd, rfl⟩
    exact ⟨name, rest ++ '\\' :: z, by simp, hsolid, hlength, hd, rfl⟩

/-- A reference is over before the text is. -/
theorem le_length_of_namedAt {cs : List Char} {d : Char} {n : Nat}
    (h : namedAt cs = some (d, n)) : n ≤ cs.length := by
  obtain ⟨name, rest, rfl, -, -, -, rfl⟩ := namedAt_eq_some_iff.mp h
  simp

/-- What stands behind a backslash is decoded on its own. -/
theorem decodeNamedFrom_append_backslash (u z : List Char) {skip : Nat} (hskip : skip ≤ u.length) :
    decodeNamedFrom (u ++ '\\' :: z) skip =
      decodeNamedFrom u skip ++ '\\' :: decodeNamedFrom z 0 := by
  induction u generalizing skip with
  | nil =>
    obtain rfl : skip = 0 := by simpa using hskip
    exact decodeNamedFrom_of_ne (by decide) z
  | cons c u ih =>
    cases skip with
    | succ skip =>
      rw [List.length_cons] at hskip
      exact ih (by omega)
    | zero =>
      by_cases hc : c = '&'
      · subst hc
        rw [List.cons_append, decodeNamedFrom_ampersand, decodeNamedFrom_ampersand,
          namedAt_append_backslash]
        -- a reference ends before the backslash
        cases hat : namedAt u with
        | none => exact congrArg ('&' :: ·) (ih (Nat.zero_le _))
        | some p => exact congrArg (p.1 :: ·) (ih (le_length_of_namedAt hat))
      · rw [List.cons_append, decodeNamedFrom_of_ne hc, decodeNamedFrom_of_ne hc, List.cons_append,
          ih (Nat.zero_le _)]

/-- Decoding makes a text no longer. -/
theorem length_decodeNamedFrom_le (cs : List Char) (skip : Nat) :
    (decodeNamedFrom cs skip).length ≤ cs.length := by
  induction cs generalizing skip with
  | nil => exact Nat.le_refl 0
  | cons c cs ih =>
    cases skip with
    | succ skip => exact Nat.le_succ_of_le (ih skip)
    | zero =>
      -- a reference gives one character and is at least as long
      by_cases hc : c = '&'
      · subst hc
        rw [decodeNamedFrom_ampersand]
        cases namedAt cs with
        | none => exact Nat.succ_le_succ (ih 0)
        | some p => exact Nat.succ_le_succ (ih p.2)
      · rw [decodeNamedFrom_of_ne hc]
        exact Nat.succ_le_succ (ih 0)

/-! ## Attribute strings -/

/-- The value of an attribute string, from behind its opening double quote on. -/
def attributeString (cs : List Char) : List Char :=
  decodeNamedFrom (cs.takeWhile (· != '\x22')) 0

/-- A text that stands for itself in a literal of a script as well as in an attribute string. -/
structure Verbatim (text : List Char) : Prop where
  written : ∀ c ∈ text, escapeChar .double c = [c]
  decoded : decodeNamedFrom text 0 = text

instance (text : List Char) : Decidable (Verbatim text) :=
  decidable_of_iff
    (text.all (fun c => escapeChar .double c == [c]) = true ∧ decodeNamedFrom text 0 = text) <| by
    rw [List.all_eq_true]
    simp only [beq_iff_eq]
    exact ⟨fun h => ⟨h.1, h.2⟩, fun h => ⟨h.written, h.decoded⟩⟩

/-- A text as it is written in a literal of a script, with something behind its closing quote. -/
def writtenBefore (text rest : List Char) : List Char :=
  text.flatMap (escapeChar .double) ++ '\x22' :: rest

/-- What is written as it is needs no escape. -/
theorem flatMap_escapeChar_of_written {text : List Char}
    (h : ∀ c ∈ text, escapeChar .double c = [c]) : text.flatMap (escapeChar .double) = text := by
  induction text with
  | nil => rfl
  | cons c text ih =>
    rw [List.forall_mem_cons] at h
    rw [List.flatMap_cons, h.1, ih h.2, List.singleton_append]

/-- Neither a quote nor a backslash is written as itself. -/
theorem ne_of_written {c : Char} (h : escapeChar .double c = [c]) : c ≠ '\x22' ∧ c ≠ '\\' := by
  constructor
  · rintro rfl
    exact absurd h (by decide)
  · rintro rfl
    exact absurd h (by decide)

/-- And holds no closing quote. -/
theorem takeWhile_of_written {u : List Char} (h : ∀ c ∈ u, escapeChar .double c = [c])
    (rest : List Char) : (u ++ rest).takeWhile (· != '\x22') =
      u ++ rest.takeWhile (· != '\x22') :=
  List.takeWhile_append_of_pos fun c hc => by simpa using (ne_of_written (h c hc)).1

/-- A text of plain characters is read up to the quote behind it. -/
theorem attributeString_of_written {text : List Char}
    (h : ∀ c ∈ text, escapeChar .double c = [c]) (rest : List Char) :
    attributeString (writtenBefore text rest) = decodeNamedFrom text 0 := by
  rw [attributeString, writtenBefore, flatMap_escapeChar_of_written h, takeWhile_of_written h,
    List.takeWhile_cons_of_neg (by simp), List.append_nil]

/-- A backslash is written twice and read as two, so that no number of backslashes in front of a
text makes up for those in it. -/
theorem replicate_append_ne (k : Nat) (text rest : List Char) :
    List.replicate (k + 1) '\\' ++ attributeString (writtenBefore text rest) ≠ text := by
  induction text generalizing k with
  | nil => simp [List.replicate_succ]
  | cons c text ih =>
    intro heq
    rw [List.replicate_succ, List.cons_append] at heq
    obtain ⟨rfl, heq⟩ := List.cons.inj heq
    have hread : attributeString (writtenBefore ('\\' :: text) rest) =
        '\\' :: '\\' :: attributeString (writtenBefore text rest) := rfl
    rw [hread] at heq
    refine ih (k + 1) (Eq.trans ?_ heq)
    simp [List.replicate_succ']

/-- The first character that is not written as itself. -/
theorem exists_first_escaped {text : List Char}
    (h : ¬∀ c ∈ text, escapeChar .double c = [c]) :
    ∃ u c e r, text = u ++ c :: r ∧ (∀ d ∈ u, escapeChar .double d = [d]) ∧
      escapeChar .double c = '\\' :: e := by
  induction text with
  | nil => simp at h
  | cons c text ih =>
    -- this character is written by an escape, or the first such one comes later
    rcases escapeChar_cases .double c with ⟨e, he, -⟩ | ⟨hc, -⟩
    · exact ⟨[], c, e, text, rfl, by simp, he⟩
    · have hrest : ¬∀ d ∈ text, escapeChar .double d = [d] := by
        intro hall
        exact h (List.forall_mem_cons.mpr ⟨hc, hall⟩)
      obtain ⟨u, d, e, r, rfl, hu, he⟩ := ih hrest
      exact ⟨c :: u, d, e, r, rfl, List.forall_mem_cons.mpr ⟨hc, hu⟩, he⟩

/-- Two texts agree up to the first backslash of the one: where the other has no backslash that far,
its next character is that backslash. -/
theorem eq_of_append_backslash {v u x y : List Char} {c : Char} (hlength : v.length ≤ u.length)
    (hu : '\\' ∉ u) (h : v ++ '\\' :: x = u ++ c :: y) : c = '\\' ∧ x = y := by
  -- the shorter front has no backslash behind it that the longer one could swallow
  rcases List.append_eq_append_iff.mp h with ⟨w, rfl, hrest⟩ | ⟨w, rfl, hrest⟩
  · cases w with
    | nil =>
      obtain ⟨hc, hxy⟩ := List.cons.inj hrest
      exact ⟨hc.symm, hxy⟩
    | cons d w =>
      rw [← (List.cons.inj hrest).1] at hu
      simp at hu
  · obtain rfl : w = [] := by
      rw [List.length_append] at hlength
      exact List.length_eq_zero_iff.mp (by omega)
    obtain ⟨hc, hxy⟩ := List.cons.inj hrest
    exact ⟨hc, hxy.symm⟩

/-- A text that is written as a literal and read as an attribute string comes back just when it
stands for itself in both. -/
theorem attributeString_written_iff (text rest : List Char) :
    attributeString (writtenBefore text rest) = text ↔ Verbatim text := by
  constructor
  · intro hread
    by_cases hplain : ∀ c ∈ text, escapeChar .double c = [c]
    · rw [attributeString_of_written hplain] at hread
      exact ⟨hplain, hread⟩
    · obtain ⟨u, c, e, r, rfl, hu, he⟩ := exists_first_escaped hplain
      have hsolid : '\\' ∉ u := fun hmem => (ne_of_written (hu _ hmem)).2 rfl
      -- the backslash of the escape has to stand for the character, so it is a backslash as well
      have hinside : (writtenBefore (u ++ c :: r) rest).takeWhile (· != '\x22') =
          u ++ '\\' :: (e ++ writtenBefore r rest).takeWhile (· != '\x22') := by
        have hwritten : writtenBefore (u ++ c :: r) rest =
            u ++ '\\' :: (e ++ writtenBefore r rest) := by
          simp [writtenBefore, flatMap_escapeChar_of_written hu, he]
        rw [hwritten, takeWhile_of_written hu, List.takeWhile_cons_of_pos (by decide)]
      rw [attributeString, hinside, decodeNamedFrom_append_backslash _ _ (Nat.zero_le _)] at hread
      obtain ⟨rfl, hrest⟩ :=
        eq_of_append_backslash (length_decodeNamedFrom_le u 0) hsolid hread
      -- but a backslash is written as two
      obtain rfl : e = ['\\'] := (List.cons.inj he).2.symm
      exact absurd hrest (replicate_append_ne 0 r rest)
  · intro hverbatim
    rw [attributeString_of_written hverbatim.written, hverbatim.decoded]

end TextHarvest.Text
