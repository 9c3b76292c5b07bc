import TextHarvest.Text.Entity

/-!
# Decoding undoes encoding

A text may be written in markup character by character, each as itself or as a reference: by the
name it has, or by its code point in decimal or hexadecimal digits. Such a reference always fits
the limit of ten bytes, and its semicolon is the first one behind its ampersand, so that whatever
stands around it makes no difference. Decoding goes on behind a reference, never inside of what it
stands for.

Main results:

* `digitsValue?_toDigits` — the digits of a number are read as the number.
* `reference?_name` — a reference is found, whatever stands behind it.
* `decodeFrom_spelled` — a written text is decoded, and the decoding goes on behind it.
* `decodeEntities_spelled` — decoding undoes every way of writing a text.
-/

namespace TextHarvest.Text

/-! ## Digits -/

/-- A digit has its value in every base up to sixteen. -/
theorem digitValue?_digitChar :
    ∀ base ≤ 16, ∀ d < base, digitValue? base (Nat.digitChar d) = some d := by
  decide

/-- A digit is a digit or a letter of the first 128 code points. -/
theorem digitValue?_range {base d : Nat} {c : Char} (h : digitValue? base c = some d) :
    (48 ≤ c.toNat ∧ c.toNat ≤ 57) ∨ (97 ≤ c.toNat ∧ c.toNat ≤ 122) ∨
      (65 ≤ c.toNat ∧ c.toNat ≤ 90) := by
  apply Decidable.byContradiction
  intro hout
  rw [not_or, not_or] at hout
  simp [digitValue?, hout.1, hout.2.1, hout.2.2] at h

/-- The case of a letter makes no difference to its value as a digit. -/
theorem digitValue?_toLower (base : Nat) (c : Char) :
    digitValue? base c.toLower = digitValue? base c := by
  by_cases hupper : c.val ≥ 'A'.val ∧ c.val ≤ 'Z'.val
  · have hrange : 65 ≤ c.toNat ∧ c.toNat ≤ 90 := hupper
    have hlower : c.toLower.toNat = c.toNat + 32 := by
      -- by evaluation, since there are only the twenty-six capital letters
      have hletters : ∀ n < 91, 65 ≤ n → (Char.ofNat n).toLower.toNat = n + 32 := by decide
      have hletter := hletters c.toNat (by omega) hrange.1
      rwa [Char.ofNat_toNat] at hletter
    have hdigit : ¬c.toNat ≤ 57 := by omega
    have hdigit' : ¬c.toNat + 32 ≤ 57 := by omega
    have hsmall : ¬97 ≤ c.toNat := by omega
    have hsmall' : 97 ≤ c.toNat + 32 ∧ c.toNat + 32 ≤ 122 := by omega
    have hvalue : c.toNat + 32 - 87 = c.toNat - 55 := by omega
    simp [digitValue?, hlower, hdigit, hdigit', hsmall, hsmall', hrange, hvalue]
  · have hsame : c.toLower = c := dif_neg hupper
    rw [hsame]

/-- Digits are read from the left. -/
theorem digitsValue?_append (base : Nat) (ds es : List Char) (n : Nat) :
    digitsValue? base (ds ++ es) n = (digitsValue? base ds n).bind (digitsValue? base es) := by
  induction ds generalizing n with
  | nil => rfl
  | cons d ds ih =>
    rw [List.cons_append, digitsValue?, digitsValue?]
    cases digitValue? base d with
    | some v => exact ih _
    | none => rfl

/-- Capitals among digits do not matter. -/
theorem digitsValue?_map_toLower (base : Nat) (ds : List Char) (n : Nat) :
    digitsValue? base (ds.map Char.toLower) n = digitsValue? base ds n := by
  induction ds generalizing n with
  | nil => rfl
  | cons d ds ih =>
    rw [List.map_cons, digitsValue?, digitsValue?, digitValue?_toLower]
    cases digitValue? base d with
    | some v => exact ih _
    | none => rfl

/-- The digits of a number are read as the number. -/
theorem digitsValue?_toDigits {base : Nat} (hlow : 1 < base) (hhigh : base ≤ 16) (n : Nat) :
    digitsValue? base (Nat.toDigits base n) 0 = some n := by
  induction n using Nat.strongRecOn with
  | ind n ih =>
    have hdigit : ∀ d < base, ∀ m, digitsValue? base [Nat.digitChar d] m = some (m * base + d) := by
      intro d hd m
      rw [digitsValue?, digitValue?_digitChar base hhigh d hd]
      rfl
    -- the last digit is the remainder, and the digits in front of it are a smaller number
    by_cases hn : n < base
    · rw [Nat.toDigits_of_lt_base hn, hdigit n hn, Nat.zero_mul, Nat.zero_add]
    · have hle : base ≤ n := Nat.le_of_not_lt hn
      rw [Nat.toDigits_of_base_le hlow hle, digitsValue?_append,
        ih (n / base) (Nat.div_lt_self (by omega) hlow), Option.bind_some,
        hdigit _ (Nat.mod_lt n (by omega)), Nat.div_add_mod']

/-- Of digits with a value every one has one. -/
theorem isSome_digitValue?_of_mem {base m n : Nat} {ds : List Char}
    (h : digitsValue? base ds m = some n) : ∀ d ∈ ds, (digitValue? base d).isSome := by
  induction ds generalizing m with
  | nil => simp
  | cons d ds ih =>
    rw [digitsValue?] at h
    cases hd : digitValue? base d with
    | none => simp [hd] at h
    | some v =>
      rw [hd] at h
      exact List.forall_mem_cons.mpr ⟨by rw [hd]; rfl, ih h⟩

/-- What holds of every character that can be a digit holds of all digits of a number. -/
theorem forall_mem_digits {base m n : Nat} {ds : List Char} (h : digitsValue? base ds m = some n) :
    ∀ d ∈ ds, d ≠ ';' ∧ d ≠ '+' ∧ d.utf8Size = 1 := by
  intro d hd
  obtain ⟨v, hv⟩ := Option.isSome_iff_exists.mp (isSome_digitValue?_of_mem h d hd)
  have hrange := digitValue?_range hv
  refine ⟨?_, ?_, ?_⟩
  · rintro rfl
    exact absurd hrange (by decide)
  · rintro rfl
    exact absurd hrange (by decide)
  · rw [Char.utf8Size_eq_one_iff]
    show d.toNat ≤ 127
    omega

/-- A number needs no sign. -/
theorem unsigned?_of_digitsValue? {base n : Nat} {ds : List Char} (hne : ds ≠ [])
    (h : digitsValue? base ds 0 = some n) : unsigned? base ds = some n := by
  obtain ⟨d, ds, rfl⟩ := List.exists_cons_of_ne_nil hne
  have hplus : d ≠ '+' := (forall_mem_digits h d List.mem_cons_self).2.1
  unfold unsigned?
  split <;> simp_all

theorem size_eq_length {cs : List Char} (h : ∀ c ∈ cs, c.utf8Size = 1) :
    Chars.size cs = cs.length := by
  induction cs with
  | nil => rfl
  | cons c cs ih =>
    rw [Chars.size_cons, h c List.mem_cons_self, ih (fun d hd => h d (List.mem_cons_of_mem c hd)),
      List.length_cons, Nat.add_comm]

/-- Digits with a value end before the semicolon and within their length. -/
theorem digits_bounds {base n length : Nat} {ds : List Char}
    (hvalue : digitsValue? base ds 0 = some n) (hlength : ds.length ≤ length) :
    ';' ∉ ds ∧ Chars.size ds ≤ length := by
  have hall := forall_mem_digits hvalue
  refine ⟨fun hmem => (hall _ hmem).1 rfl, ?_⟩
  rwa [size_eq_length fun d hd => (hall d hd).2.2]

/-! ## References -/

/-- The characters that have a name. -/
def namedCharacters : List (String × Char) :=
  [("amp", '&'), ("lt", '<'), ("gt", '>'), ("quot", '\x22'), ("apos", '\x27'), ("nbsp", '\u00a0')]

/-- What stands between the ampersand and the semicolon of a reference to a character. -/
inductive Names : Char → List Char → Prop
  | named {name : String} {c : Char} : (name, c) ∈ namedCharacters → Names c name.toList
  | decimal (c : Char) : Names c ('#' :: Nat.toDigits 10 c.toNat)
  /-- The digits may be written in any letter case. -/
  | hexadecimal (c : Char) {mark : Char} {digits : List Char} : mark = 'x' ∨ mark = 'X' →
      digits.map Char.toLower = Nat.toDigits 16 c.toNat → Names c ('#' :: mark :: digits)

/-- Hexadecimal digits of a character, in capitals or not, have its code. -/
theorem digitsValue?_hexadecimal {c : Char} {digits : List Char}
    (h : digits.map Char.toLower = Nat.toDigits 16 c.toNat) :
    digitsValue? 16 digits 0 = some c.toNat := by
  rw [← digitsValue?_map_toLower, h, digitsValue?_toDigits (by decide) (by decide)]

theorem ne_nil_of_hexadecimal {c : Char} {digits : List Char}
    (h : digits.map Char.toLower = Nat.toDigits 16 c.toNat) : digits ≠ [] := by
  rintro rfl
  exact Nat.toDigits_ne_nil h.symm

/-- A name stands for its character. -/
theorem entity?_name {c : Char} {name : List Char} (h : Names c name) : entity? name = some c := by
  cases h with
  | named hmem =>
    simp only [namedCharacters, List.mem_cons, List.not_mem_nil, or_false, Prod.mk.injEq] at hmem
    rcases hmem with ⟨rfl, rfl⟩ | ⟨rfl, rfl⟩ | ⟨rfl, rfl⟩ | ⟨rfl, rfl⟩ | ⟨rfl, rfl⟩ | ⟨rfl, rfl⟩ <;>
      rfl
  | decimal =>
    have hvalue : digitsValue? 10 (Nat.toDigits 10 c.toNat) 0 = some c.toNat :=
      digitsValue?_toDigits (by decide) (by decide) c.toNat
    have hread := unsigned?_of_digitsValue? Nat.toDigits_ne_nil hvalue
    obtain ⟨d, ds, hds⟩ := List.exists_cons_of_ne_nil (Nat.toDigits_ne_nil (n := c.toNat) (b := 10))
    have hdigit := isSome_digitValue?_of_mem hvalue d (hds ▸ List.mem_cons_self)
    -- a decimal digit is none of the two letters that mark hexadecimal ones
    have hsmall : d ≠ 'x' := by rintro rfl; exact absurd hdigit (by decide)
    have hcapital : d ≠ 'X' := by rintro rfl; exact absurd hdigit (by decide)
    rw [hds] at hread ⊢
    unfold entity?
    split <;> simp_all [charOfCode?_toNat]
  | hexadecimal _ hmark hdigits =>
    have hread := unsigned?_of_digitsValue? (ne_nil_of_hexadecimal hdigits)
      (digitsValue?_hexadecimal hdigits)
    rcases hmark with rfl | rfl <;> simp [entity?, hread, charOfCode?_toNat]

/-- Every name is short enough and holds no semicolon. -/
theorem name_bounds {c : Char} {name : List Char} (h : Names c name) :
    ';' ∉ name ∧ Chars.size name ≤ 9 := by
  have hcode : c.toNat < 0x110000 := by
    have hvalid : c.toNat.isValidChar := c.valid
    rw [Nat.isValidChar] at hvalid
    omega
  have hhash : '#'.utf8Size = 1 := rfl
  -- the digits of the largest code point leave room for the marks in front of them
  cases h with
  | named hmem =>
    have hall : ∀ e ∈ namedCharacters, ';' ∉ e.1.toList ∧ Chars.size e.1.toList ≤ 9 := by decide
    exact hall _ hmem
  | decimal =>
    have hvalue : digitsValue? 10 (Nat.toDigits 10 c.toNat) 0 = some c.toNat :=
      digitsValue?_toDigits (by decide) (by decide) c.toNat
    have hlength : (Nat.toDigits 10 c.toNat).length ≤ 7 :=
      (Nat.length_toDigits_le_iff (by decide) (by decide)).mpr (by omega)
    obtain ⟨hsemicolon, hsize⟩ := digits_bounds hvalue hlength
    exact ⟨by simp [hsemicolon], by rw [Chars.size_cons, hhash]; omega⟩
  | @hexadecimal _ mark digits hmark hlower =>
    have hlength : digits.length ≤ 6 := by
      rw [← List.length_map (f := Char.toLower), hlower]
      exact (Nat.length_toDigits_le_iff (by decide) (by decide)).mpr (by omega)
    obtain ⟨hsemicolon, hsize⟩ :=
      digits_bounds (digitsValue?_hexadecimal hlower) hlength
    have hsizemark : mark.utf8Size = 1 := by rcases hmark with rfl | rfl <;> rfl
    refine ⟨?_, by rw [Chars.size_cons, Chars.size_cons, hhash, hsizemark]; omega⟩
    rcases hmark with rfl | rfl <;> simp [hsemicolon]

/-- A reference is found, whatever stands behind it. -/
theorem reference?_name {c : Char} {name : List Char} (h : Names c name) (rest : List Char) :
    reference? (name ++ ';' :: rest) = some (c, name.length + 1) := by
  obtain ⟨hsemicolon, hsize⟩ := name_bounds h
  have hpos : ∀ d ∈ name, (d != ';') = true := by
    intro d hd
    simpa using ne_of_mem_of_not_mem hd hsemicolon
  have htake : (name ++ ';' :: rest).takeWhile (· != ';') = name := by
    rw [List.takeWhile_append_of_pos hpos, List.takeWhile_cons_of_neg (by simp), List.append_nil]
  have hlength : name.length < (name ++ ';' :: rest).length := by simp
  simp only [reference?, htake, hlength, hsize, decide_true, Bool.and_self, if_true, entity?_name h,
    Option.map_some]

/-! ## Texts -/

/-- The ways to write a text: an ampersand is always written as a reference, any other character
as itself or as a reference. -/
inductive Spelled : List Char → List Char → Prop
  | nil : Spelled [] []
  | plain {c : Char} {text written : List Char} : c ≠ '&' → Spelled text written →
      Spelled (c :: text) (c :: written)
  | reference {c : Char} {name text written : List Char} : Names c name → Spelled text written →
      Spelled (c :: text) ('&' :: (name ++ ';' :: written))

/-- The characters of a reference that was just decoded are passed over. -/
theorem decodeFrom_skip (cs rest : List Char) :
    decodeFrom (cs ++ rest) cs.length = decodeFrom rest 0 := by
  induction cs with
  | nil => rfl
  | cons c cs ih => rw [List.cons_append, List.length_cons, decodeFrom, ih]

/-- A written text is decoded, and the decoding goes on behind it. -/
theorem decodeFrom_spelled {text written : List Char} (h : Spelled text written)
    (rest : List Char) : decodeFrom (written ++ rest) 0 = text ++ decodeFrom rest 0 := by
  induction h with
  | nil => rfl
  | plain hc _ ih => simp [decodeFrom, hc, ih]
  | @reference c name text written hname _ ih =>
    have hskip := decodeFrom_skip (name ++ [';']) (written ++ rest)
    rw [List.length_append, List.length_singleton, List.append_assoc, List.singleton_append]
      at hskip
    have hfound := reference?_name hname (written ++ rest)
    simp [decodeFrom, hfound, hskip, ih]

/-- Decoding undoes every way of writing a text. What stands behind the written text is decoded for
itself, so nothing that a reference stands for is decoded again. -/
theorem decodeEntities_spelled {text written : String} (h : Spelled text.toList written.toList) :
    decodeEntities written = text ∧
      ∀ rest, decodeEntities (written ++ rest) = text ++ decodeEntities rest := by
  constructor
  · have hdecoded := decodeFrom_spelled h []
    rw [List.append_nil, decodeFrom, List.append_nil] at hdecoded
    rw [decodeEntities, hdecoded, String.ofList_toList]
  · intro rest
    rw [decodeEntities, decodeEntities, String.toList_append, decodeFrom_spelled h,
      String.ofList_append, String.ofList_toList]

/-- The text holds a reference itself and the largest code point, whose decimal reference takes all
ten bytes. -/
theorem decodeEntities_spelled_nested :
    Spelled ['&', 'l', 't', ';', Char.ofNat 0x10ffff, '你'] "&amp;lt;&#1114111;&#X4f60;".toList ∧
      decodeEntities "&amp;lt;&#1114111;&#X4f60;" =
        String.ofList ['&', 'l', 't', ';', Char.ofNat 0x10ffff, '你'] := by
  have hspelled : Spelled ['&', 'l', 't', ';', Char.ofNat 0x10ffff, '你']
      "&amp;lt;&#1114111;&#X4f60;".toList :=
    @Spelled.reference _ "amp".toList _ _ (@Names.named "amp" _ (by decide)) <|
      .plain (by decide) <| .plain (by decide) <| .plain (by decide) <|
      @Spelled.reference _ "#1114111".toList _ _ (.decimal _) <|
      @Spelled.reference _ "#X4f60".toList _ _ (.hexadecimal _ (Or.inr rfl) (by decide)) .nil
  exact ⟨hspelled, (decodeEntities_spelled (by simpa using hspelled)).1⟩

end TextHarvest.Text
