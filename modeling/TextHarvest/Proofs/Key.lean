import Mathlib.Data.Nat.Digits.Lemmas
import TextHarvest.Key

/-!
# What a key tells of its text

A key of `n` characters is the distance of the text's hash from zero, reduced modulo `36 ^ n` and
written in base 36. No hash is further from zero than `2 ^ 31`, which is less than `36 ^ 6`, so six
characters already keep apart every two distances.
-/

namespace TextHarvest.Key

/-! ### The hash as signed arithmetic over UTF-16 -/

/-- The units of UTF-16 that write some characters: one unit, or two surrogates. -/
inductive Utf16 : List Char → List UInt16 → Prop
  | nil : Utf16 [] []
  | basic {c : Char} {u : UInt16} {cs : List Char} {us : List UInt16} :
      u.toNat = c.toNat → Utf16 cs us → Utf16 (c :: cs) (u :: us)
  | surrogates {c : Char} {high low : UInt16} {cs : List Char} {us : List UInt16} :
      0xd800 ≤ high.toNat → high.toNat < 0xdc00 → 0xdc00 ≤ low.toNat → low.toNat < 0xe000 →
      c.toNat = 0x10000 + (high.toNat - 0xd800) * 0x400 + (low.toNat - 0xdc00) →
      Utf16 cs us → Utf16 (c :: cs) (high :: low :: us)

/-- The units that the hash rolls in, each as the 16 bits that it is. -/
def utf16 (cs : List Char) : List UInt16 :=
  (cs.flatMap units).map UInt32.toUInt16

/-- The signed hash of some units: each is rolled in with 32-bit wrap-around. -/
def signedHash (us : List UInt16) : Int32 :=
  us.foldl (fun h u => (h * 33) ^^^ Int32.ofNat u.toNat) 5381

/-- How far the hash of a text is from zero. -/
def distance (text : String) : Nat :=
  (signedHash (utf16 text.toList)).toInt.natAbs

/-- A distance from zero takes up to 32 bits. -/
theorem distance_le (text : String) : distance text ≤ 2 ^ 31 := by
  have hlow : -2 ^ 31 ≤ (signedHash (utf16 text.toList)).toInt := Int32.le_toInt _
  have hhigh : (signedHash (utf16 text.toList)).toInt ≤ 2 ^ 31 - 1 := Int32.toInt_le _
  unfold distance
  omega

/-- Units that write a text are the ones that its hash rolls in. -/
theorem Utf16.flatMap_units {cs : List Char} {us : List UInt16} (h : Utf16 cs us) :
    cs.flatMap units = us.map UInt16.toUInt32 := by
  induction h with
  | nil => rfl
  | @basic c u cs us hu _ ih =>
    have hlt : u.toNat < 0x10000 := u.toNat_lt
    simp [units, ih, ← hu, hlt]
  | @surrogates c high low cs us hhigh hhigh' hlow hlow' hc _ ih =>
    have hge : ¬ c.toNat < 0x10000 := by omega
    have hdiv : 0xd800 + (c.toNat - 0x10000) / 0x400 = high.toNat := by omega
    have hmod : 0xdc00 + (c.toNat - 0x10000) % 0x400 = low.toNat := by omega
    simp [units, hge, ih, hdiv, hmod]

/-- Every text is written in UTF-16 in some way. -/
theorem exists_utf16 (cs : List Char) : ∃ us, Utf16 cs us := by
  induction cs with
  | nil => exact ⟨[], .nil⟩
  | cons c cs ih =>
    obtain ⟨us, hus⟩ := ih
    -- a character is none of the surrogates, so one unit holds it or two are needed
    have hmax : c.toNat < 0x110000 := by
      have hvalid : c.toNat < 0xd800 ∨ 0xdfff < c.toNat ∧ c.toNat < 0x110000 := c.valid
      omega
    by_cases hbasic : c.toNat < 0x10000
    · exact ⟨UInt16.ofNat c.toNat :: us, .basic (UInt16.toNat_ofNat_of_lt hbasic) hus⟩
    · let high := 0xd800 + (c.toNat - 0x10000) / 0x400
      let low := 0xdc00 + (c.toNat - 0x10000) % 0x400
      have hhigh : (UInt16.ofNat high).toNat = high := UInt16.toNat_ofNat_of_lt (by grind)
      have hlow : (UInt16.ofNat low).toNat = low := UInt16.toNat_ofNat_of_lt (by grind)
      refine ⟨UInt16.ofNat high :: UInt16.ofNat low :: us, .surrogates ?_ ?_ ?_ ?_ ?_ hus⟩
      all_goals
        simp only [hhigh, hlow]
        omega

/-- The units of a text write it, and nothing else does. -/
theorem utf16_iff {cs : List Char} {us : List UInt16} : Utf16 cs us ↔ us = utf16 cs := by
  have hunique : ∀ {vs : List UInt16}, Utf16 cs vs → vs = utf16 cs := by
    intro vs hvs
    unfold utf16
    rw [hvs.flatMap_units, List.map_map]
    exact (List.map_id'' (fun u => UInt16.toUInt16_toUInt32 u) vs).symm
  constructor
  · exact hunique
  · rintro rfl
    obtain ⟨vs, hvs⟩ := exists_utf16 cs
    exact hunique hvs ▸ hvs

/-- Rolling a unit into the unsigned word and into the signed one is the same. -/
theorem roll_toInt32 (h : UInt32) (u : UInt16) :
    (roll h u.toUInt32).toInt32 = (h.toInt32 * 33) ^^^ Int32.ofNat u.toNat := by
  have hunit : u.toUInt32.toInt32 = Int32.ofNat u.toNat := by
    apply Int32.toBitVec.inj
    apply BitVec.eq_of_toNat_eq
    have hlt := u.toNat_lt
    simp
  unfold roll
  rw [UInt32.toInt32_xor, UInt32.toInt32_mul, hunit]
  rfl

/-- Rolling unsigned words is rolling signed ones. -/
theorem foldl_roll_toInt32 (us : List UInt16) (h : UInt32) :
    ((us.map UInt16.toUInt32).foldl roll h).toInt32 =
      us.foldl (fun h u => (h * 33) ^^^ Int32.ofNat u.toNat) h.toInt32 := by
  induction us generalizing h with
  | nil => rfl
  | cons u us ih =>
    show ((us.map UInt16.toUInt32).foldl roll (roll h u.toUInt32)).toInt32 = _
    rw [ih, roll_toInt32, List.foldl_cons]

/-- A magnitude is the absolute value of the signed word. -/
theorem magnitude_eq (h : UInt32) : magnitude h = h.toInt32.toInt.natAbs := by
  have hlt := h.toNat_lt
  have hsigned : h.toInt32.toInt =
      if 2 * h.toNat < 2 ^ 32 then (h.toNat : Int) else h.toNat - 2 ^ 32 := by
    rfl
  unfold magnitude
  rw [hsigned]
  simp only [Nat.pow_eq]
  grind

/-- The number that a key writes is the distance of its text's hash. -/
theorem magnitude_hash (text : String) : magnitude (hash text.toList) = distance text := by
  have hunits := (utf16_iff.mpr rfl : Utf16 text.toList (utf16 text.toList)).flatMap_units
  unfold hash distance signedHash
  rw [magnitude_eq, hunits, foldl_roll_toInt32]
  rfl

/-! ### Digits of a fixed width -/

/-- The signs that a key is written with. -/
def alphabet : List Char :=
  "0123456789abcdefghijklmnopqrstuvwxyz".toList

/-- A number written in base 36, without a leading zero. -/
def base36 (n : Nat) : List Char :=
  (Nat.digits 36 n).reverse.map fun d => alphabet.getD d '0'

/-- A digit is the one at its place in the alphabet. -/
theorem digit_eq {d : Nat} (h : d < 36) : digit d = alphabet.getD d '0' := by
  revert d
  decide

/-- A digit is in the alphabet. -/
theorem digit_mem_alphabet {d : Nat} (h : d < 36) : digit d ∈ alphabet := by
  revert d
  decide

/-- A sign tells its digit by where it stands in the alphabet. -/
theorem idxOf_digit {d : Nat} (h : d < 36) : alphabet.idxOf (digit d) = d := by
  revert d
  decide

/-- The lowest `len` digits of a number, least significant first. -/
def fixedDigits (len n : Nat) : List Nat :=
  Nat.digitsAppend 36 len (n % 36 ^ len)

/-- As many digits as are asked for. -/
theorem length_fixedDigits (len n : Nat) : (fixedDigits len n).length = len :=
  Nat.length_digitsAppend (by decide) len (Nat.mod_lt _ (Nat.pow_pos (by decide)))

/-- Each below the base. -/
theorem lt_of_mem_fixedDigits {len n d : Nat} (h : d ∈ fixedDigits len n) : d < 36 :=
  Nat.lt_of_mem_digitsAppend (by decide) len d h

/-- The lowest digit and those above it. -/
theorem fixedDigits_succ (len n : Nat) :
    fixedDigits (len + 1) n = n % 36 :: fixedDigits len (n / 36) := by
  -- both sides have `len + 1` digits, and these stand for the same number
  have hdigits : (n % 36 :: fixedDigits len (n / 36)).length = len + 1 ∧
      ∀ d ∈ n % 36 :: fixedDigits len (n / 36), d < 36 := by
    refine ⟨by rw [List.length_cons, length_fixedDigits], ?_⟩
    intro d hd
    rcases List.mem_cons.mp hd with rfl | hd
    · exact Nat.mod_lt _ (by decide)
    · exact lt_of_mem_fixedDigits hd
  have hvalue : Nat.ofDigits 36 (n % 36 :: fixedDigits len (n / 36)) = n % 36 ^ (len + 1) := by
    rw [Nat.ofDigits_cons]
    unfold fixedDigits Nat.digitsAppend
    rw [Nat.ofDigits_append_replicate_zero, Nat.ofDigits_digits, Nat.pow_succ', Nat.mod_mul]
  have hinverse := (Nat.setInvOn_digitsAppend_ofDigits (by decide : 1 < 36) (len + 1)).1 hdigits
  rw [hvalue] at hinverse
  exact hinverse

/-- Two numbers with the same lowest digits agree modulo the power. -/
theorem fixedDigits_inj {len m n : Nat} :
    fixedDigits len m = fixedDigits len n ↔ m % 36 ^ len = n % 36 ^ len := by
  have hlt : ∀ k, k % 36 ^ len < 36 ^ len := fun k => Nat.mod_lt _ (Nat.pow_pos (by decide))
  exact (Nat.bijOn_digitsAppend (by decide : 1 < 36) len).injOn.eq_iff (hlt m) (hlt n)

/-- The digits of a key are the lowest ones, the highest of them first. -/
theorem lowDigits_eq (len n : Nat) (tail : List Char) :
    lowDigits len n tail = (fixedDigits len n).reverse.map digit ++ tail := by
  induction len generalizing n tail with
  | zero =>
    have hnone : fixedDigits 0 n = [] := List.eq_nil_of_length_eq_zero (length_fixedDigits 0 n)
    rw [hnone]
    rfl
  | succ len ih =>
    unfold lowDigits
    rw [ih, fixedDigits_succ]
    simp

/-- The characters of a key: the lowest digits of its text's distance, the highest of them first. -/
theorem ofText_toList (text : String) (n : Nat) :
    (ofText text n).toList = (fixedDigits n (distance text)).reverse.map digit := by
  unfold ofText
  rw [String.toList_ofList, lowDigits_eq, magnitude_hash, List.append_nil]

/-- A key has the length that is asked for. -/
theorem length_ofText (text : String) (n : Nat) : (ofText text n).toList.length = n := by
  rw [ofText_toList, List.length_map, List.length_reverse, length_fixedDigits]

/-- A key is made of the alphabet. -/
theorem mem_alphabet_of_mem_ofText {text : String} {n : Nat} {c : Char}
    (h : c ∈ (ofText text n).toList) : c ∈ alphabet := by
  rw [ofText_toList] at h
  obtain ⟨d, hd, rfl⟩ := List.mem_map.mp h
  exact digit_mem_alphabet (lt_of_mem_fixedDigits (List.mem_reverse.mp hd))

/-- Zeros in front of the number below the power give the lowest digits. -/
theorem map_digit_fixedDigits (len n : Nat) :
    (fixedDigits len n).reverse.map digit = (base36 (n % 36 ^ len)).leftpad len '0' := by
  have hzero : digit 0 = '0' := by decide
  -- both are the digits to the base, once as numbers and once as characters
  have hmap : (Nat.digits 36 (n % 36 ^ len)).reverse.map digit = base36 (n % 36 ^ len) := by
    unfold base36
    apply List.map_congr_left
    intro d hd
    exact digit_eq (Nat.digits_lt_base (by decide) (List.mem_reverse.mp hd))
  have hlength : (base36 (n % 36 ^ len)).length = (Nat.digits 36 (n % 36 ^ len)).length := by
    unfold base36
    rw [List.length_map, List.length_reverse]
  unfold fixedDigits Nat.digitsAppend List.leftpad
  rw [List.reverse_append, List.map_append, hmap, List.reverse_replicate, List.map_replicate,
    hzero, hlength]

/-! ### Keys and collisions -/

/-- The characters of a key tell its digits. -/
theorem map_idxOf_ofText (text : String) (n : Nat) :
    (ofText text n).toList.map alphabet.idxOf = (fixedDigits n (distance text)).reverse := by
  have hread : ∀ d ∈ (fixedDigits n (distance text)).reverse,
      (alphabet.idxOf ∘ digit) d = id d := by
    intro d hd
    exact idxOf_digit (lt_of_mem_fixedDigits (List.mem_reverse.mp hd))
  rw [ofText_toList, List.map_map, List.map_congr_left hread, List.map_id]

/-- Keys of one length agree just when the distances agree modulo the power. -/
theorem ofText_inj_mod {a b : String} {n : Nat} :
    ofText a n = ofText b n ↔ distance a % 36 ^ n = distance b % 36 ^ n := by
  rw [← fixedDigits_inj]
  constructor
  · intro h
    have hdigits := congrArg (fun key : String => key.toList.map alphabet.idxOf) h
    simp only [map_idxOf_ofText, List.reverse_inj] at hdigits
    exact hdigits
  · intro h
    rw [← String.toList_inj, ofText_toList, ofText_toList, h]

/-- Six characters hold every distance whole. -/
theorem distance_mod {n : Nat} (hn : 6 ≤ n) (text : String) :
    distance text % 36 ^ n = distance text := by
  apply Nat.mod_eq_of_lt
  calc distance text ≤ 2 ^ 31 := distance_le text
    _ < 36 ^ 6 := by decide
    _ ≤ 36 ^ n := Nat.pow_le_pow_right (by decide) hn

/-- Keys of six characters or more tell the distance. -/
theorem ofText_inj_distance {a b : String} {n : Nat} (hn : 6 ≤ n) :
    ofText a n = ofText b n ↔ distance a = distance b := by
  rw [ofText_inj_mod, distance_mod hn, distance_mod hn]

end TextHarvest.Key
