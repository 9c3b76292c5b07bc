import Mathlib.Data.List.TakeWhile
import TextHarvest.Script.Number

/-!
# Reading back numbers

A number below `2 ^ 53` that is written in decimal digits is a literal for itself.

Main results:

* `Binary.toWord_ofFraction` — integers of at most 53 bits are kept as they are.
* `Script.Number.toWord_value_repr` — what is written is read back.
-/

namespace TextHarvest

namespace Binary

theorem scale_natCast (base num den k : Nat) :
    scale base num den k = (num * Nat.pow base k, den) := by
  rw [scale, if_pos (Int.natCast_nonneg k), Int.toNat_natCast]

theorem scale_neg_natCast (base num den k : Nat) :
    scale base num den (-(k : Int)) = (num, den * Nat.pow base k) := by
  cases k with
  | zero => simp [scale]
  | succ k =>
    rw [scale, if_neg (by omega), Int.neg_neg, Int.toNat_natCast]

theorem roundDiv_one (n : Nat) : roundDiv n 1 = n := by
  unfold roundDiv
  rw [Nat.div_one, Nat.mod_one]
  exact if_pos Nat.one_pos

/-- An integer of at most 53 bits takes up all bits of the significand when it is scaled. -/
theorem ofFraction_one {n : Nat} (hpos : 0 < n) (hn : n < Nat.pow 2 53) :
    ofFraction n 1 = .finite (n * Nat.pow 2 (52 - n.log2)) (n.log2 - 52) := by
  have hlow : 2 ^ n.log2 ≤ n := Nat.log2_self_le (by omega)
  have hhigh : n < 2 ^ (n.log2 + 1) := Nat.lt_log2_self
  have hlog : n.log2 < 53 := (Nat.log2_lt (by omega)).mpr hn
  have hexact : 2 ^ n.log2 * 2 ^ (52 - n.log2) = 2 ^ 52 := by
    rw [← Nat.pow_add]
    congr 1
    omega
  have hsignificand : n * 2 ^ (52 - n.log2) < 2 ^ 53 := by
    have hlt := Nat.mul_lt_mul_of_pos_right hhigh (Nat.two_pow_pos (52 - n.log2))
    rw [Nat.pow_succ, Nat.mul_right_comm, hexact] at hlt
    exact hlt
  have htooLarge : 2 ^ 53 ≤ n * 2 ^ (53 - n.log2) := by
    have hle := Nat.mul_le_mul_right (2 ^ (53 - n.log2)) hlow
    rw [← Nat.pow_add] at hle
    have hexponent : n.log2 + (53 - n.log2) = 53 := by omega
    rwa [hexponent] at hle
  have hguess : -((n.log2 : Int) - (Nat.log2 1 : Int) - 53) = ((53 - n.log2 : Nat) : Int) := by
    have hone : Nat.log2 1 = 0 := by decide
    omega
  have hnext : -((n.log2 : Int) - (Nat.log2 1 : Int) - 53 + 1) = ((52 - n.log2 : Nat) : Int) := by
    have hone : Nat.log2 1 = 0 := by decide
    omega
  have hexponent : max ((n.log2 : Int) - (Nat.log2 1 : Int) - 53 + 1) minExponent =
      (n.log2 : Int) - 52 := by
    have hone : Nat.log2 1 = 0 := by decide
    unfold minExponent
    omega
  have hplace : -((n.log2 : Int) - 52) = ((52 - n.log2 : Nat) : Int) := by omega
  have hpow : ∀ k, Nat.pow 2 k = 2 ^ k := fun _ => rfl
  -- the first guess leaves a bit too many, the second one leaves 53
  unfold ofFraction
  rw [if_neg (by simp; omega)]
  simp only [hguess, hnext, scale_natCast, Nat.div_one, hpow, Nat.not_lt.mpr htooLarge,
    hsignificand, decide_false, decide_true, Bool.false_eq_true, if_false, if_true, hexponent,
    hplace, roundDiv_one, Nat.ne_of_lt hsignificand]
  rw [if_neg (by unfold maxExponent; omega)]

/-- A small natural number is its own word. -/
theorem toWord_ofFraction {n : Nat} (hn : n < Nat.pow 2 53) : (ofFraction n 1).toWord = n := by
  rcases Nat.eq_zero_or_pos n with rfl | hpos
  · decide
  · have hlog : n.log2 < 53 := (Nat.log2_lt (by omega)).mpr hn
    have hplace : (n.log2 : Int) - 52 = -((52 - n.log2 : Nat) : Int) := by omega
    have hword : n ≤ Nat.pow 2 63 - 1 := by
      have hle : Nat.pow 2 53 ≤ Nat.pow 2 63 - 1 := by decide
      omega
    rw [ofFraction_one hpos hn, toWord, fraction, hplace, scale_neg_natCast]
    have hback : n * Nat.pow 2 (52 - n.log2) / Nat.pow 2 (52 - n.log2) = n :=
      Nat.mul_div_cancel _ (Nat.two_pow_pos _)
    dsimp only
    rw [Nat.one_mul, hback, Nat.min_eq_left hword]

end Binary

namespace Script.Number

theorem head?_toDigits {n : Nat} (hpos : 0 < n) : (Nat.toDigits 10 n).head? ≠ some '0' := by
  induction n using Nat.strongRecOn with
  | ind n ih =>
    rw [Nat.toDigits_eq_if (by decide)]
    split
    · next hlt =>
      have hdigit : ∀ d < 10, 0 < d → [Nat.digitChar d].head? ≠ some '0' := by decide
      exact hdigit n hlt hpos
    · obtain ⟨c, cs, hcs⟩ := List.exists_cons_of_ne_nil
        (Nat.toDigits_ne_nil (n := n / 10) (b := 10))
      have hrest := ih (n / 10) (by omega) (by omega)
      rw [hcs] at hrest ⊢
      exact hrest

/-- The decimal digits of a number are read as the number. -/
theorem digits_toDigits (n : Nat) : digits 10 (Nat.toDigits 10 n) = n := by
  -- the value of a digit is its distance from zero
  have hvalue : ∀ c : Char, c.isDigit = true →
      (Text.digitValue? 10 c).getD 0 = c.toNat - '0'.toNat := by
    intro c hc
    have hrange : 48 ≤ c.toNat ∧ c.toNat ≤ 57 := by
      simpa [Char.isDigit, UInt32.le_iff_toNat_le] using hc
    have hzero : '0'.toNat = 48 := rfl
    have hlt : c.toNat - 48 < 10 := by omega
    unfold Text.digitValue?
    simp [hrange.1, hrange.2, hzero, hlt]
  have hfold : ∀ (cs : List Char) (k : Nat), (∀ c ∈ cs, c.isDigit = true) →
      cs.foldl (fun n c => n * 10 + (Text.digitValue? 10 c).getD 0) k =
        Nat.ofDigitChars 10 cs k := by
    intro cs
    induction cs with
    | nil => intro k _; rfl
    | cons c cs ih =>
      intro k hcs
      rw [List.foldl_cons, ih _ fun d hd => hcs d (List.mem_cons_of_mem c hd),
        hvalue c (hcs c List.mem_cons_self), Nat.mul_comm]
      rfl
  have hdigits : ∀ c ∈ Nat.toDigits 10 n, c.isDigit = true :=
    fun c hc => Nat.isDigit_of_mem_toDigits (by decide) (by decide) hc
  rw [digits, hfold _ 0 hdigits]
  exact Nat.ofDigitChars_toDigits (by decide) (by decide)

theorem bne_of_mem_toDigits {n : Nat} {d : Char} (hd : d.isDigit = false) :
    ∀ c ∈ Nat.toDigits 10 n, (c != d) = true := by
  intro c hc
  have hdigit : c.isDigit = true := Nat.isDigit_of_mem_toDigits (by decide) (by decide) hc
  rw [bne_iff_ne]
  rintro rfl
  rw [hd] at hdigit
  exact Bool.noConfusion hdigit

/-- Digits are not cut short at a character that is none. -/
theorem cut_toDigits {n : Nat} {d : Char} (hd : d.isDigit = false) :
    (Nat.toDigits 10 n).takeWhile (· != d) = Nat.toDigits 10 n ∧
      (Nat.toDigits 10 n).dropWhile (· != d) = [] := by
  exact ⟨List.takeWhile_eq_self_iff.mpr (bne_of_mem_toDigits hd),
    List.dropWhile_eq_nil_iff.mpr (bne_of_mem_toDigits hd)⟩

/-- And as a floating-point number that is it. -/
theorem decimal_toDigits {n : Nat} (hpos : 0 < n) :
    decimal (Nat.toDigits 10 n) = Binary.ofFraction n 1 := by
  have hexponent := cut_toDigits (n := n) (d := 'e') rfl
  have hplaces := cut_toDigits (n := n) (d := '.') rfl
  have hzero : digits 10 [] = 0 := rfl
  have hscale : Binary.scale 10 n 1 (((0 : Nat) : Int) - ([] : List Char).length) = (n, 1) :=
    (Binary.scale_natCast 10 n 1 0).trans (by rw [Nat.pow_eq, Nat.pow_zero, Nat.mul_one])
  unfold decimal
  simp only [hexponent, hplaces, List.drop_nil, List.append_nil, digits_toDigits, hzero]
  rw [if_neg (by simp; omega), if_neg (by simp), hscale]

/-- The digits of a number are no number of another base. -/
theorem value_toDigits {n : Nat} (hpos : 0 < n) :
    value (String.ofList (Nat.toDigits 10 n)) = Binary.ofFraction n 1 := by
  have hfilter : (Nat.toDigits 10 n).filter (· != '_') = Nat.toDigits 10 n :=
    List.filter_eq_self.mpr (bne_of_mem_toDigits rfl)
  have hletter : ∀ c d : Char, d.isDigit = false → ∀ ds, Nat.toDigits 10 n ≠ c :: d :: ds := by
    intro c d hd ds heq
    have hne := bne_of_mem_toDigits (n := n) hd d (by simp [heq])
    simp at hne
  -- no digit is the letter of another base, and no zero comes first
  unfold value
  rw [String.toList_ofList, hfilter]
  split
  · next heq => exact absurd heq (hletter _ _ rfl _)
  · next heq => exact absurd heq (hletter _ _ rfl _)
  · next heq => exact absurd heq (hletter _ _ rfl _)
  · rw [if_neg, decimal_toDigits hpos]
    unfold isOctal
    simp [head?_toDigits hpos]

/-- A number below `2 ^ 53` that is written in decimal digits is a literal for itself. -/
theorem toWord_value_repr {n : Nat} (hpos : 0 < n) (hn : n < Nat.pow 2 53) :
    (value (Nat.repr n)).toWord = n := by
  rw [Nat.repr_eq_ofList_toDigits, value_toDigits hpos, Binary.toWord_ofFraction hn]

end Script.Number

end TextHarvest
