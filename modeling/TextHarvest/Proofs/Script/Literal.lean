import TextHarvest.Proofs.Patch
import TextHarvest.Script.Literal

/-!
# Values of literals

The value of a literal is gathered as code points, and only a pair of surrogates that come from
escapes is put together. A character is no surrogate, so it is added to a value as it is.

Main results:

* `pushCode_toNat` — a character is added to a value by its code point.
* `textOfCodes?_toNat` — the code points of a text give the text.
* `readString_skip` — the characters of an escape are passed over.
-/

namespace TextHarvest

namespace Script

/-- A character is not half of a pair. -/
theorem toNat_not_surrogate (c : Char) : ¬(0xd800 ≤ c.toNat ∧ c.toNat ≤ 0xdfff) := by
  have hvalid : c.toNat.isValidChar := c.valid
  rw [Nat.isValidChar] at hvalid
  omega

theorem pushCode_toNat (c : Char) (codes : List Nat) :
    pushCode c.toNat codes = c.toNat :: codes := by
  have hc := toNat_not_surrogate c
  cases codes with
  | nil => rfl
  | cons last codes =>
    rw [pushCode, if_neg]
    simp only [Bool.and_eq_true, decide_eq_true_eq]
    omega

theorem mapM_charOfCode?_toNat (cs : List Char) :
    (cs.map Char.toNat).mapM Text.charOfCode? = some cs := by
  induction cs with
  | nil => rfl
  | cons c cs ih => rw [List.map_cons, List.mapM_cons, Text.charOfCode?_toNat, ih]; rfl

/-- The code points of a text give the text. -/
theorem textOfCodes?_toNat (cs : List Char) :
    textOfCodes? (cs.map Char.toNat).reverse = some (String.ofList cs) := by
  rw [textOfCodes?, List.reverse_reverse, mapM_charOfCode?_toNat]
  rfl

/-- The characters of an escape are passed over. -/
theorem readString_skip (mark : Char) (e rest : List Char) (pos : Nat) (codes : List Nat) :
    readString mark (e ++ rest) pos e.length codes =
      readString mark rest (pos + Chars.size e) 0 codes := by
  induction e generalizing pos with
  | nil => rfl
  | cons c e ih =>
    rw [List.cons_append, List.length_cons, readString, ih, Chars.size_cons, Nat.add_assoc]

end Script

end TextHarvest
