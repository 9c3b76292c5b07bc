import TextHarvest.Proofs.Except
import TextHarvest.Proofs.FileOutcome
import TextHarvest.Proofs.Patch

/-!
# A literal that stands next to a word

A literal needs no blank before it: in `case"x":` the quote ends the word. The call that takes the
place of a literal is put exactly where the literal was, so the name of the lookup function comes
to stand right behind the word, and where the name goes on with letters the two are read as one
word. The keyword is gone, and with it the meaning of the script.

Main results:

* `scanToken_word_append` — a word goes on as long as its letters do.
* `word_kept_iff` — the word before a literal is still there in the rewritten file just when the
  name of the lookup function does not start with a letter.
-/

namespace TextHarvest

open Script

/-- The characters of a word without escapes. -/
structure IsWord (w : List Char) : Prop where
  start : ∃ c cs, w = c :: cs ∧ Text.isIdStart c = true
  parts : ∀ c ∈ w, Text.isIdPart c = true

theorem IsWord.ne_nil {w : List Char} (hw : IsWord w) : w ≠ [] := by
  obtain ⟨d, ds, hd, -⟩ := hw.start
  rw [hd]
  exact List.cons_ne_nil _ _

/-! ## Reading words -/

/-- A word goes on as long as its letters do. -/
theorem scanToken_word_append {w : List Char} (hw : IsWord w) {x : List Char}
    (hescape : (x.dropWhile Text.isIdPart).head? ≠ some '\\') (pos : Nat) :
    (scanToken (w ++ x) pos).1 = .word (String.ofList (w ++ x.takeWhile Text.isIdPart)) := by
  have htake : (w ++ x).takeWhile Text.isIdPart = w ++ x.takeWhile Text.isIdPart :=
    List.takeWhile_append_of_pos hw.parts
  have hdrop : (w ++ x).dropWhile Text.isIdPart = x.dropWhile Text.isIdPart :=
    List.dropWhile_append_of_pos hw.parts
  obtain ⟨c, cs, rfl, hstart⟩ := hw.start
  rw [List.cons_append] at htake hdrop ⊢
  rw [scanToken, if_pos hstart]
  simp only [htake, hdrop, beq_iff_eq, hescape, if_false]

/-- A quote ends a word. -/
theorem not_isIdPart_mark (q : Quote) : Text.isIdPart q.mark = false := by
  cases q <;> decide

/-- A quote ends the word in front of it. -/
theorem scanToken_word_mark {w : List Char} (hw : IsWord w) (q : Quote) (rest : List Char)
    (pos : Nat) : (scanToken (w ++ q.mark :: rest) pos).1 = .word (String.ofList w) := by
  have hmark : q.mark ≠ '\\' := by
    cases q <;> decide
  rw [scanToken_word_append hw]
  · rw [List.takeWhile_cons_of_neg (by simp [not_isIdPart_mark]), List.append_nil]
  · rw [List.dropWhile_cons_of_neg (by simp [not_isIdPart_mark])]
    simpa using hmark

/-! ## The call in place of a literal -/

/-- A parenthesis ends a word. -/
theorem takeWhile_append_lparen (name rest : List Char) :
    (name ++ '(' :: rest).takeWhile Text.isIdPart = name.takeWhile Text.isIdPart := by
  induction name with
  | nil => exact List.takeWhile_cons_of_neg (by decide)
  | cons c name ih => rw [List.cons_append, List.takeWhile_cons, List.takeWhile_cons, ih]

/-- What follows the first word of a name without escapes is no escape. -/
theorem head?_dropWhile_append_lparen {name : List Char} (hname : '\\' ∉ name)
    (rest : List Char) :
    ((name ++ '(' :: rest).dropWhile Text.isIdPart).head? ≠ some '\\' := by
  induction name with
  | nil =>
    rw [List.nil_append, List.dropWhile_cons_of_neg (by decide)]
    simp
  | cons c name ih =>
    rw [List.mem_cons, not_or] at hname
    rw [List.cons_append, List.dropWhile_cons]
    split
    · exact ih hname.2
    · simpa using Ne.symm hname.1

/-- A call starts with the translation function and a parenthesis. -/
theorem callText_toList (h : Harvester) (key text : String) (quote : Quote) :
    ∃ rest, (h.callText key text quote false).toList =
      h.options.translateKey.toList ++ '(' :: rest := by
  refine ⟨(Text.quoted key quote).toList ++ ((if h.options.keepDefaultMsg then
    ", " ++ Text.quoted text quote else "").toList ++ ")".toList), ?_⟩
  simp [Harvester.callText]

/-- The word before the call that takes the place of a literal. -/
theorem scanToken_word_callText {w : List Char} (hw : IsWord w) {h : Harvester}
    (hname : '\\' ∉ h.options.translateKey.toList) (key text : String) (quote : Quote)
    (rest : List Char) (pos : Nat) :
    (scanToken (w ++ ((h.callText key text quote false).toList ++ rest)) pos).1 =
      .word (String.ofList (w ++ h.options.translateKey.toList.takeWhile Text.isIdPart)) := by
  obtain ⟨after, hcall⟩ := callText_toList h key text quote
  rw [hcall, List.append_assoc, List.cons_append,
    scanToken_word_append hw (head?_dropWhile_append_lparen hname _), takeWhile_append_lparen]

/-- A literal stands right behind a word of a file, and of the changes to the file one puts a call
in the place of the literal and none reaches into the word. -/
structure ReplacedBehind (h : Harvester) (code path : String) (w literal : List Char)
    (call : String) (front rest : List Char) : Prop where
  source : code.toList = front ++ (w ++ (literal ++ rest))
  quoted : ∃ (q : Quote) (cs : List Char), literal = q.mark :: cs
  replaced : ⟨⟨Chars.size (front ++ w), Chars.size (front ++ w) + Chars.size literal⟩, call⟩ ∈
    (h.filePatch code path).edits
  alone : ∀ e ∈ (h.filePatch code path).edits,
    e = ⟨⟨Chars.size (front ++ w), Chars.size (front ++ w) + Chars.size literal⟩, call⟩ ∨
      e.span.stop ≤ Chars.size front ∨
      Chars.size (front ++ w) + Chars.size literal ≤ e.span.start

/-- A word and a literal right behind it are two tokens. In the rewritten file the call stands right
behind the word, and the word is still there just when the name of the lookup function does not
start with a letter. -/
theorem word_kept_iff {h : Harvester} {code path c key text : String} {quote : Quote}
    {w literal front rest : List Char} (hcode : (h.harvestFile code path).code = some c)
    (hname : '\\' ∉ h.options.translateKey.toList) (hw : IsWord w)
    (hreplaced : ReplacedBehind h code path w literal (h.callText key text quote false) front rest)
    (pos : Nat) :
    (scanToken (w ++ (literal ++ rest)) pos).1 = .word (String.ofList w) ∧
      ∃ x y, c.toList = x ++ (w ++ ((h.callText key text quote false).toList ++ y)) ∧
        ((scanToken (w ++ ((h.callText key text quote false).toList ++ y)) pos).1 =
            .word (String.ofList w) ↔
          h.options.translateKey.toList.head?.any Text.isIdPart = false) := by
  obtain ⟨q, cs, hquoted⟩ := hreplaced.quoted
  constructor
  · rw [hquoted, List.cons_append]
    exact scanToken_word_mark hw q (cs ++ rest) pos
  · rw [Harvester.code_harvestFile] at hcode
    have hne : literal ≠ [] := by
      rw [hquoted]
      exact List.cons_ne_nil _ _
    -- no other edit touches the word, so the call is put right behind it
    obtain ⟨x, y, happly⟩ := Patch.apply_around hreplaced.source hne rfl rfl hreplaced.replaced
      hreplaced.alone
    rw [(Harvester.changedCode_eq_some hcode).2] at happly
    refine ⟨x, y, happly, ?_⟩
    rw [scanToken_word_callText hw hname, Token.word.injEq, String.ofList_inj]
    -- the word goes on exactly when the name starts with a character of words
    cases h.options.translateKey.toList with
    | nil => simp
    | cons d name =>
      by_cases hd : Text.isIdPart d = true
      · simp [hd]
      · simp [hd]

/-- A script with a literal right behind a word. -/
def caseScript : String := "switch (x) \x7b case\"你好\": \x7d"

theorem isWord_case : IsWord "case".toList where
  start := ⟨'c', "ase".toList, rfl, by decide⟩
  parts := List.all_eq_true.mp (by decide)

theorem word_kept_iff_case : ∃ h c, Harvester.ofOptions { replaceTexts := true } = .ok h ∧
    (h.harvestFile caseScript "a.js").code = some c ∧ '\\' ∉ h.options.translateKey.toList ∧
    IsWord "case".toList ∧
    ReplacedBehind h caseScript "a.js" "case".toList "\"你好\"".toList
      (h.callText "03tpnc" "你好" .double false) "switch (x) \x7b ".toList ": \x7d".toList ∧
    ∃ x y, c.toList =
        x ++ ("case".toList ++ ((h.callText "03tpnc" "你好" .double false).toList ++ y)) ∧
      (scanToken ("case".toList ++ ((h.callText "03tpnc" "你好" .double false).toList ++ y)) 0).1 ≠
        .word "case" := by
  have heval : (Harvester.ofOptions { replaceTexts := true }).toOption.map (fun h =>
      (h.options.translateKey, h.callText "03tpnc" "你好" .double false,
        (h.harvestFile caseScript "a.js").code.isSome, (h.filePatch caseScript "a.js").edits)) =
      some ("$t", "$t(\"03tpnc\")", true, [⟨⟨17, 25⟩, "$t(\"03tpnc\")"⟩,
        ⟨⟨0, 0⟩, "import \x7b $t \x7d from \"@/i18n\";\n"⟩]) := by
    decide +kernel
  obtain ⟨h, hh, hvalues⟩ := exists_ok_of_toOption_map heval
  simp only [Prod.mk.injEq] at hvalues
  obtain ⟨hkey, hcall, hsome, hedits⟩ := hvalues
  obtain ⟨c, hc⟩ := Option.isSome_iff_exists.mp hsome
  have hname : '\\' ∉ h.options.translateKey.toList := by
    rw [hkey]
    decide
  -- the literal stands right behind the keyword, and the import elsewhere
  have hreplaced : ReplacedBehind h caseScript "a.js" "case".toList "\"你好\"".toList
      (h.callText "03tpnc" "你好" .double false) "switch (x) \x7b ".toList ": \x7d".toList := by
    rw [hcall]
    refine ⟨by decide, ⟨.double, "你好\"".toList, by decide⟩, ?_, ?_⟩
    · rw [hedits]
      decide
    · rw [hedits]
      decide
  obtain ⟨-, x, y, hxy, hkept⟩ := word_kept_iff hc hname isWord_case hreplaced 0
  refine ⟨h, c, hh, hc, hname, isWord_case, hreplaced, x, y, hxy, ?_⟩
  intro hword
  have hletter := hkept.mp hword
  rw [hkey] at hletter
  revert hletter
  decide

/-! ## A script that no longer parses -/

/-- A rewritten script is a script. -/
def Harvester.StaysScript (h : Harvester) (code path : String) : Prop :=
  ∀ c, (∃ t, parseModule code (.ofName (Path.extension? path)) = .ok t) →
    (h.harvestFile code path).code = some c →
    ∃ t, parseModule c (.ofName (Path.extension? path)) = .ok t

instance (h : Harvester) (code path : String) : Decidable (h.StaysScript code path) :=
  decidable_of_iff ((parseModule code (.ofName (Path.extension? path))).toOption.isSome = true →
      (h.harvestFile code path).code.all (fun c =>
        (parseModule c (.ofName (Path.extension? path))).toOption.isSome) = true) <| by
    simp only [Harvester.StaysScript, Option.all_eq_true, isSome_toOption_iff]
    exact ⟨fun hall c ht hc => hall ht c hc, fun hall ht c hc => hall c ht hc⟩

/-- In the rewritten script the keyword is gone. -/
theorem not_staysScript_case : ∃ h, Harvester.ofOptions { replaceTexts := true } = .ok h ∧
    ¬h.StaysScript caseScript "a.js" := by
  have heval : (Harvester.ofOptions { replaceTexts := true }).toOption.map (fun h =>
      decide (h.StaysScript caseScript "a.js")) = some false := by
    decide +kernel
  obtain ⟨h, hh, hfalse⟩ := exists_ok_of_toOption_map heval
  exact ⟨h, hh, of_decide_eq_false hfalse⟩

end TextHarvest
