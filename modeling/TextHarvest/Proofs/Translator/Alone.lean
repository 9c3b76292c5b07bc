import TextHarvest.Proofs.Path
import TextHarvest.Proofs.Text.Blank
import TextHarvest.Proofs.Translator.RoundTrip

/-!
# A text that travels alone

The answer to a batch of one text holds no separating line, since none was sent. Cutting does not
know that: it takes the first line of three characters for a damaged separating line, if that gives
more than one text. So a text that travels alone comes back whole just when its answer does not
happen to have such a line between two parts that are not blank (`Torn`); otherwise all but the
first part is lost, and a mismatch is reported.

* `Parted` — a text and its pieces between the occurrences of a separator, each the first one that
  is left.
* `cut_of_parted`, `exists_parted` — cutting finds these pieces, and every text has them.
* `lines_eq_splitOn` — the lines of a text are the pieces between its line feeds.
* `unpack_of_not_mem` — what becomes of an answer without marks.

Main result: `Orchestra.comesBackWhole_iff`, with a text that comes back torn in
`Orchestra.not_comesBackWhole_greetings`.
-/

namespace TextHarvest

namespace Batch

/-! ## Pieces between separators -/

/-- A separator begins nowhere in a piece, not even where it reaches into what follows. -/
def Clear (sep piece rest : List Char) : Prop :=
  ∀ c suf, c :: suf <:+ piece → ¬sep <+: c :: suf ++ rest

/-- The pieces of a text between the occurrences of a separator, where each occurrence is the first
one behind the occurrence before it. -/
inductive Parted (sep : List Char) : List (List Char) → List Char → Prop
  | last {piece : List Char} : Clear sep piece [] → Parted sep [piece] piece
  | cons {piece rest : List Char} {pieces : List (List Char)} :
    Clear sep piece (sep ++ rest) → Parted sep pieces rest →
      Parted sep (piece :: pieces) (piece ++ (sep ++ rest))

theorem clear_nil (sep rest : List Char) : Clear sep [] rest := by
  intro c suf hsuf
  simp at hsuf

/-- A character that does not begin a separator goes into the piece behind it. -/
theorem Clear.cons {sep piece rest : List Char} (h : Clear sep piece rest) {c : Char}
    (hc : ¬sep <+: c :: piece ++ rest) : Clear sep (c :: piece) rest := by
  intro c' suf hsuf
  rcases List.suffix_cons_iff.mp hsuf with heq | hsuf
  · rw [heq]
    exact hc
  · exact h c' suf hsuf

/-- A character in front belongs to the first piece, unless a separator starts there. -/
theorem Parted.cons_head {sep piece cs : List Char} {pieces : List (List Char)}
    (h : Parted sep (piece :: pieces) cs) {c : Char} (hc : ¬sep <+: c :: cs) :
    Parted sep ((c :: piece) :: pieces) (c :: cs) := by
  cases h with
  | last hclear => exact .last (hclear.cons (by simpa using hc))
  | cons hclear hrest => exact .cons (hclear.cons hc) hrest

/-- A parted text has a piece. -/
theorem Parted.ne_nil {sep cs : List Char} {pieces : List (List Char)} (h : Parted sep pieces cs) :
    pieces ≠ [] := by
  cases h <;> simp

/-- Every text has its pieces. -/
theorem exists_parted {sep : List Char} (hsep : sep ≠ []) (cs : List Char) :
    ∃ pieces, Parted sep pieces cs := by
  -- on the length, since the text behind a separator is not the tail of the text
  induction hlength : cs.length using Nat.strong_induction_on generalizing cs with
  | h n ih =>
    subst hlength
    cases cs with
    | nil => exact ⟨_, .last (clear_nil sep [])⟩
    | cons c cs =>
      by_cases hbegins : sep <+: c :: cs
      · obtain ⟨rest, hrest⟩ := hbegins
        have hshorter : rest.length < (c :: cs).length := by
          have := List.length_pos_iff.mpr hsep
          rw [← hrest, List.length_append]
          omega
        obtain ⟨pieces, hpieces⟩ := ih _ hshorter rest rfl
        rw [← hrest]
        exact ⟨[] :: pieces, .cons (clear_nil sep _) hpieces⟩
      · obtain ⟨pieces, hpieces⟩ := ih _ (Nat.lt_succ_self cs.length) cs rfl
        cases pieces with
        | nil => exact absurd rfl hpieces.ne_nil
        | cons piece pieces => exact ⟨_, hpieces.cons_head hbegins⟩

theorem textLength?_eq_none {sep cs : List Char} (h : ¬sep <+: cs) : textLength? sep cs = none := by
  rw [textLength?, if_neg (by rwa [List.isPrefixOf_iff_prefix])]

theorem textLength?_append (sep rest : List Char) :
    textLength? sep (sep ++ rest) = some sep.length := by
  rw [textLength?, if_pos (by simp [List.isPrefixOf_iff_prefix])]

/-- Cutting finds the pieces between the separators. -/
theorem cutFrom_of_parted {sep cs : List Char} {pieces : List (List Char)} (hsep : sep ≠ [])
    (h : Parted sep pieces cs) (acc : List (List Char)) :
    cutFrom (textLength? sep) cs 0 [] acc = acc.reverse ++ pieces := by
  induction h generalizing acc with
  | @last piece hclear =>
    rw [← List.append_nil piece, cutFrom_piece fun c suf hsuf =>
      textLength?_eq_none (hclear c suf hsuf)]
    simp [cutFrom]
  | cons hclear _ ih =>
    rw [cutFrom_piece fun c suf hsuf => textLength?_eq_none (hclear c suf hsuf),
      cutFrom_separator hsep (textLength?_append sep _), ih]
    simp

/-- Cutting at a text finds the pieces between its occurrences. -/
theorem cut_of_parted {sep cs : List Char} {pieces : List (List Char)} (hsep : sep ≠ [])
    (h : Parted sep pieces cs) : cut (textLength? sep) cs = pieces :=
  cutFrom_of_parted hsep h []

/-- The lines of a text are parted by line breaks. -/
theorem parted_splitOn (cs : List Char) : Parted ['\n'] (cs.splitOn '\n') cs := by
  induction cs with
  | nil => exact .last (clear_nil _ _)
  | cons c cs ih =>
    rw [List.splitOn_cons_eq_if_modifyHead]
    split
    · rename_i hc
      rw [beq_iff_eq.mp hc]
      exact .cons (clear_nil _ _) ih
    · -- a character that is no break joins the first piece, which then begins with no break
      rename_i hc
      cases hpieces : cs.splitOn '\n' with
      | nil => exact absurd hpieces (List.splitOn_ne_nil '\n' cs)
      | cons piece pieces =>
        rw [hpieces] at ih
        rw [List.modifyHead_cons]
        exact ih.cons_head fun hbegins =>
          hc (beq_iff_eq.mpr (List.cons_prefix_cons.mp hbegins).1.symm)

/-- The lines of a text are the pieces between its line feeds. -/
theorem lines_eq_splitOn (cs : List Char) : lines cs = cs.splitOn '\n' :=
  cut_of_parted (by simp) (parted_splitOn cs)

/-! ## Answers without separating lines -/

/-- An answer that is taken apart at a line that is no separating line: its first line of three
characters stands, as a line between others, between at least two parts that are not blank. -/
def Torn (answer : String) : Prop :=
  ∃ line pieces, (answer.toList.splitOn '\n').find? (·.length == 3) = some line ∧
    Parted ('\n' :: line ++ ['\n']) pieces answer.toList ∧
    2 ≤ pieces.countP fun piece => !Chars.allBlank piece

theorem trim_ofList_ne_empty_iff (piece : List Char) :
    (Text.trim (String.ofList piece) != "") = !Chars.allBlank piece := by
  have hnil : Text.trim (String.ofList piece) = "" ↔ Chars.allBlank piece = true := by
    rw [Text.trim, String.toList_ofList, Chars.allBlank, List.all_eq_true,
      ← Chars.trim_eq_nil_iff, ← String.ofList_nil, String.ofList_inj]
  rw [Bool.eq_iff_iff]
  simp [hnil]

/-- An answer without marks is one text, unless it is torn; then it is more than one. -/
theorem unpack_of_not_mem {answer : String} (hfree : mark ∉ answer.toList) :
    (¬Torn answer → unpack answer id = [Text.trim answer]) ∧
      (Torn answer → 1 < (unpack answer id).length) := by
  have hwhole : cut separatorLength? answer.toList = [answer.toList] :=
    cut_joined (.last answer) (by simpa using hfree)
  unfold unpack
  dsimp only
  rw [hwhole, if_neg (by simp), lines_eq_splitOn]
  cases hline : (answer.toList.splitOn '\n').find? (·.length == 3) with
  | none =>
    refine ⟨fun _ => by simp, ?_⟩
    rintro ⟨line, -, hsome, -⟩
    rw [hline] at hsome
    cases hsome
  | some line =>
    have hsep : '\n' :: line ++ ['\n'] ≠ [] := by simp
    obtain ⟨pieces, hparted⟩ := exists_parted hsep answer.toList
    have hcut := cut_of_parted hsep hparted
    have hcount : (((pieces.map fun piece => id (Text.trim (String.ofList piece))).filter
        (· != "")).length) = pieces.countP fun piece => !Chars.allBlank piece := by
      rw [← List.countP_eq_length_filter, List.countP_map]
      simp only [Function.comp_def, id_eq, trim_ofList_ne_empty_iff]
    -- the answer has these pieces only, so it is torn when two of them are not blank
    have htorn : Torn answer ↔ 1 < pieces.countP fun piece => !Chars.allBlank piece := by
      constructor
      · rintro ⟨line', pieces', hline', hparted', hmany⟩
        obtain rfl : line = line' := by
          rw [hline] at hline'
          exact Option.some.inj hline'
        rwa [← hcut, cut_of_parted (by simp) hparted']
      · exact fun hmany => ⟨line, pieces, hline, hparted, hmany⟩
    dsimp only
    rw [hcut, hcount, htorn]
    constructor
    · intro hfew
      rw [if_neg hfew]
      simp
    · intro hmany
      rw [if_pos hmany, hcount]
      exact hmany

end Batch

namespace Orchestra

/-! ## Texts that travel alone -/

/-- Leaving one part out changes nothing just when it is empty. -/
theorem flatten_mapIdx_eq_iff {α β : Type} {f : Nat → α → List β} {l : List α} {i : Nat} {a : α}
    (ha : l[i]? = some a) :
    (l.mapIdx f).flatten = (l.mapIdx fun j x => if j = i then [] else f j x).flatten ↔
      f i a = [] := by
  induction l generalizing f i with
  | nil => simp at ha
  | cons x l ih =>
    rw [List.mapIdx_cons, List.mapIdx_cons, List.flatten_cons, List.flatten_cons]
    cases i with
    | zero =>
      obtain rfl : x = a := by simpa using ha
      simp
    | succ i =>
      rw [List.getElem?_cons_succ] at ha
      simpa using ih (f := fun j => f (j + 1)) ha

/-- What a text is to come back as that travels alone, in the batch of a number: the answer to it
without the blanks at its ends, and nothing is reported but what is reported for other batches. -/
structure ComesBackWhole (o : Orchestra) (d : Dispatch) (texts : List String)
    (fromLang toLang : String) (i : Nat) (answer : String) : Prop where
  text : (o.translate d texts fromLang toLang).texts[
    Batch.start (Batch.groups texts o.translator.maxBatch) i]? = some (Text.trim answer)
  issues : (o.translate d texts fromLang toLang).issues =
    ((Batch.groups texts o.translator.maxBatch).mapIdx fun j g =>
      if j = i then [] else o.issuesFor toLang g.length (o.reply d fromLang toLang j g)).flatten

/-- A text that travels alone, with an answer without marks, comes back whole just when the answer
is not torn. -/
theorem comesBackWhole_iff {o : Orchestra} {d : Dispatch} {texts : List String}
    {fromLang toLang : String} {i : Nat} {text answer : String}
    (hpost : ∀ text, o.post text toLang = text)
    (halone : (Batch.groups texts o.translator.maxBatch)[i]? = some [text])
    (hreply : o.reply d fromLang toLang i [text] = .ok answer)
    (hfree : Batch.mark ∉ answer.toList) :
    o.ComesBackWhole d texts fromLang toLang i answer ↔ ¬Batch.Torn answer := by
  have hpieces : o.pieces toLang answer = Batch.unpack answer id := by
    rw [pieces, show (o.post · toLang) = id from funext hpost]
  obtain ⟨hone, hmany⟩ := Batch.unpack_of_not_mem hfree
  -- its batch reports a mismatch or nothing, by the number of texts in the answer
  have hissues : (o.translate d texts fromLang toLang).issues =
      ((Batch.groups texts o.translator.maxBatch).mapIdx fun j g =>
        if j = i then [] else o.issuesFor toLang g.length (o.reply d fromLang toLang j g)).flatten ↔
      (Batch.unpack answer id).length = 1 := by
    rw [o.issues_translate, flatten_mapIdx_eq_iff halone, hreply]
    simp [issuesFor, hpieces]
  constructor
  · intro hwhole htorn
    have hlength := hissues.mp hwhole.issues
    have := hmany htorn
    omega
  · intro htorn
    have hunpack := hone htorn
    constructor
    case text =>
      have hplace := o.getElem?_translate d texts fromLang toLang halone (j := 0) (by simp)
      rw [Nat.add_zero, hreply, textFor, hpieces, hunpack] at hplace
      exact hplace
    case issues => exact hissues.mpr (by rw [hunpack, List.length_singleton])

/-- A translator that says one thing to its first request and another one to all others. -/
def saying (first other : String) (maxBatch : Nat) : Orchestra where
  translator :=
    { name := "saying"
      maxBatch
      answer := fun n _ => .ok (if n = 0 then first else other) }

/-- Lines of three characters at both ends of an answer do not tear it. -/
theorem comesBackWhole_iff_ends :
    (saying "One" "Yes\nHello\nYes\n" 7).ComesBackWhole {} ["甲", "是\n你好\n是"] "zh-cn" "en" 1
        "Yes\nHello\nYes\n" ∧
      ¬Batch.Torn "Yes\nHello\nYes\n" := by
  have hwhole : (saying "One" "Yes\nHello\nYes\n" 7).ComesBackWhole {} ["甲", "是\n你好\n是"]
      "zh-cn" "en" 1 "Yes\nHello\nYes\n" :=
    ⟨by decide +kernel, by decide +kernel⟩
  -- the second text is a batch of its own, and its reply keeps its first and last line
  have halone : (Batch.groups ["甲", "是\n你好\n是"]
      (saying "One" "Yes\nHello\nYes\n" 7).translator.maxBatch)[1]? = some ["是\n你好\n是"] := by
    decide +kernel
  have hreply : (saying "One" "Yes\nHello\nYes\n" 7).reply {} "zh-cn" "en" 1 ["是\n你好\n是"] =
      .ok "Yes\nHello\nYes\n" := rfl
  have hiff := comesBackWhole_iff (fun _ => rfl) halone hreply (by decide +kernel)
  exact ⟨hwhole, hiff.mp hwhole⟩

/-- Three greetings in one text: the answer to the second one has three characters, and the text
comes back as the answer to the first one alone. -/
theorem not_comesBackWhole_greetings :
    Batch.mark ∉ "你好\n是的\n再见".toList ∧ Batch.mark ∉ "Hello\nYes\nGoodbye".toList ∧
      (Batch.groups ["你好\n是的\n再见"] 4500)[0]? = some ["你好\n是的\n再见"] ∧
      (saying "Hello\nYes\nGoodbye" "" 4500).reply {} "zh-cn" "en" 0 ["你好\n是的\n再见"] =
        .ok "Hello\nYes\nGoodbye" ∧
      ((saying "Hello\nYes\nGoodbye" "" 4500).translate {} ["你好\n是的\n再见"] "zh-cn" "en").texts =
        ["Hello"] ∧
      ¬(saying "Hello\nYes\nGoodbye" "" 4500).ComesBackWhole {} ["你好\n是的\n再见"] "zh-cn" "en" 0
        "Hello\nYes\nGoodbye" := by
  refine ⟨by decide +kernel, by decide +kernel, by decide +kernel, rfl, by decide +kernel, ?_⟩
  intro hwhole
  have htext := hwhole.text
  revert htext
  decide +kernel

end Orchestra

end TextHarvest
