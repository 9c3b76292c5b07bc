import TextHarvest.Proofs.Translator.Alignment

/-!
# Batches come back whole

A translator that keeps the separating lines of a batch, with any number of blanks between their
marks, gives back the texts that it was asked for. The texts may be empty, and they may begin or
end with line feeds: only a mark behind a line feed begins a separating line, and the texts hold no
marks. So nothing is cut inside a text, and each separating line is cut exactly where it stands.

* `mark_of_separatorLength?` — where a separating line is found, its second character is a mark.
* `cut_joined` — cutting gives back the texts that were joined.
* `unpack_joined` — with more than one text, these are the texts without blanks at their ends.

Main result: `Orchestra.translate_joined`.
-/

namespace TextHarvest

namespace Batch

/-- A separating line with some blanks behind its first mark and some behind its second. -/
def spacedSeparator (a b : Nat) : String :=
  String.ofList (['\n', mark] ++ List.replicate a ' ' ++ [mark] ++ List.replicate b ' ' ++
    [mark, '\n'])

/-- Texts joined by separating lines, each with blanks of its own between its marks. -/
inductive Joined : List String → String → Prop
  | last (text : String) : Joined [text] text
  | cons (text : String) (a b : Nat) {texts : List String} {answer : String} :
    Joined texts answer → Joined (text :: texts) (text ++ spacedSeparator a b ++ answer)

/-! ## Where separating lines are found -/

/-- A separator has its mark behind the line break. -/
theorem mark_of_separatorLength? {cs : List Char} {n : Nat} (h : separatorLength? cs = some n) :
    cs[1]? = some mark := by
  unfold separatorLength? at h
  dsimp only at h
  split at h
  · split at h
    · split at h
      · split at h
        · -- only here is a length answered, and the line has the mark at its beginning
          rename_i hmarks
          simp only [Bool.and_eq_true, beq_iff_eq] at hmarks
          rw [hmarks.1.1]
          rfl
        · cases h
      · cases h
    · cases h
  · cases h

/-- No separating line begins inside a text without marks, whatever follows it, as long as that
does not begin with a mark. -/
theorem separatorLength?_of_not_mem {c : Char} {cs rest : List Char} (hfree : mark ∉ c :: cs)
    (hrest : rest.head? ≠ some mark) : separatorLength? (c :: cs ++ rest) = none := by
  rw [Option.eq_none_iff_forall_ne_some]
  intro n hn
  have hmark := mark_of_separatorLength? hn
  cases cs with
  | nil => exact hrest (by simpa [List.head?_eq_getElem?] using hmark)
  | cons c' cs =>
    have hsecond : c' = mark := by simpa using hmark
    exact hfree (by simp [hsecond])

theorem takeWhile_blanks (n : Nat) (rest : List Char) :
    (List.replicate n ' ' ++ mark :: rest).takeWhile (· == ' ') = List.replicate n ' ' := by
  rw [List.takeWhile_append_of_pos (by simp), List.takeWhile_cons_of_neg (by decide),
    List.append_nil]

/-- A separator with blanks around its mark is one. -/
theorem separatorLength?_spacedSeparator (a b : Nat) (rest : List Char) :
    separatorLength? ((spacedSeparator a b).toList ++ rest) = some (5 + a + b) := by
  have hline : (spacedSeparator a b).toList ++ rest = '\n' :: mark :: (List.replicate a ' ' ++
      mark :: (List.replicate b ' ' ++ mark :: '\n' :: rest)) := by
    simp [spacedSeparator]
  rw [hline]
  unfold separatorLength?
  simp only [takeWhile_blanks, List.drop_left]
  simp

theorem length_spacedSeparator (a b : Nat) : (spacedSeparator a b).toList.length = 5 + a + b := by
  simp [spacedSeparator]
  omega

/-! ## Cutting -/

/-- A text in which no separator begins goes into the piece. -/
theorem cutFrom_piece {length? : List Char → Option Nat} {cs rest : List Char}
    (hnone : ∀ c suf, c :: suf <:+ cs → length? (c :: suf ++ rest) = none) (piece : List Char)
    (acc : List (List Char)) :
    cutFrom length? (cs ++ rest) 0 piece acc =
      cutFrom length? rest 0 (cs.reverse ++ piece) acc := by
  induction cs generalizing piece with
  | nil => rfl
  | cons c cs ih =>
    have hhere : length? (c :: (cs ++ rest)) = none := hnone c cs List.suffix_rfl
    rw [List.cons_append, cutFrom, hhere]
    dsimp only
    rw [ih fun c' suf hsuf => hnone c' suf (hsuf.trans (List.suffix_cons c cs))]
    simp

/-- The characters of a separator that was found are passed over. -/
theorem cutFrom_skip (length? : List Char → Option Nat) (cs rest piece : List Char)
    (acc : List (List Char)) :
    cutFrom length? (cs ++ rest) cs.length piece acc = cutFrom length? rest 0 piece acc := by
  induction cs with
  | nil => rfl
  | cons c cs ih =>
    rw [List.cons_append, List.length_cons, cutFrom, ih]

/-- A separator ends the piece before it. -/
theorem cutFrom_separator {length? : List Char → Option Nat} {sep rest : List Char}
    (hne : sep ≠ []) (hsome : length? (sep ++ rest) = some sep.length) (piece : List Char)
    (acc : List (List Char)) :
    cutFrom length? (sep ++ rest) 0 piece acc =
      cutFrom length? rest 0 [] (piece.reverse :: acc) := by
  cases sep with
  | nil => exact absurd rfl hne
  | cons c cs =>
    rw [List.cons_append] at hsome ⊢
    rw [cutFrom, hsome]
    exact cutFrom_skip length? cs rest [] _

/-- Texts without a mark are cut apart where they were joined. -/
theorem cutFrom_joined {texts : List String} {answer : String} (h : Joined texts answer)
    (hfree : ∀ text ∈ texts, mark ∉ text.toList) (acc : List (List Char)) :
    cutFrom separatorLength? answer.toList 0 [] acc = acc.reverse ++ texts.map String.toList := by
  -- no separator starts within a text that is free of marks
  have hplain : ∀ {text : String} {rest : List Char}, mark ∉ text.toList →
      rest.head? ≠ some mark → ∀ c suf, c :: suf <:+ text.toList →
        separatorLength? (c :: suf ++ rest) = none := by
    intro text rest htext hrest c suf hsuf
    exact separatorLength?_of_not_mem (fun hmem => htext (hsuf.subset hmem)) hrest
  induction h generalizing acc with
  | last text =>
    have hnone : ∀ c suf, c :: suf <:+ text.toList →
        separatorLength? (c :: suf ++ []) = none :=
      hplain (hfree text List.mem_cons_self) (by simp)
    rw [← List.append_nil text.toList, cutFrom_piece hnone]
    simp [cutFrom]
  | cons text a b h ih =>
    rename_i texts answer
    have htext : mark ∉ text.toList := hfree text List.mem_cons_self
    have hline : ((spacedSeparator a b).toList ++ answer.toList).head? ≠ some mark := by
      simp [spacedSeparator, mark]
    rw [String.toList_append, String.toList_append, List.append_assoc,
      cutFrom_piece (hplain htext hline),
      cutFrom_separator (by simp [spacedSeparator])
        (by rw [separatorLength?_spacedSeparator, length_spacedSeparator]),
      ih fun t ht => hfree t (List.mem_cons_of_mem _ ht)]
    simp

/-- Cutting gives back the texts that were joined. -/
theorem cut_joined {texts : List String} {answer : String} (h : Joined texts answer)
    (hfree : ∀ text ∈ texts, mark ∉ text.toList) :
    cut separatorLength? answer.toList = texts.map String.toList :=
  cutFrom_joined h hfree []

/-- More than one text comes back as it is, but for the blanks at its ends. -/
theorem unpack_joined {texts : List String} {answer : String} (h : Joined texts answer)
    (hfree : ∀ text ∈ texts, mark ∉ text.toList) (htwo : 2 ≤ texts.length)
    (post : String → String) :
    unpack answer post = texts.map fun text => post (Text.trim text) := by
  unfold unpack
  dsimp only
  rw [cut_joined h hfree, List.length_map, if_pos (by omega), List.map_map]
  apply List.map_congr_left
  intro text htext
  rw [Function.comp_apply, String.ofList_toList]

end Batch

namespace Orchestra

/-- An issue of a batch that was answered tells of another number of texts. -/
theorem mismatch_of_mem_issuesFor {o : Orchestra} {lang answer : String} {count : Nat}
    {issue : Issue} (h : issue ∈ o.issuesFor lang count (.ok answer)) :
    (o.pieces lang answer).length ≠ count ∧
      issue = .mismatch lang count (o.pieces lang answer).length := by
  unfold issuesFor at h
  dsimp only at h
  split at h
  · cases h
  · rename_i hcount
    exact ⟨hcount, List.mem_singleton.mp h⟩

/-- The values of at least two texts come back without the blanks at their ends. -/
theorem pieces_joined {o : Orchestra} {lang answer : String} {group : List String}
    {f : String → String} (hpost : ∀ text, o.post text lang = text)
    (hfree : ∀ text ∈ group, Batch.mark ∉ (f text).toList)
    (hjoined : Batch.Joined (group.map f) answer) (htwo : 2 ≤ group.length) :
    o.pieces lang answer = group.map fun text => Text.trim (f text) := by
  have hvalues : ∀ value ∈ group.map f, Batch.mark ∉ value.toList := by
    intro value hvalue
    obtain ⟨text, htext, rfl⟩ := List.mem_map.mp hvalue
    exact hfree text htext
  rw [pieces, Batch.unpack_joined hjoined hvalues (by simpa using htwo), List.map_map]
  simp only [hpost]
  rfl

/-- Texts that are answered batch by batch, each by a value without marks, with the separating
lines kept but for blanks between their marks: a batch of at least two texts is cut into the values
of its texts without the blanks at their ends, which are stored in their places. Whatever is
reported is about a batch of one text. -/
theorem translate_joined {o : Orchestra} {d : Dispatch} {texts : List String}
    {fromLang toLang : String} {f : String → String}
    (hpost : ∀ text, o.post text toLang = text)
    (hfree : ∀ text ∈ texts, Batch.mark ∉ (f text).toList)
    (hreplies : ∀ i g, (Batch.groups texts o.translator.maxBatch)[i]? = some g →
      ∃ answer, o.reply d fromLang toLang i g = .ok answer ∧ Batch.Joined (g.map f) answer) :
    (∀ i g answer, (Batch.groups texts o.translator.maxBatch)[i]? = some g →
      o.reply d fromLang toLang i g = .ok answer → 2 ≤ g.length →
        Batch.unpack answer (o.post · toLang) = g.map (fun text => Text.trim (f text)) ∧
        ∀ j text, g[j]? = some text →
          (o.translate d texts fromLang toLang).texts[
            Batch.start (Batch.groups texts o.translator.maxBatch) i + j]? =
              some (Text.trim (f text))) ∧
      ∀ issue ∈ (o.translate d texts fromLang toLang).issues,
        ∃ found, issue = .mismatch toLang 1 found := by
  obtain ⟨-, hflat, hne⟩ := Batch.pack_groups texts o.translator.maxBatch
  -- a batch of at least two texts is cut into their values
  have hunpack : ∀ i g answer, (Batch.groups texts o.translator.maxBatch)[i]? = some g →
      o.reply d fromLang toLang i g = .ok answer → 2 ≤ g.length →
        o.pieces toLang answer = g.map fun text => Text.trim (f text) := by
    intro i g answer hg hreply htwo
    obtain ⟨answer', hreply', hjoined⟩ := hreplies i g hg
    obtain rfl : answer = answer' := by
      rw [hreply] at hreply'
      exact Except.ok.inj hreply'
    refine pieces_joined hpost ?_ hjoined htwo
    intro text htext
    apply hfree text
    rw [← hflat]
    exact List.mem_flatten.mpr ⟨g, List.mem_of_getElem? hg, htext⟩
  constructor
  · intro i g answer hg hreply htwo
    refine ⟨hunpack i g answer hg hreply htwo, ?_⟩
    intro j text htext
    have hj : j < g.length := (List.getElem?_eq_some_iff.mp htext).1
    rw [o.getElem?_translate d texts fromLang toLang hg hj, hreply, textFor,
      hunpack i g answer hg hreply htwo, List.getElem?_map, htext]
    rfl
  · intro issue hissue
    obtain ⟨i, g, hg, hmem⟩ := o.exists_batch_of_mem_issues d texts fromLang toLang hissue
    obtain ⟨answer, hreply, -⟩ := hreplies i g hg
    rw [hreply] at hmem
    obtain ⟨hcount, rfl⟩ := mismatch_of_mem_issuesFor hmem
    have hone : g.length = 1 := by
      by_contra hmany
      have hpos : 0 < g.length := List.length_pos_iff.mpr (hne g (List.mem_of_getElem? hg))
      apply hcount
      rw [hunpack i g answer hg hreply (by omega), List.length_map]
    exact ⟨_, by rw [hone]⟩

/-- A text between brackets, with a line feed behind it. -/
def bracketed (text : String) : String :=
  "[" ++ text ++ "]\n"

/-- A translator that puts texts between brackets and blanks between the marks. -/
def bracketing : Orchestra where
  translator :=
    { name := "bracketing"
      maxBatch := 12
      answer := fun n _ =>
        if n = 0 then .ok (bracketed "甲" ++ Batch.spacedSeparator 1 2 ++ bracketed "\n乙")
        else .ok (bracketed "丙") }

theorem translate_joined_bracketing :
    Batch.groups ["甲", "\n乙", "丙"] bracketing.translator.maxBatch = [["甲", "\n乙"], ["丙"]] ∧
      (bracketing.translate {} ["甲", "\n乙", "丙"] "zh-cn" "en").texts[0]? = some "[甲]" ∧
      (bracketing.translate {} ["甲", "\n乙", "丙"] "zh-cn" "en").texts[1]? = some "[\n乙]" ∧
      ∀ issue ∈ (bracketing.translate {} ["甲", "\n乙", "丙"] "zh-cn" "en").issues,
        ∃ found, issue = .mismatch "en" 1 found := by
  have hgroups : Batch.groups ["甲", "\n乙", "丙"] bracketing.translator.maxBatch =
      [["甲", "\n乙"], ["丙"]] := by
    decide +kernel
  have hfree : ∀ text ∈ ["甲", "\n乙", "丙"], Batch.mark ∉ (bracketed text).toList := by
    decide +kernel
  -- the replies join the translated texts, with blanks around the mark
  have hreplies : ∀ i g,
      (Batch.groups ["甲", "\n乙", "丙"] bracketing.translator.maxBatch)[i]? = some g →
      ∃ answer, bracketing.reply {} "zh-cn" "en" i g = .ok answer ∧
        Batch.Joined (g.map bracketed) answer := by
    rw [hgroups]
    intro i g hg
    match i with
    | 0 =>
      cases hg
      exact ⟨_, rfl, .cons _ 1 2 (.last _)⟩
    | 1 =>
      cases hg
      exact ⟨_, rfl, .last _⟩
  obtain ⟨hstored, hissues⟩ := translate_joined (o := bracketing) (fun _ => rfl) hfree hreplies
  have hfirst := (hstored 0 ["甲", "\n乙"] _ (by rw [hgroups]; rfl) rfl (by decide)).2
  refine ⟨hgroups, ?_, ?_, hissues⟩
  · exact (hfirst 0 "甲" rfl).trans (by decide +kernel)
  · exact (hfirst 1 "\n乙" rfl).trans (by decide +kernel)

end Orchestra

end TextHarvest
